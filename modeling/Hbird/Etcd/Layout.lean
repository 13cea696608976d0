import Hbird.Etcd.EncryptionConfig

namespace Hbird.Etcd

open Hbird.Text

def isComment (line : String) : Bool := startsWith (trimStart line) "#"

/-- No tab, no stray line end, no anchor for an alias to refer to. -/
def PlainLine (line : String) : Prop :=
  ∀ c ∈ line.toList, c ≠ '&' ∧ (isWhitespace c = true → c = ' ')

instance (line : String) : Decidable (PlainLine line) :=
  List.decidableBAll (fun c => c ≠ '&' ∧ (isWhitespace c = true → c = ' ')) line.toList

/-- A file around its aesgcm keys: what comes up to the entries, the entries, the rest. -/
structure Layout where
  head : List String
  groups : List (List String)
  tail : List String
  keysIndent : Nat
  entryIndent : Nat

namespace Layout

def lines (L : Layout) : List String := L.head ++ (L.groups.flatten ++ L.tail)

/-- The first provider of the file, its `keys:` line, and nothing but comments before the
entries. -/
structure Opens (keysIndent : Nat) (before : List String) (aes : String) (mid : List String)
    (keys : String) (gap : List String) : Prop where
  first : ∀ l ∈ before, isAesgcm l = false
  provider : isAesgcm aes = true
  inside : ∀ l ∈ mid, isBlank l = true ∨ indentOf aes < indentOf l ∧ trim l ≠ "keys:"
  under : indentOf aes < indentOf keys
  keyword : trim keys = "keys:"
  column : indentOf keys = keysIndent
  comments : ∀ l ∈ gap, isBlank l = true ∨ isComment l = true ∧ keysIndent < indentOf l

def IsHead (keysIndent : Nat) (head : List String) : Prop :=
  ∃ before aes mid keys gap, head = before ++ aes :: (mid ++ keys :: gap) ∧
    Opens keysIndent before aes mid keys gap

/-- An entry goes from its dash to the next one in the same column. -/
def IsGroup (keysIndent entryIndent : Nat) (group : List String) : Prop :=
  ∃ first rest, group = first :: rest ∧ isEntry first = true ∧ indentOf first = entryIndent ∧
    ∀ l ∈ rest, isBlank l = true ∨
      keysIndent < indentOf l ∧ ¬ (isEntry l = true ∧ indentOf l = entryIndent)

/-- The list ends where the text goes back to the left, and not with a comment in an entry. -/
structure IsTail (keysIndent : Nat) (tail : List String) : Prop where
  first : ∀ l ∈ tail.head?, isBlank l = false ∧ indentOf l ≤ keysIndent
  dedented : ∀ l ∈ (tail.dropWhile fun l => isBlank l || isComment l).head?, indentOf l ≤ keysIndent

structure Ok (L : Layout) : Prop where
  head : IsHead L.keysIndent L.head
  groups : ∀ g ∈ L.groups, IsGroup L.keysIndent L.entryIndent g
  tail : IsTail L.keysIndent L.tail
  columns : L.keysIndent < L.entryIndent
  plain : ∀ l ∈ L.lines, PlainLine l

end Layout

section Find

variable {k e i : Nat} {l : String} {ls rest gap tail : List String} {groups : List (List String)}

theorem isBlank_of_keys (h : trim l = "keys:") : isBlank l = false := by
  rw [isBlank, h]
  decide

theorem isBlank_of_startsWith {p : String} (h : startsWith (trimStart l) p = true) (c : Char)
    (cs : List Char) (hp : p.toList = c :: cs) (hc : isWhitespace c = false) : isBlank l = false := by
  rw [startsWith_iff, trimStart, String.toList_ofList, hp] at h
  obtain ⟨u, hu⟩ := h
  by_contra hb
  rw [Bool.not_eq_false, isBlank, beq_iff_eq, trim, ← hu] at hb
  have hnil := congrArg String.toList hb
  rw [String.toList_ofList, show "".toList = [] from String.toList_ofList,
    List.rdropWhile_eq_nil_iff] at hnil
  rw [hnil c (by simp)] at hc
  cases hc

theorem isEntry_of_isComment (h : isComment l = true) : isEntry l = false := by
  by_contra hn
  rw [Bool.not_eq_false] at hn
  obtain ⟨u, hu⟩ := startsWith_iff.mp h
  obtain ⟨v, hv⟩ := startsWith_iff.mp hn
  rw [← hv] at hu
  simp at hu

theorem findKeysLine_append {aesIndent : Nat}
    (hm : ∀ l ∈ rest, isBlank l = true ∨ aesIndent < indentOf l ∧ trim l ≠ "keys:")
    (hk : trim l = "keys:") (hi : aesIndent < indentOf l) :
    findKeysLine aesIndent (rest ++ l :: ls) = some rest.length := by
  induction rest with
  | nil => simp [findKeysLine, isBlank_of_keys hk, hk, Nat.not_le.mpr hi]
  | cons x rest ih =>
    obtain ⟨hx, hrest⟩ := List.forall_mem_cons.mp hm
    rw [List.cons_append, findKeysLine, ih hrest]
    obtain hb | ⟨hlt, hne⟩ := hx
    · simp [hb]
    · simp [Nat.not_le.mpr hlt, hne]

/-- The first lines of the groups, when the first group is at line `i`. -/
def starts : Nat → List (List String) → List Nat
  | _, [] => []
  | i, g :: gs => i :: starts (i + g.length) gs

theorem findEntries_gap (hg : ∀ l ∈ gap, isBlank l = true ∨ isComment l = true ∧ k < indentOf l) :
    findEntries k i none (gap ++ ls) = findEntries k (i + gap.length) none ls := by
  induction gap generalizing i with
  | nil => rfl
  | cons x gap ih =>
    obtain ⟨hx, hgap⟩ := List.forall_mem_cons.mp hg
    rw [List.cons_append, findEntries, ih hgap, List.length_cons, Nat.add_right_comm, Nat.add_assoc]
    obtain hb | ⟨hc, hlt⟩ := hx
    · simp [hb]
    · simp [isEntry_of_isComment hc, Nat.not_le.mpr hlt]

theorem findEntries_rest
    (hr : ∀ l ∈ rest, isBlank l = true ∨ k < indentOf l ∧ ¬ (isEntry l = true ∧ indentOf l = e)) :
    findEntries k i (some e) (rest ++ ls) = findEntries k (i + rest.length) (some e) ls := by
  induction rest generalizing i with
  | nil => rfl
  | cons x rest ih =>
    obtain ⟨hx, hrest⟩ := List.forall_mem_cons.mp hr
    rw [List.cons_append, findEntries, ih hrest, List.length_cons, Nat.add_right_comm, Nat.add_assoc]
    obtain hb | ⟨hlt, hne⟩ := hx
    · simp [hb]
    · have hne : ¬ (isEntry x = true ∧ e = indentOf x) := fun h => hne ⟨h.1, h.2.symm⟩
      simp [Nat.not_le.mpr hlt, hne]

theorem findEntries_tail (h : Layout.IsTail k tail) :
    findEntries k i (some e) tail = (some e, [], i) := by
  cases tail with
  | nil => rfl
  | cons l tail =>
    obtain ⟨hb, hle⟩ := h.first l rfl
    simp [findEntries, hb, hle]

theorem findEntries_first {column : Option Nat} (hc : column = none ∨ column = some e)
    (hk : k < e) (he : isEntry l = true) (hi : indentOf l = e) :
    findEntries k i column (l :: ls) =
      match findEntries k (i + 1) (some e) ls with
      | (column, entries, endLine) => (column, i :: entries, endLine) := by
  have hb : isBlank l = false := isBlank_of_startsWith he '-' [' '] String.toList_ofList (by decide)
  rw [findEntries, hb, hi]
  simp [Nat.not_le.mpr hk, he, hc]

/-- The scan finds the groups of a layout. -/
theorem findEntries_groups (hk : k < e) (hg : ∀ g ∈ groups, Layout.IsGroup k e g)
    (ht : Layout.IsTail k tail) : findEntries k i (some e) (groups.flatten ++ tail) =
      (some e, starts i groups, i + groups.flatten.length) := by
  induction groups generalizing i with
  | nil => exact findEntries_tail ht
  | cons g groups ih =>
    obtain ⟨⟨first, rest, rfl, he, hi, hrest⟩, hgs⟩ := List.forall_mem_cons.mp hg
    rw [List.flatten_cons, List.append_assoc, List.cons_append,
      findEntries_first (.inr rfl) hk he hi, findEntries_rest hrest, ih hgs]
    simp [starts, Nat.add_comm, Nat.add_left_comm, Nat.add_assoc]

theorem findEntries_groups_first (hk : k < e) (hg : ∀ g ∈ groups, Layout.IsGroup k e g)
    (ht : Layout.IsTail k tail) (hne : groups ≠ []) :
    findEntries k i none (groups.flatten ++ tail) =
      (some e, starts i groups, i + groups.flatten.length) := by
  cases groups with
  | nil => exact absurd rfl hne
  | cons g groups =>
    obtain ⟨first, rest, rfl, he, hi, hrest⟩ := hg g List.mem_cons_self
    rw [← findEntries_groups hk hg ht, List.flatten_cons, List.append_assoc, List.cons_append,
      findEntries_first (.inl rfl) hk he hi, findEntries_first (.inr rfl) hk he hi]

end Find

namespace Layout

variable {L : Layout} {k : Nat} {head ls : List String}

theorem findIdx?_append {p : String → Bool} {before : List String} {x : String}
    (h : ∀ l ∈ before, p l = false) (hx : p x = true) :
    (before ++ x :: ls).findIdx? p = some before.length := by
  induction before with
  | nil => simp [List.findIdx?_cons, hx]
  | cons y before ih =>
    obtain ⟨hy, hbefore⟩ := List.forall_mem_cons.mp h
    simp [List.findIdx?_cons, hy, ih hbefore]

/-- The code finds the list's opening, and scans what stands behind it. -/
theorem find_opens {before mid gap seq : List String} {aes keys : String}
    (ho : Opens k before aes mid keys gap) :
    findAesgcmKeysBlock (before ++ aes :: (mid ++ keys :: seq)) =
      (findEntries k (before.length + 1 + mid.length + 1) none seq).1.elim (.error emptyKeysList)
        fun entryIndent => .ok ⟨before.length + 1 + mid.length, entryIndent,
          (findEntries k (before.length + 1 + mid.length + 1) none seq).2.1,
          (findEntries k (before.length + 1 + mid.length + 1) none seq).2.2⟩ := by
  have hidx : (before ++ aes :: (mid ++ keys :: seq)).findIdx? isAesgcm = some before.length :=
    findIdx?_append ho.first ho.provider
  have haes : (before ++ aes :: (mid ++ keys :: seq)).getD before.length "" = aes := by simp
  have hdrop : (before ++ aes :: (mid ++ keys :: seq)).drop (before.length + 1) = mid ++ keys :: seq := by
    simp
  have hlines : before ++ aes :: (mid ++ keys :: seq) = (before ++ aes :: mid) ++ keys :: seq := by
    simp
  have hmid : before.length + 1 + mid.length = (before ++ aes :: mid).length := by
    simp
    omega
  have hkeys : (before ++ aes :: (mid ++ keys :: seq)).getD (before.length + 1 + mid.length) "" =
      keys := by
    rw [hlines, hmid]
    generalize before ++ aes :: mid = w
    simp
  have hdrop' : (before ++ aes :: (mid ++ keys :: seq)).drop (before.length + 1 + mid.length + 1) =
      seq := by
    rw [hlines, hmid]
    generalize before ++ aes :: mid = w
    simp
  simp only [findAesgcmKeysBlock, hidx, haes, hdrop,
    findKeysLine_append ho.inside ho.keyword ho.under, hkeys, ho.column, hdrop']
  obtain ⟨_ | _, _, _⟩ := findEntries k (before.length + 1 + mid.length + 1) none seq <;> rfl

/-- The code finds the parts of a layout that has entries. -/
theorem find_lines (h : L.Ok) (hne : L.groups ≠ []) : ∃ keysLine, findAesgcmKeysBlock L.lines =
    .ok ⟨keysLine, L.entryIndent, starts L.head.length L.groups,
      L.head.length + L.groups.flatten.length⟩ := by
  obtain ⟨before, aes, mid, keys, gap, hhead, ho⟩ := h.head
  refine ⟨before.length + 1 + mid.length, ?_⟩
  have hlines : L.lines = before ++ aes :: (mid ++ keys :: (gap ++ (L.groups.flatten ++ L.tail))) := by
    rw [lines, hhead]
    simp
  have hlen : L.head.length = before.length + 1 + mid.length + 1 + gap.length := by
    rw [hhead]
    simp
    omega
  rw [hlines, find_opens ho, findEntries_gap ho.comments,
    findEntries_groups_first h.columns h.groups h.tail hne, ← hlen]
  rfl

/-- The layout with another list of entries. -/
def withGroups (L : Layout) (groups : List (List String)) : Layout := { L with groups := groups }

theorem Ok.withGroups (h : L.Ok) {groups : List (List String)}
    (hg : ∀ g ∈ groups, IsGroup L.keysIndent L.entryIndent g)
    (hp : ∀ g ∈ groups, ∀ l ∈ g, PlainLine l) : (L.withGroups groups).Ok where
  head := h.head
  groups := hg
  tail := h.tail
  columns := h.columns
  plain := by
    intro l hl
    obtain hl | hl := List.mem_append.mp hl
    · exact h.plain l (List.mem_append_left _ hl)
    · obtain hl | hl := List.mem_append.mp hl
      · obtain ⟨g, hg, hl⟩ := List.mem_flatten.mp hl
        exact hp g hg l hl
      · exact h.plain l (List.mem_append_right _ (List.mem_append_right _ hl))

theorem Ok.plain_group (h : L.Ok) {g : List String} (hg : g ∈ L.groups) : ∀ l ∈ g, PlainLine l :=
  fun l hl => h.plain l (List.mem_append_right _
    (List.mem_append_left _ (List.mem_flatten.mpr ⟨g, hg, hl⟩)))

theorem oneLine_of_plainLine {l : String} (h : PlainLine l) : OneLine l := by
  constructor <;> intro hc <;> exact absurd ((h _ hc).2 (by decide)) (by decide)

theorem trimStart_pad {n : Nat} {s : String} {c : Char} {cs : List Char} (hs : s.toList = c :: cs)
    (hc : isWhitespace c = false) : trimStart (pad n ++ s) = s := by
  have hspace : isWhitespace ' ' = true := by decide
  rw [trimStart, String.toList_append, pad, String.toList_ofList]
  have hdrop : (List.replicate n ' ' ++ s.toList).dropWhile isWhitespace = s.toList := by
    induction n with
    | zero => simp [hs, hc]
    | succ n ih => simpa [List.replicate_succ, hspace] using ih
  rw [hdrop, String.ofList_toList]

theorem indentOf_pad {n : Nat} {s : String} {c : Char} {cs : List Char} (hs : s.toList = c :: cs)
    (hc : isWhitespace c = false) : indentOf (pad n ++ s) = n := by
  have hspace : isWhitespace ' ' = true := by decide
  rw [indentOf, String.toList_append, pad, String.toList_ofList]
  induction n with
  | zero => simp [hs, hc]
  | succ n ih =>
    rw [List.replicate_succ, List.cons_append, List.takeWhile_cons, hspace]
    simp only [if_true, List.map_cons, List.sum_cons, ih]
    exact Nat.add_comm 1 n

theorem pad_add_two (n : Nat) (s : String) : pad n ++ "  " ++ s = pad (n + 2) ++ s := by
  have hpad : pad (n + 2) = pad n ++ "  " := by
    rw [pad, List.replicate_add, String.ofList_append]
    rfl
  rw [hpad]

end Layout

end Hbird.Etcd
