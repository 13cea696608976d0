import Hbird.Etcd.Layout

namespace Hbird.Etcd

open Hbird.Text

structure Key where
  name : String
  secret : String
  deriving DecidableEq, Repr

/-- How the apiserver takes the keys from the lines of a config file. The first one encrypts. -/
structure Reader where
  keys : List String → List Key
  /-- The lines up to the entries open the key list of an aesgcm provider. -/
  opens : List String → Prop
  entry : List String → List Key
  before : List String → List Key
  after : List String → List Key

/-- What YAML says of a block sequence of mappings. -/
structure Reader.Lawful (reader : Reader) : Prop where
  list : ∀ L : Layout, L.Ok → L.groups ≠ [] → reader.opens L.head → reader.keys L.lines =
    reader.before L.head ++ (L.groups.flatMap reader.entry ++ reader.after L.tail)
  written : ∀ (column epochSecs : Nat) (bytes : KeyBytes),
    reader.entry (keyEntry column (rotationKeyName epochSecs) (base64Encode bytes.1)) =
      [⟨rotationKeyName epochSecs, base64Encode bytes.1⟩]
  lastBlank : ∀ ls, reader.keys (ls ++ [""]) = reader.keys ls

namespace Reader

def keysOf (reader : Reader) (text : String) : List Key := reader.keys (lines text)

def primary (reader : Reader) (text : String) : Option Key := (reader.keysOf text).head?

/-- The text is laid out as `L`, with at least one entry. -/
structure Reads (reader : Reader) (text : String) (L : Layout) : Prop where
  lines : Text.lines text = L.lines
  ok : L.Ok
  entries : L.groups ≠ []
  opens : reader.opens L.head

variable {reader : Reader} {text : String} {L : Layout}

theorem Reads.keysOf (h : reader.Reads text L) (hr : reader.Lawful) : reader.keysOf text =
    reader.before L.head ++ (L.groups.flatMap reader.entry ++ reader.after L.tail) := by
  rw [Reader.keysOf, h.lines]
  exact hr.list L h.ok h.entries h.opens

theorem isKeyChar_range {c : Char} (h : isKeyChar c = true) : 43 ≤ c.toNat ∧ c.toNat ≤ 122 := by
  simp only [isKeyChar, Char.isAlphanum, Char.isAlpha, Char.isUpper, Char.isLower, Char.isDigit,
    Bool.or_eq_true, Bool.and_eq_true, decide_eq_true_eq, beq_iff_eq, ge_iff_le, UInt32.le_iff_toNat_le] at h
  have hv : c.val.toNat = c.toNat := rfl
  rw [hv] at h
  obtain (((h | rfl) | rfl) | rfl) | rfl := h
  · simp at h
    omega
  all_goals decide

theorem isKeyChar_plain {c : Char} (h : isKeyChar c = true) :
    c ≠ '&' ∧ (isWhitespace c = true → c = ' ') := by
  obtain ⟨hlo, hhi⟩ := isKeyChar_range h
  constructor
  · rintro rfl
    exact absurd hlo (by decide)
  · intro hw
    simp only [isWhitespace, Bool.or_eq_true, Bool.and_eq_true, decide_eq_true_eq, beq_iff_eq] at hw
    omega

theorem plainLine_append {s t : String} (hs : PlainLine s) (ht : PlainLine t) :
    PlainLine (s ++ t) := by
  intro c hc
  rw [String.toList_append] at hc
  exact (List.mem_append.mp hc).elim (hs c) (ht c)

theorem plainLine_pad {n : Nat} : PlainLine (pad n) := by
  intro c hc
  rw [pad, String.toList_ofList] at hc
  obtain rfl := List.eq_of_mem_replicate hc
  exact ⟨by decide, fun _ => rfl⟩

theorem plainLine_keyEntry {column epochSecs : Nat} {bytes : KeyBytes} :
    ∀ l ∈ keyEntry column (rotationKeyName epochSecs) (base64Encode bytes.1), PlainLine l := by
  have hname : PlainLine "- name: " := by decide
  have hsecret : PlainLine "  secret: " := by decide
  intro l hl
  simp only [keyEntry, List.mem_cons, List.not_mem_nil, or_false] at hl
  obtain rfl | rfl := hl
  · exact plainLine_append (plainLine_append plainLine_pad hname)
      fun c hc => isKeyChar_plain (isKeyChar_rotationKeyName hc)
  · exact plainLine_append (plainLine_append plainLine_pad hsecret)
      fun c hc => isKeyChar_plain (isKeyChar_base64Encode hc)

theorem toList_name (name : String) : ("- name: " ++ name).toList =
    '-' :: ' ' :: 'n' :: 'a' :: 'm' :: 'e' :: ':' :: ' ' :: name.toList := by
  rw [String.toList_append]
  rfl

theorem toList_secret (secret : String) : ("secret: " ++ secret).toList =
    's' :: 'e' :: 'c' :: 'r' :: 'e' :: 't' :: ':' :: ' ' :: secret.toList := by
  rw [String.toList_append]
  rfl

theorem keyEntry_eq {column : Nat} {name secret : String} : keyEntry column name secret =
    [pad column ++ ("- name: " ++ name), pad (column + 2) ++ ("secret: " ++ secret)] := by
  have hsecond : pad column ++ "  secret: " ++ secret = pad (column + 2) ++ ("secret: " ++ secret) := by
    rw [← Layout.pad_add_two, String.append_assoc, String.append_assoc]
    congr 1
  rw [keyEntry, hsecond, String.append_assoc]

/-- What the rotation writes is an entry in the column of the others. -/
theorem isGroup_keyEntry {k column : Nat} {name secret : String} (h : k < column) :
    Layout.IsGroup k column (keyEntry column name secret) := by
  rw [keyEntry_eq]
  refine ⟨_, _, rfl, ?_, Layout.indentOf_pad (toList_name name) (by decide), ?_⟩
  · rw [isEntry, Layout.trimStart_pad (toList_name name) (by decide), startsWith_iff, toList_name]
    exact ⟨_, rfl⟩
  · intro l hl
    obtain rfl := List.mem_singleton.mp hl
    refine .inr ⟨?_, fun he => ?_⟩
    · rw [Layout.indentOf_pad (toList_secret secret) (by decide)]
      omega
    · obtain ⟨hs, -⟩ := he
      rw [isEntry, Layout.trimStart_pad (toList_secret secret) (by decide), startsWith_iff,
        toList_secret] at hs
      obtain ⟨u, hu⟩ := hs
      simp at hu

/-- Lines put together for the original are read back, but for a last blank one. -/
theorem lines_joined {ls : List String} (text : String) (h : ∀ l ∈ ls, OneLine l) (hne : ls ≠ []) :
    Text.lines (joined ls text) = ls ∨ (Text.lines text).getLast? ≠ some "" ∧
      ∃ ls', ls = ls' ++ [""] ∧ Text.lines (joined ls text) = ls' := by
  obtain ⟨h₁, h₂⟩ := lines_intercalate h hne
  rw [joined]
  by_cases hn : text.toList.getLast? = some '\n'
  · rw [if_pos hn]
    exact .inl h₁
  · rw [if_neg hn, String.append_empty]
    exact h₂.imp id fun h => ⟨getLast?_lines hn, h⟩

theorem Reads.insert (h : reader.Reads text L) (epochSecs : Nat) (bytes : KeyBytes) :
    ∃ dual, insertPrimaryKey text (rotationKeyName epochSecs) (base64Encode bytes.1) = .ok dual ∧
      reader.Reads dual (L.withGroups
        (keyEntry L.entryIndent (rotationKeyName epochSecs) (base64Encode bytes.1) :: L.groups)) := by
  set entry := keyEntry L.entryIndent (rotationKeyName epochSecs) (base64Encode bytes.1) with hentry
  have hok : (L.withGroups (entry :: L.groups)).Ok := by
    refine h.ok.withGroups (List.forall_mem_cons.mpr ⟨isGroup_keyEntry h.ok.columns, h.ok.groups⟩)
      (List.forall_mem_cons.mpr ⟨plainLine_keyEntry, fun g hg => h.ok.plain_group hg⟩)
  obtain ⟨keysLine, hfind⟩ := Layout.find_lines h.ok h.entries
  have hhead : (starts L.head.length L.groups).head? = some L.head.length := by
    cases hg : L.groups with
    | nil => exact absurd hg h.entries
    | cons g gs => rfl
  have hlines : L.lines.take L.head.length ++ entry ++ L.lines.drop L.head.length =
      (L.withGroups (entry :: L.groups)).lines := by
    simp [Layout.lines, Layout.withGroups]
  refine ⟨joined (L.withGroups (entry :: L.groups)).lines text, ?_, ?_, hok, by
    simp [Layout.withGroups], h.opens⟩
  · rw [insertPrimaryKey, h.lines, hfind, ← hlines]
    simp only [bind, Except.bind, hhead, hentry]
  · obtain hl | ⟨hlast, ls, he, -⟩ := lines_joined text (fun l hl => Layout.oneLine_of_plainLine (hok.plain l hl)) (by
      simp [Layout.lines, Layout.withGroups, hentry, keyEntry])
    · exact hl
    · refine absurd ?_ hlast
      have hrest : L.groups.flatten ++ L.tail ≠ [] := by
        cases hg : L.groups with
        | nil => exact absurd hg h.entries
        | cons g gs =>
          obtain ⟨first, rest, rfl, -⟩ := h.ok.groups g (by simp [hg])
          simp
      have hlast' : (L.withGroups (entry :: L.groups)).lines.getLast? = L.lines.getLast? := by
        rw [Layout.lines, Layout.lines, Layout.withGroups, List.flatten_cons, List.append_assoc,
          ← List.append_assoc, List.getLast?_append_of_ne_nil _ hrest,
          List.getLast?_append_of_ne_nil _ hrest]
      rw [h.lines, ← hlast', he]
      simp

theorem isGroup_dropBlank {k column : Nat} {g : List String}
    (h : Layout.IsGroup k column (g ++ [""])) : Layout.IsGroup k column g := by
  obtain ⟨first, rest, hg, he, hi, hrest⟩ := h
  cases g with
  | nil =>
    obtain ⟨rfl, -⟩ := List.cons.inj hg
    exact absurd he (by decide)
  | cons l g =>
    obtain ⟨rfl, rfl⟩ := List.cons.inj hg
    exact ⟨l, g, rfl, he, hi, fun x hx => hrest x (List.mem_append_left _ hx)⟩

/-- Only the first entry is kept, and it is still the same key. -/
theorem Reads.drop (h : reader.Reads text L) (hr : reader.Lawful) {g : List String}
    {gs : List (List String)} (hg : L.groups = g :: gs) :
    ∃ final g', dropNonPrimaryKeys text = .ok final ∧
      reader.Reads final (L.withGroups [g']) ∧ reader.entry g' = reader.entry g := by
  obtain ⟨keysLine, hfind⟩ := Layout.find_lines h.ok h.entries
  have hmem : g ∈ L.groups := by simp [hg]
  have hgroup := h.ok.groups g hmem
  have hplain := h.ok.plain_group hmem
  have hwith : ∀ g', Layout.IsGroup L.keysIndent L.entryIndent g' → (∀ l ∈ g', PlainLine l) →
      (L.withGroups [g']).Ok := fun g' hi hp => h.ok.withGroups (by simpa using hi) (by simpa using hp)
  have hdef : dropNonPrimaryKeys text = (starts L.head.length L.groups)[1]?.elim (.ok text)
      fun second => .ok (joined (L.lines.take second ++
        L.lines.drop (L.head.length + L.groups.flatten.length)) text) := by
    rw [dropNonPrimaryKeys, h.lines, hfind]
    simp only [bind, Except.bind]
    cases (starts L.head.length L.groups)[1]? <;> rfl
  cases gs with
  | nil =>
    refine ⟨text, g, ?_, ⟨?_, ?_, by simp [Layout.withGroups], h.opens⟩, rfl⟩
    · rw [hdef, hg]
      rfl
    · rw [h.lines, Layout.withGroups, ← hg]
    · rw [Layout.withGroups, ← hg]
      exact h.ok
  | cons g₂ gs =>
    have hok := hwith g hgroup hplain
    have hlines : L.lines.take (L.head.length + g.length) ++
        L.lines.drop (L.head.length + L.groups.flatten.length) = (L.withGroups [g]).lines := by
      have h₁ : L.lines = (L.head ++ g) ++ ((g₂ :: gs).flatten ++ L.tail) := by
        simp [Layout.lines, hg]
      have h₂ : L.lines = (L.head ++ L.groups.flatten) ++ L.tail := by simp [Layout.lines]
      have htake : L.lines.take (L.head.length + g.length) = L.head ++ g := by
        rw [h₁, ← List.length_append, List.take_left]
      have hdrop : L.lines.drop (L.head.length + L.groups.flatten.length) = L.tail := by
        rw [h₂, ← List.length_append, List.drop_left]
      rw [htake, hdrop]
      simp [Layout.lines, Layout.withGroups]
    have hsecond : (starts L.head.length L.groups)[1]? = some (L.head.length + g.length) := by
      rw [hg]
      rfl
    rw [hsecond] at hdef
    have hdrop : dropNonPrimaryKeys text = .ok (joined (L.withGroups [g]).lines text) := by
      rw [hdef, Option.elim_some, ← hlines]
    obtain ⟨first, rest, hfirst, -⟩ := hgroup
    have hne : (L.withGroups [g]).lines ≠ [] := by
      simp [Layout.lines, Layout.withGroups, hfirst]
    obtain hl | ⟨hlast, ls, hls, hl⟩ := lines_joined text
      (fun l hl => Layout.oneLine_of_plainLine (hok.plain l hl)) hne
    · exact ⟨_, g, hdrop, ⟨hl, hok, by simp [Layout.withGroups], h.opens⟩, rfl⟩
    · -- The text ended with the dropped entries, and a blank line stood before them.
      have htail : L.tail = [] := by
        by_contra htail
        have hlast' : (L.withGroups [g]).lines.getLast? = L.lines.getLast? := by
          simp only [Layout.lines, Layout.withGroups, ← List.append_assoc]
          rw [List.getLast?_append_of_ne_nil _ htail, List.getLast?_append_of_ne_nil _ htail]
        refine hlast ?_
        rw [h.lines, ← hlast', hls]
        simp
      have hgls : L.head ++ g = ls ++ [""] := by
        rw [← hls]
        simp [Layout.lines, Layout.withGroups, htail]
      have hgne : g ≠ [] := by simp [hfirst]
      have hglast : g.dropLast ++ [g.getLast hgne] = g := List.dropLast_append_getLast hgne
      rw [← hglast, ← List.append_assoc] at hgls
      obtain ⟨hlshead, hblank⟩ := List.append_inj' hgls rfl
      rw [List.singleton_inj.mp hblank] at hglast
      have hgroup' := isGroup_dropBlank (hglast.symm ▸ h.ok.groups g hmem)
      have hok' := hwith g.dropLast hgroup' fun l hl => hplain l (List.mem_of_mem_dropLast hl)
      have hlines' : (L.withGroups [g.dropLast]).lines = ls := by
        rw [← hlshead]
        simp [Layout.lines, Layout.withGroups, htail]
      refine ⟨_, g.dropLast, hdrop, ⟨by rw [hl, hlines'], hok', by simp [Layout.withGroups],
        h.opens⟩, ?_⟩
      have hkeys := hr.list _ hok (by simp [Layout.withGroups]) h.opens
      have hkeys' := hr.list _ hok' (by simp [Layout.withGroups]) h.opens
      rw [hlines'] at hkeys'
      rw [hls, hr.lastBlank, hkeys'] at hkeys
      simpa [Layout.withGroups] using hkeys

end Reader

end Hbird.Etcd
