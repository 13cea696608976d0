import Hbird.Etcd.KeyReader

namespace Hbird.Etcd

open Hbird.Text

/-- A line that a YAML reader takes notice of. -/
def isContent (line : String) : Bool := !isBlank line && !isComment line

def content (ls : List String) : List String := ls.filter isContent

/-- The dash of an entry, alone on its line or with a blank behind it. -/
def isDash (line : String) : Bool :=
  trimStart line == "-" || startsWith (trimStart line) "- " || startsWith (trimStart line) "-\t"

/-- The lines before the first dash in a column, and the entries that begin there; the sequence
ends where the text goes back to the left of the column. -/
def entriesFrom (column : Nat) : List String → List String × List (List String)
  | [] => ([], [])
  | l :: ls =>
    if column < indentOf l then
      (l :: (entriesFrom column ls).1, (entriesFrom column ls).2)
    else if isDash l ∧ indentOf l = column then
      ([], (l :: (entriesFrom column ls).1) :: (entriesFrom column ls).2)
    else ([], [])

/-- The key list of the first aesgcm provider, by what `entry` reads in the content of an entry. -/
def keyList {κ : Type} (entry : List String → κ) (ls : List String) : Option (List κ) :=
  match (content ls).dropWhile fun l => !isAesgcm l with
  | [] => none
  | aes :: rest =>
    match (rest.takeWhile fun l => indentOf aes < indentOf l).dropWhile fun l => trim l != "keys:" with
    | [] => none
    | [_] => none
    | keys :: first :: seq =>
      if isDash first ∧ indentOf keys ≤ indentOf first then
        some ((entriesFrom (indentOf first) (first :: seq)).2.map entry)
      else none

/-- A file with a block list of keys, cut into its parts; comments and blank lines stand anywhere. -/
structure Source where
  before : List String
  aesLine : String
  mid : List String
  keysLine : String
  gap : List String
  items : List (List String)
  column : Nat
  tail : List String

namespace Source

variable {Y : Source} {κ : Type} {entry : List String → κ}

/-- What stands before the list. -/
def head (Y : Source) : List String :=
  Y.before ++ Y.aesLine :: (Y.mid ++ Y.keysLine :: Y.gap)

def lines (Y : Source) : List String := Y.head ++ (Y.items.flatten ++ Y.tail)

/-- An entry begins with its dash, and its content stays to the right of that. -/
def IsItem (column : Nat) (item : List String) : Prop :=
  ∃ first rest, item = first :: rest ∧ isDash first = true ∧ indentOf first = column ∧
    ∀ l ∈ rest, isContent l = true → column < indentOf l

/-- The layout that YAML asks of a block sequence under `keys:` in the aesgcm provider. -/
structure Valid (Y : Source) : Prop where
  first : ∀ l ∈ Y.before, isAesgcm l = false
  provider : isAesgcm Y.aesLine = true
  inside : ∀ l ∈ Y.mid, isContent l = true → indentOf Y.aesLine < indentOf l ∧ trim l ≠ "keys:"
  under : indentOf Y.aesLine < indentOf Y.keysLine
  keyword : trim Y.keysLine = "keys:"
  gap : ∀ l ∈ Y.gap, isContent l = false
  entries : Y.items ≠ []
  items : ∀ item ∈ Y.items, IsItem Y.column item
  columns : indentOf Y.keysLine ≤ Y.column
  tail : ∀ l ∈ Y.tail.head?, isContent l = true ∧ indentOf l ≤ indentOf Y.keysLine ∧
    ¬ (isDash l = true ∧ indentOf l = Y.column)
  oneLine : ∀ l ∈ Y.lines, OneLine l

end Source

section Content

variable {l : String} {ls : List String} {column : Nat} {items : List (List String)}

theorem content_append (ls ls' : List String) : content (ls ++ ls') = content ls ++ content ls' :=
  List.filter_append ..

theorem content_cons (h : isContent l = true) : content (l :: ls) = l :: content ls :=
  List.filter_cons_of_pos h

theorem content_eq_nil : content ls = [] ↔ ∀ l ∈ ls, isContent l = false := by
  simp [content]

theorem isBlank_of_isContent (h : isContent l = true) : isBlank l = false := by
  simp only [isContent, Bool.and_eq_true, Bool.not_eq_true'] at h
  exact h.1

/-- A line whose text begins with a character that is neither white space nor the sign of a
comment. -/
theorem isContent_of_startsWith {p : String} (h : startsWith (trimStart l) p = true) (c : Char)
    (cs : List Char) (hp : p.toList = c :: cs) (hc : isWhitespace c = false) (hash : c ≠ '#') :
    isContent l = true := by
  have hcomment : isComment l = false := by
    by_contra hn
    rw [Bool.not_eq_false] at hn
    obtain ⟨u, hu⟩ := startsWith_iff.mp h
    obtain ⟨v, hv⟩ := startsWith_iff.mp hn
    rw [hp, ← hv] at hu
    exact hash (List.cons.inj hu).1
  rw [isContent, isBlank_of_startsWith h c cs hp hc, hcomment]
  rfl

theorem isContent_of_isEntry (h : isEntry l = true) : isContent l = true :=
  isContent_of_startsWith h '-' [' '] String.toList_ofList (by decide) (by decide)

theorem isContent_of_isDash (h : isDash l = true) : isContent l = true := by
  simp only [isDash, Bool.or_eq_true, beq_iff_eq] at h
  obtain (h | h) | h := h
  · refine isContent_of_startsWith (p := "-") ?_ '-' [] String.toList_ofList (by decide) (by decide)
    rw [h]
    decide
  · exact isContent_of_startsWith h '-' [' '] String.toList_ofList (by decide) (by decide)
  · exact isContent_of_startsWith h '-' ['\t'] String.toList_ofList (by decide) (by decide)

theorem isContent_of_isAesgcm (h : isAesgcm l = true) : isContent l = true := by
  have hletter : ∀ t : String, startsWith t "aesgcm:" = true → ∃ cs, t.toList = 'a' :: cs := by
    intro t ht
    obtain ⟨u, hu⟩ := startsWith_iff.mp ht
    exact ⟨_, hu.symm⟩
  by_cases hd : startsWith (trimStart l) "- " = true
  · exact isContent_of_isEntry hd
  · have hstrip : stripDash (trimStart l) = trimStart l := by
      rw [stripDash]
      split
      · next rest hrest =>
        refine absurd (startsWith_iff.mpr ⟨rest, ?_⟩) hd
        rw [hrest]
        rfl
      · rfl
    rw [isAesgcm, hstrip] at h
    exact isContent_of_startsWith h 'a' _ rfl (by decide) (by decide)

theorem isContent_of_keys (h : trim l = "keys:") : isContent l = true := by
  have hp : startsWith (trimStart l) "keys:" = true := by
    rw [startsWith_iff, ← h, trim, trimStart, String.toList_ofList, String.toList_ofList]
    exact List.rdropWhile_prefix _ _
  exact isContent_of_startsWith hp 'k' _ rfl (by decide) (by decide)

theorem entriesFrom_rest {rest : List String} (h : ∀ l ∈ rest, column < indentOf l) :
    entriesFrom column (rest ++ ls) = (rest ++ (entriesFrom column ls).1, (entriesFrom column ls).2) := by
  induction rest with
  | nil => rfl
  | cons l rest ih =>
    obtain ⟨hl, hrest⟩ := List.forall_mem_cons.mp h
    rw [List.cons_append, entriesFrom, if_pos hl, ih hrest]
    rfl

theorem entriesFrom_stop (h : ∀ l ∈ ls.head?, indentOf l ≤ column ∧
    ¬ (isDash l = true ∧ indentOf l = column)) : entriesFrom column ls = ([], []) := by
  cases ls with
  | nil => rfl
  | cons l ls =>
    obtain ⟨hle, hdash⟩ := h l rfl
    rw [entriesFrom, if_neg (Nat.not_lt.mpr hle), if_neg hdash]

/-- The entries are read back from their content. -/
theorem entriesFrom_items (hi : ∀ item ∈ items, Source.IsItem column item)
    (hs : ∀ l ∈ ls.head?, indentOf l ≤ column ∧ ¬ (isDash l = true ∧ indentOf l = column)) :
    entriesFrom column (items.flatMap content ++ ls) = ([], items.map content) := by
  induction items with
  | nil => exact entriesFrom_stop hs
  | cons item items ih =>
    obtain ⟨⟨first, rest, rfl, hdash, hcolumn, hrest⟩, hitems⟩ := List.forall_mem_cons.mp hi
    have hcontent : ∀ l ∈ content rest, column < indentOf l := by
      intro l hl
      obtain ⟨hmem, hc⟩ := List.mem_filter.mp hl
      exact hrest l hmem hc
    rw [List.flatMap_cons, content_cons (isContent_of_isDash hdash), List.cons_append,
      List.cons_append, List.append_assoc, entriesFrom, if_neg (by omega), if_pos ⟨hdash, hcolumn⟩,
      entriesFrom_rest hcontent, ih hitems]
    simp [content_cons (isContent_of_isDash hdash)]

end Content

namespace Source

variable {Y : Source} {κ : Type} {entry : List String → κ}

theorem content_flatten (items : List (List String)) :
    content items.flatten = items.flatMap content := by
  induction items with
  | nil => rfl
  | cons item items ih => rw [List.flatten_cons, content_append, ih, List.flatMap_cons]

theorem Valid.content_head (h : Y.Valid) : content Y.head =
    content Y.before ++ Y.aesLine :: (content Y.mid ++ [Y.keysLine]) := by
  rw [head, content_append, content_cons (isContent_of_isAesgcm h.provider), content_append,
    content_cons (isContent_of_keys h.keyword), content_eq_nil.mpr h.gap]

theorem Valid.content_tail (h : Y.Valid) : (content Y.tail).head? = Y.tail.head? := by
  cases ht : Y.tail with
  | nil => rfl
  | cons l ls =>
    obtain ⟨hc, -⟩ := h.tail l (by rw [ht]; rfl)
    rw [content_cons hc]
    rfl

theorem Valid.indent_content (h : Y.Valid) :
    ∀ l ∈ Y.items.flatMap content, indentOf Y.aesLine < indentOf l := by
  intro l hl
  obtain ⟨item, hitem, hl⟩ := List.mem_flatMap.mp hl
  obtain ⟨hmem, hc⟩ := List.mem_filter.mp hl
  obtain ⟨first, rest, rfl, -, hcolumn, hrest⟩ := h.items item hitem
  have hunder := h.under
  have hcolumns := h.columns
  obtain rfl | hmem := List.mem_cons.mp hmem
  · omega
  · have hright := hrest l hmem hc
    omega

/-- What a reader sees of the list is what the entries say. -/
theorem Valid.keyList_lines (h : Y.Valid) :
    keyList entry Y.lines = some (Y.items.map fun item => entry (content item)) := by
  have hlist : content Y.lines = content Y.before ++ Y.aesLine :: (content Y.mid ++
      Y.keysLine :: (Y.items.flatMap content ++ content Y.tail)) := by
    rw [lines, content_append, content_append, h.content_head, content_flatten]
    simp
  have hbefore : (content Y.lines).dropWhile (fun l => !isAesgcm l) = Y.aesLine ::
      (content Y.mid ++ Y.keysLine :: (Y.items.flatMap content ++ content Y.tail)) := by
    rw [hlist, List.dropWhile_append_of_pos, List.dropWhile_cons_of_neg]
    · simp [h.provider]
    · intro l hl
      simp [h.first l (List.mem_of_mem_filter hl)]
  obtain ⟨tail, htail, hhead⟩ : ∃ tail,
      (content Y.mid ++ Y.keysLine :: (Y.items.flatMap content ++ content Y.tail)).takeWhile
        (fun l => indentOf Y.aesLine < indentOf l) =
      content Y.mid ++ Y.keysLine :: (Y.items.flatMap content ++ tail) ∧
      ∀ l ∈ tail.head?, l ∈ Y.tail.head? := by
    refine ⟨(content Y.tail).takeWhile fun l => indentOf Y.aesLine < indentOf l, ?_, ?_⟩
    · rw [List.takeWhile_append_of_pos, List.takeWhile_cons_of_pos, List.takeWhile_append_of_pos]
      · exact fun l hl => by simpa using h.indent_content l hl
      · simpa using h.under
      · intro l hl
        obtain ⟨hmem, hc⟩ := List.mem_filter.mp hl
        simpa using (h.inside l hmem hc).1
    · intro l hl
      rw [← h.content_tail]
      cases hct : content Y.tail with
      | nil =>
        rw [hct] at hl
        cases hl
      | cons x xs =>
        rw [hct, List.takeWhile_cons] at hl
        split_ifs at hl
        · exact hl
        · cases hl
  have hkeys : (content Y.mid ++ Y.keysLine :: (Y.items.flatMap content ++ tail)).dropWhile
      (fun l => trim l != "keys:") = Y.keysLine :: (Y.items.flatMap content ++ tail) := by
    rw [List.dropWhile_append_of_pos, List.dropWhile_cons_of_neg]
    · simp [h.keyword]
    · intro l hl
      obtain ⟨hmem, hc⟩ := List.mem_filter.mp hl
      simpa using (h.inside l hmem hc).2
  have hstop : ∀ l ∈ tail.head?, indentOf l ≤ Y.column ∧ ¬ (isDash l = true ∧ indentOf l = Y.column) := by
    intro l hl
    obtain ⟨-, hle, hdash⟩ := h.tail l (hhead l hl)
    exact ⟨hle.trans h.columns, hdash⟩
  have hentries := entriesFrom_items h.items hstop
  obtain ⟨item, items, hitems⟩ := List.exists_cons_of_ne_nil h.entries
  obtain ⟨first, rest, hitem, hdash, hcolumn, -⟩ := h.items item (by simp [hitems])
  obtain ⟨more, hmore⟩ : ∃ more, Y.items.flatMap content ++ tail = first :: more := by
    rw [hitems, List.flatMap_cons, hitem, content_cons (isContent_of_isDash hdash)]
    exact ⟨_, rfl⟩
  rw [keyList, hbefore]
  simp only [htail, hkeys]
  rw [hmore] at hentries ⊢
  have hcond : isDash first = true ∧ indentOf Y.keysLine ≤ indentOf first :=
    ⟨hdash, hcolumn ▸ h.columns⟩
  change (if isDash first = true ∧ indentOf Y.keysLine ≤ indentOf first then
    some ((entriesFrom (indentOf first) (first :: more)).2.map entry) else none) = _
  rw [if_pos hcond, hcolumn, hentries, List.map_map]
  rfl

end Source

end Hbird.Etcd
