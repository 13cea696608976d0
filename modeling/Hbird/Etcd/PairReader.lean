import Hbird.Etcd.KeyReader

namespace Hbird.Etcd

open Hbird.Text

/-- What follows the word at the start of the line. -/
def fieldOf (word : List Char) (line : String) : Option String :=
  let t := (trimStart line).toList
  if word.isPrefixOf t then some (String.ofList (t.drop word.length)) else none

def nameField : List Char := ['-', ' ', 'n', 'a', 'm', 'e', ':', ' ']

def secretField : List Char := ['s', 'e', 'c', 'r', 'e', 't', ':', ' ']

/-- A name line and the secret line under it. -/
def pairOf (line line' : String) : Option Key :=
  match fieldOf nameField line, fieldOf secretField line' with
  | some name, some secret => if indentOf line' = indentOf line + 2 then some ⟨name, secret⟩ else none
  | _, _ => none

def pairs : List String → List Key
  | [] => []
  | [_] => []
  | line :: line' :: lines => (pairOf line line').toList ++ pairs (line' :: lines)

/-- The reader of files in which every entry is a name line with a secret line under it. -/
def pairReader : Reader := ⟨pairs, fun _ => True, pairs, pairs, pairs⟩

variable {l l' : String} {a b ls : List String} {k e : Nat}

theorem pairs_append (h : ∀ l ∈ a.getLast?, ∀ l' ∈ b.head?, pairOf l l' = none) :
    pairs (a ++ b) = pairs a ++ pairs b := by
  induction a with
  | nil => rfl
  | cons x a ih =>
    cases a with
    | nil =>
      cases b with
      | nil => rfl
      | cons y b =>
        have hxy : pairOf x y = none := h x rfl y rfl
        simp [pairs, hxy]
    | cons x' a =>
      have hrest := ih (by simpa using h)
      simp only [List.cons_append, pairs, List.append_assoc] at hrest ⊢
      rw [hrest]

theorem fieldOf_isSome {word : List Char} :
    (fieldOf word l).isSome ↔ word <+: (trimStart l).toList := by
  rw [fieldOf, ← List.isPrefixOf_iff_prefix]
  cases word.isPrefixOf (trimStart l).toList <;> simp

theorem pairOf_isSome (h : pairOf l l' ≠ none) : isEntry l = true ∧ isEntry l' = false ∧
    indentOf l' = indentOf l + 2 := by
  unfold pairOf at h
  split at h
  · next name secret hn hs =>
    have hname := fieldOf_isSome.mp (Option.isSome_iff_exists.mpr ⟨name, hn⟩)
    have hsecret := fieldOf_isSome.mp (Option.isSome_iff_exists.mpr ⟨secret, hs⟩)
    refine ⟨startsWith_iff.mpr ?_, ?_, ?_⟩
    · exact List.IsPrefix.trans ⟨nameField.drop 2, rfl⟩ hname
    · by_contra he
      rw [Bool.not_eq_false] at he
      obtain ⟨u, hu⟩ := startsWith_iff.mp he
      obtain ⟨v, hv⟩ := hsecret
      rw [← hv] at hu
      simp [secretField] at hu
    · by_contra hi
      exact h (if_neg hi)
  · exact absurd rfl h

theorem pairs_append_entry (h : ∀ l ∈ b.head?, isEntry l = true) :
    pairs (a ++ b) = pairs a ++ pairs b := by
  refine pairs_append fun l _ l' hl' => ?_
  by_contra hp
  obtain ⟨-, he, -⟩ := pairOf_isSome hp
  rw [h l' hl'] at he
  cases he

/-- A line of a group is not to the left of its column. -/
theorem indent_of_group {g : List String} (hk : k < e) (hg : Layout.IsGroup k e g) (hl : l ∈ g)
    (he : isEntry l = true) : k < indentOf l := by
  obtain ⟨first, rest, rfl, -, hi, hrest⟩ := hg
  obtain rfl | hl := List.mem_cons.mp hl
  · exact hi ▸ hk
  · obtain hb | ⟨hlt, -⟩ := hrest l hl
    · rw [isBlank_of_startsWith he '-' [' '] String.toList_ofList (by decide)] at hb
      cases hb
    · exact hlt

theorem pairs_groups {groups : List (List String)} {tail : List String} (hk : k < e)
    (hg : ∀ g ∈ groups, Layout.IsGroup k e g) (ht : Layout.IsTail k tail) :
    pairs (groups.flatten ++ tail) = groups.flatMap pairs ++ pairs tail := by
  induction groups with
  | nil => rfl
  | cons g groups ih =>
    obtain ⟨hfirst, hrest⟩ := List.forall_mem_cons.mp hg
    rw [List.flatten_cons, List.append_assoc, List.flatMap_cons, List.append_assoc, ← ih hrest]
    cases groups with
    | nil =>
      refine pairs_append fun l hl l' hl' => ?_
      by_contra hp
      obtain ⟨he, -, hi⟩ := pairOf_isSome hp
      have hlt := indent_of_group hk hfirst (List.mem_of_getLast? hl) he
      have hle := (ht.first l' hl').2
      omega
    | cons g' groups =>
      obtain ⟨first, rest, rfl, he, -⟩ := hrest g' List.mem_cons_self
      exact pairs_append_entry (by simpa using he)

theorem pairs_keyEntry {column : Nat} {name secret : String} :
    pairs (keyEntry column name secret) = [⟨name, secret⟩] := by
  have hfirst : fieldOf nameField (pad column ++ ("- name: " ++ name)) = some name := by
    rw [fieldOf, Layout.trimStart_pad (Reader.toList_name name) (by decide), Reader.toList_name]
    simp [nameField]
  have hsecond : fieldOf secretField (pad (column + 2) ++ ("secret: " ++ secret)) = some secret := by
    rw [fieldOf, Layout.trimStart_pad (Reader.toList_secret secret) (by decide),
      Reader.toList_secret]
    simp [secretField]
  rw [Reader.keyEntry_eq, pairs, pairOf, hfirst, hsecond,
    Layout.indentOf_pad (Reader.toList_name name) (by decide),
    Layout.indentOf_pad (Reader.toList_secret secret) (by decide)]
  simp [pairs]

theorem pairReader_lawful : pairReader.Lawful where
  list := by
    intro L h hne _
    show pairs (L.head ++ (L.groups.flatten ++ L.tail)) = _
    rw [pairs_append_entry, pairs_groups h.columns h.groups h.tail]
    · rfl
    · intro l hl
      cases hg : L.groups with
      | nil => exact absurd hg hne
      | cons g groups =>
        obtain ⟨first, rest, rfl, he, -⟩ := h.groups g (by simp [hg])
        rw [hg] at hl
        obtain rfl := Option.some.inj hl
        exact he
  written _ _ _ := pairs_keyEntry
  lastBlank ls := by
    refine (pairs_append fun l _ l' hl' => ?_).trans (List.append_nil _)
    obtain rfl := Option.some.inj hl'
    have hs : fieldOf secretField "" = none := by decide
    rw [pairOf, hs]
    cases fieldOf nameField l <;> rfl

end Hbird.Etcd
