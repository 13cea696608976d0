import Hbird.Text

namespace Hbird.Xml

open Hbird.Text

/-- A character that stands for itself in an attribute's value. -/
def isPlainChar (c : Char) : Bool := c ∉ ['\'', '"', '<', '>', '&', '\n', '\r']

/-- A value without quotes, markup and line ends. -/
structure Value where
  text : String
  plain : text.toList.all isPlainChar = true
  deriving DecidableEq, Repr

theorem Value.not_mem (v : Value) {c : Char} (hc : isPlainChar c = false) : c ∉ v.text.toList := by
  intro hmem
  have := List.all_eq_true.mp v.plain c hmem
  rw [hc] at this
  cases this

section Attributes

variable {K : Type} (label : K → List Char)

/-- ` key='value'` for each attribute. -/
def attributesText : List (K × Value) → List Char
  | [] => []
  | (k, v) :: as => ' ' :: label k ++ '=' :: '\'' :: v.text.toList ++ '\'' :: attributesText as

/-- What the quotes of `head`, the attributes and `close` divide. -/
def pieces (close : List Char) : List Char → List (K × Value) → List (List Char)
  | head, [] => [head ++ close]
  | head, (k, v) :: as =>
    (head ++ ' ' :: label k ++ ['=']) :: v.text.toList :: pieces close [] as

variable {label}

theorem splitOn_attributesText {close : List Char} (hlabel : ∀ k, '\'' ∉ label k)
    (hclose : '\'' ∉ close) (as : List (K × Value)) {head : List Char} (hhead : '\'' ∉ head) :
    (head ++ attributesText label as ++ close).splitOn '\'' = pieces label close head as := by
  induction as generalizing head with
  | nil =>
    rw [attributesText, pieces, List.append_nil]
    exact List.splitOn_eq_singleton (by simp [hhead, hclose])
  | cons a as ih =>
    obtain ⟨k, v⟩ := a
    have hvalue := v.not_mem (c := '\'') (by decide)
    have hkey : '\'' ∉ head ++ ' ' :: label k ++ ['='] := by simp [hhead, hlabel k]
    have hsplit : head ++ attributesText label ((k, v) :: as) ++ close =
        (head ++ ' ' :: label k ++ ['=']) ++ '\'' ::
          (v.text.toList ++ '\'' :: ([] ++ attributesText label as ++ close)) := by
      simp [attributesText]
    rw [hsplit, pieces, List.splitOn_append_cons_self, List.splitOn_append_cons_self,
      List.splitOn_eq_singleton hkey, List.splitOn_eq_singleton hvalue,
      ih List.not_mem_nil]
    rfl

theorem pieces_injective (hinj : Function.Injective label) {close close' head : List Char}
    {as as' : List (K × Value)}
    (h : pieces label close head as = pieces label close' head as') :
    as = as' ∧ close = close' := by
  induction as generalizing head as' with
  | nil =>
    cases as' with
    | nil => exact ⟨rfl, by simpa [pieces] using h⟩
    | cons a' as' => simp [pieces] at h
  | cons a as ih =>
    obtain ⟨k, v⟩ := a
    cases as' with
    | nil => simp [pieces] at h
    | cons a' as' =>
      obtain ⟨k', v'⟩ := a'
      simp only [pieces, List.cons.injEq, List.append_cancel_right_eq, List.append_cancel_left_eq,
        true_and] at h
      obtain ⟨hk, hv, hrest⟩ := h
      obtain ⟨rfl, hclose⟩ := ih hrest
      obtain rfl := hinj hk
      have hvalue : v = v' := by
        cases v
        cases v'
        simpa using String.toList_injective hv
      exact ⟨by rw [hvalue], hclose⟩

theorem attributesText_injective (hinj : Function.Injective label) (hlabel : ∀ k, '\'' ∉ label k)
    {head close close' : List Char} (hhead : '\'' ∉ head) (hclose : '\'' ∉ close)
    (hclose' : '\'' ∉ close') {as as' : List (K × Value)}
    (h : head ++ attributesText label as ++ close = head ++ attributesText label as' ++ close') :
    as = as' ∧ close = close' := by
  have hpieces : pieces label close head as = pieces label close' head as' := by
    rw [← splitOn_attributesText hlabel hclose as hhead, h,
      splitOn_attributesText hlabel hclose' as' hhead]
  exact pieces_injective hinj hpieces

theorem infix_attributesText {k : K} {v : Value} {as : List (K × Value)} (h : (k, v) ∈ as) :
    label k ++ '=' :: '\'' :: v.text.toList ++ ['\''] <:+: attributesText label as := by
  induction as with
  | nil => cases h
  | cons a as ih =>
    obtain h | h := List.mem_cons.mp h
    · subst h
      exact ⟨[' '], attributesText label as, by simp [attributesText]⟩
    · obtain ⟨s, t, hst⟩ := ih h
      exact ⟨' ' :: label a.1 ++ '=' :: '\'' :: a.2.text.toList ++ '\'' :: s, t, by
        rw [attributesText, ← hst]
        simp⟩

theorem not_mem_attributesText {c : Char} (hc : isPlainChar c = false) (hquote : c ≠ '\'')
    (hlabel : ∀ k, c ∉ label k) (hblank : c ≠ ' ') (heq : c ≠ '=') (as : List (K × Value)) :
    c ∉ attributesText label as := by
  induction as with
  | nil => exact List.not_mem_nil
  | cons a as ih =>
    have hvalue := a.2.not_mem hc
    simp [attributesText, hblank, heq, hquote, hlabel, hvalue, ih]

end Attributes

section Quotes

variable {q : Char} {a n t : List Char}

theorem splitOn_append_of_not_mem (ha : q ∉ a) (s : List Char) :
    ∃ xs y, (s ++ a).splitOn q = xs ++ [y ++ a] := by
  induction s with
  | nil => exact ⟨[], [], by rw [List.nil_append, List.splitOn_eq_singleton ha]; rfl⟩
  | cons c s ih =>
    obtain ⟨xs, y, h⟩ := ih
    rw [List.cons_append, List.splitOn_cons_eq_if_modifyHead, h]
    by_cases hc : (c == q) = true
    · exact ⟨[] :: xs, y, by rw [if_pos hc]; rfl⟩
    · rw [if_neg hc]
      cases xs with
      | nil => exact ⟨[], c :: y, rfl⟩
      | cons x xs => exact ⟨(c :: x) :: xs, y, rfl⟩

/-- Where a text has `a` and then `n` in quotes, its quotes divide it so. -/
theorem splitOn_of_infix (ha : q ∉ a) (h : a ++ q :: n ++ [q] <:+: t) :
    ∃ xs y zs, t.splitOn q = xs ++ (y ++ a) :: (n.splitOn q ++ zs) ∧ zs ≠ [] := by
  obtain ⟨s, u, rfl⟩ := h
  obtain ⟨xs, y, hxs⟩ := splitOn_append_of_not_mem ha s
  refine ⟨xs, y, u.splitOn q, ?_, List.splitOn_ne_nil q u⟩
  have hassoc : s ++ (a ++ q :: n ++ [q]) ++ u = (s ++ a) ++ q :: (n ++ q :: u) := by simp
  rw [hassoc, List.splitOn_append_cons_self, List.splitOn_append_cons_self, hxs, List.append_assoc]
  rfl

end Quotes

end Hbird.Xml
