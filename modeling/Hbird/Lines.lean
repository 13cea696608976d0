import Mathlib

namespace Hbird.Lines

variable {α : Type} [DecidableEq α] {c : α} {q : α → Bool} {f g : List α → List α}
  {l s t a b : List α} {ls ls' : List (List α)}

/-- The pieces of a text as `str::split_inclusive` has them: each keeps the `c` that ends it. -/
def splitInclusive (c : α) : List α → List (List α)
  | [] => []
  | x :: xs =>
    if x = c then [x] :: splitInclusive c xs
    else match splitInclusive c xs with
      | [] => [[x]]
      | l :: ls => (x :: l) :: ls

/-- A piece without the `c` at its end. -/
def body (c : α) (piece : List α) : List α :=
  if piece.getLast? = some c then piece.dropLast else piece

def ending (c : α) (piece : List α) : List α := if piece.getLast? = some c then [c] else []

def bodies (c : α) (s : List α) : List (List α) := (splitInclusive c s).map (body c)

/-- A text with each line edited and each `c` kept. -/
def mapLines (c : α) (f : List α → List α) (s : List α) : List α :=
  (splitInclusive c s).flatMap fun piece => f (body c piece) ++ ending c piece

/-- What the lines end with: the characters at the end of each that are terminators. -/
def terminators (c : α) (q : α → Bool) (s : List α) : List (List α) :=
  (splitInclusive c s).map (List.rtakeWhile q)

/-- The text of the lines; the last one may lack its `c`. -/
def textOf (c : α) (final : Bool) : List (List α) → List α
  | [] => []
  | [l] => if final then l ++ [c] else l
  | l :: ls => l ++ c :: textOf c final ls

theorem splitInclusive_line (h : c ∉ l) (s : List α) :
    splitInclusive c (l ++ c :: s) = (l ++ [c]) :: splitInclusive c s := by
  induction l with
  | nil => rw [List.nil_append, splitInclusive, if_pos rfl, List.nil_append]
  | cons x l ih =>
    obtain ⟨hx, hl⟩ := not_or.mp (List.mem_cons.not.mp h)
    rw [List.cons_append, splitInclusive, if_neg (Ne.symm hx), ih hl, List.cons_append]

theorem splitInclusive_last (hne : l ≠ []) (h : c ∉ l) : splitInclusive c l = [l] := by
  induction l with
  | nil => exact absurd rfl hne
  | cons x l ih =>
    obtain ⟨hx, hl⟩ := not_or.mp (List.mem_cons.not.mp h)
    rw [splitInclusive, if_neg (Ne.symm hx)]
    cases l with
    | nil => rfl
    | cons y l => rw [ih (List.cons_ne_nil y l) hl]

theorem splitInclusive_ne_nil (h : s ≠ []) : splitInclusive c s ≠ [] := by
  cases s with
  | nil => exact absurd rfl h
  | cons x xs =>
    rw [splitInclusive]
    split
    · exact List.cons_ne_nil _ _
    · split
      · exact List.cons_ne_nil _ _
      · exact List.cons_ne_nil _ _

/-- A text is empty, one line that lacks its `c`, or a line in front of a text. -/
theorem lines_induction {P : List α → Prop} (c : α) (nil : P []) (last : ∀ l, l ≠ [] → c ∉ l → P l)
    (line : ∀ l s, c ∉ l → P s → P (l ++ c :: s)) (s : List α) : P s := by
  induction hn : s.length using Nat.strong_induction_on generalizing s with
  | _ n ih =>
    by_cases hc : c ∈ s
    · obtain ⟨l, t, rfl, hl⟩ := List.eq_append_cons_of_mem hc
      refine line l t hl (ih t.length ?_ t rfl)
      rw [← hn, List.length_append, List.length_cons]
      omega
    · by_cases hs : s = []
      · rw [hs]
        exact nil
      · exact last s hs hc

@[simp] theorem body_line : body c (l ++ [c]) = l := by
  simp [body]

@[simp] theorem ending_line : ending c (l ++ [c]) = [c] := by
  simp [ending]

omit [DecidableEq α] in
theorem getLast?_ne (h : c ∉ l) : l.getLast? ≠ some c := fun hl => h (List.mem_of_getLast? hl)

theorem body_last (h : c ∉ l) : body c l = l := if_neg (getLast?_ne h)

theorem ending_last (h : c ∉ l) : ending c l = [] := if_neg (getLast?_ne h)

theorem mapLines_line (h : c ∉ l) (s : List α) :
    mapLines c f (l ++ c :: s) = f l ++ c :: mapLines c f s := by
  rw [mapLines, splitInclusive_line h, List.flatMap_cons, body_line, ending_line, List.append_assoc,
    List.singleton_append, mapLines]

theorem mapLines_last (hne : l ≠ []) (h : c ∉ l) : mapLines c f l = f l := by
  rw [mapLines, splitInclusive_last hne h, List.flatMap_singleton, body_last h, ending_last h,
    List.append_nil]

theorem bodies_line (h : c ∉ l) (s : List α) : bodies c (l ++ c :: s) = l :: bodies c s := by
  rw [bodies, splitInclusive_line h, List.map_cons, body_line, bodies]

theorem bodies_last (hne : l ≠ []) (h : c ∉ l) : bodies c l = [l] := by
  rw [bodies, splitInclusive_last hne h, List.map_singleton, body_last h]

theorem terminators_line (h : c ∉ l) (s : List α) :
    terminators c q (l ++ c :: s) = (l ++ [c]).rtakeWhile q :: terminators c q s := by
  rw [terminators, splitInclusive_line h, List.map_cons, terminators]

theorem terminators_last (hne : l ≠ []) (h : c ∉ l) : terminators c q l = [l.rtakeWhile q] := by
  rw [terminators, splitInclusive_last hne h, List.map_singleton]

theorem mem_bodies (h : l ∈ bodies c s) : c ∉ l := by
  induction s using lines_induction c with
  | nil => exact absurd h List.not_mem_nil
  | last m hne hm =>
    rw [bodies_last hne hm, List.mem_singleton] at h
    rwa [h]
  | line m s hm ih =>
    rw [bodies_line hm, List.mem_cons] at h
    obtain rfl | h := h
    · exact hm
    · exact ih h

omit [DecidableEq α] in
theorem rtakeWhile_append {x : α} (hx : q x = false) (hl : ∀ y ∈ l, q y = true) (s : List α) :
    (s ++ x :: l).rtakeWhile q = l := by
  induction l using List.reverseRecOn with
  | nil => exact List.rtakeWhile_concat_neg q _ _ (by simp [hx])
  | append_singleton l y ih =>
    have hy := hl y (List.mem_append_right _ (List.mem_singleton_self y))
    rw [← List.cons_append, ← List.append_assoc, List.rtakeWhile_concat_pos q _ _ hy,
      ih fun z hz => hl z (List.mem_append_left _ hz)]

/-- An edit of each line is made once. -/
theorem mapLines_mapLines (h : ∀ l ∈ bodies c s, c ∉ f l ∧ (l ≠ [] → f l ≠ []) ∧ f (f l) = f l) :
    mapLines c f (mapLines c f s) = mapLines c f s := by
  induction s using lines_induction c with
  | nil => rfl
  | last l hne hl =>
    obtain ⟨hf, hempty, hsame⟩ := h l (by rw [bodies_last hne hl]; exact List.mem_singleton_self l)
    rw [mapLines_last hne hl, mapLines_last (hempty hne) hf, hsame]
  | line l s hl ih =>
    rw [bodies_line hl] at h
    obtain ⟨hf, -, hsame⟩ := h l List.mem_cons_self
    rw [mapLines_line hl, mapLines_line hf, hsame, ih fun l hl => h l (List.mem_cons_of_mem _ hl)]

theorem terminators_mapLines
    (h : ∀ l ∈ bodies c s, c ∉ f l ∧ (l ≠ [] → f l ≠ []) ∧ (f l).rtakeWhile q = l.rtakeWhile q)
    (hq : q c = true) : terminators c q (mapLines c f s) = terminators c q s := by
  induction s using lines_induction c with
  | nil => rfl
  | last l hne hl =>
    obtain ⟨hf, hempty, hsame⟩ := h l (by rw [bodies_last hne hl]; exact List.mem_singleton_self l)
    rw [mapLines_last hne hl, terminators_last (hempty hne) hf, terminators_last hne hl, hsame]
  | line l s hl ih =>
    rw [bodies_line hl] at h
    obtain ⟨hf, -, hsame⟩ := h l List.mem_cons_self
    rw [mapLines_line hl, terminators_line hf, terminators_line hl, List.rtakeWhile_concat_pos q _ _ hq,
      List.rtakeWhile_concat_pos q _ _ hq, hsame, ih fun l hl => h l (List.mem_cons_of_mem _ hl)]

/-- How many lines there are: one for each `c`, and those of what is left. -/
theorem length_splitInclusive (a s : List α) :
    (splitInclusive c (a ++ c :: s)).length = a.count c + 1 + (splitInclusive c s).length := by
  induction a using lines_induction c with
  | nil => rw [splitInclusive_line List.not_mem_nil, List.length_cons, List.count_nil]; omega
  | last l _ hl =>
    rw [splitInclusive_line hl, List.length_cons, List.count_eq_zero_of_not_mem hl]
    omega
  | line l a hl ih =>
    rw [List.append_assoc, List.cons_append, splitInclusive_line hl, List.length_cons, ih,
      List.count_append, List.count_cons_self, List.count_eq_zero_of_not_mem hl]
    omega

theorem length_mapLines (hne : ∀ l, l ≠ [] → f l ≠ []) (s : List α) :
    (splitInclusive c s).length ≤ (splitInclusive c (mapLines c f s)).length := by
  induction s using lines_induction c with
  | nil => exact le_rfl
  | last l hl hc =>
    rw [mapLines_last hl hc, splitInclusive_last hl hc]
    exact List.length_pos_of_ne_nil (splitInclusive_ne_nil (hne l hl))
  | line l s hl ih =>
    rw [mapLines_line hl, splitInclusive_line hl, List.length_cons, length_splitInclusive]
    omega

theorem not_mem_of_terminators (hq : q c = true) (h : c ∉ l)
    (hsame : terminators c q s = [l.rtakeWhile q]) : c ∉ s := by
  intro hs
  obtain ⟨a, b, rfl, ha⟩ := List.eq_append_cons_of_mem hs
  rw [terminators_line ha, List.rtakeWhile_concat_pos q _ _ hq, List.cons.injEq] at hsame
  refine h ((List.rtakeWhile_suffix q l).subset ?_)
  rw [← hsame.1]
  simp

/-- The lines end as before exactly when no edit brings a `c` along or changes what is at the end of
its line. -/
theorem terminators_mapLines_iff (hq : q c = true) (hne : ∀ l, l ≠ [] → f l ≠ []) :
    terminators c q (mapLines c f s) = terminators c q s ↔
      ∀ l ∈ bodies c s, c ∉ f l ∧ (f l).rtakeWhile q = l.rtakeWhile q := by
  constructor
  · intro h
    induction s using lines_induction c with
    | nil => exact fun l hl => absurd hl List.not_mem_nil
    | last l hl hc =>
      rw [mapLines_last hl hc, terminators_last hl hc] at h
      have hf := not_mem_of_terminators hq hc h
      rw [terminators_last (hne l hl) hf] at h
      rw [bodies_last hl hc]
      exact List.forall_mem_singleton.mpr ⟨hf, (List.cons.inj h).1⟩
    | line l s hl ih =>
      have hlength := congrArg List.length h
      rw [mapLines_line hl] at h hlength
      rw [terminators, terminators, List.length_map, List.length_map, length_splitInclusive,
        splitInclusive_line hl, List.length_cons] at hlength
      have hf : c ∉ f l := by
        have hmore := length_mapLines (c := c) hne s
        rw [← List.count_eq_zero]
        omega
      rw [terminators_line hf, terminators_line hl, List.rtakeWhile_concat_pos q _ _ hq,
        List.rtakeWhile_concat_pos q _ _ hq, List.cons.injEq] at h
      rw [bodies_line hl]
      exact List.forall_mem_cons.mpr ⟨⟨hf, List.append_cancel_right h.1⟩, ih h.2⟩
  · intro h
    exact terminators_mapLines (fun l hl => ⟨(h l hl).1, hne l, (h l hl).2⟩) hq

section TextOf

variable {final : Bool}

omit [DecidableEq α] in
theorem textOf_cons (hls : ls ≠ []) : textOf c final (l :: ls) = l ++ c :: textOf c final ls := by
  cases ls with
  | nil => exact absurd rfl hls
  | cons m ls => rfl

theorem mapLines_textOf (hf : f [] = []) (h : ∀ l ∈ ls, c ∉ l) :
    mapLines c f (textOf c final ls) = textOf c final (ls.map f) := by
  induction ls with
  | nil => rfl
  | cons l ls ih =>
    obtain ⟨hl, hls⟩ := List.forall_mem_cons.mp h
    by_cases hrest : ls = []
    · rw [hrest, List.map_singleton, textOf, textOf]
      cases final with
      | true =>
        rw [if_pos rfl, if_pos rfl, mapLines_line hl]
        rfl
      | false =>
        rw [if_neg Bool.false_ne_true, if_neg Bool.false_ne_true]
        by_cases hempty : l = []
        · rw [hempty, hf]
          rfl
        · exact mapLines_last hempty hl
    · rw [textOf_cons hrest, mapLines_line hl, ih hls, List.map_cons,
        textOf_cons (List.map_eq_nil_iff.not.mpr hrest)]

theorem append_cons_inj (ha : c ∉ a) (hb : c ∉ b) (h : a ++ c :: s = b ++ c :: t) : a = b ∧ s = t := by
  have hsplit := congrArg (splitInclusive c) h
  rw [splitInclusive_line ha, splitInclusive_line hb, List.cons.injEq] at hsplit
  obtain rfl := List.append_cancel_right hsplit.1
  exact ⟨rfl, (List.cons.inj (List.append_cancel_left h)).2⟩

/-- Texts of as many lines are the same only if their lines are. -/
theorem textOf_injective (h : ∀ l ∈ ls, c ∉ l) (h' : ∀ l ∈ ls', c ∉ l) (hlength : ls.length = ls'.length)
    (hsame : textOf c final ls = textOf c final ls') : ls = ls' := by
  induction ls generalizing ls' with
  | nil => exact (List.length_eq_zero_iff.mp hlength.symm).symm
  | cons l ls ih =>
    cases ls' with
    | nil => cases hlength
    | cons l' ls' =>
      obtain ⟨hl, hls⟩ := List.forall_mem_cons.mp h
      obtain ⟨hl', hls'⟩ := List.forall_mem_cons.mp h'
      have hrest : ls.length = ls'.length := Nat.succ.inj hlength
      by_cases hempty : ls = []
      · obtain rfl := hempty
        obtain rfl := List.length_eq_zero_iff.mp hrest.symm
        rw [textOf, textOf] at hsame
        cases final with
        | true => rw [List.append_cancel_right hsame]
        | false => rw [show l = l' from hsame]
      · have hempty' : ls' ≠ [] := by
          rintro rfl
          exact hempty (List.length_eq_zero_iff.mp hrest)
        rw [textOf_cons hempty, textOf_cons hempty'] at hsame
        obtain ⟨rfl, htail⟩ := append_cons_inj hl hl' hsame
        rw [ih hls hls' hrest htail]

theorem mem_bodies_textOf (h : ∀ l ∈ ls, c ∉ l) (hmem : l ∈ ls) (hne : l ≠ []) :
    l ∈ bodies c (textOf c final ls) := by
  induction ls with
  | nil => exact absurd hmem List.not_mem_nil
  | cons m ls ih =>
    obtain ⟨hm, hls⟩ := List.forall_mem_cons.mp h
    by_cases hrest : ls = []
    · rw [hrest] at hmem ⊢
      obtain rfl := List.mem_singleton.mp hmem
      rw [textOf]
      cases final with
      | true =>
        rw [if_pos rfl, bodies_line hm]
        exact List.mem_cons_self
      | false =>
        rw [if_neg Bool.false_ne_true, bodies_last hne hm]
        exact List.mem_cons_self
    · rw [textOf_cons hrest, bodies_line hm]
      obtain rfl | hmem := List.mem_cons.mp hmem
      · exact List.mem_cons_self
      · exact List.mem_cons_of_mem _ (ih hls hmem)

end TextOf

end Hbird.Lines
