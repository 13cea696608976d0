import Hbird.Config.Layout

namespace Hbird.Config

open Hbird.Text

theorem find_append {c : Char} {s t : List Char} (h : c ∉ s) : find c (s ++ c :: t) = some (s, t) := by
  induction s with
  | nil => rw [List.nil_append, find, if_pos rfl]
  | cons x s ih =>
    obtain ⟨hx, hs⟩ := not_or.mp (List.mem_cons.not.mp h)
    rw [List.cons_append, find, if_neg (Ne.symm hx), ih hs]
    rfl

theorem find_eq_none {c : Char} {s : List Char} (h : c ∉ s) : find c s = none := by
  induction s with
  | nil => rfl
  | cons x s ih =>
    obtain ⟨hx, hs⟩ := not_or.mp (List.mem_cons.not.mp h)
    rw [find, if_neg (Ne.symm hx), ih hs]
    rfl

theorem find_eq_none_iff {c : Char} {s : List Char} : find c s = none ↔ c ∉ s := by
  refine ⟨fun h hm => ?_, find_eq_none⟩
  obtain ⟨before, after, rfl, hb⟩ := List.eq_append_cons_of_mem hm
  rw [find_append hb] at h
  cases h

theorem find_eq_some {c : Char} {s before after : List Char} (h : find c s = some (before, after)) :
    s = before ++ c :: after ∧ c ∉ before := by
  induction s generalizing before with
  | nil => cases h
  | cons x s ih =>
    rw [find] at h
    split at h
    · next hx =>
      cases h
      exact ⟨by rw [hx, List.nil_append], List.not_mem_nil⟩
    · next hx =>
      obtain ⟨⟨b, a⟩, hb, he⟩ := Option.map_eq_some_iff.mp h
      cases he
      obtain ⟨rfl, hnot⟩ := ih hb
      exact ⟨rfl, List.not_mem_cons_of_ne_of_not_mem (Ne.symm hx) hnot⟩

theorem trimStart_blank {s t : List Char} (h : IsBlank s) : trimStart (s ++ t) = trimStart t := by
  induction s with
  | nil => rfl
  | cons c s ih =>
    obtain ⟨hc, hs⟩ := List.forall_mem_cons.mp h
    rw [List.cons_append, trimStart, List.dropWhile_cons_of_pos hc]
    exact ih hs

theorem trimStart_cons {c : Char} {s : List Char} (h : isWhitespace c = false) :
    trimStart (c :: s) = c :: s :=
  List.dropWhile_cons_of_neg (by simp [h])

section Split

variable {lineNo : Nat} {body : String} {rest : List Char}

/-- The text begins with white space, or there is none. -/
def StartsBlank (s : List Char) : Prop := ∀ c ∈ s.head?, isWhitespace c = true

theorem splitBody_blank {s : List Char} (h : IsBlank s) :
    splitBody lineNo body .between [] (s ++ rest) = splitBody lineNo body .between [] rest := by
  induction s with
  | nil => rfl
  | cons c s ih =>
    obtain ⟨hc, hs⟩ := List.forall_mem_cons.mp h
    rw [List.cons_append, splitBody, if_pos hc, ih hs]

theorem splitBody_quoted {quote : Char} {acc s : List Char} (h : quote ∉ s) :
    splitBody lineNo body (.quoted quote) acc (s ++ quote :: rest) =
      (splitBody lineNo body .between [] rest).map (String.ofList (acc.reverse ++ s) :: ·) := by
  induction s generalizing acc with
  | nil => rw [List.nil_append, splitBody, if_pos rfl, List.append_nil]
  | cons c s ih =>
    obtain ⟨hc, hs⟩ := not_or.mp (List.mem_cons.not.mp h)
    rw [List.cons_append, splitBody, if_neg (Ne.symm hc), ih hs, List.reverse_cons,
      List.append_assoc, List.singleton_append]

theorem splitBody_bare {acc s : List Char} (h : ∀ c ∈ s, isWhitespace c = false)
    (hrest : StartsBlank rest) :
    splitBody lineNo body .bare acc (s ++ rest) =
      (splitBody lineNo body .between [] rest).map (String.ofList (acc.reverse ++ s) :: ·) := by
  induction s generalizing acc with
  | nil =>
    cases rest with
    | nil =>
      rw [List.append_nil, List.append_nil]
      rfl
    | cons c rest =>
      have hc := hrest c rfl
      rw [List.nil_append, splitBody, if_pos hc, splitBody, if_pos hc, List.append_nil]
  | cons c s ih =>
    obtain ⟨hc, hs⟩ := List.forall_mem_cons.mp h
    rw [List.cons_append, splitBody, hc, if_neg Bool.false_ne_true, ih hs, List.reverse_cons,
      List.append_assoc, List.singleton_append]

theorem isWhitespace_quote : isWhitespace '"' = false ∧ isWhitespace '\'' = false := by decide

theorem splitBody_element (e : Element) (hrest : e.style = .bare → StartsBlank rest) :
    splitBody lineNo body .between [] (e.render ++ rest) =
      (splitBody lineNo body .between [] rest).map (String.ofList e.text :: ·) := by
  obtain ⟨style, text, allows⟩ := e
  cases style with
  | bare =>
    obtain ⟨hne, hplain⟩ := allows
    obtain ⟨c, cs, rfl⟩ := List.exists_cons_of_ne_nil hne
    obtain ⟨⟨hc, hcq⟩, hcs⟩ := List.forall_mem_cons.mp hplain
    have hq : ¬ (c = '"' ∨ c = '\'') := by
      rintro (rfl | rfl)
      · exact hcq (by simp)
      · exact hcq (by simp)
    show splitBody lineNo body .between [] (c :: (cs ++ rest)) = _
    rw [splitBody, hc, if_neg Bool.false_ne_true, if_neg hq,
      splitBody_bare (fun x hx => (hcs x hx).1) (hrest rfl)]
    rfl
  | single =>
    show splitBody lineNo body .between [] ('\'' :: text ++ ['\''] ++ rest) = _
    rw [List.append_assoc, List.cons_append, List.singleton_append, splitBody,
      isWhitespace_quote.2, if_neg Bool.false_ne_true, if_pos (.inr rfl), splitBody_quoted allows.1]
    rfl
  | double =>
    show splitBody lineNo body .between [] ('"' :: text ++ ['"'] ++ rest) = _
    rw [List.append_assoc, List.cons_append, List.singleton_append, splitBody,
      isWhitespace_quote.1, if_neg Bool.false_ne_true, if_pos (.inl rfl), splitBody_quoted allows.1]
    rfl

theorem startsBlank_append {s t : List Char} (hs : IsBlank s) (hne : s ≠ []) : StartsBlank (s ++ t) := by
  obtain ⟨c, cs, rfl⟩ := List.exists_cons_of_ne_nil hne
  intro x hx
  cases hx
  exact hs c (List.mem_cons_self ..)

theorem splitBody_items {items : List (List Char × Element)} (h : Spaced items)
    (hrest : StartsBlank rest) :
    splitBody lineNo body .between [] (Line.renderItems items ++ rest) =
      (splitBody lineNo body .between [] rest).map
        (items.map (fun item => String.ofList item.2.text) ++ ·) := by
  induction items with
  | nil =>
    rw [Line.renderItems, List.flatMap_nil, List.nil_append]
    cases splitBody lineNo body .between [] rest <;> rfl
  | cons item items ih =>
    obtain ⟨hblank, hspaced⟩ := h
    have hstart : StartsBlank (Line.renderItems items ++ rest) := by
      cases items with
      | nil => exact hrest
      | cons next items =>
        obtain ⟨⟨hne, hb⟩, -⟩ := List.forall_mem_cons.mp hspaced
        rw [Line.renderItems, List.flatMap_cons, List.append_assoc, List.append_assoc]
        exact startsBlank_append hb hne
    have hitems : Spaced items := by
      cases items with
      | nil => trivial
      | cons next items =>
        obtain ⟨⟨-, hb⟩, hs⟩ := List.forall_mem_cons.mp hspaced
        exact ⟨hb, hs⟩
    have hrender : Line.renderItems (item :: items) ++ rest =
        item.1 ++ (item.2.render ++ (Line.renderItems items ++ rest)) := by
      rw [Line.renderItems, List.flatMap_cons, List.append_assoc, List.append_assoc]
      rfl
    rw [hrender, splitBody_blank hblank, splitBody_element _ fun _ => hstart, ih hitems]
    cases splitBody lineNo body .between [] rest <;> rfl

/-- Splitting fails on a quote that is left open, and on nothing else. -/
theorem splitBody_eq_error {mode : Mode} {acc s : List Char} :
    (∃ e, splitBody lineNo body mode acc s = .error e) ↔ ∃ quote, modeAfter mode s = .quoted quote := by
  have hmap : ∀ (r : Except Error (List String)) (x : String),
      (∃ e, r.map (x :: ·) = .error e) ↔ ∃ e, r = .error e := by
    intro r x
    cases r <;> simp [Except.map]
  induction s generalizing mode acc with
  | nil => cases mode <;> simp [splitBody, modeAfter]
  | cons c s ih =>
    cases mode with
    | between =>
      rw [splitBody, modeAfter]
      split
      · exact ih
      · split
        · exact ih
        · exact ih
    | quoted quote =>
      rw [splitBody, modeAfter]
      split
      · exact (hmap _ _).trans ih
      · exact ih
    | bare =>
      rw [splitBody, modeAfter]
      split
      · exact (hmap _ _).trans ih
      · exact ih

/-- Elements are made of the characters of the text. -/
theorem splitBody_mem {mode : Mode} {acc s : List Char} {elements : List String}
    (h : splitBody lineNo body mode acc s = .ok elements) :
    ∀ t ∈ elements, ∀ c ∈ t.toList, c ∈ acc ∨ c ∈ s := by
  induction s generalizing mode acc elements with
  | nil =>
    cases mode with
    | between =>
      cases h
      simp
    | quoted quote => cases h
    | bare =>
      cases h
      simp
  | cons c s ih =>
    have hrest : ∀ {els : List String}, splitBody lineNo body .between [] s = .ok els →
        ∀ t ∈ els, ∀ x ∈ t.toList, x ∈ acc ∨ x ∈ c :: s := by
      intro els hels t ht x hx
      obtain hx | hx := ih hels t ht x hx
      · cases hx
      · exact .inr (List.mem_cons_of_mem _ hx)
    have hkeep : ∀ {m : Mode} {els : List String}, splitBody lineNo body m (c :: acc) s = .ok els →
        ∀ t ∈ els, ∀ x ∈ t.toList, x ∈ acc ∨ x ∈ c :: s := by
      intro m els hels t ht x hx
      obtain hx | hx := ih hels t ht x hx
      · obtain rfl | hx := List.mem_cons.mp hx
        · exact .inr (List.mem_cons_self ..)
        · exact .inl hx
      · exact .inr (List.mem_cons_of_mem _ hx)
    have hend : (splitBody lineNo body .between [] s).map (String.ofList acc.reverse :: ·) =
        .ok elements → ∀ t ∈ elements, ∀ x ∈ t.toList, x ∈ acc ∨ x ∈ c :: s := by
      intro hm t ht x hx
      cases hr : splitBody lineNo body .between [] s with
      | error e =>
        rw [hr] at hm
        cases hm
      | ok els =>
        rw [hr] at hm
        cases hm
        obtain rfl | ht := List.mem_cons.mp ht
        · exact .inl (by simpa using hx)
        · exact hrest hr t ht x hx
    cases mode with
    | between =>
      rw [splitBody] at h
      split at h
      · exact hrest h
      · split at h
        · intro t ht x hx
          obtain hx | hx := ih h t ht x hx
          · cases hx
          · exact .inr (List.mem_cons_of_mem _ hx)
        · intro t ht x hx
          obtain hx | hx := ih h t ht x hx
          · rw [List.mem_singleton] at hx
            exact .inr (List.mem_cons.mpr (.inl hx))
          · exact .inr (List.mem_cons_of_mem _ hx)
    | quoted quote =>
      rw [splitBody] at h
      split at h
      · exact hend h
      · exact hkeep h
    | bare =>
      rw [splitBody] at h
      split at h
      · exact hend h
      · exact hkeep h

/-- How often `#` stands in the elements. -/
def hashes (elements : List String) : Nat := (elements.map fun t => t.toList.count '#').sum

/-- `#` is no separator and no quote: splitting loses none. -/
theorem splitBody_hashes {mode : Mode} {acc s : List Char} {elements : List String}
    (hmode : ∀ quote, mode = .quoted quote → quote ≠ '#') (hacc : mode = .between → acc = [])
    (h : splitBody lineNo body mode acc s = .ok elements) :
    hashes elements = acc.count '#' + s.count '#' := by
  have hblank : ∀ c, isWhitespace c = true → c ≠ '#' := by
    rintro c hc rfl
    exact absurd hc (by decide)
  induction s generalizing mode acc elements with
  | nil =>
    cases mode with
    | between =>
      cases h
      rw [hacc rfl]
      rfl
    | quoted quote => cases h
    | bare =>
      cases h
      simp [hashes]
  | cons c s ih =>
    have hend : c ≠ '#' → (splitBody lineNo body .between [] s).map (String.ofList acc.reverse :: ·) =
        .ok elements → hashes elements = acc.count '#' + (c :: s).count '#' := by
      intro hc hm
      cases hr : splitBody lineNo body .between [] s with
      | error e =>
        rw [hr] at hm
        cases hm
      | ok els =>
        rw [hr] at hm
        cases hm
        have hels := ih (by simp) (fun _ => rfl) hr
        rw [List.count_nil, Nat.zero_add] at hels
        rw [List.count_cons_of_ne hc, ← hels]
        simp [hashes]
    have hkeep : ∀ {m : Mode}, (∀ quote, m = .quoted quote → quote ≠ '#') → m ≠ .between →
        splitBody lineNo body m (c :: acc) s = .ok elements →
        hashes elements = acc.count '#' + (c :: s).count '#' := by
      intro m hm hb hs
      have hels := ih hm (fun h => absurd h hb) hs
      rw [hels, List.count_cons, List.count_cons]
      omega
    cases mode with
    | between =>
      obtain rfl := hacc rfl
      rw [splitBody] at h
      split at h
      · next hc =>
        rw [ih (by simp) (fun _ => rfl) h, List.count_cons_of_ne (hblank c hc)]
      · split at h
        · next hq =>
          have hc : c ≠ '#' := by
            rintro rfl
            exact absurd hq (by decide)
          rw [ih (fun quote hm => by cases hm; exact hc) (fun hm => by cases hm) h,
            List.count_cons_of_ne hc]
        · exact hkeep (m := .bare) (by simp) (by simp) h
    | quoted quote =>
      rw [splitBody] at h
      split at h
      · next hc => exact hend (hc ▸ hmode quote rfl) h
      · exact hkeep hmode (by simp) h
    | bare =>
      rw [splitBody] at h
      split at h
      · next hc => exact hend (hblank c hc) h
      · exact hkeep (by simp) (by simp) h

end Split

section Lines

variable {l : Line} {e : Element}

theorem not_mem_blank {c : Char} {s : List Char} (h : IsBlank s) (hc : isWhitespace c = false) :
    c ∉ s := by
  intro hm
  rw [h c hm] at hc
  cases hc

theorem Element.mem_render {c : Char} (h : c ∈ e.render) : c ∈ e.text ∨ c = '"' ∨ c = '\'' := by
  obtain ⟨style, text, allows⟩ := e
  cases style <;> simp [Element.render, Style.render] at h ⊢ <;> tauto

theorem Element.count_render : e.render.count '#' = e.text.count '#' := by
  obtain ⟨style, text, allows⟩ := e
  cases style <;> simp [Element.render, Style.render]

theorem Spaced.blank {items : List (List Char × Element)} (h : Spaced items) :
    ∀ item ∈ items, IsBlank item.1 := by
  cases items with
  | nil => simp
  | cons first rest =>
    intro item hi
    obtain rfl | hi := List.mem_cons.mp hi
    · exact h.1
    · exact (h.2 item hi).2

theorem Line.paren_of_mem (h : ')' ∈ l.render) :
    (∃ e ∈ l.elements, ')' ∈ e.text) ∨ ∃ text ∈ l.comment, ')' ∈ text := by
  rw [Line.render, List.mem_append, List.mem_append] at h
  obtain h | h | h := h
  · obtain ⟨item, hi, hm⟩ := List.mem_flatMap.mp h
    obtain hm | hm := List.mem_append.mp hm
    · exact absurd hm (not_mem_blank (l.spaced.blank item hi) (by decide))
    · obtain hm | hm | hm := Element.mem_render hm
      · exact .inl ⟨item.2, List.mem_map_of_mem hi, hm⟩
      · exact absurd hm (by decide)
      · exact absurd hm (by decide)
  · exact absurd h (not_mem_blank l.blank (by decide))
  · cases hc : l.comment with
    | none =>
      rw [hc] at h
      cases h
    | some text =>
      rw [hc] at h
      obtain h | h := List.mem_cons.mp h
      · exact absurd h (by decide)
      · exact .inr ⟨text, rfl, h⟩

theorem Line.paren_mem_of_comment {text : List Char} (ht : text ∈ l.comment) (h : ')' ∈ text) :
    ')' ∈ l.render := by
  rw [Line.render, Option.mem_def.mp ht]
  exact List.mem_append_right _ (List.mem_append_right _ (List.mem_cons_of_mem _ h))

def Line.texts (l : Line) : List String := l.elements.map fun e => String.ofList e.text

theorem count_blank {s : List Char} (h : IsBlank s) : s.count '#' = 0 :=
  List.count_eq_zero.mpr (not_mem_blank h (by decide))

theorem Line.count_items {items : List (List Char × Element)} (h : ∀ item ∈ items, IsBlank item.1) :
    (Line.renderItems items).count '#' =
      hashes (items.map fun item => String.ofList item.2.text) := by
  induction items with
  | nil => rfl
  | cons item items ih =>
    obtain ⟨hi, hs⟩ := List.forall_mem_cons.mp h
    have hcount := ih hs
    simp only [Line.renderItems, hashes] at hcount ⊢
    rw [List.flatMap_cons, List.count_append, List.count_append, count_blank hi,
      Element.count_render, hcount]
    simp

/-- The text of a line has the `#`s of its elements and, with a comment, more. -/
theorem Line.count_render : l.render.count '#' =
    hashes l.texts + (Line.renderComment l.comment).count '#' := by
  rw [Line.render, List.count_append, List.count_append, count_blank l.blank,
    Line.count_items l.spaced.blank, Nat.zero_add, Line.texts, Line.elements, List.map_map]
  rfl

theorem Line.count_comment (h : l.comment.isSome) : 0 < (Line.renderComment l.comment).count '#' := by
  obtain ⟨text, hc⟩ := Option.isSome_iff_exists.mp h
  rw [hc, Line.renderComment, List.count_cons_self]
  omega

theorem Element.head_render (e : Element) :
    ∃ c cs, e.render = c :: cs ∧ isWhitespace c = false ∧ c ≠ '#' := by
  obtain ⟨style, text, allows⟩ := e
  cases style with
  | bare =>
    obtain ⟨hne, hplain⟩ := allows
    obtain ⟨c, cs, rfl⟩ := List.exists_cons_of_ne_nil hne
    obtain ⟨hc, hq⟩ := hplain c (List.mem_cons_self ..)
    exact ⟨c, cs, rfl, hc, fun h => hq (by simp [h])⟩
  | single => exact ⟨_, _, rfl, isWhitespace_quote.2, by decide⟩
  | double => exact ⟨_, _, rfl, isWhitespace_quote.1, by decide⟩

/-- A line with elements, from its first element on. -/
theorem Line.trimStart_render {first : List Char × Element} {items : List (List Char × Element)}
    (hi : l.items = first :: items) (rest : List Char) :
    trimStart (l.render ++ rest) = first.2.render ++
      (Line.renderItems items ++ (l.trail ++ Line.renderComment l.comment) ++ rest) := by
  have hblank : IsBlank first.1 := l.spaced.blank first (by rw [hi]; exact List.mem_cons_self ..)
  obtain ⟨c, cs, hr, hc, -⟩ := first.2.head_render
  rw [Line.render, hi, Line.renderItems, List.flatMap_cons, List.append_assoc, List.append_assoc,
    List.append_assoc, trimStart_blank hblank, hr, List.cons_append, trimStart_cons hc]
  simp only [Line.renderItems, List.cons_append, List.append_assoc]

theorem Line.isSkipped_render_append (h : l.items ≠ []) (rest : List Char) :
    isSkipped (l.render ++ rest) = false := by
  obtain ⟨first, items, hi⟩ := List.exists_cons_of_ne_nil h
  obtain ⟨c, cs, hr, -, hc⟩ := first.2.head_render
  rw [isSkipped, Line.trimStart_render hi, hr, List.cons_append]
  exact beq_eq_false_iff_ne.mpr hc

theorem Line.isSkipped_render : isSkipped l.render = true ↔ l.items = [] := by
  constructor
  · intro h
    by_contra hne
    have hf := Line.isSkipped_render_append hne []
    rw [List.append_nil, h] at hf
    cases hf
  · intro h
    rw [isSkipped, Line.render, h, Line.renderItems, List.flatMap_nil, List.nil_append,
      trimStart_blank l.blank]
    cases l.comment <;> rfl

/-- A line that no array text is assigned on. -/
def OpensNone (line : List Char) : Prop :=
  ∀ key rhs, find '=' (trimStart line) = some (key, rhs) → isValidKey key = true →
    ∀ r, rhs ≠ '(' :: r

theorem isValidKey_all {key : List Char} (h : isValidKey key = true) :
    ∀ c ∈ key, (isAsciiAlphabetic c || isAsciiDigit c || c == '_') = true := by
  cases key with
  | nil => cases h
  | cons first rest =>
    simp only [isValidKey, Bool.and_eq_true, List.all_eq_true] at h
    intro c hc
    obtain rfl | hc := List.mem_cons.mp hc
    · rw [Bool.or_right_comm, h.1.2, Bool.true_or]
    · exact h.2 c hc

theorem isValidKey_not_mem {key : List Char} (h : isValidKey key = true) {c : Char}
    (hc : (isAsciiAlphabetic c || isAsciiDigit c || c == '_') = false) : c ∉ key := by
  intro hm
  rw [isValidKey_all h c hm] at hc
  cases hc

theorem isValidKey_not_blank {key : List Char} (h : isValidKey key = true) {c : Char}
    (hc : isWhitespace c = true) : c ∉ key := by
  refine isValidKey_not_mem h ?_
  have hne : ∀ d, isWhitespace d = false → c ≠ d := by
    rintro d hd rfl
    rw [hc] at hd
    cases hd
  simp only [isWhitespace, Bool.or_eq_true, Bool.and_eq_true, decide_eq_true_eq, beq_iff_eq] at hc
  have hrange : ∀ a b : Char, (decide (a ≤ c) && decide (c ≤ b)) =
      (decide (a.toNat ≤ c.toNat) && decide (c.toNat ≤ b.toNat)) := by
    intro a b
    rfl
  rw [isAsciiAlphabetic, isAsciiDigit, hrange, hrange, hrange,
    beq_eq_false_iff_ne.mpr (hne '_' (by decide))]
  simp only [Char.reduceToNat, Bool.or_false, Bool.or_eq_false_iff, Bool.and_eq_false_imp,
    decide_eq_true_eq, decide_eq_false_iff_not]
  omega

theorem isValidKey_ne_nil {key : List Char} (h : isValidKey key = true) : key ≠ [] := by
  rintro rfl
  cases h

/-- What follows an element on its line, before `rest`. -/
theorem Line.head_behind {first : List Char × Element} {items : List (List Char × Element)}
    (hi : l.items = first :: items) (hled : l.IsLed) {rest : List Char}
    (hrest : ∀ c ∈ rest.head?, c = ')') :
    ∀ c ∈ (Line.renderItems items ++ (l.trail ++ Line.renderComment l.comment) ++ rest).head?,
      isWhitespace c = true ∨ c = ')' := by
  have hspaced := l.spaced
  rw [hi] at hspaced
  intro c hc
  cases items with
  | cons next items =>
    obtain ⟨⟨hne, hb⟩, -⟩ := List.forall_mem_cons.mp hspaced.2
    obtain ⟨x, xs, hx⟩ := List.exists_cons_of_ne_nil hne
    rw [Line.renderItems, List.flatMap_cons, hx] at hc
    cases hc
    exact .inl (hb c (by rw [hx]; exact List.mem_cons_self ..))
  | nil =>
    cases ht : l.trail with
    | cons x xs =>
      rw [ht] at hc
      cases hc
      exact .inl (l.blank c (by rw [ht]; exact List.mem_cons_self ..))
    | nil =>
      rw [ht] at hc
      cases hcomment : l.comment with
      | none =>
        rw [hcomment] at hc
        exact .inr (hrest c hc)
      | some text =>
        obtain h | h := hled (by rw [hcomment]; rfl)
        · exact absurd ht h
        · rw [hi] at h
          cases h

theorem Line.opensNone (hled : l.IsLed) {rest : List Char} (hrest : ∀ c ∈ rest.head?, c = ')') :
    OpensNone (l.render ++ rest) := by
  intro key rhs hfind hkey r hr
  obtain ⟨htext, -⟩ := find_eq_some hfind
  -- A key begins with none of these characters.
  have hhead : ∀ {c : Char} {cs : List Char}, trimStart (l.render ++ rest) = c :: cs →
      (isAsciiAlphabetic c || isAsciiDigit c || c == '_') = false → False := by
    intro c cs h hc
    obtain ⟨x, xs, rfl⟩ := List.exists_cons_of_ne_nil (isValidKey_ne_nil hkey)
    rw [htext, List.cons_append] at h
    obtain ⟨rfl, -⟩ := List.cons.inj h
    exact isValidKey_not_mem hkey hc (List.mem_cons_self ..)
  cases hi : l.items with
  | nil =>
    have htrim : trimStart (l.render ++ rest) = trimStart (Line.renderComment l.comment ++ rest) := by
      rw [Line.render, hi, Line.renderItems, List.flatMap_nil, List.nil_append, List.append_assoc,
        trimStart_blank l.blank]
    cases hc : l.comment with
    | some text =>
      rw [hc] at htrim
      exact hhead htrim (by decide)
    | none =>
      rw [hc] at htrim
      cases rest with
      | nil =>
        rw [htrim] at hfind
        cases hfind
      | cons c rest =>
        obtain rfl := hrest c rfl
        exact hhead htrim (by decide)
  | cons first items =>
    have htrim := Line.trimStart_render hi rest
    have hbehind := Line.head_behind hi hled hrest
    generalize Line.renderItems items ++ (l.trail ++ Line.renderComment l.comment) ++ rest = behind
      at htrim hbehind
    obtain ⟨space, style, text, allows⟩ := first
    cases style with
    | single => exact hhead htrim (by decide)
    | double => exact hhead htrim (by decide)
    | bare =>
      have hbare : text ++ behind = key ++ '=' :: rhs := htrim.symm.trans htext
      obtain ⟨key', rfl, hb⟩ | ⟨w, rfl, hw⟩ := List.append_eq_append_iff.mp hbare
      · -- The key reaches beyond the element.
        cases key' with
        | nil =>
          obtain h | h := hbehind '=' (by rw [hb]; rfl)
          · exact absurd h (by decide)
          · exact absurd h (by decide)
        | cons c key' =>
          obtain h | rfl := hbehind c (by rw [hb]; rfl)
          · exact isValidKey_not_blank hkey h (by simp)
          · exact isValidKey_not_mem hkey (c := ')') (by decide) (by simp)
      · cases w with
        | nil =>
          obtain h | h := hbehind '=' (by rw [← List.nil_append behind, ← hw]; rfl)
          · exact absurd h (by decide)
          · exact absurd h (by decide)
        | cons c w =>
          obtain ⟨rfl, hrhs⟩ := List.cons.inj hw
          rw [hr] at hrhs
          cases w with
          | nil =>
            obtain h | h := hbehind '(' (by rw [show behind = '(' :: r from hrhs.symm]; rfl)
            · exact absurd h (by decide)
            · exact absurd h (by decide)
          | cons c w =>
            obtain ⟨rfl, -⟩ := List.cons.inj hrhs
            exact absurd (allows.2 '(' (by simp)).2 (by simp)

end Lines

end Hbird.Config
