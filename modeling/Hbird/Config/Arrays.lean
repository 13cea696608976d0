import Hbird.Config.Rendering

namespace Hbird.Config

open Hbird.Text

section Until

variable {key : String} {openLine extra : Nat} {body first line : List Char}
  {lines : List (List Char)}

/-- An array takes the lines up to the first closing parenthesis. -/
theorem parseArrayLines_eq (key : String) (openLine extra : Nat) (body : List Char)
    (h : ∃ line ∈ lines, ')' ∈ line) :
    ∃ n k, k ≤ lines.length ∧ (untilParenLines body lines).2 = lines.drop k ∧
      parseArrayLines key openLine extra body lines =
        (tokenizeArrayBody (untilParenLines body lines).1 n).map fun elements =>
          (elements, extra + k) := by
  induction lines generalizing extra body with
  | nil =>
    obtain ⟨line, hl, -⟩ := h
    cases hl
  | cons line lines ih =>
    cases hf : find ')' line with
    | some r =>
      refine ⟨openLine + (extra + 1), 1, by simp, ?_, ?_⟩
      · rw [untilParenLines, hf]
        rfl
      · rw [parseArrayLines, untilParenLines, hf]
    | none =>
      have hrest : ∃ line ∈ lines, ')' ∈ line := by
        obtain ⟨l, hl, hp⟩ := h
        obtain rfl | hl := List.mem_cons.mp hl
        · exact absurd hp (find_eq_none_iff.mp hf)
        · exact ⟨l, hl, hp⟩
      obtain ⟨n, k, hk, hdrop, hparse⟩ := ih (extra + 1)
        (if isSkipped line then body else body ++ line ++ [' ']) hrest
      refine ⟨n, k + 1, by simpa using hk, ?_, ?_⟩
      · rw [untilParenLines, hf]
        exact hdrop
      · have hsum : extra + 1 + k = extra + (k + 1) := by omega
        rw [hsum] at hparse
        rw [parseArrayLines, untilParenLines, hf, ← hparse]
        cases isSkipped line <;> rfl

theorem parseArray_eq (key : String) (openLine : Nat)
    (h : ')' ∈ first ∨ ∃ line ∈ lines, ')' ∈ line) :
    ∃ n k, k ≤ lines.length ∧ (untilParen first lines).2 = lines.drop k ∧
      parseArray key openLine first lines =
        (tokenizeArrayBody (untilParen first lines).1 n).map fun elements => (elements, k) := by
  cases hf : find ')' first with
  | some r =>
    refine ⟨openLine, 0, Nat.zero_le _, ?_, ?_⟩
    · rw [untilParen, hf]
      rfl
    · rw [parseArray, untilParen, hf]
  | none =>
    have hlines : ∃ line ∈ lines, ')' ∈ line := by
      obtain hp | hl := h
      · exact absurd hp (find_eq_none_iff.mp hf)
      · exact hl
    obtain ⟨n, k, hk, hdrop, hparse⟩ := parseArrayLines_eq key openLine 0 (first ++ [' '])
      hlines
    refine ⟨n, k, hk, ?_, ?_⟩
    · rw [untilParen, hf]
      exact hdrop
    · rw [parseArray, untilParen, hf, hparse, Nat.zero_add]

/-- The lines of an array that do not close it, as they are put together. -/
def joined (lines : List (List Char)) : List Char :=
  (lines.filter fun line => !isSkipped line).flatMap (· ++ [' '])

theorem untilParenLines_append (h : ∀ line ∈ lines, ')' ∉ line) (post : List (List Char)) :
    untilParenLines body (lines ++ post) = untilParenLines (body ++ joined lines) post := by
  induction lines generalizing body with
  | nil => rw [List.nil_append, joined, List.filter_nil, List.flatMap_nil, List.append_nil]
  | cons line lines ih =>
    obtain ⟨hl, hlines⟩ := List.forall_mem_cons.mp h
    rw [List.cons_append, untilParenLines, find_eq_none hl, ih hlines]
    cases hs : isSkipped line <;> simp [joined, hs]

/-- Nothing is left only if the parenthesis stands on the last line. -/
theorem untilParenLines_last (h : (untilParenLines body (lines ++ [line])).2 = []) :
    ∀ l ∈ lines, ')' ∉ l := by
  induction lines generalizing body with
  | nil => simp
  | cons l lines ih =>
    rw [List.cons_append, untilParenLines] at h
    cases hf : find ')' l with
    | some r =>
      rw [hf] at h
      simp at h
    | none =>
      rw [hf] at h
      exact List.forall_mem_cons.mpr ⟨find_eq_none_iff.mp hf, ih h⟩

theorem untilParenLines_not_mem (hbody : ')' ∉ body) : ')' ∉ (untilParenLines body lines).1 := by
  induction lines generalizing body with
  | nil => exact hbody
  | cons line lines ih =>
    rw [untilParenLines]
    cases hf : find ')' line with
    | some r =>
      exact List.not_mem_append hbody (find_eq_some hf).2
    | none =>
      refine ih ?_
      have hl : ')' ∉ line := find_eq_none_iff.mp hf
      split
      · exact hbody
      · exact List.not_mem_append (List.not_mem_append hbody hl) (by decide)

theorem untilParen_not_mem : ')' ∉ (untilParen first lines).1 := by
  rw [untilParen]
  cases hf : find ')' first with
  | some r => exact (find_eq_some hf).2
  | none =>
    exact untilParenLines_not_mem (List.not_mem_append (find_eq_none_iff.mp hf) (by decide))

end Until

section Behind

variable {lineNo : Nat} {out : Raw} {lines : List (List Char)} {line : List Char}

theorem tokenizeLines_skip {k : Nat} (h : k ≤ lines.length) :
    tokenizeLines k lineNo out lines = tokenizeLines 0 (lineNo + k) out (lines.drop k) := by
  induction k generalizing lineNo lines with
  | zero => rfl
  | succ k ih =>
    cases lines with
    | nil => simp at h
    | cons line lines =>
      rw [tokenizeLines, ih (by simpa using h), List.drop_succ_cons]
      congr 1
      omega

theorem parseQuoted_isOk {n : Nat} {raw raw' rest : List Char} {quote : Char} {text : String}
    (h : parseQuoted n raw quote rest = .ok text) (m : Nat) : parseQuoted m raw' quote rest = .ok text := by
  rw [parseQuoted] at h ⊢
  cases hf : find quote rest with
  | none =>
    rw [hf] at h
    cases h
  | some r =>
    rw [hf] at h
    dsimp only at h ⊢
    split at h
    · next hs =>
      rw [if_pos hs]
      exact h
    · cases h

/-- Line numbers are for the errors only. -/
theorem parseScalar_isOk {n : Nat} {raw raw' rhs : List Char} {text : String}
    (h : parseScalar n raw rhs = .ok text) (m : Nat) : parseScalar m raw' rhs = .ok text := by
  unfold parseScalar at h ⊢
  split at h
  · exact parseQuoted_isOk h m
  · exact parseQuoted_isOk h m
  · exact h

/-- A line that opens no array is skipped, or assigns a scalar, or is refused. -/
theorem tokenizeLines_cons (h : OpensNone line) (lineNo : Nat) (out : Raw)
    (lines : List (List Char)) :
    isSkipped line = true ∧ tokenizeLines 0 lineNo out (line :: lines) =
        tokenizeLines 0 (lineNo + 1) out lines ∨
      isSkipped line = false ∧ AssignsScalar line ∧ (∃ key value,
        tokenizeLines 0 lineNo out (line :: lines) =
          tokenizeLines 0 (lineNo + 1) (out.insert key lineNo value) lines) ∨
      isSkipped line = false ∧ ¬ AssignsScalar line ∧
        ∃ e, tokenizeLines 0 lineNo out (line :: lines) = .error e := by
  cases hs : isSkipped line with
  | true => exact .inl ⟨rfl, by rw [tokenizeLines, hs, if_pos rfl]⟩
  | false =>
    refine .inr ?_
    cases hf : find '=' (trimStart line) with
    | none =>
      refine .inr ⟨rfl, ?_, _, by rw [tokenizeLines, hs, if_neg Bool.false_ne_true, hf]⟩
      rintro ⟨key, rhs, text, hkey, -⟩
      rw [hf] at hkey
      cases hkey
    | some r =>
      obtain ⟨key, rhs⟩ := r
      cases hk : isValidKey key with
      | false =>
        refine .inr ⟨rfl, ?_, .unrecognizedLine lineNo (String.ofList line), ?_⟩
        · rintro ⟨key', rhs', text, hkey, hvalid, -⟩
          rw [hf] at hkey
          cases hkey
          rw [hk] at hvalid
          cases hvalid
        · simp only [tokenizeLines, hs, Bool.false_eq_true, if_false, hf, hk, Bool.not_false, if_true]
      | true =>
        have hopen := h key rhs hf hk
        have hline : tokenizeLines 0 lineNo out (line :: lines) =
            (parseScalar lineNo line rhs >>= fun text => tokenizeLines 0 (lineNo + 1)
              (out.insert (String.ofList key) lineNo (.scalar text)) lines) := by
          simp only [tokenizeLines, hs, Bool.false_eq_true, if_false, hf, hk, Bool.not_true]
        cases hp : parseScalar lineNo line rhs with
        | ok text =>
          exact .inl ⟨rfl, ⟨key, rhs, text, hf, hk, parseScalar_isOk hp 0⟩, _, _, by rw [hline, hp]; rfl⟩
        | error e =>
          refine .inr ⟨rfl, ?_, e, by rw [hline, hp]; rfl⟩
          rintro ⟨key', rhs', text, hkey, -, hscalar⟩
          rw [hf] at hkey
          cases hkey
          rw [parseScalar_isOk hscalar lineNo] at hp
          cases hp

theorem tokenizeLines_eq_error (h : ∀ line ∈ lines, OpensNone line) :
    (∃ e, tokenizeLines 0 lineNo out lines = .error e) ↔
      ∃ line ∈ lines, isSkipped line = false ∧ ¬ AssignsScalar line := by
  induction lines generalizing lineNo out with
  | nil => simp [tokenizeLines]
  | cons line lines ih =>
    obtain ⟨hl, hlines⟩ := List.forall_mem_cons.mp h
    simp only [List.mem_cons, exists_eq_or_imp]
    obtain ⟨hs, heq⟩ | ⟨hs, ha, key, value, heq⟩ | ⟨hs, ha, e, heq⟩ :=
      tokenizeLines_cons hl lineNo out lines
    · rw [heq, ih hlines]
      simp [hs]
    · rw [heq, ih hlines]
      simp [ha]
    · exact iff_of_true ⟨e, heq⟩ (.inl ⟨hs, ha⟩)

/-- A last line that is not skipped leaves its assignment in front. -/
theorem tokenizeLines_last (h : ∀ line ∈ lines, OpensNone line) (hl : OpensNone line)
    (hs : isSkipped line = false) {raw : Raw}
    (ht : tokenizeLines 0 lineNo out (lines ++ [line]) = .ok raw) :
    ∃ key value rest, raw = (key, lineNo + lines.length, value) :: rest := by
  induction lines generalizing lineNo out with
  | nil =>
    obtain ⟨hs', -⟩ | ⟨-, -, key, value, heq⟩ | ⟨-, -, e, heq⟩ :=
      tokenizeLines_cons hl lineNo out []
    · rw [hs] at hs'
      cases hs'
    · rw [List.nil_append, heq] at ht
      cases ht
      exact ⟨key, value, _, rfl⟩
    · rw [List.nil_append, heq] at ht
      cases ht
  | cons first lines ih =>
    obtain ⟨hf, hlines⟩ := List.forall_mem_cons.mp h
    have hnext : ∀ {out' : Raw}, tokenizeLines 0 (lineNo + 1) out' (lines ++ [line]) = .ok raw →
        ∃ key value rest, raw = (key, lineNo + (first :: lines).length, value) :: rest := by
      intro out' ht'
      obtain ⟨key, value, rest, hraw⟩ := ih hlines ht'
      refine ⟨key, value, rest, ?_⟩
      rw [hraw, List.length_cons, Nat.add_assoc, Nat.add_comm 1]
    obtain ⟨-, heq⟩ | ⟨-, -, key, value, heq⟩ | ⟨-, -, e, heq⟩ :=
      tokenizeLines_cons hf lineNo out (lines ++ [line])
    · rw [List.cons_append, heq] at ht
      exact hnext ht
    · rw [List.cons_append, heq] at ht
      exact hnext ht
    · rw [List.cons_append, heq] at ht
      cases ht

end Behind

namespace ArrayText

variable {a : ArrayText} {text : String}

theorem lines_eq : a.lines = (a.indent ++ (a.key ++ '=' :: '(' :: a.opened.1)) :: a.opened.2 := by
  rw [lines, opened]
  cases a.init <;> rfl

theorem opened_last : a.opened.2 ≠ [] →
    ∃ ls : List Line, (∀ l ∈ ls, l ∈ a.init) ∧ a.opened.2 = ls.map Line.render ++ [a.lastLine] := by
  intro h
  rw [opened] at h ⊢
  cases hi : a.init with
  | nil =>
    rw [hi] at h
    exact absurd rfl h
  | cons l ls => exact ⟨ls, fun x hx => List.mem_cons_of_mem _ hx, rfl⟩

theorem last_isLed (a : ArrayText) : a.last.IsLed := by
  intro h
  rw [a.last_comment] at h
  cases h

theorem lastLine_opensNone (a : ArrayText) : OpensNone a.lastLine :=
  Line.opensNone a.last_isLed fun _ hc => (Option.some.inj hc).symm

theorem lastLine_isSkipped (a : ArrayText) : isSkipped a.lastLine = false := by
  by_cases hi : a.last.items = []
  · rw [isSkipped, lastLine, Line.render, hi, a.last_comment, Line.renderItems, List.flatMap_nil,
      List.nil_append, List.append_assoc, trimStart_blank a.last.blank]
    rfl
  · exact Line.isSkipped_render_append hi _

theorem opened_opensNone (a : ArrayText) : ∀ line ∈ a.opened.2, OpensNone line := by
  intro line hl
  obtain ⟨ls, hls, heq⟩ := opened_last (List.ne_nil_of_mem hl)
  rw [heq] at hl
  obtain hl | hl := List.mem_append.mp hl
  · obtain ⟨l, hm, rfl⟩ := List.mem_map.mp hl
    have ho : OpensNone (l.render ++ []) := Line.opensNone (a.led l (hls l hm)) (by simp)
    rwa [List.append_nil] at ho
  · rw [List.mem_singleton.mp hl]
    exact a.lastLine_opensNone

theorem paren_mem_lastLine (a : ArrayText) : ')' ∈ a.lastLine :=
  List.mem_append_right _ (List.mem_cons_self ..)

theorem paren_mem_opened (a : ArrayText) :
    ')' ∈ a.opened.1 ∨ ∃ line ∈ a.opened.2, ')' ∈ line := by
  rw [opened]
  cases a.init with
  | nil => exact .inl a.paren_mem_lastLine
  | cons l ls => exact .inr ⟨a.lastLine, by simp, a.paren_mem_lastLine⟩

/-- The array takes the text before the first closing parenthesis; the lines behind it are read
on their own. -/
theorem tokenize_eq (h : splitLines text.toList = a.lines) :
    ∃ n k, k ≤ a.opened.2.length ∧
      (untilParen a.opened.1 a.opened.2).2 = a.opened.2.drop k ∧
      tokenize text = (tokenizeArrayBody (untilParen a.opened.1 a.opened.2).1 n >>= fun elements =>
        tokenizeLines 0 (2 + k) [(String.ofList a.key, 1, .array elements)]
          (untilParen a.opened.1 a.opened.2).2) := by
  obtain ⟨n, k, hk, hdrop, hparse⟩ := parseArray_eq (String.ofList a.key) 1
    a.paren_mem_opened
  refine ⟨n, k, hk, hdrop, ?_⟩
  obtain ⟨c, cs, hc⟩ := List.exists_cons_of_ne_nil (isValidKey_ne_nil a.key_valid)
  have hkey : ∀ {d : Char}, (isAsciiAlphabetic d || isAsciiDigit d || d == '_') = false → c ≠ d := by
    rintro d hd rfl
    exact isValidKey_not_mem a.key_valid hd (by rw [hc]; exact List.mem_cons_self ..)
  have hblank : isWhitespace c = false := by
    by_contra hw
    exact isValidKey_not_blank a.key_valid (Bool.not_eq_false _ ▸ hw)
      (by rw [hc]; exact List.mem_cons_self ..)
  have htrim : trimStart (a.indent ++ (a.key ++ '=' :: '(' :: a.opened.1)) =
      a.key ++ '=' :: '(' :: a.opened.1 := by
    rw [trimStart_blank a.indent_blank, hc, List.cons_append, trimStart_cons hblank]
  have hskip : isSkipped (a.indent ++ (a.key ++ '=' :: '(' :: a.opened.1)) = false := by
    rw [isSkipped, htrim, hc, List.cons_append]
    exact beq_eq_false_iff_ne.mpr (hkey (by decide))
  have hfind : find '=' (a.key ++ '=' :: '(' :: a.opened.1) = some (a.key, '(' :: a.opened.1) :=
    find_append (isValidKey_not_mem a.key_valid (by decide))
  rw [tokenize, h, lines_eq, tokenizeLines, hskip, if_neg Bool.false_ne_true, htrim, hfind]
  simp only [a.key_valid, Bool.not_true, Bool.false_eq_true, if_false, hparse, hdrop]
  cases tokenizeArrayBody (untilParen a.opened.1 a.opened.2).1 n with
  | error e => rfl
  | ok elements => exact tokenizeLines_skip hk

theorem tokenize_eq_error (h : splitLines text.toList = a.lines) :
    (∃ e, tokenize text = .error e) ↔ a.IsMangled := by
  obtain ⟨n, k, hk, hdrop, heq⟩ := tokenize_eq h
  rw [IsMangled, LeavesQuoteOpen, ← @splitBody_eq_error n
    (String.ofList (untilParen a.opened.1 a.opened.2).1) _ [], heq]
  show _ ↔ (∃ e, tokenizeArrayBody (untilParen a.opened.1 a.opened.2).1 n = .error e) ∨ _
  cases tokenizeArrayBody (untilParen a.opened.1 a.opened.2).1 n with
  | error e => exact iff_of_true ⟨e, rfl⟩ (.inl ⟨e, rfl⟩)
  | ok elements =>
    have hnone : ∀ line ∈ (untilParen a.opened.1 a.opened.2).2, OpensNone line := by
      rw [hdrop]
      exact fun line hl => a.opened_opensNone line (List.mem_of_mem_drop hl)
    refine (tokenizeLines_eq_error hnone).trans ?_
    simp

section Clean

variable {lineNo : Nat} {body : String} {l : Line} {ls : List Line} {rest : List Char}

theorem splitBody_line (hc : l.comment = none) (hrest : StartsBlank rest) :
    splitBody lineNo body .between [] (l.render ++ rest) =
      (splitBody lineNo body .between [] rest).map (l.texts ++ ·) := by
  have hstart : StartsBlank (l.trail ++ rest) := by
    cases ht : l.trail with
    | nil => exact hrest
    | cons c cs =>
      rw [← ht]
      exact startsBlank_append l.blank (by simp [ht])
  rw [Line.render, hc, Line.renderComment, List.append_nil, List.append_assoc,
    splitBody_items l.spaced hstart, splitBody_blank l.blank, Line.texts, Line.elements, List.map_map]
  rfl

theorem isBlank_space : IsBlank [' '] := by decide

theorem joined_cons (line : List Char) (lines : List (List Char)) :
    joined (line :: lines) = (if isSkipped line then [] else line ++ [' ']) ++ joined lines := by
  cases hs : isSkipped line <;> simp [joined, hs]

theorem texts_of_items (h : l.items = []) : l.texts = [] := by rw [Line.texts, Line.elements, h]; rfl

theorem splitBody_joined (h : ∀ l ∈ ls, l.IsPure) :
    splitBody lineNo body .between [] (joined (ls.map Line.render) ++ rest) =
      (splitBody lineNo body .between [] rest).map (ls.flatMap Line.texts ++ ·) := by
  induction ls with
  | nil =>
    show splitBody lineNo body .between [] rest = _
    cases splitBody lineNo body .between [] rest <;> rfl
  | cons l ls ih =>
    obtain ⟨hl, hls⟩ := List.forall_mem_cons.mp h
    rw [List.map_cons, joined_cons, List.append_assoc]
    cases hs : isSkipped l.render with
    | true =>
      rw [if_pos rfl, List.nil_append, ih hls, List.flatMap_cons,
        texts_of_items (Line.isSkipped_render.mp hs), List.nil_append]
    | false =>
      have hc : l.comment = none := by
        cases hc : l.comment with
        | none => rfl
        | some text =>
          rw [Line.isSkipped_render.mpr (hl (by rw [hc]; rfl))] at hs
          cases hs
      rw [if_neg Bool.false_ne_true, List.append_assoc,
        splitBody_line hc (startsBlank_append isBlank_space (by simp)),
        splitBody_blank isBlank_space, ih hls]
      cases splitBody lineNo body .between [] rest with
      | error e => rfl
      | ok elements => simp [Except.map]

/-- The body of an array in which only the last parenthesis is one. -/
def bodyText (a : ArrayText) : List Char :=
  match a.init with
  | [] => a.last.render
  | l :: ls => l.render ++ [' '] ++ joined (ls.map Line.render) ++ a.last.render

theorem untilParen_eq (hinit : ∀ l ∈ a.init, ')' ∉ l.render) (hlast : ')' ∉ a.last.render) :
    untilParen a.opened.1 a.opened.2 = (a.bodyText, []) := by
  have hfind : find ')' a.lastLine = some (a.last.render, a.tail) := find_append hlast
  rw [opened, bodyText]
  cases hi : a.init with
  | nil =>
    dsimp only
    rw [untilParen, hfind]
  | cons l ls =>
    rw [hi] at hinit
    obtain ⟨hl, hls⟩ := List.forall_mem_cons.mp hinit
    have hmap : ∀ line ∈ ls.map Line.render, ')' ∉ line := by
      simpa using hls
    dsimp only
    rw [untilParen, find_eq_none hl]
    dsimp only
    rw [untilParenLines_append hmap, untilParenLines, hfind]

theorem untilParen_clean (h : a.IsClean) : untilParen a.opened.1 a.opened.2 = (a.bodyText, []) := by
  have hlast : ')' ∉ a.last.render := by
    intro hp
    obtain ⟨e, he, hm⟩ | ⟨text, ht, -⟩ := Line.paren_of_mem hp
    · exact h.elements e (List.mem_append_right _ he) hm
    · rw [a.last_comment] at ht
      cases ht
  have hinit : ∀ l ∈ a.init, ')' ∉ l.render := by
    intro l hl hp
    obtain ⟨e, he, hm⟩ | ⟨text, ht, hm⟩ := Line.paren_of_mem hp
    · exact h.elements e (List.mem_append_left _ (List.mem_flatMap.mpr ⟨l, hl, he⟩)) hm
    · exact h.comments l hl text ht hm
  exact untilParen_eq hinit hlast

theorem tokenize_clean (h : splitLines text.toList = a.lines) (hclean : a.IsClean) :
    tokenize text = .ok [(String.ofList a.key, 1, .array a.texts)] := by
  obtain ⟨n, k, -, -, heq⟩ := tokenize_eq h
  rw [untilParen_clean hclean] at heq
  have hlast : ∀ (body : String), splitBody n body .between [] a.last.render = .ok a.last.texts := by
    intro body
    have hl : splitBody n body .between [] (a.last.render ++ []) = _ :=
      splitBody_line a.last_comment (by simp [StartsBlank])
    rw [List.append_nil] at hl
    rw [hl, splitBody, Except.map, List.append_nil]
  have hsplit : ∀ (body : String), splitBody n body .between [] a.bodyText = .ok a.texts := by
    intro body
    rw [bodyText, texts, elements]
    cases hi : a.init with
    | nil => exact hlast body
    | cons l ls =>
      have hpure := hclean.pure
      have hopening := hclean.opening
      rw [hi] at hpure hopening
      dsimp only
      rw [List.append_assoc, List.append_assoc, splitBody_line (hopening l rfl)
        (startsBlank_append isBlank_space (by simp)), splitBody_blank isBlank_space,
        splitBody_joined (List.forall_mem_cons.mp hpure).2, hlast body]
      simp [Except.map, List.map_flatMap, Line.texts]
      rfl
  rw [heq, tokenizeArrayBody, hsplit]
  rfl

theorem hashes_append (xs ys : List String) : hashes (xs ++ ys) = hashes xs + hashes ys := by
  simp [hashes]

/-- Comments behind elements add to the `#`s of the elements. -/
theorem hashes_joined (ls : List Line) :
    hashes (ls.flatMap Line.texts) ≤ (joined (ls.map Line.render)).count '#' ∧
      ((joined (ls.map Line.render)).count '#' ≤ hashes (ls.flatMap Line.texts) →
        ∀ l ∈ ls, l.IsPure) := by
  induction ls with
  | nil => simp [hashes]
  | cons l ls ih =>
    obtain ⟨hle, hpure⟩ := ih
    rw [List.flatMap_cons, hashes_append, List.map_cons, joined_cons, List.count_append]
    cases hs : isSkipped l.render with
    | true =>
      have hitems := Line.isSkipped_render.mp hs
      rw [if_pos rfl, texts_of_items hitems, List.count_nil]
      refine ⟨by simpa [hashes] using hle, fun h => List.forall_mem_cons.mpr ⟨fun _ => hitems, ?_⟩⟩
      exact hpure (by simpa [hashes] using h)
    | false =>
      rw [if_neg Bool.false_ne_true, List.count_append, count_blank isBlank_space, l.count_render]
      refine ⟨by omega, fun h => List.forall_mem_cons.mpr ⟨fun hc => ?_, hpure (by omega)⟩⟩
      have := Line.count_comment hc
      omega

/-- Behind an array that is all there is, no line is left: the last one would leave an assignment. -/
theorem rest_eq_nil {k : Nat} {key : String} {elements : List String}
    (hdrop : (untilParen a.opened.1 a.opened.2).2 = a.opened.2.drop k)
    (hlines : .ok [(key, 1, .array a.texts)] = tokenizeLines 0 (2 + k) [(key, 1, .array elements)]
      (untilParen a.opened.1 a.opened.2).2) :
    (untilParen a.opened.1 a.opened.2).2 = [] := by
  by_contra hne
  rw [hdrop] at hne hlines
  obtain ⟨ls, hls, hopened⟩ := opened_last fun he => hne (by rw [he, List.drop_nil])
  rw [hopened] at hne hlines
  have hkl : k ≤ (ls.map Line.render).length := by
    by_contra hgt
    exact hne (List.drop_eq_nil_of_le (by rw [List.length_append, List.length_singleton]; omega))
  rw [List.drop_append_of_le_length hkl] at hlines
  have hnone : ∀ line ∈ (ls.map Line.render).drop k, OpensNone line := by
    intro line hl
    refine a.opened_opensNone line ?_
    rw [hopened]
    exact List.mem_append_left _ (List.mem_of_mem_drop hl)
  obtain ⟨key', value, rest, hraw⟩ := tokenizeLines_last hnone a.lastLine_opensNone
    a.lastLine_isSkipped hlines.symm
  have := congrArg (fun r : Raw => r.map (·.2.1)) hraw
  simp at this
  omega

/-- The first closing parenthesis stands on the last line. -/
theorem init_noParen (hnil : (untilParen a.opened.1 a.opened.2).2 = []) :
    ∀ l ∈ a.init, ')' ∉ l.render := by
  rw [opened] at hnil
  cases hi : a.init with
  | nil => simp
  | cons l ls =>
    rw [hi] at hnil
    dsimp only at hnil
    rw [untilParen] at hnil
    cases hf : find ')' l.render with
    | some r =>
      rw [hf] at hnil
      simp at hnil
    | none =>
      rw [hf] at hnil
      refine List.forall_mem_cons.mpr ⟨find_eq_none_iff.mp hf, ?_⟩
      simpa using untilParenLines_last hnil

/-- A body without more `#`s than its elements have is without comments. -/
theorem noComments_of_count (hcount : hashes a.texts = a.bodyText.count '#') :
    (∀ l ∈ a.init.head?, l.comment = none) ∧ ∀ l ∈ a.init, l.IsPure := by
  have hlastCount : a.last.render.count '#' = hashes a.last.texts := by
    rw [Line.count_render, a.last_comment]
    rfl
  rw [texts, elements, bodyText] at hcount
  cases hi : a.init with
  | nil => simp
  | cons l ls =>
    rw [hi] at hcount
    dsimp only at hcount
    rw [List.map_append, hashes_append, List.map_flatMap, List.flatMap_cons, hashes_append,
      List.count_append, List.count_append, List.count_append, count_blank isBlank_space,
      hlastCount, l.count_render] at hcount
    obtain ⟨hle, hpure⟩ := hashes_joined ls
    have hcount' : hashes l.texts + hashes (ls.flatMap Line.texts) + hashes a.last.texts =
        hashes l.texts + (Line.renderComment l.comment).count '#' + 0 +
          (joined (ls.map Line.render)).count '#' + hashes a.last.texts := hcount
    have hnone : l.comment = none := by
      by_contra hne
      have := Line.count_comment (Option.isSome_iff_ne_none.mpr hne)
      omega
    refine ⟨fun x hx => ?_, List.forall_mem_cons.mpr ⟨fun hc => ?_, hpure (by omega)⟩⟩
    · cases hx
      exact hnone
    · rw [hnone] at hc
      cases hc

theorem isClean_of_tokenize (h : splitLines text.toList = a.lines)
    (ht : tokenize text = .ok [(String.ofList a.key, 1, .array a.texts)]) : a.IsClean := by
  obtain ⟨n, k, -, hdrop, heq⟩ := tokenize_eq h
  rw [ht] at heq
  cases hsplit : tokenizeArrayBody (untilParen a.opened.1 a.opened.2).1 n with
  | error e =>
    rw [hsplit] at heq
    cases heq
  | ok elements =>
    rw [hsplit] at heq
    have hlines : Except.ok [(String.ofList a.key, 1, Value.array a.texts)] = tokenizeLines 0 (2 + k)
        [(String.ofList a.key, 1, .array elements)] (untilParen a.opened.1 a.opened.2).2 := heq
    have hnil := rest_eq_nil hdrop hlines
    rw [hnil] at hlines
    obtain rfl : a.texts = elements := by
      have := congrArg (fun r : Except Error Raw => r.toOption.map (·.map (·.2.2))) hlines
      simpa [tokenizeLines, Except.toOption] using this
    have hinit := init_noParen hnil
    -- The parenthesis is none of an element: those come from the text before it.
    have helements : ∀ e ∈ a.elements, ')' ∉ e.text := by
      intro e he hp
      obtain hm | hm := splitBody_mem hsplit _ (List.mem_map_of_mem he) ')' (by simpa using hp)
      · cases hm
      · exact untilParen_not_mem hm
    have hlast : ')' ∉ a.last.render := by
      intro hp
      obtain ⟨e, he, hm⟩ | ⟨text, htext, -⟩ := Line.paren_of_mem hp
      · exact helements e (List.mem_append_right _ he) hm
      · rw [a.last_comment] at htext
        cases htext
    have hcount : hashes a.texts = a.bodyText.count '#' := by
      rw [untilParen_eq hinit hlast] at hsplit
      have := splitBody_hashes (by simp) (fun _ => rfl) hsplit
      simpa using this
    obtain ⟨hopening, hpure⟩ := noComments_of_count hcount
    exact ⟨helements, fun l hl text htext hp => hinit l hl (Line.paren_mem_of_comment htext hp),
      hopening, hpure⟩

/-- An array is read as it is written when it is clean and ends there; one with more behind it is
refused only when something before that makes it so. -/
theorem tokenize_array_iff (h : splitLines text.toList = a.lines) :
    a.IsRead text ↔ (a.TailOk → a.IsClean) ∧ (¬ a.TailOk → a.IsMangled) := by
  refine and_congr (imp_congr_right fun _ => ?_) (imp_congr_right fun _ => tokenize_eq_error h)
  exact ⟨isClean_of_tokenize h, tokenize_clean h⟩

end Clean

/-- An element that needs no quotes. -/
def bareElement (text : String) (h : Style.bare.Allows text.toList) : Element := ⟨.bare, text.toList, h⟩

/-- Two workers, with a note behind the first. -/
def sampleArray : ArrayText where
  indent := []
  key := "WORKER_NAMES".toList
  init := [⟨[([], bareElement "w1" (by decide))], [' '], some " not w9".toList, ⟨by decide, by simp⟩,
    by decide⟩]
  last := ⟨[([], bareElement "w2" (by decide))], [], none, ⟨by decide, by simp⟩, by decide⟩
  tail := []
  indent_blank := by decide
  key_valid := by decide
  led := by simp [Line.IsLed]
  opening_led := by simp
  last_comment := rfl

def sampleText : String := "WORKER_NAMES=(w1 # not w9\nw2)\n"

theorem tokenize_array_iff_sample : sampleArray.IsRead sampleText ↔
    (sampleArray.TailOk → sampleArray.IsClean) ∧ (¬ sampleArray.TailOk → sampleArray.IsMangled) :=
  tokenize_array_iff (by decide)

/-- The words of the note become elements. -/
theorem array_misread : splitLines sampleText.toList = sampleArray.lines ∧ sampleArray.TailOk ∧
    sampleArray.texts = ["w1", "w2"] ∧
    tokenize sampleText =
      .ok [("WORKER_NAMES", 1, .array ["w1", "#", "not", "w9", "w2"])] ∧
    ¬ sampleArray.IsRead sampleText := by
  have hread : tokenize sampleText =
      .ok [("WORKER_NAMES", 1, .array ["w1", "#", "not", "w9", "w2"])] := by decide +kernel
  have htail : sampleArray.TailOk := .inl (by decide)
  refine ⟨by decide, htail, by decide, hread, fun h => ?_⟩
  rw [h.1 htail] at hread
  exact absurd hread (by decide +kernel)

end ArrayText

end Hbird.Config
