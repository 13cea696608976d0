import Hbird.Config.Rendering

namespace Hbird.Config

open Hbird.Text

/-- The text before the first `#` behind white space; `afterSpace` says that there is some at the
start. -/
def beforeComment (afterSpace : Bool) : List Char → List Char
  | [] => []
  | c :: cs =>
    if c = '#' ∧ afterSpace then [] else c :: beforeComment (isWhitespace c) cs

/-- What may stand behind a closing quote: white space, and then a comment. -/
def endsScalar (tail : List Char) : Bool :=
  match tail with
  | [] => true
  | c :: _ => isWhitespace c && isSkipped tail

/-- The value that the right-hand side of an assignment has in `bash`. -/
def bashScalar (lineNo : Nat) (raw rhs : List Char) : Except Error String :=
  match trimStart rhs with
  | '"' :: rest => quoted '"' rest
  | '\'' :: rest => quoted '\'' rest
  | _ => .ok (String.ofList ((trimStart (beforeComment false rhs)).rdropWhile isWhitespace))
where
  quoted (quote : Char) (rest : List Char) : Except Error String :=
    match find quote rest with
    | some (inner, tail) =>
      if endsScalar tail then .ok (String.ofList inner)
      else .error (.trailingContent lineNo (String.ofList raw))
    | none => .error (.unterminatedQuote lineNo (String.ofList raw))

/-- A `#` comes directly after the closing quote. -/
def HashBehindQuote (rhs : List Char) : Prop :=
  ∃ space quote inner tail, rhs = space ++ quote :: (inner ++ quote :: '#' :: tail) ∧
    IsBlank space ∧ (quote = '"' ∨ quote = '\'') ∧ quote ∉ inner

/-- The first comment of an unquoted value is behind a white space that is not ASCII. -/
def HashBehindWide (rhs : List Char) : Prop :=
  ∃ before space after, rhs = before ++ space :: '#' :: after ∧ isWhitespace space = true ∧
    isAsciiWhitespace space = false ∧ ¬ IsBlank before ∧ beforeComment false before = before

def StartsQuoted (rhs : List Char) : Prop :=
  ∃ quote rest, trimStart rhs = quote :: rest ∧ (quote = '"' ∨ quote = '\'')

/-- A `#` is taken for a comment where none begins, or a comment is not seen. -/
def IsMisread (rhs : List Char) : Prop :=
  HashBehindQuote rhs ∨ rhs.head? = some '#' ∨ ¬ StartsQuoted rhs ∧ HashBehindWide rhs

theorem isSkipped_iff {tail : List Char} :
    isSkipped tail = true ↔ endsScalar tail = true ∨ tail.head? = some '#' := by
  cases tail with
  | nil => simp [isSkipped, endsScalar, trimStart]
  | cons c tail =>
    by_cases hc : isWhitespace c = true
    · have hne : c ≠ '#' := by
        rintro rfl
        exact absurd hc (by decide)
      simp [endsScalar, hc, hne]
    · rw [Bool.not_eq_true] at hc
      rw [isSkipped, trimStart_cons hc]
      simp [endsScalar, hc]

theorem not_endsScalar_hash (tail : List Char) : endsScalar ('#' :: tail) = false := by
  simp [endsScalar, show isWhitespace '#' = false from by decide]

theorem isWhitespace_of_ascii {c : Char} (h : isAsciiWhitespace c = true) :
    isWhitespace c = true := by
  simp only [isAsciiWhitespace, Bool.or_eq_true, beq_iff_eq] at h
  obtain (((rfl | rfl) | rfl) | rfl) | rfl := h <;> decide

/-- Cutting later leaves a `#` in the value. -/
theorem strip_or (b b' : Bool) (h : b = true → b' = true) (s : List Char) :
    stripTrailingComment b s = beforeComment b' s ∨
      ∃ t, stripTrailingComment b s = beforeComment b' s ++ '#' :: t := by
  induction s generalizing b b' with
  | nil => exact .inl rfl
  | cons c s ih =>
    by_cases hc : c = '#' ∧ b' = true
    · rw [beforeComment, if_pos hc]
      by_cases hb : c = '#' ∧ b = true
      · rw [stripTrailingComment, if_pos hb]
        exact .inl rfl
      · rw [stripTrailingComment, if_neg hb, hc.1]
        exact .inr ⟨_, rfl⟩
    · have hb : ¬ (c = '#' ∧ b = true) := fun hb => hc ⟨hb.1, h hb.2⟩
      rw [beforeComment, if_neg hc, stripTrailingComment, if_neg hb]
      obtain he | ⟨t, he⟩ := ih _ _ isWhitespace_of_ascii
      · exact .inl (congrArg _ he)
      · exact .inr ⟨t, congrArg _ he⟩

theorem trimEnd_eq_iff (s t : List Char) (c : Char) (hc : isWhitespace c = false) :
    (s ++ c :: t).rdropWhile isWhitespace ≠ s.rdropWhile isWhitespace := by
  intro h
  have hlen := congrArg List.length h
  have hle := (List.rdropWhile_prefix isWhitespace s).length_le
  have hlt : s.length < ((s ++ c :: t).rdropWhile isWhitespace).length := by
    rw [List.rdropWhile, List.length_reverse, List.reverse_append, List.reverse_cons,
      List.append_assoc, List.dropWhile_append]
    split
    · simp [hc]
    · simp
      omega
  omega

theorem trimStart_eq {rhs s : List Char} (h : trimStart rhs = s) :
    ∃ space, rhs = space ++ s ∧ IsBlank space := by
  refine ⟨rhs.takeWhile isWhitespace, ?_, fun c hc => List.mem_takeWhile_imp hc⟩
  rw [← h, trimStart, List.takeWhile_append_dropWhile]

section Quoted

variable {n : Nat} {raw rhs rest : List Char} {quote : Char}

theorem hashBehindQuote_iff (hq : quote = '"' ∨ quote = '\'') (h : trimStart rhs = quote :: rest) :
    HashBehindQuote rhs ↔ ∃ inner tail, find quote rest = some (inner, '#' :: tail) := by
  have hspace : ∀ {q : Char}, q = '"' ∨ q = '\'' → isWhitespace q = false := by
    rintro q (rfl | rfl) <;> decide
  constructor
  · rintro ⟨space, q, inner, tail, rfl, hblank, hq', hinner⟩
    rw [trimStart_blank hblank, trimStart_cons (hspace hq')] at h
    cases h
    exact ⟨inner, tail, find_append hinner⟩
  · rintro ⟨inner, tail, hfind⟩
    obtain ⟨space, hrhs, hblank⟩ := trimStart_eq h
    obtain ⟨hrest, hinner⟩ := find_eq_some hfind
    exact ⟨space, quote, inner, tail, by rw [hrhs, hrest], hblank, hq, hinner⟩

theorem parseQuoted_eq_iff (hq : quote = '"' ∨ quote = '\'') (h : trimStart rhs = quote :: rest) :
    parseQuoted n raw quote rest = bashScalar.quoted n raw quote rest ↔ ¬ HashBehindQuote rhs := by
  rw [hashBehindQuote_iff hq h, parseQuoted, bashScalar.quoted]
  cases hf : find quote rest with
  | none => simp
  | some r =>
    obtain ⟨inner, tail⟩ := r
    dsimp only
    by_cases hhash : tail.head? = some '#'
    · obtain ⟨tail, rfl⟩ : ∃ tail', tail = '#' :: tail' := List.head?_eq_some_iff.mp hhash
      rw [if_pos (isSkipped_iff.mpr (.inr hhash)), if_neg (by rw [not_endsScalar_hash]; decide)]
      simp
    · have hne : ¬ ∃ i t, some (inner, tail) = some (i, '#' :: t) := by
        rintro ⟨i, t, he⟩
        cases he
        exact hhash rfl
      have hiff : isSkipped tail = true ↔ endsScalar tail = true :=
        isSkipped_iff.trans (or_iff_left hhash)
      simp only [hiff, hne, not_false_eq_true]

end Quoted

section Bare

theorem beforeComment_blank {space : List Char} (h : IsBlank space) (b : Bool) (c : Char)
    (s : List Char) (hc : c ≠ '#') :
    beforeComment b (space ++ c :: s) = space ++ c :: beforeComment (isWhitespace c) s := by
  induction space generalizing b with
  | nil => rw [List.nil_append, beforeComment, if_neg fun h => hc h.1, List.nil_append]
  | cons d space ih =>
    obtain ⟨hd, hs⟩ := List.forall_mem_cons.mp h
    have hne : d ≠ '#' := by
      rintro rfl
      exact absurd hd (by decide)
    rw [List.cons_append, beforeComment, if_neg fun h => hne h.1, ih hs, List.cons_append]

/-- The first comment, for a text that `afterSpace` tells of, is behind a white space that is not
ASCII. -/
def WideFrom (afterSpace : Bool) (s : List Char) : Prop :=
  ∃ before space after, s = before ++ space :: '#' :: after ∧ isWhitespace space = true ∧
    isAsciiWhitespace space = false ∧ beforeComment afterSpace before = before

theorem wideFrom_hash (s : List Char) : ¬ WideFrom true ('#' :: s) := by
  rintro ⟨before, space, after, hs, hw, -, hb⟩
  cases before with
  | nil =>
    cases hs
    exact absurd hw (by decide)
  | cons d before =>
    cases hs
    cases hb

theorem wideFrom_cons {b : Bool} {c : Char} {s : List Char} (hc : ¬ (c = '#' ∧ b = true)) :
    WideFrom b (c :: s) ↔ isAsciiWhitespace c = false ∧ isWhitespace c = true ∧ s.head? = some '#' ∨
      WideFrom (isWhitespace c) s := by
  constructor
  · rintro ⟨before, space, after, hs, hw, ha, hb⟩
    cases before with
    | nil =>
      cases hs
      exact .inl ⟨ha, hw, rfl⟩
    | cons d before =>
      cases hs
      rw [beforeComment, if_neg hc] at hb
      exact .inr ⟨before, space, after, rfl, hw, ha, (List.cons.inj hb).2⟩
  · rintro (⟨ha, hw, hs⟩ | ⟨before, space, after, rfl, hw, ha, hb⟩)
    · obtain ⟨after, rfl⟩ := List.head?_eq_some_iff.mp hs
      exact ⟨[], c, after, rfl, hw, ha, rfl⟩
    · refine ⟨c :: before, space, after, rfl, hw, ha, ?_⟩
      rw [beforeComment, if_neg hc, hb]

/-- The two ways to cut differ where the first comment follows a white space that is not ASCII. -/
theorem strip_eq_iff (b b' : Bool) (s : List Char) (h : b = true → b' = true) :
    stripTrailingComment b s = beforeComment b' s ↔
      ¬ (b = false ∧ b' = true ∧ s.head? = some '#' ∨ WideFrom b' s) := by
  induction s generalizing b b' with
  | nil => simp [stripTrailingComment, beforeComment, WideFrom]
  | cons c s ih =>
    by_cases hc : c = '#' ∧ b' = true
    · obtain ⟨rfl, rfl⟩ := hc
      have hw := wideFrom_hash s
      cases b <;> simp [stripTrailingComment, beforeComment, hw]
    · have hb : ¬ (c = '#' ∧ b = true) := fun hb => hc ⟨hb.1, h hb.2⟩
      have hhead : ¬ (b = false ∧ b' = true ∧ (c :: s).head? = some '#') := by
        rintro ⟨-, hb', hh⟩
        exact hc ⟨Option.some.inj hh, hb'⟩
      rw [stripTrailingComment, if_neg hb, beforeComment, if_neg hc, List.cons_inj_right,
        ih _ _ isWhitespace_of_ascii, or_iff_right hhead, wideFrom_cons hc]

/-- Behind white space and a first character, the rest decides. -/
theorem hashBehindWide_iff {space s : List Char} {c : Char} (hspace : IsBlank space)
    (hc : isWhitespace c = false) (hne : c ≠ '#') :
    HashBehindWide (space ++ c :: s) ↔ WideFrom false s := by
  constructor
  · rintro ⟨before, w, after, hs, hw, ha, hblank, hb⟩
    obtain ⟨a, rfl, hsplit⟩ | ⟨a, rfl, -⟩ := List.append_eq_append_iff.mp hs
    · cases a with
      | nil => exact absurd hspace (by simpa using hblank)
      | cons d a =>
        cases hsplit
        rw [beforeComment_blank hspace _ _ _ hne, hc] at hb
        exact ⟨a, w, after, rfl, hw, ha, (List.cons.inj (List.append_cancel_left hb)).2⟩
    · exact absurd (fun d hd => hspace d (List.mem_append_left _ hd)) hblank
  · rintro ⟨before, w, after, rfl, hw, ha, hb⟩
    refine ⟨space ++ c :: before, w, after, by simp, hw, ha, ?_, ?_⟩
    · intro hblank
      exact absurd (hblank c (by simp)) (by simp [hc])
    · rw [beforeComment_blank hspace _ _ _ hne, hc, hb]

theorem beforeComment_isBlank {space : List Char} (h : IsBlank space) (b : Bool) :
    beforeComment b space = space := by
  induction space generalizing b with
  | nil => rfl
  | cons d space ih =>
    obtain ⟨hd, hs⟩ := List.forall_mem_cons.mp h
    have hne : d ≠ '#' := by
      rintro rfl
      exact absurd hd (by decide)
    rw [beforeComment, if_neg fun h => hne h.1, ih hs]

theorem beforeComment_hash {space : List Char} (h : IsBlank space) (hne : space ≠ []) (b : Bool)
    (s : List Char) : beforeComment b (space ++ '#' :: s) = space := by
  induction space generalizing b with
  | nil => exact absurd rfl hne
  | cons d space ih =>
    obtain ⟨hd, hs⟩ := List.forall_mem_cons.mp h
    have hd' : d ≠ '#' := by
      rintro rfl
      exact absurd hd (by decide)
    rw [List.cons_append, beforeComment, if_neg fun h => hd' h.1]
    by_cases hnil : space = []
    · rw [hnil, List.nil_append, beforeComment, if_pos ⟨rfl, hd⟩]
    · rw [ih hs hnil]

/-- White space alone, or white space before a `#`, gives an empty value. -/
theorem not_hashBehindWide {space : List Char} (hspace : IsBlank space) (hne : space ≠ [])
    (s : List Char) : ¬ HashBehindWide (space ++ '#' :: s) := by
  rintro ⟨before, w, after, hs, -, -, hblank, hb⟩
  obtain ⟨a, rfl, hsplit⟩ | ⟨a, rfl, -⟩ := List.append_eq_append_iff.mp hs
  · cases a with
    | nil => exact absurd hspace (by simpa using hblank)
    | cons d a =>
      cases hsplit
      rw [beforeComment_hash hspace hne] at hb
      exact absurd (List.append_cancel_left (hb.symm.trans (List.append_nil space).symm)) (by simp)
  · exact absurd (fun d hd => hspace d (List.mem_append_left _ hd)) hblank

/-- An unquoted value is cut alike, or the two values differ. -/
theorem bare_eq_iff (rhs : List Char) :
    ((stripTrailingComment true (trimStart rhs)).rdropWhile isWhitespace =
        (trimStart (beforeComment false rhs)).rdropWhile isWhitespace) ↔
      ¬ (rhs.head? = some '#' ∨ HashBehindWide rhs) := by
  obtain ⟨space, hrhs, hspace⟩ := trimStart_eq (rfl : trimStart rhs = trimStart rhs)
  have hhead : ∀ s, space ≠ [] → (space ++ s).head? ≠ some '#' := by
    intro s hne hh
    obtain ⟨d, ds, rfl⟩ := List.exists_cons_of_ne_nil hne
    cases hh
    exact absurd (hspace '#' (List.mem_cons_self ..)) (by decide)
  cases ht : trimStart rhs with
  | nil =>
    rw [ht, List.append_nil] at hrhs
    subst hrhs
    refine iff_of_true ?_ ?_
    · rw [beforeComment_isBlank hspace, ht]
      rfl
    · rintro (hh | ⟨before, w, after, hs, -, -, hblank, -⟩)
      · refine hhead [] ?_ (by rwa [List.append_nil])
        rintro rfl
        cases hh
      · exact hblank fun d hd => hspace d (by rw [hs]; exact List.mem_append_left _ hd)
  | cons c s =>
    rw [ht] at hrhs
    have hc : isWhitespace c = false := by
      have hdrop := List.head?_dropWhile_not isWhitespace rhs
      rw [← trimStart, ht] at hdrop
      simpa using hdrop
    by_cases hne : c = '#'
    · rw [hne, hrhs, hne, stripTrailingComment, if_pos ⟨rfl, rfl⟩]
      by_cases hnil : space = []
      · have hdiff := trimEnd_eq_iff [] (beforeComment (isWhitespace '#') s) '#' (by decide)
        refine iff_of_false (fun he => hdiff ?_) (by simp [hnil])
        rw [hnil, List.nil_append, beforeComment, if_neg (by simp), trimStart_cons (by decide)] at he
        exact he.symm
      · refine iff_of_true ?_ (not_or.mpr ⟨hhead _ hnil, not_hashBehindWide hspace hnil s⟩)
        have htrim := trimStart_blank (t := []) hspace
        rw [List.append_nil] at htrim
        rw [beforeComment_hash hspace hnil, htrim]
        rfl
    · have hh : ¬ rhs.head? = some '#' := by
        rw [hrhs]
        by_cases hnil : space = []
        · simp [hnil, hne]
        · exact hhead _ hnil
      have ha : isAsciiWhitespace c = false := by
        by_contra ha
        rw [isWhitespace_of_ascii (Bool.of_not_eq_false ha)] at hc
        cases hc
      rw [or_iff_right hh, hrhs, hashBehindWide_iff hspace hc hne,
        beforeComment_blank hspace _ _ _ hne, trimStart_blank hspace, trimStart_cons hc,
        stripTrailingComment, if_neg fun h => hne h.1, hc, ha]
      have hcut := strip_eq_iff false false s id
      rw [or_iff_right (by simp)] at hcut
      rw [← hcut]
      refine ⟨fun he => ?_, fun he => by rw [he]⟩
      obtain heq | ⟨t, heq⟩ := strip_or false false id s
      · exact heq
      · rw [heq] at he
        exact absurd he (trimEnd_eq_iff (c :: beforeComment false s) t '#' (by decide))

end Bare

theorem parseScalar_bare {n : Nat} {raw rhs : List Char} (h : ¬ StartsQuoted rhs) :
    parseScalar n raw rhs =
      .ok (String.ofList ((stripTrailingComment true (trimStart rhs)).rdropWhile isWhitespace)) := by
  unfold parseScalar
  split
  · next rest ht => exact absurd ⟨'"', rest, ht, .inl rfl⟩ h
  · next rest ht => exact absurd ⟨'\'', rest, ht, .inr rfl⟩ h
  · rfl

theorem bashScalar_bare {n : Nat} {raw rhs : List Char} (h : ¬ StartsQuoted rhs) :
    bashScalar n raw rhs =
      .ok (String.ofList ((trimStart (beforeComment false rhs)).rdropWhile isWhitespace)) := by
  unfold bashScalar
  split
  · next rest ht => exact absurd ⟨'"', rest, ht, .inl rfl⟩ h
  · next rest ht => exact absurd ⟨'\'', rest, ht, .inr rfl⟩ h
  · rfl

/-- An assignment has the value that it has in `bash`, unless a `#` is misread. -/
theorem parseScalar_eq_iff (lineNo : Nat) (raw rhs : List Char) :
    parseScalar lineNo raw rhs = bashScalar lineNo raw rhs ↔ ¬ IsMisread rhs := by
  by_cases hq : StartsQuoted rhs
  · have hhead : ¬ rhs.head? = some '#' := by
      intro hh
      obtain ⟨r, rfl⟩ := List.head?_eq_some_iff.mp hh
      obtain ⟨quote, rest, ht, hquote⟩ := hq
      rw [trimStart_cons (by decide)] at ht
      cases ht
      exact absurd hquote (by decide)
    have hrest : ¬ (rhs.head? = some '#' ∨ ¬ StartsQuoted rhs ∧ HashBehindWide rhs) :=
      not_or.mpr ⟨hhead, fun h => h.1 hq⟩
    obtain ⟨quote, rest, ht, hquote⟩ := hq
    rw [IsMisread, or_iff_left hrest, ← parseQuoted_eq_iff hquote ht, parseScalar, bashScalar, ht]
    obtain rfl | rfl := hquote <;> rfl
  · have hquote : ¬ HashBehindQuote rhs := by
      rintro ⟨space, quote, inner, tail, rfl, hblank, hquote, -⟩
      have hq' : isWhitespace quote = false := by
        obtain rfl | rfl := hquote <;> decide
      exact hq ⟨quote, _, (trimStart_blank hblank).trans (trimStart_cons hq'), hquote⟩
    rw [IsMisread, or_iff_right hquote, parseScalar_bare hq, bashScalar_bare hq, Except.ok.injEq,
      String.ofList_inj, bare_eq_iff]
    simp only [hq, not_false_eq_true, true_and]

theorem hash_misread : parseScalar 1 "GHCR_TAG=#v1".toList "#v1".toList ≠
    bashScalar 1 "GHCR_TAG=#v1".toList "#v1".toList := by
  decide

end Hbird.Config
