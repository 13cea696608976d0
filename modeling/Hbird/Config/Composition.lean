import Hbird.Config.Arrays

namespace Hbird.Config

open Hbird.Text

/-- What a line is, where it is not inside an array. -/
inductive Reading : Type
  | skipped
  | array (key rest : List Char)
  | scalar (key rhs : List Char)
  | refused
  deriving DecidableEq

def readingOf (key : List Char) : List Char → Reading
  | '(' :: rest => .array key rest
  | rhs => .scalar key rhs

def reading (line : List Char) : Reading :=
  if isSkipped line then .skipped
  else match find '=' (trimStart line) with
    | none => .refused
    | some (key, rhs) => if isValidKey key then readingOf key rhs else .refused

/-- An assignment of a text, with the line that it begins on. -/
abbrev Assignment := String × Nat × Value

/-- The assignments from the `lineNo`-th line on, one after the other. -/
def assignments : Nat → Nat → List (List Char) → Except Error (List Assignment)
  | _, _, [] => .ok []
  | skip + 1, lineNo, _ :: lines => assignments skip (lineNo + 1) lines
  | 0, lineNo, line :: lines =>
    match reading line with
    | .skipped => assignments 0 (lineNo + 1) lines
    | .array key rest =>
      parseArray (String.ofList key) lineNo rest lines >>= fun r =>
        (assignments r.2 (lineNo + 1) lines).map ((String.ofList key, lineNo, .array r.1) :: ·)
    | .scalar key rhs =>
      parseScalar lineNo line rhs >>= fun text =>
        (assignments 0 (lineNo + 1) lines).map ((String.ofList key, lineNo, .scalar text) :: ·)
    | .refused => .error (.unrecognizedLine lineNo (String.ofList line))

def Raw.lookup (raw : Raw) (key : String) : Option (Nat × Value) :=
  (raw.find? (·.1 = key)).map (·.2)

/-- The assignments made over `raw`. -/
def Raw.assign (raw : Raw) (as : List Assignment) : Raw :=
  as.foldl (fun raw a => raw.insert a.1 a.2.1 a.2.2) raw

def Assignment.shift (d : Nat) (a : Assignment) : Assignment := (a.1, a.2.1 + d, a.2.2)

section Raw

variable {raw : Raw} {key key' : String} {lineNo : Nat} {value : Value} {as : List Assignment}

theorem Raw.lookup_filter (h : key ≠ key') :
    Raw.lookup (raw.filter (·.1 ≠ key')) key = raw.lookup key := by
  induction raw with
  | nil => rfl
  | cons a raw ih =>
    rw [lookup, lookup] at ih ⊢
    by_cases ha : a.1 = key'
    · have hne : a.1 ≠ key := fun he => h (he.symm.trans ha)
      simpa [List.filter_cons, ha, List.find?_cons, h.symm] using ih
    · by_cases hk : a.1 = key
      · simp [hk, h]
      · simpa [List.filter_cons, ha, List.find?_cons, hk] using ih

theorem Raw.lookup_insert :
    (raw.insert key' lineNo value).lookup key =
      if key' = key then some (lineNo, value) else raw.lookup key := by
  by_cases h : key' = key
  · simp [insert, lookup, h]
  · rw [if_neg h, insert, lookup, List.find?_cons_of_neg (by simpa using h)]
    exact lookup_filter (Ne.symm h)

theorem Raw.lookup_assign :
    (raw.assign as).lookup key = ((Raw.assign [] as).lookup key).or (raw.lookup key) := by
  induction as using List.reverseRecOn with
  | nil => rfl
  | append_singleton as a ih =>
    rw [assign, assign, List.foldl_concat, List.foldl_concat, lookup_insert, lookup_insert]
    by_cases h : a.1 = key
    · rw [if_pos h, if_pos h, Option.some_or]
    · rw [if_neg h, if_neg h]
      exact ih

theorem Raw.assign_append {bs : List Assignment} :
    raw.assign (as ++ bs) = (raw.assign as).assign bs := List.foldl_append

/-- The last assignment of a key counts. -/
theorem Raw.lookup_assign_eq_some {line : Nat} :
    (Raw.assign [] as).lookup key = some (line, value) ↔
      ∃ before after, as = before ++ (key, line, value) :: after ∧ ∀ a ∈ after, a.1 ≠ key := by
  induction as using List.reverseRecOn with
  | nil =>
    refine iff_of_false (by simp [assign, lookup]) ?_
    rintro ⟨before, after, h, -⟩
    simp at h
  | append_singleton as a ih =>
    rw [assign_append]
    change (Raw.insert (Raw.assign [] as) a.1 a.2.1 a.2.2).lookup key = _ ↔ _
    rw [lookup_insert]
    by_cases h : a.1 = key
    · rw [if_pos h, Option.some_inj]
      constructor
      · intro hv
        refine ⟨as, [], ?_, by simp⟩
        rw [← h, ← hv]
      · rintro ⟨before, after, heq, hafter⟩
        obtain rfl | ⟨after, b, rfl⟩ := List.eq_nil_or_concat' after
        · rw [List.append_inj_right' heq rfl |> List.cons.inj |>.1]
        · rw [← List.cons_append, ← List.append_assoc] at heq
          obtain ⟨-, hb⟩ := List.append_inj' heq rfl
          obtain rfl := (List.cons.inj hb).1
          exact absurd h (hafter a (by simp))
    · rw [if_neg h, ih]
      constructor
      · rintro ⟨before, after, rfl, hafter⟩
        refine ⟨before, after ++ [a], by simp, ?_⟩
        intro b hb
        obtain hb | hb := List.mem_append.mp hb
        · exact hafter b hb
        · rw [List.mem_singleton.mp hb]
          exact h
      · rintro ⟨before, after, heq, hafter⟩
        obtain rfl | ⟨after, b, rfl⟩ := List.eq_nil_or_concat' after
        · rw [List.append_inj_right' heq rfl |> List.cons.inj |>.1] at h
          exact absurd rfl h
        · rw [← List.cons_append, ← List.append_assoc] at heq
          obtain ⟨has, -⟩ := List.append_inj' heq rfl
          exact ⟨before, after, has, fun b hb => hafter b (by simp [hb])⟩

theorem Raw.lookup_assign_eq_none :
    (Raw.assign [] as).lookup key = none ↔ ∀ a ∈ as, a.1 ≠ key := by
  induction as using List.reverseRecOn with
  | nil => simp [assign, lookup]
  | append_singleton as a ih =>
    rw [assign_append]
    change (Raw.insert (Raw.assign [] as) a.1 a.2.1 a.2.2).lookup key = _ ↔ _
    rw [lookup_insert, List.forall_mem_append, List.forall_mem_singleton, ← ih]
    by_cases h : a.1 = key <;> simp [h]

end Raw

section Lines

variable {skip lineNo d : Nat} {out : Raw} {lines more : List (List Char)} {as : List Assignment}
  {key : String} {body first line : List Char}

theorem map_eq_ok {α β : Type} {f : α → β} {x : Except Error α} {b : β} :
    x.map f = .ok b ↔ ∃ a, x = .ok a ∧ f a = b := by
  cases x <;> simp [Except.map]

theorem bind_eq_ok {α β : Type} {f : α → Except Error β} {x : Except Error α} {b : β} :
    x >>= f = .ok b ↔ ∃ a, x = .ok a ∧ f a = .ok b := by
  cases x <;> simp [bind, Except.bind]

theorem tokenizeLines_eq_assign :
    tokenizeLines skip lineNo out lines = (assignments skip lineNo lines).map out.assign := by
  induction lines generalizing skip lineNo out with
  | nil => rfl
  | cons line lines ih =>
    cases skip with
    | succ skip => exact ih
    | zero =>
      rw [tokenizeLines, assignments, reading]
      cases isSkipped line with
      | true => exact ih
      | false =>
        cases find '=' (trimStart line) with
        | none => rfl
        | some r =>
          obtain ⟨key, rhs⟩ := r
          dsimp only
          cases isValidKey key with
          | false => rfl
          | true =>
            by_cases hr : ∃ rest, rhs = '(' :: rest
            · obtain ⟨rest, rfl⟩ := hr
              change (parseArray _ _ _ _ >>= _) = Except.map _ (parseArray _ _ _ _ >>= _)
              cases parseArray (String.ofList key) lineNo rest lines with
              | error e => rfl
              | ok r =>
                simp only [bind, Except.bind, ih]
                cases assignments r.2 (lineNo + 1) lines <;> rfl
            · have hread : readingOf key rhs = .scalar key rhs :=
                readingOf.eq_2 key rhs fun rest h => hr ⟨rest, h⟩
              simp only [Bool.not_true, if_true, if_false, Bool.false_eq_true, hread]
              split
              · next rest => exact absurd ⟨rest, rfl⟩ hr
              · cases parseScalar lineNo line rhs with
                | error e => rfl
                | ok text =>
                  simp only [bind, Except.bind, ih]
                  cases assignments 0 (lineNo + 1) lines <;> rfl

theorem parseArrayLines_ok {openLine extra : Nat} {r : List String × Nat}
    (h : parseArrayLines key openLine extra body lines = .ok r) (more : List (List Char)) :
    r.2 ≤ extra + lines.length ∧ parseArrayLines key openLine extra body (lines ++ more) = .ok r := by
  induction lines generalizing extra body with
  | nil => cases h
  | cons line lines ih =>
    rw [List.cons_append, parseArrayLines]
    rw [parseArrayLines] at h
    cases hf : find ')' line with
    | some found =>
      rw [hf] at h
      refine ⟨?_, h⟩
      obtain ⟨elements, -, rfl⟩ := map_eq_ok.mp h
      simp
    | none =>
      rw [hf] at h
      dsimp only at h ⊢
      cases hs : isSkipped line with
      | true =>
        rw [hs, if_pos rfl] at h
        obtain ⟨hle, heq⟩ := ih h
        exact ⟨by simp; omega, heq⟩
      | false =>
        rw [hs, if_neg Bool.false_ne_true] at h
        obtain ⟨hle, heq⟩ := ih h
        exact ⟨by simp; omega, heq⟩

/-- An array that is closed takes none of the lines that are put behind. -/
theorem parseArray_ok {openLine : Nat} {r : List String × Nat}
    (h : parseArray key openLine first lines = .ok r) (more : List (List Char)) :
    r.2 ≤ lines.length ∧ parseArray key openLine first (lines ++ more) = .ok r := by
  rw [parseArray] at h ⊢
  cases hf : find ')' first with
  | some found =>
    rw [hf] at h
    refine ⟨?_, h⟩
    obtain ⟨elements, -, rfl⟩ := map_eq_ok.mp h
    simp
  | none =>
    rw [hf] at h
    obtain ⟨hle, heq⟩ := parseArrayLines_ok h more
    exact ⟨by omega, heq⟩

/-- The lines behind give their own assignments. -/
theorem assignments_append (h : assignments skip lineNo lines = .ok as)
    (hskip : skip ≤ lines.length) (more : List (List Char)) :
    assignments skip lineNo (lines ++ more) =
      (assignments 0 (lineNo + lines.length) more).map (as ++ ·) := by
  induction lines generalizing skip lineNo as with
  | nil =>
    obtain rfl : skip = 0 := by simpa using hskip
    cases h
    rw [List.nil_append, List.length_nil, Nat.add_zero]
    cases assignments 0 lineNo more <;> rfl
  | cons line lines ih =>
    have hlen : lineNo + (line :: lines).length = lineNo + 1 + lines.length := by
      rw [List.length_cons]
      omega
    rw [List.cons_append, hlen]
    cases skip with
    | succ skip => exact ih h (by simpa using hskip)
    | zero =>
      rw [assignments] at h ⊢
      cases hr : reading line with
      | skipped =>
        rw [hr] at h
        exact ih h (Nat.zero_le _)
      | array key rest =>
        rw [hr] at h
        obtain ⟨r, hparse, h⟩ := bind_eq_ok.mp h
        obtain ⟨as', has, rfl⟩ := map_eq_ok.mp h
        obtain ⟨hle, hmore⟩ := parseArray_ok hparse more
        dsimp only
        rw [hmore]
        change Except.map _ (assignments r.2 (lineNo + 1) (lines ++ more)) = _
        rw [ih has hle]
        cases assignments 0 (lineNo + 1 + lines.length) more <;> rfl
      | scalar key rhs =>
        rw [hr] at h
        obtain ⟨text, hparse, h⟩ := bind_eq_ok.mp h
        obtain ⟨as', has, rfl⟩ := map_eq_ok.mp h
        dsimp only
        rw [hparse]
        change Except.map _ (assignments 0 (lineNo + 1) (lines ++ more)) = _
        rw [ih has (Nat.zero_le _)]
        cases assignments 0 (lineNo + 1 + lines.length) more <;> rfl
      | refused =>
        rw [hr] at h
        cases h

end Lines

section Shift

variable {skip lineNo d : Nat} {lines : List (List Char)} {as : List Assignment} {key : String}
  {body first line rhs : List Char}

theorem toOption_map {α β : Type} (f : α → β) (x : Except Error α) :
    (x.map f).toOption = x.toOption.map f := by
  cases x <;> rfl

theorem toOption_bind {α β : Type} (f : α → Except Error β) (x : Except Error α) :
    (x >>= f).toOption = x.toOption.bind fun a => (f a).toOption := by
  cases x <;> rfl

theorem toOption_eq_some {α : Type} {x : Except Error α} {a : α} :
    x.toOption = some a ↔ x = .ok a := by
  cases x <;> simp [Except.toOption]

theorem splitBody_toOption (n m : Nat) (text text' : String) (mode : Mode) (acc body : List Char) :
    (splitBody n text mode acc body).toOption = (splitBody m text' mode acc body).toOption := by
  induction body generalizing mode acc with
  | nil => cases mode <;> rfl
  | cons c body ih =>
    cases mode with
    | between =>
      rw [splitBody, splitBody]
      split_ifs
      · exact ih _ _
      · exact ih _ _
      · exact ih _ _
    | quoted quote =>
      rw [splitBody, splitBody]
      split_ifs
      · rw [toOption_map, toOption_map, ih]
      · exact ih _ _
    | bare =>
      rw [splitBody, splitBody]
      split_ifs
      · rw [toOption_map, toOption_map, ih]
      · exact ih _ _

theorem tokenizeArrayBody_toOption (n m : Nat) (body : List Char) :
    (tokenizeArrayBody body n).toOption = (tokenizeArrayBody body m).toOption :=
  splitBody_toOption n m _ _ _ _ _

theorem parseArrayLines_toOption (n m extra : Nat) :
    (parseArrayLines key n extra body lines).toOption =
      (parseArrayLines key m extra body lines).toOption := by
  induction lines generalizing extra body with
  | nil => rfl
  | cons line lines ih =>
    rw [parseArrayLines, parseArrayLines]
    cases find ')' line with
    | some found =>
      dsimp only
      rw [toOption_map, toOption_map, tokenizeArrayBody_toOption]
    | none =>
      dsimp only
      split_ifs
      · exact ih _
      · exact ih _

theorem parseArray_toOption (n m : Nat) :
    (parseArray key n first lines).toOption = (parseArray key m first lines).toOption := by
  rw [parseArray, parseArray]
  cases find ')' first with
  | some found =>
    dsimp only
    rw [toOption_map, toOption_map, tokenizeArrayBody_toOption]
  | none => exact parseArrayLines_toOption n m 0

theorem parseScalar_toOption (n m : Nat) (line line' : List Char) :
    (parseScalar n line rhs).toOption = (parseScalar m line' rhs).toOption := by
  apply Option.ext
  intro text
  rw [toOption_eq_some, toOption_eq_some]
  exact ⟨fun h => parseScalar_isOk h m, fun h => parseScalar_isOk h n⟩

/-- The numbers of the lines are in the assignments only. -/
theorem assignments_shift (skip lineNo d : Nat) (lines : List (List Char)) :
    (assignments skip (lineNo + d) lines).toOption =
      (assignments skip lineNo lines).toOption.map (List.map (Assignment.shift d)) := by
  induction lines generalizing skip lineNo with
  | nil => rfl
  | cons line lines ih =>
    have hsucc : lineNo + d + 1 = lineNo + 1 + d := by omega
    cases skip with
    | succ skip =>
      rw [assignments, assignments, hsucc]
      exact ih skip (lineNo + 1)
    | zero =>
      rw [assignments, assignments, hsucc]
      cases reading line with
      | skipped => exact ih 0 (lineNo + 1)
      | refused => rfl
      | array key rest =>
        dsimp only
        rw [toOption_bind, toOption_bind, parseArray_toOption (lineNo + d) lineNo]
        cases (parseArray (String.ofList key) lineNo rest lines).toOption with
        | none => rfl
        | some r =>
          rw [Option.bind_some, Option.bind_some, toOption_map, toOption_map, ih, Option.map_map,
            Option.map_map]
          rfl
      | scalar key rhs =>
        dsimp only
        rw [toOption_bind, toOption_bind, parseScalar_toOption (lineNo + d) lineNo line line]
        cases (parseScalar lineNo line rhs).toOption with
        | none => rfl
        | some text =>
          rw [Option.bind_some, Option.bind_some, toOption_map, toOption_map, ih, Option.map_map,
            Option.map_map]
          rfl

theorem Raw.lookup_assign_shift :
    (Raw.assign [] (as.map (Assignment.shift d))).lookup key =
      ((Raw.assign [] as).lookup key).map fun r => (r.1 + d, r.2) := by
  induction as using List.reverseRecOn with
  | nil => rfl
  | append_singleton as a ih =>
    rw [List.map_append, List.map_singleton, assign, assign, List.foldl_concat, List.foldl_concat,
      lookup_insert, lookup_insert]
    by_cases h : a.1 = key
    · simp [Assignment.shift, h]
    · rw [if_neg h, if_neg (by simpa [Assignment.shift] using h)]
      exact ih

end Shift

section LineEnd

variable {skip lineNo : Nat} {as : List Assignment} {s t l rhs first body : List Char}
  {init : List (List Char)} {key text : String}

/-- A character put in front of the first line. -/
def consLine (c : Char) : List (List Char) → List (List Char)
  | [] => [[c]]
  | l :: ls => (c :: l) :: ls

theorem splitLines_cons {c : Char} {cs : List Char} (hn : c ≠ '\n')
    (hr : ∀ ds, c = '\r' → cs ≠ '\n' :: ds) : splitLines (c :: cs) = consLine c (splitLines cs) := by
  refine (splitLines.eq_4 c cs hn hr).trans ?_
  cases splitLines cs with
  | nil => rfl
  | cons l ls => rfl

theorem consLine_append {c : Char} {xs : List (List Char)} (h : xs ≠ []) (ys : List (List Char)) :
    consLine c (xs ++ ys) = consLine c xs ++ ys := by
  cases xs with
  | nil => exact absurd rfl h
  | cons x xs => rfl

theorem ne_newline_append {c : Char} {cs : List Char} (hcs : cs ≠ [])
    (hr : ∀ ds, c = '\r' → cs ≠ '\n' :: ds) (s : List Char) :
    ∀ ds, c = '\r' → cs ++ s ≠ '\n' :: ds := by
  intro ds hc h
  cases cs with
  | nil => exact hcs rfl
  | cons d cs =>
    obtain ⟨rfl, -⟩ := List.cons.inj h
    exact hr cs hc rfl

theorem splitLines_append_newline (s t : List Char) :
    splitLines (s ++ '\n' :: t) = splitLines (s ++ ['\n']) ++ splitLines t := by
  have hcons : ∀ {c : Char} {cs : List Char}, (c = '\n' → False) →
      (∀ ds, c = '\r' → cs = '\n' :: ds → False) →
      splitLines (cs ++ '\n' :: t) = splitLines (cs ++ ['\n']) ++ splitLines t →
      splitLines (c :: cs ++ '\n' :: t) = splitLines (c :: cs ++ ['\n']) ++ splitLines t := by
    intro c cs hn hr ih
    by_cases hcr : c = '\r' ∧ cs = []
    · obtain ⟨rfl, rfl⟩ := hcr
      rfl
    · have hr' : ∀ u ds, c = '\r' → cs ++ '\n' :: u ≠ '\n' :: ds := by
        intro u ds hc
        exact ne_newline_append (fun h => hcr ⟨hc, h⟩) hr _ ds hc
      rw [List.cons_append, List.cons_append, splitLines_cons hn (hr' t),
        splitLines_cons hn (hr' []), ih, consLine_append (splitLines_ne_nil (by simp))]
  induction s using splitLines.induct with
  | case1 => rfl
  | case2 cs ih => exact congrArg ([] :: ·) ih
  | case3 cs ih => exact congrArg ([] :: ·) ih
  | case4 c cs hn hr hs ih => exact hcons hn hr ih
  | case5 c cs hn hr l ls hs ih => exact hcons hn hr ih

/-- A line feed at the end adds an empty line, or ends the last one and may take a carriage
return from it. -/
theorem splitLines_concat_newline (s : List Char) :
    splitLines (s ++ ['\n']) = splitLines s ++ [[]] ∨ splitLines (s ++ ['\n']) = splitLines s ∨
      ∃ init l, splitLines s = init ++ [l ++ ['\r']] ∧ splitLines (s ++ ['\n']) = init ++ [l] := by
  have hblank : ∀ {xs ys : List (List Char)},
      (ys = xs ++ [[]] ∨ ys = xs ∨ ∃ init l, xs = init ++ [l ++ ['\r']] ∧ ys = init ++ [l]) →
      [] :: ys = [] :: xs ++ [[]] ∨ [] :: ys = [] :: xs ∨
        ∃ init l, [] :: xs = init ++ [l ++ ['\r']] ∧ [] :: ys = init ++ [l] := by
    rintro xs ys (rfl | rfl | ⟨init, l, rfl, rfl⟩)
    · exact .inl rfl
    · exact .inr (.inl rfl)
    · exact .inr (.inr ⟨[] :: init, l, rfl, rfl⟩)
  induction s using splitLines.induct with
  | case1 => exact .inl rfl
  | case2 cs ih => exact hblank ih
  | case3 cs ih => exact hblank ih
  | case4 c cs hn hr hs ih =>
    obtain rfl : cs = [] := by
      by_contra h
      exact splitLines_ne_nil h hs
    by_cases hc : c = '\r'
    · subst hc
      exact .inr (.inr ⟨[], [], rfl, rfl⟩)
    · refine .inr (.inl ?_)
      rw [List.singleton_append, splitLines_cons hn fun _ h => absurd h hc,
        splitLines_cons hn fun _ h => absurd h hc]
      rfl
  | case5 c cs hn hr l ls hs ih =>
    have hcs : cs ≠ [] := by
      rintro rfl
      cases hs
    rw [List.cons_append, splitLines_cons hn hr,
      splitLines_cons hn (ne_newline_append hcs hr ['\n']), hs]
    rw [hs] at ih
    obtain h | h | ⟨init, l', hl, h⟩ := ih
    · rw [h]
      exact .inl rfl
    · rw [h]
      exact .inr (.inl rfl)
    · rw [h]
      refine .inr (.inr ?_)
      cases init with
      | nil =>
        obtain ⟨rfl, rfl⟩ := List.cons.inj hl
        exact ⟨[], c :: l', rfl, rfl⟩
      | cons x init =>
        obtain ⟨rfl, rfl⟩ := List.cons.inj hl
        exact ⟨(c :: l) :: init, l', rfl, rfl⟩

theorem find_concat {c d : Char} (h : d ≠ c) (s : List Char) :
    find c (s ++ [d]) = (find c s).map fun r => (r.1, r.2 ++ [d]) := by
  induction s with
  | nil => simp [find, h]
  | cons x s ih =>
    rw [List.cons_append, find, find, ih]
    split_ifs
    · rfl
    · cases find c s <;> rfl

/-- A carriage return is white space to the reader. -/
theorem trimStart_concat_cr (s : List Char) :
    trimStart (s ++ ['\r']) = if trimStart s = [] then [] else trimStart s ++ ['\r'] := by
  rw [trimStart, trimStart, List.dropWhile_append]
  cases s.dropWhile isWhitespace <;> rfl

theorem isSkipped_concat_cr (s : List Char) : isSkipped (s ++ ['\r']) = isSkipped s := by
  rw [isSkipped, isSkipped, trimStart_concat_cr]
  cases trimStart s <;> rfl

/-- The reading of a line with a carriage return behind it. -/
def Reading.concatCr : Reading → Reading
  | .skipped => .skipped
  | .array key rest => .array key (rest ++ ['\r'])
  | .scalar key rhs => .scalar key (rhs ++ ['\r'])
  | .refused => .refused

theorem readingOf_concat_cr (key rhs : List Char) :
    readingOf key (rhs ++ ['\r']) = (readingOf key rhs).concatCr := by
  cases rhs with
  | nil => rfl
  | cons c rhs =>
    by_cases hc : c = '('
    · subst hc
      rfl
    · have hne : ∀ {s rest : List Char}, c :: s = '(' :: rest → False :=
        fun h => hc (List.cons.inj h).1
      rw [List.cons_append, readingOf.eq_2 _ _ fun _ => hne, readingOf.eq_2 _ _ fun _ => hne]
      rfl

theorem reading_concat_cr (l : List Char) : reading (l ++ ['\r']) = (reading l).concatCr := by
  rw [reading, reading, isSkipped_concat_cr, trimStart_concat_cr]
  cases hs : isSkipped l with
  | true => rfl
  | false =>
    have hne : trimStart l ≠ [] := by
      intro h
      rw [isSkipped, h] at hs
      cases hs
    rw [if_neg hne, find_concat (by decide)]
    cases find '=' (trimStart l) with
    | none => rfl
    | some r =>
      cases hk : isValidKey r.1 with
      | false => simp [hk, Reading.concatCr]
      | true => simpa [hk] using readingOf_concat_cr r.1 r.2

theorem stripTrailingComment_concat_cr (afterSpace : Bool) (s : List Char) :
    stripTrailingComment afterSpace (s ++ ['\r']) = stripTrailingComment afterSpace s ∨
      stripTrailingComment afterSpace (s ++ ['\r']) =
        stripTrailingComment afterSpace s ++ ['\r'] := by
  induction s generalizing afterSpace with
  | nil => cases afterSpace <;> exact .inr rfl
  | cons c s ih =>
    rw [List.cons_append, stripTrailingComment, stripTrailingComment]
    split_ifs with h
    · exact .inl rfl
    · obtain heq | heq := ih (isAsciiWhitespace c)
      · exact .inl (by rw [heq])
      · exact .inr (by rw [heq, List.cons_append])

theorem parseQuoted_concat_cr {quote : Char} {raw : List Char} (hq : '\r' ≠ quote)
    (h : parseQuoted lineNo raw quote (rhs ++ ['\r']) = .ok text) :
    parseQuoted lineNo raw quote rhs = .ok text := by
  rw [parseQuoted, find_concat hq] at h
  rw [parseQuoted]
  cases hf : find quote rhs with
  | none =>
    rw [hf] at h
    cases h
  | some r =>
    rw [hf] at h
    simpa [isSkipped_concat_cr] using h

theorem parseScalar_concat_cr {raw : List Char}
    (h : parseScalar lineNo raw (rhs ++ ['\r']) = .ok text) :
    parseScalar lineNo raw rhs = .ok text := by
  rw [parseScalar, trimStart_concat_cr] at h
  rw [parseScalar]
  cases ht : trimStart rhs with
  | nil =>
    rw [ht] at h
    exact h
  | cons c cs =>
    rw [ht, if_neg (by simp)] at h
    by_cases hd : c = '"'
    · subst hd
      exact parseQuoted_concat_cr (by decide) h
    by_cases hs : c = '\''
    · subst hs
      exact parseQuoted_concat_cr (by decide) h
    rw [List.cons_append] at h
    split at h
    · next heq => exact absurd (List.cons.inj heq).1 hd
    · next heq => exact absurd (List.cons.inj heq).1 hs
    · split
      · next heq => exact absurd (List.cons.inj heq).1 hd
      · next heq => exact absurd (List.cons.inj heq).1 hs
      · rw [← h]
        obtain heq | heq := stripTrailingComment_concat_cr true (c :: cs)
        · rw [← heq, List.cons_append]
        · rw [← List.cons_append, heq, List.rdropWhile_concat_pos _ _ _ (by decide)]

theorem parseArrayLines_concat_cr {openLine extra : Nat} {r : List String × Nat}
    (h : parseArrayLines key openLine extra body (init ++ [l ++ ['\r']]) = .ok r) :
    parseArrayLines key openLine extra body (init ++ [l]) = .ok r := by
  induction init generalizing extra body with
  | nil =>
    rw [List.nil_append, parseArrayLines, find_concat (by decide)] at h
    rw [List.nil_append, parseArrayLines]
    cases hf : find ')' l with
    | some found =>
      rw [hf] at h
      exact h
    | none =>
      rw [hf] at h
      simp [parseArrayLines] at h
  | cons line init ih =>
    rw [List.cons_append, parseArrayLines] at h ⊢
    cases hf : find ')' line with
    | some found =>
      rw [hf] at h
      exact h
    | none =>
      rw [hf] at h
      dsimp only at h ⊢
      split_ifs at h ⊢
      · exact ih h
      · exact ih h

theorem parseArray_concat_cr {openLine : Nat} {r : List String × Nat}
    (h : parseArray key openLine first (init ++ [l ++ ['\r']]) = .ok r) :
    parseArray key openLine first (init ++ [l]) = .ok r := by
  rw [parseArray] at h ⊢
  cases hf : find ')' first with
  | some found =>
    rw [hf] at h
    exact h
  | none =>
    rw [hf] at h
    exact parseArrayLines_concat_cr h

theorem parseArray_first_concat_cr {openLine : Nat} {r : List String × Nat}
    (h : parseArray key openLine (first ++ ['\r']) [] = .ok r) :
    parseArray key openLine first [] = .ok r := by
  rw [parseArray, find_concat (by decide)] at h
  rw [parseArray]
  cases hf : find ')' first with
  | some found =>
    rw [hf] at h
    exact h
  | none =>
    rw [hf] at h
    cases h

theorem assignments_concat_cr
    (h : assignments skip lineNo (init ++ [l ++ ['\r']]) = .ok as) :
    assignments skip lineNo (init ++ [l]) = .ok as := by
  induction init generalizing skip lineNo as with
  | nil =>
    cases skip with
    | succ skip => exact h
    | zero =>
      rw [List.nil_append, assignments, reading_concat_cr] at h
      rw [List.nil_append, assignments]
      cases hr : reading l with
      | skipped =>
        rw [hr] at h
        exact h
      | array key rest =>
        rw [hr] at h
        obtain ⟨r, hparse, h⟩ := bind_eq_ok.mp h
        exact bind_eq_ok.mpr ⟨r, parseArray_first_concat_cr hparse, h⟩
      | scalar key rhs =>
        rw [hr] at h
        obtain ⟨text, hparse, h⟩ := bind_eq_ok.mp h
        exact bind_eq_ok.mpr ⟨text, parseScalar_isOk (parseScalar_concat_cr hparse) _, h⟩
      | refused =>
        rw [hr] at h
        cases h
  | cons line init ih =>
    cases skip with
    | succ skip => exact ih h
    | zero =>
      rw [List.cons_append, assignments] at h ⊢
      cases hr : reading line with
      | skipped =>
        rw [hr] at h
        exact ih h
      | array key rest =>
        rw [hr] at h
        obtain ⟨r, hparse, h⟩ := bind_eq_ok.mp h
        obtain ⟨as', has, rfl⟩ := map_eq_ok.mp h
        exact bind_eq_ok.mpr ⟨r, parseArray_concat_cr hparse, map_eq_ok.mpr ⟨as', ih has, rfl⟩⟩
      | scalar key rhs =>
        rw [hr] at h
        obtain ⟨text, hparse, h⟩ := bind_eq_ok.mp h
        obtain ⟨as', has, rfl⟩ := map_eq_ok.mp h
        exact bind_eq_ok.mpr ⟨text, hparse, map_eq_ok.mpr ⟨as', ih has, rfl⟩⟩
      | refused =>
        rw [hr] at h
        cases h

/-- A line feed at the end assigns nothing. -/
theorem assignments_concat_newline (h : assignments 0 1 (splitLines s) = .ok as) :
    assignments 0 1 (splitLines (s ++ ['\n'])) = .ok as := by
  obtain heq | heq | ⟨init, l, hs, heq⟩ := splitLines_concat_newline s
  · rw [heq, assignments_append h (Nat.zero_le _)]
    change Except.ok (as ++ []) = _
    rw [List.append_nil]
  · rw [heq, h]
  · rw [hs] at h
    rw [heq]
    exact assignments_concat_cr h

end LineEnd

theorem tokenize_eq_assign (s : String) :
    tokenize s = (assignments 0 1 (splitLines s.toList)).map (Raw.assign []) := tokenizeLines_eq_assign

/-- `r'` is `m` overridden by `r`, whose lines have moved by `d`. -/
def Raw.Overridden (m r r' : Raw) (d : Nat) : Prop :=
  ∀ key, r'.lookup key = ((r.lookup key).map fun v => (v.1 + d, v.2)).or (m.lookup key)

section Tokenize

variable {a b : String} {m r : Raw}

/-- A text with assignments of its own, put behind another one on a line of its own. -/
theorem tokenize_append_eq (h : tokenize a = .ok m) (b : String) :
    ∃ n, n = (lines (a ++ "\n")).length ∧ tokenize (a ++ "\n" ++ b) =
      (assignments 0 (1 + n) (splitLines b.toList)).map m.assign := by
  rw [tokenize_eq_assign] at h
  obtain ⟨as, has, rfl⟩ := map_eq_ok.mp h
  refine ⟨_, rfl, ?_⟩
  have hchars : (a ++ "\n" ++ b).toList = a.toList ++ '\n' :: b.toList := by
    rw [String.toList_append, String.toList_append,
      show "\n".toList = ['\n'] from String.toList_ofList, List.append_assoc, List.singleton_append]
  have hlines : (lines (a ++ "\n")).length = (splitLines (a.toList ++ ['\n'])).length := by
    rw [lines, List.length_map, String.toList_append,
      show "\n".toList = ['\n'] from String.toList_ofList]
  rw [tokenize_eq_assign, hchars, splitLines_append_newline, hlines,
    assignments_append (assignments_concat_newline has) (Nat.zero_le _)]
  cases assignments 0 (1 + (splitLines (a.toList ++ ['\n'])).length) (splitLines b.toList) with
  | error e => rfl
  | ok bs =>
    change Except.ok _ = Except.ok _
    rw [Raw.assign_append]

theorem tokenize_append_ok_iff (h : tokenize a = .ok m) (b : String) :
    (∃ r, tokenize (a ++ "\n" ++ b) = .ok r) ↔ ∃ r, tokenize b = .ok r := by
  obtain ⟨n, -, heq⟩ := tokenize_append_eq h b
  rw [heq, tokenize_eq_assign]
  have hshift := assignments_shift 0 1 n (splitLines b.toList)
  cases hn : assignments 0 (1 + n) (splitLines b.toList) <;>
    cases h1 : assignments 0 1 (splitLines b.toList) <;>
    simp [hn, h1, Except.toOption, Except.map] at hshift ⊢

theorem tokenize_append_overridden (h : tokenize a = .ok m) (hb : tokenize b = .ok r)
    {r' : Raw} (hr' : tokenize (a ++ "\n" ++ b) = .ok r') :
    m.Overridden r r' (lines (a ++ "\n")).length := by
  obtain ⟨n, rfl, heq⟩ := tokenize_append_eq h b
  rw [heq] at hr'
  obtain ⟨bs', hbs', rfl⟩ := map_eq_ok.mp hr'
  rw [tokenize_eq_assign] at hb
  obtain ⟨bs, hbs, rfl⟩ := map_eq_ok.mp hb
  have hshift := assignments_shift 0 1 (lines (a ++ "\n")).length (splitLines b.toList)
  rw [hbs, hbs'] at hshift
  cases hshift
  intro key
  rw [Raw.lookup_assign, Raw.lookup_assign_shift]

end Tokenize

end Hbird.Config
