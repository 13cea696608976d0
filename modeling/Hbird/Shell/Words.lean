import Hbird.Shell.Lexer

namespace Hbird.Shell

/-- A character that means something to the shell wherever it stands outside quotes. -/
def isSpecial (c : Char) : Bool :=
  isBlank c || isOperator c || c == '\'' || c == '"' || c == '\\' || isBackquote c

/-- A character that makes an expansion of a dollar sign before it, or leaves open what the sign
stands for. -/
def beginsExpansion (c : Char) : Bool :=
  beginsName c || isParameter c || c == '(' || c == '{' || c == '['

def inertFrom (afterDollar : Bool) : List Char → Bool
  | [] => true
  | c :: cs => !isSpecial c && !(afterDollar && beginsExpansion c) && inertFrom (c == '$') cs

/-- A text that the shell reads as one word, and as itself. -/
def IsInert (a : List Char) : Prop := a ≠ [] ∧ a.head? ≠ some '#' ∧ inertFrom false a = true

instance (a : List Char) : Decidable (IsInert a) := inferInstanceAs (Decidable (_ ∧ _ ∧ _))

/-- The arguments with a space between any two of them. -/
def spaced (args : List (List Char)) : List Char := [' '].intercalate args

theorem mapM_eq_some {α β : Type} {f : α → Option β} {as : List α} {bs : List β} :
    as.mapM f = some bs ↔ List.Forall₂ (fun a b => f a = some b) as bs := by
  induction as generalizing bs with
  | nil => simp [eq_comm]
  | cons a as ih =>
    rw [List.mapM_cons]
    cases bs with
    | nil => cases f a <;> cases as.mapM f <;> simp
    | cons b bs =>
      rw [List.forall₂_cons, ← ih]
      cases f a <;> cases as.mapM f <;> simp

theorem State.run_append (s : State) (cs ds : List Char) :
    s.run (cs ++ ds) = (s.run cs).bind (·.run ds) := by
  induction cs generalizing s with
  | nil => rfl
  | cons c cs ih =>
    rw [List.cons_append, run, run]
    cases s.step c with
    | none => rfl
    | some s' => exact ih s'

theorem State.run_concat (s : State) (cs : List Char) (c : Char) :
    s.run (cs ++ [c]) = (s.run cs).bind (·.step c) := by
  rw [run_append]
  cases s.run cs with
  | none => rfl
  | some s' =>
    change (s'.step c).bind some = s'.step c
    cases s'.step c <;> rfl

section Inert

variable {s : State} {w a : List Char} {out : List Token} {c : Char} {afterDollar : Bool}

/-- Within a word that was read as itself so far. A last dollar sign still waits for the next
character. -/
inductive Reads (out : List Token) : List Char → Bool → State → Prop
  | word (w : List Char) : Reads out w false ⟨.word, w.map .bare, out, .none⟩
  | dollar (w : List Char) : Reads out (w ++ ['$']) true ⟨.dollar false, w.map .bare, out, .none⟩

theorem isSpecial_eq_false : isSpecial c = false ↔ isBlank c = false ∧ isOperator c = false ∧
    c ≠ '\'' ∧ c ≠ '"' ∧ c ≠ '\\' ∧ isBackquote c = false := by
  simp [isSpecial, and_assoc]

theorem push_bare (mode : Mode) (w : List Char) (c : Char) :
    (⟨mode, w.map .bare, out, .none⟩ : State).push false (.bare c) =
      ⟨.word, (w ++ [c]).map .bare, out, .none⟩ := by
  simp [State.push]

theorem reads_char (hc : isSpecial c = false) (mode : Mode) (w : List Char) (inWord : Bool) :
    ∃ s', (⟨mode, w.map .bare, out, .none⟩ : State).char inWord c = some s' ∧
      Reads out (w ++ [c]) (c == '$') s' := by
  obtain ⟨-, -, h1, h2, h3, h4⟩ := isSpecial_eq_false.mp hc
  rw [State.char, if_neg h1, if_neg h2, if_neg h3]
  by_cases hd : c = '$'
  · subst hd
    exact ⟨_, rfl, .dollar w⟩
  · rw [if_neg hd, h4, if_neg Bool.false_ne_true, push_bare, beq_false_of_ne hd]
    exact ⟨_, rfl, .word _⟩

theorem reads_wordStep (hc : isSpecial c = false) (mode : Mode) (w : List Char) :
    ∃ s', (⟨mode, w.map .bare, out, .none⟩ : State).wordStep c = some s' ∧
      Reads out (w ++ [c]) (c == '$') s' := by
  obtain ⟨h1, h2, -⟩ := isSpecial_eq_false.mp hc
  rw [State.wordStep, h1, h2, if_neg Bool.false_ne_true, if_neg Bool.false_ne_true]
  exact reads_char hc mode w true

theorem Reads.step (h : Reads out w afterDollar s) (hc : isSpecial c = false)
    (hd : (afterDollar && beginsExpansion c) = false) :
    ∃ s', s.step c = some s' ∧ Reads out (w ++ [c]) (c == '$') s' := by
  cases h with
  | word w => exact reads_wordStep hc .word w
  | dollar w =>
    rw [Bool.true_and] at hd
    simp only [beginsExpansion, Bool.or_eq_false_iff, beq_eq_false_iff_ne] at hd
    obtain ⟨⟨⟨⟨h1, h2⟩, h3⟩, h4⟩, h5⟩ := hd
    obtain ⟨-, -, h6, h7, -⟩ := isSpecial_eq_false.mp hc
    change ∃ s', State.dollarStep ⟨.dollar false, w.map .bare, out, .none⟩ false c = some s' ∧ _
    rw [State.dollarStep, h1, h2, if_neg Bool.false_ne_true, if_neg Bool.false_ne_true,
      if_neg h3, if_neg (by simp [h4, h5, h6, h7]), if_neg Bool.false_ne_true, push_bare]
    exact reads_wordStep hc .word (w ++ ['$'])

theorem Reads.run (h : Reads out w afterDollar s) (ha : inertFrom afterDollar a = true) :
    ∃ afterDollar s', s.run a = some s' ∧ Reads out (w ++ a) afterDollar s' := by
  induction a generalizing s w afterDollar with
  | nil => exact ⟨afterDollar, s, rfl, by rwa [List.append_nil]⟩
  | cons c a ih =>
    simp only [inertFrom, Bool.and_eq_true, Bool.not_eq_true'] at ha
    obtain ⟨⟨hc, hd⟩, ha⟩ := ha
    obtain ⟨s₁, hs₁, h₁⟩ := h.step hc hd
    obtain ⟨b, s₂, hs₂, h₂⟩ := ih h₁ ha
    refine ⟨b, s₂, ?_, by rwa [List.append_assoc] at h₂⟩
    rw [State.run, hs₁]
    exact hs₂

/-- Between two words, with the tokens `out` behind it. -/
def between (out : List Token) : State := ⟨.blank, [], out, .none⟩

theorem blankStep_inert (hc : isSpecial c = false) (hash : c ≠ '#') (out : List Token) :
    ∃ s', (between out).step c = some s' ∧ Reads out [c] (c == '$') s' := by
  obtain ⟨h1, h2, -⟩ := isSpecial_eq_false.mp hc
  change ∃ s', (between out).blankStep c = some s' ∧ _
  rw [State.blankStep, h1, h2, if_neg Bool.false_ne_true, if_neg Bool.false_ne_true, if_neg hash]
  exact reads_char hc .blank [] false

theorem IsInert.run (h : IsInert a) (out : List Token) :
    ∃ afterDollar s', (between out).run a = some s' ∧ Reads out a afterDollar s' := by
  obtain ⟨hne, hhash, ha⟩ := h
  cases a with
  | nil => exact absurd rfl hne
  | cons c a =>
    simp only [inertFrom, Bool.and_eq_true, Bool.not_eq_true'] at ha
    obtain ⟨⟨hc, -⟩, ha⟩ := ha
    obtain ⟨s₁, hs₁, h₁⟩ := blankStep_inert hc (fun he => hhash (by rw [he]; rfl)) out
    obtain ⟨b, s₂, hs₂, h₂⟩ := h₁.run ha
    refine ⟨b, s₂, ?_, h₂⟩
    rw [State.run, hs₁]
    exact hs₂

/-- A blank ends the word. -/
theorem Reads.step_blank (h : Reads out w afterDollar s) (hc : isBlank c = true) :
    s.step c = some (between (out ++ [.word (w.map .bare)])) := by
  cases h with
  | word w =>
    change State.wordStep _ c = _
    rw [State.wordStep, if_pos hc]
    rfl
  | dollar w =>
    have hcases : c = ' ' ∨ c = '\t' := by simpa [isBlank] using hc
    obtain rfl | rfl := hcases
    · change State.wordStep (State.push ⟨.dollar false, w.map .bare, out, .none⟩ false _) ' ' = _
      rw [push_bare]
      rfl
    · change State.wordStep (State.push ⟨.dollar false, w.map .bare, out, .none⟩ false _) '\t' = _
      rw [push_bare]
      rfl

theorem Reads.finish (h : Reads out w afterDollar s) :
    s.finish = some (out ++ [.word (w.map .bare)]) := by
  cases h with
  | word w => rfl
  | dollar w =>
    change (State.push ⟨.dollar false, w.map .bare, out, .none⟩ false _).endWord.bind State.ended = _
    rw [push_bare]
    rfl

end Inert

section Size

variable {s s' : State} {c : Char} {cs : List Char}

/-- How much of a line a token accounts for at the most: a word for its characters and the blank
behind it. An operator takes back what the word before it has for a blank. -/
def Token.size : Token → Int
  | .word w => w.length + 1
  | _ => -1

def Mode.size : Mode → Int
  | .dollar _ => 1
  | .name _ _ => 1
  | .command _ _ => 1
  | .escapeDouble => 1
  | .less => -1
  | _ => 0

namespace State

/-- What the tokens and the word that is being read account for. -/
def base (s : State) : Int := (s.out.map Token.size).sum + s.word.length

def size (s : State) : Int := s.base + s.mode.size

theorem push_size (s : State) (inDouble : Bool) (m : Mark) :
    (s.push inDouble m).size = s.base + 1 := by
  cases inDouble <;> simp [size, base, push, Mode.size] <;> omega

theorem push_base (s : State) (inDouble : Bool) (m : Mark) :
    (s.push inDouble m).base = s.base + 1 := by
  simp [base, push]
  omega

theorem endWord_size (h : s.endWord = some s') : s'.size = s.base + 1 ∧ s'.base = s.base + 1 := by
  have hsize : ∀ here, (⟨.blank, [], s.out ++ [.word s.word], here⟩ : State).size = s.base + 1 ∧
      (⟨.blank, [], s.out ++ [.word s.word], here⟩ : State).base = s.base + 1 := by
    intro here
    simp [size, base, Mode.size, Token.size]
    omega
  rw [endWord] at h
  split at h
  · split at h
    · obtain ⟨d, -, rfl⟩ := Option.map_eq_some_iff.mp h
      exact hsize _
    · cases h
  · cases h
    exact hsize _

theorem operator_size (hm : s.mode.size = 0) (h : s.operator c = some s') :
    s'.size = s.base - 1 := by
  have hout : ((s.out ++ [Token.operator c]).map Token.size).sum =
      (s.out.map Token.size).sum - 1 := by
    simp [Token.size]
    omega
  rw [operator] at h
  split at h
  · cases h
  · split_ifs at h <;> cases h
    · simp [size, base, Mode.size]
      omega
    · simp only [size, base, hout, hm]
      omega
  · split_ifs at h <;> cases h
    · simp [size, base, Mode.size]
      omega
    · simp only [size, base, hout, Mode.size]
      omega
    · simp only [size, base, hout, hm]
      omega

theorem char_size {inWord : Bool} (h : s.char inWord c = some s') :
    s'.size ≤ s.base + 1 ∧
      (isSpecial c = true → isBlank c = false → isOperator c = false → s'.size = s.base) := by
  rw [char] at h
  split_ifs at h with h1 h2 h3 h4 h5
  · cases h
    simp [size, base, Mode.size]
  · cases h
    simp [size, base, Mode.size]
  · cases h
    simp [size, base, Mode.size]
  · cases h
    subst h4
    refine ⟨by simp [size, base, Mode.size], fun hc => absurd hc (by decide)⟩
  · cases h
    rw [push_size]
    refine ⟨le_rfl, fun hc hb ho => ?_⟩
    rw [isSpecial_eq_false.mpr ⟨hb, ho, h1, h2, h3, by simpa using h5⟩] at hc
    cases hc

theorem blankStep_size (hm : s.mode.size = 0) (h : s.blankStep c = some s') :
    s'.size ≤ s.base + 1 ∧ (isSpecial c = true ∨ c = '#' → s'.size < s.base + 1) := by
  have hs : s.size = s.base := by rw [size, hm, add_zero]
  rw [blankStep] at h
  split_ifs at h with h1 h2 h3
  · cases h
    omega
  · have hop := operator_size hm h
    omega
  · cases h
    simp [size, base, Mode.size]
  · obtain ⟨hle, hquote⟩ := char_size h
    refine ⟨hle, fun hc => ?_⟩
    have heq := hquote (hc.resolve_right h3) (by simpa using h1) (by simpa using h2)
    omega

theorem wordStep_size (h : s.wordStep c = some s') :
    s'.size ≤ s.base + 1 ∧ (isSpecial c = true → isBlank c = false → s'.size < s.base + 1) := by
  rw [wordStep] at h
  split_ifs at h with h1 h2
  · have hend := endWord_size h
    refine ⟨by omega, fun _ hb => ?_⟩
    rw [h1] at hb
    cases hb
  · obtain ⟨s₁, hs₁, hop⟩ := Option.bind_eq_some_iff.mp h
    obtain ⟨hsize, hbase⟩ := endWord_size hs₁
    have hm : s₁.mode.size = 0 := by
      rw [size] at hsize
      omega
    have hop := operator_size hm hop
    omega
  · obtain ⟨hle, hquote⟩ := char_size h
    refine ⟨hle, fun hc hb => ?_⟩
    have heq := hquote hc hb (by simpa using h2)
    omega

theorem doubleStep_size (h : s.doubleStep c = some s') : s'.size ≤ s.base + 1 := by
  rw [doubleStep] at h
  split_ifs at h
  · cases h
    simp [size, base, Mode.size]
  · cases h
    simp [size, base, Mode.size]
  · cases h
    simp [size, base, Mode.size]
  · cases h
    rw [push_size]

theorem resume_size {inDouble : Bool} (h : s.resume inDouble c = some s') :
    s'.size ≤ s.base + 1 := by
  cases inDouble with
  | false => exact (wordStep_size h).1
  | true => exact doubleStep_size h

/-- A dollar sign stands for itself only if nothing special follows. -/
theorem dollarStep_size {inDouble : Bool} (h : s.dollarStep inDouble c = some s') :
    s'.size ≤ s.base + 2 ∧
      (inDouble = false → (isSpecial c = true ∧ isBlank c = false ∨ beginsExpansion c = true) →
        s'.size < s.base + 2) := by
  have hpush : ∀ m, (s.push inDouble m).base = s.base + 1 := push_base s inDouble
  rw [dollarStep] at h
  split_ifs at h with h1 h2 h3 h4 h5
  · cases h
    simp [size, base, Mode.size]
  · cases h
    rw [push_size]
    omega
  · cases h
    simp [size, base, Mode.size]
  · have hstep := doubleStep_size h
    rw [push_base] at hstep
    refine ⟨by omega, fun hd => ?_⟩
    rw [h5] at hd
    cases hd
  · obtain ⟨hle, hspecial⟩ := wordStep_size h
    rw [push_base] at hle hspecial
    refine ⟨by omega, fun _ hc => ?_⟩
    obtain ⟨hs, hb⟩ | hc := hc
    · have hlt := hspecial hs hb
      omega
    · simp only [not_or] at h4
      simp [beginsExpansion, h1, h2, h3, h4] at hc

theorem commandStep_size {inDouble : Bool} {text : List Char}
    (h : s.commandStep inDouble text c = some s') : s'.size ≤ s.base + 1 := by
  rw [commandStep] at h
  split_ifs at h
  · cases h
    rw [push_size]
  · cases h
    simp [size, base, Mode.size]

/-- No character accounts for more than itself. -/
theorem step_size (h : s.step c = some s') : s'.size ≤ s.size + 1 := by
  obtain ⟨mode, word, out, here⟩ := s
  cases mode with
  | blank =>
    have hstep := (blankStep_size rfl h).1
    simp only [size, base, Mode.size] at hstep ⊢
    omega
  | word =>
    have hstep := (wordStep_size h).1
    simp only [size, base, Mode.size] at hstep ⊢
    omega
  | single =>
    change (if c = '\'' then _ else _) = some s' at h
    split_ifs at h <;> cases h <;> simp [size, base, Mode.size]
    omega
  | double =>
    have hstep := doubleStep_size h
    simp only [size, base, Mode.size] at hstep ⊢
    omega
  | escape inWord =>
    change (if c = '\n' then _ else some (State.push _ _ _)) = some s' at h
    split_ifs at h <;> cases h
    · simp [size, base, Mode.size]
    · simp [size, base, Mode.size]
    · rw [push_size]
      simp [size, base, Mode.size]
  | escapeDouble =>
    change (if _ then some (State.push _ _ _) else if _ then _ else some (State.push _ _ _)) = some s' at h
    split_ifs at h <;> cases h
    · rw [push_size]
      simp [size, base, Mode.size]
    · simp [size, base, Mode.size]
      omega
    · rw [push_size, push_base]
      simp [size, base, Mode.size]
  | dollar inDouble =>
    have hstep := (dollarStep_size h).1
    simp only [size, base, Mode.size] at hstep ⊢
    omega
  | name inDouble text =>
    change (if isNameChar c then _ else State.resume _ inDouble c) = some s' at h
    split_ifs at h
    · cases h
      simp [size, base, Mode.size]
    · have hstep := resume_size h
      rw [push_base] at hstep
      simp only [size, base, Mode.size] at hstep ⊢
      omega
  | command inDouble text =>
    have hstep := commandStep_size h
    simp only [size, base, Mode.size] at hstep ⊢
    omega
  | comment =>
    change (if c = '\n' then State.operator _ c else _) = some s' at h
    split_ifs at h
    · have hstep := operator_size rfl h
      simp only [size, base, Mode.size] at hstep ⊢
      omega
    · cases h
      simp
  | less =>
    change (if c = '<' then _ else State.blankStep _ c) = some s' at h
    split_ifs at h
    · cases h
      simp [size, base, Mode.size, Token.size]
    · have hstep := (blankStep_size rfl h).1
      simp [size, base, Mode.size, Token.size] at hstep ⊢
      omega
  | hereOperator =>
    change (if c = '-' then none else State.blankStep _ c) = some s' at h
    split_ifs at h
    have hstep := (blankStep_size rfl h).1
    simp only [size, base, Mode.size] at hstep ⊢
    omega
  | document d line body =>
    change (if c ≠ '\n' then _ else if line = d then _ else _) = some s' at h
    split_ifs at h <;> cases h <;> simp [size, base, Mode.size, Token.size]
    omega

end State

end Size

section Exact

variable {s s' : State} {c : Char} {cs w : List Char} {out : List Token} {afterDollar : Bool}

/-- Words, each with the blank behind it. -/
def delimited (ws : List (List Char × Char)) : List Char := ws.flatMap fun p => p.1 ++ [p.2]

def bareWords (ws : List (List Char × Char)) : List Token := ws.map fun p => .word (p.1.map .bare)

def Delimited (ws : List (List Char × Char)) : Prop := ∀ p ∈ ws, IsInert p.1 ∧ isBlank p.2 = true

/-- Every character so far is one of a word that is read as itself, or the one blank behind it. -/
inductive Exact : State → List Char → Prop
  | between (ws : List (List Char × Char)) (h : Delimited ws) :
    Exact (between (bareWords ws)) (delimited ws)
  | within (ws : List (List Char × Char)) (h : Delimited ws) (w : List Char) (hw : IsInert w)
    (s : State) (hs : Reads (bareWords ws) w (w.getLast? == some '$') s) :
    Exact s (delimited ws ++ w)

theorem delimited_size (ws : List (List Char × Char)) :
    ((bareWords ws).map Token.size).sum = (delimited ws).length := by
  induction ws with
  | nil => rfl
  | cons p ws ih =>
    rw [bareWords, delimited] at ih ⊢
    rw [List.map_cons, List.map_cons, List.sum_cons, ih, List.flatMap_cons]
    simp [Token.size]
    ring

theorem reads_size (h : Reads out w afterDollar s) :
    s.size = (out.map Token.size).sum + w.length := by
  cases h with
  | word w => simp [State.size, State.base, Mode.size]
  | dollar w => simp [State.size, State.base, Mode.size, add_assoc]

theorem Exact.size (h : Exact s cs) : s.size = cs.length := by
  cases h with
  | between ws h =>
    rw [← delimited_size]
    simp [State.size, State.base, Mode.size, Hbird.Shell.between]
  | within ws h w hw s hs =>
    rw [reads_size hs, delimited_size]
    simp

theorem inertFrom_concat (hw : w ≠ []) : inertFrom afterDollar (w ++ [c]) = true ↔
    inertFrom afterDollar w = true ∧ isSpecial c = false ∧
      ((w.getLast? == some '$') && beginsExpansion c) = false := by
  induction w generalizing afterDollar with
  | nil => exact absurd rfl hw
  | cons d w ih =>
    rw [List.cons_append, inertFrom, inertFrom]
    cases w with
    | nil => simp [inertFrom, imp_iff_not_or]
    | cons e w =>
      rw [Bool.and_eq_true, ih (by simp), List.getLast?_cons_cons]
      simp only [Bool.and_eq_true, and_assoc]

theorem isInert_concat (hw : IsInert w) (hc : isSpecial c = false)
    (hd : ((w.getLast? == some '$') && beginsExpansion c) = false) : IsInert (w ++ [c]) := by
  obtain ⟨hne, hhash, hw⟩ := hw
  refine ⟨by simp, ?_, (inertFrom_concat hne).mpr ⟨hw, hc, hd⟩⟩
  rwa [List.head?_append_of_ne_nil _ hne]

theorem exact_step_between {ws : List (List Char × Char)} (h : Delimited ws)
    (hs : (between (bareWords ws)).step c = some s') :
    Exact s' (delimited ws ++ [c]) ∨ s'.size < (delimited ws).length + 1 := by
  have hbase : (between (bareWords ws)).base = (delimited ws).length := by
    rw [← delimited_size]
    simp [State.base, between]
  by_cases hc : isSpecial c = true ∨ c = '#'
  · have hlt := (State.blankStep_size rfl hs).2 hc
    rw [hbase] at hlt
    exact .inr hlt
  · rw [not_or, Bool.not_eq_true] at hc
    obtain ⟨s₁, hs₁, hreads⟩ := blankStep_inert hc.1 hc.2 (bareWords ws)
    rw [hs₁] at hs
    cases hs
    refine .inl (.within ws h [c] ⟨by simp, by simpa using hc.2, ?_⟩ s' hreads)
    simp [inertFrom, hc.1]

theorem exact_step_within {ws : List (List Char × Char)} (h : Delimited ws) (hw : IsInert w)
    (hs : Reads (bareWords ws) w (w.getLast? == some '$') s) (hstep : s.step c = some s') :
    Exact s' (delimited ws ++ w ++ [c]) ∨ s'.size < (delimited ws ++ w).length + 1 := by
  have hsize : s.size = (delimited ws ++ w).length := (Exact.within ws h w hw s hs).size
  by_cases hb : isBlank c = true
  · rw [hs.step_blank hb] at hstep
    cases hstep
    have hws : Delimited (ws ++ [(w, c)]) := by
      intro p hp
      obtain hp | hp := List.mem_append.mp hp
      · exact h p hp
      · rw [List.mem_singleton.mp hp]
        exact ⟨hw, hb⟩
    have hexact := Exact.between _ hws
    simp only [bareWords, delimited, List.map_append, List.flatMap_append, List.map_cons,
      List.map_nil, List.flatMap_cons, List.flatMap_nil, List.append_nil, ← List.append_assoc]
      at hexact
    exact .inl hexact
  · rw [Bool.not_eq_true] at hb
    by_cases hc : isSpecial c = true ∨ ((w.getLast? == some '$') && beginsExpansion c) = true
    · refine .inr ?_
      rw [← hsize]
      generalize hlast : (w.getLast? == some '$') = afterDollar at hs hc
      cases hs with
      | word w =>
        have hlt := (State.wordStep_size hstep).2 (hc.resolve_right (by simp)) hb
        simp only [State.size, Mode.size, add_zero] at hlt ⊢
        exact hlt
      | dollar w =>
        have hlt := (State.dollarStep_size hstep).2 rfl (hc.imp (⟨·, hb⟩) fun h => by simpa using h)
        simp only [State.size, Mode.size] at hlt ⊢
        omega
    · rw [not_or, Bool.not_eq_true, Bool.not_eq_true] at hc
      obtain ⟨s₁, hs₁, hreads⟩ := hs.step hc.1 hc.2
      rw [hs₁] at hstep
      cases hstep
      refine .inl ?_
      rw [List.append_assoc]
      refine .within ws h (w ++ [c]) (isInert_concat hw hc.1 hc.2) s' ?_
      rwa [List.getLast?_concat, Option.some_beq_some]

theorem run_exact (h : State.start.run cs = some s) : Exact s cs ∨ s.size < cs.length := by
  induction cs using List.reverseRecOn generalizing s with
  | nil =>
    cases h
    exact .inl (.between [] (by simp [Delimited]))
  | append_singleton cs c ih =>
    rw [State.run_concat] at h
    obtain ⟨s₁, hs₁, hstep⟩ := Option.bind_eq_some_iff.mp h
    have hlen : ((cs ++ [c]).length : Int) = cs.length + 1 := by simp
    rw [hlen]
    obtain hexact | hlt := ih hs₁
    · cases hexact with
      | between ws hws => exact exact_step_between hws hstep
      | within ws hws w hw s hs => exact exact_step_within hws hw hs hstep
    · have hsize := State.step_size hstep
      exact .inr (by omega)

theorem ended_out {ts : List Token} (h : s.ended = some ts) : ts = s.out := by
  rw [State.ended] at h
  split_ifs at h
  exact (Option.some.inj h).symm

theorem endWord_ended {ts : List Token} (h : s.endWord.bind State.ended = some ts) :
    ts = s.out ++ [.word s.word] := by
  obtain ⟨s₁, hs₁, h⟩ := Option.bind_eq_some_iff.mp h
  rw [ended_out h]
  rw [State.endWord] at hs₁
  split at hs₁
  · split_ifs at hs₁
    obtain ⟨d, -, rfl⟩ := Option.map_eq_some_iff.mp hs₁
    rfl
  · cases hs₁
    rfl

/-- The tokens of a line account for its characters and the end of the line. -/
theorem finish_size {ts : List Token} (h : s.finish = some ts) :
    (ts.map Token.size).sum ≤ s.size + 1 := by
  obtain ⟨mode, word, out, here⟩ := s
  have hword : ∀ (w : Word), ((out ++ [Token.word w]).map Token.size).sum =
      (out.map Token.size).sum + w.length + 1 := by
    intro w
    simp [Token.size]
    ring
  cases mode with
  | blank =>
    rw [ended_out h]
    simp only [State.size, State.base, Mode.size]
    omega
  | comment =>
    rw [ended_out h]
    simp only [State.size, State.base, Mode.size]
    omega
  | word =>
    rw [endWord_ended h, hword]
    simp [State.size, State.base, Mode.size]
  | dollar inDouble =>
    cases inDouble with
    | true => cases h
    | false =>
      rw [endWord_ended h]
      change ((out ++ [Token.word (word ++ [.bare '$'])]).map Token.size).sum ≤ _
      rw [hword]
      simp [State.size, State.base, Mode.size]
      omega
  | name inDouble text =>
    cases inDouble with
    | true => cases h
    | false =>
      rw [endWord_ended h]
      change ((out ++ [Token.word (word ++ [.expansion text false])]).map Token.size).sum ≤ _
      rw [hword]
      simp [State.size, State.base, Mode.size]
      omega
  | document d line body =>
    change (if line = d then some (out ++ [Token.document body]) else none) = some ts at h
    split_ifs at h
    cases h
    simp [State.size, State.base, Mode.size, Token.size]
    omega
  | _ => cases h

end Exact

section Spaced

variable {a b : List Char} {args : List (List Char)} {braces : Word → Bool}

theorem spaced_singleton (a : List Char) : spaced [a] = a := by
  simp [spaced]

theorem spaced_cons_cons (a b : List Char) (args : List (List Char)) :
    spaced (a :: b :: args) = a ++ ' ' :: spaced (b :: args) := by
  simp [spaced, List.intercalate_cons_cons]

theorem run_spaced (hargs : args ≠ []) (h : ∀ a ∈ args, IsInert a) (out : List Token) :
    ((between out).run (spaced args)).bind State.finish =
      some (out ++ args.map fun a => .word (a.map .bare)) := by
  induction args generalizing out with
  | nil => exact absurd rfl hargs
  | cons a args ih =>
    obtain ⟨ha, hrest⟩ := List.forall_mem_cons.mp h
    obtain ⟨b, s, hs, hreads⟩ := ha.run out
    cases args with
    | nil =>
      rw [spaced_singleton, hs]
      exact hreads.finish
    | cons a' args =>
      rw [spaced_cons_cons, State.run_append, hs, Option.bind_some, State.run,
        hreads.step_blank rfl, Option.bind_some, ih (by simp) hrest]
      simp

theorem run_spaced_append (hargs : args ≠ []) (h : ∀ a ∈ args, IsInert a) (out : List Token)
    (text : List Char) : (between out).run (spaced args ++ ' ' :: text) =
      (between (out ++ args.map fun a => .word (a.map .bare))).run text := by
  induction args generalizing out with
  | nil => exact absurd rfl hargs
  | cons a args ih =>
    obtain ⟨ha, hrest⟩ := List.forall_mem_cons.mp h
    obtain ⟨b, s, hs, hreads⟩ := ha.run out
    cases args with
    | nil =>
      rw [spaced_singleton, State.run_append, hs, Option.bind_some, State.run,
        hreads.step_blank rfl]
      rfl
    | cons a' args =>
      rw [spaced_cons_cons, List.append_assoc, List.cons_append, State.run_append, hs,
        Option.bind_some, State.run, hreads.step_blank rfl, Option.bind_some, ih (by simp) hrest]
      simp

theorem length_spaced (hargs : args ≠ []) :
    ((spaced args).length : Int) + 1 = (args.map fun a => (a.length : Int) + 1).sum := by
  induction args with
  | nil => exact absurd rfl hargs
  | cons a args ih =>
    cases args with
    | nil => simp [spaced_singleton]
    | cons b args =>
      rw [spaced_cons_cons, List.map_cons, List.sum_cons, ← ih (by simp)]
      simp
      ring

theorem text?_bare (a : List Char) : Word.text? (a.map .bare) = some a := by
  rw [Word.text?, mapM_eq_some, List.forall₂_map_left_iff]
  exact List.forall₂_same.mpr fun _ _ => rfl

theorem fixed?_text {w : Word} (h : w.fixed? braces = some a) : w.text? = some a := by
  rw [Word.fixed?] at h
  split_ifs at h
  exact h

theorem fixed?_bare (h : Word.fixed? braces (List.map .bare a) = some b) : b = a := by
  have htext := fixed?_text h
  rw [text?_bare] at htext
  exact (Option.some.inj htext).symm

theorem sum_size_of_fixed {ts : List Token}
    (h : List.Forall₂ (fun t a => Token.fixed? braces t = some a) ts args) :
    (ts.map Token.size).sum = (args.map fun a => (a.length : Int) + 1).sum := by
  induction h with
  | nil => rfl
  | @cons t a ts args hfixed _ ih =>
    rw [List.map_cons, List.sum_cons, ih, List.map_cons, List.sum_cons]
    cases t with
    | word w =>
      have hlen := (mapM_eq_some.mp (fixed?_text hfixed)).length_eq
      rw [Token.size, hlen]
    | _ => cases hfixed

/-- Arguments that are put together with spaces reach the program as they are if and only if the
shell reads every one of them as itself and expands none. -/
theorem argv_spaced_iff (hargs : args ≠ []) : argv braces (spaced args) = some args ↔
    ∀ a ∈ args, IsInert a ∧ Word.fixed? braces (a.map .bare) = some a := by
  constructor
  · intro h
    obtain ⟨ts, hts, hargv⟩ := Option.bind_eq_some_iff.mp h
    have hfixed := mapM_eq_some.mp hargv
    obtain ⟨s, hs, hfinish⟩ := Option.bind_eq_some_iff.mp hts
    have hsum := sum_size_of_fixed hfixed
    have hlen := length_spaced hargs
    have hfin := finish_size hfinish
    obtain hexact | hlt := run_exact hs
    · generalize hline : spaced args = line at hexact hlen
      cases hexact with
      | between ws hws =>
        have hout := ended_out hfinish
        rw [hout] at hsum
        have hsize := delimited_size ws
        simp only [between] at hsum
        omega
      | within ws hws w hw s hreads =>
        rw [hreads.finish] at hfinish
        cases hfinish
        have hws' : Delimited (ws ++ [(w, ' ')]) := by
          intro p hp
          obtain hp | hp := List.mem_append.mp hp
          · exact hws p hp
          · rw [List.mem_singleton.mp hp]
            exact ⟨hw, rfl⟩
        have hts' : bareWords ws ++ [.word (w.map .bare)] = bareWords (ws ++ [(w, ' ')]) := by
          simp [bareWords]
        rw [hts', bareWords, List.forall₂_map_left_iff] at hfixed
        have heq : args = (ws ++ [(w, ' ')]).map Prod.fst := by
          rw [← List.forall₂_eq_eq_eq, List.forall₂_map_right_iff]
          exact (hfixed.imp fun p a h => fixed?_bare h).flip
        rw [heq, List.forall₂_map_right_iff, List.forall₂_same] at hfixed
        rw [heq]
        intro a ha
        obtain ⟨p, hp, rfl⟩ := List.mem_map.mp ha
        exact ⟨(hws' p hp).1, hfixed p hp⟩
    · omega
  · intro h
    have hrun := run_spaced hargs (fun a ha => (h a ha).1) []
    rw [argv, tokens, show State.start = between [] from rfl, hrun, Option.bind_some,
      List.nil_append, mapM_eq_some, List.forall₂_map_left_iff, List.forall₂_same]
    exact fun a ha => (h a ha).2

end Spaced

end Hbird.Shell
