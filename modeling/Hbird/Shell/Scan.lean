import Hbird.Shell.Words

namespace Hbird.Shell

/-- A shell that has no expansion of braces. -/
def noBraces : Word → Bool := fun _ => false

/-- What of a text decides whether its words are the same on every host: where its reading is,
and how far the current word is on the way to a pattern and to a tilde. -/
structure Scan where
  mode : Mode
  glob : Glob
  tilde : Tilde
  deriving DecidableEq, Repr

namespace Scan

def start : Scan := ⟨.blank, .outside, .start⟩

def read (q : Scan) (mode : Mode) (m : Mark) : Scan := ⟨mode, q.glob.next m, q.tilde.next m⟩

/-- No pattern and no tilde may be at the end of a word. -/
def endWord (q : Scan) : Option Scan :=
  if q.glob = .pattern ∨ q.tilde = .login ∨ q.tilde = .found then none else some start

def char (q : Scan) (inWord : Bool) (c : Char) : Option Scan :=
  if c = '\'' then some { q with mode := .single }
  else if c = '"' then some { q with mode := .double }
  else if c = '\\' then some { q with mode := .escape inWord }
  else if c = '$' then some { q with mode := .dollar false }
  else if isBackquote c then none
  else some (q.read .word (.bare c))

def wordStep (q : Scan) (c : Char) : Option Scan :=
  if isBlank c then q.endWord
  else if isOperator c then none
  else q.char true c

def doubleStep (q : Scan) (c : Char) : Option Scan :=
  if c = '"' then some { q with mode := .word }
  else if c = '\\' then some { q with mode := .escapeDouble }
  else if c = '$' then some { q with mode := .dollar true }
  else if isBackquote c then none
  else some (q.read .double (.quoted c))

/-- Operators outside quotes and expansions outside single quotes are refused. -/
def next (q : Scan) (c : Char) : Option Scan :=
  match q.mode with
  | .blank =>
    if isBlank c then some q
    else if isOperator c then none
    else if c = '#' then some { q with mode := .comment }
    else q.char false c
  | .word => q.wordStep c
  | .single => if c = '\'' then some { q with mode := .word } else some (q.read .single (.quoted c))
  | .double => q.doubleStep c
  | .escape inWord =>
    if c = '\n' then some { q with mode := if inWord then .word else .blank }
    else some (q.read .word (.quoted c))
  | .escapeDouble =>
    if c = '$' ∨ c = '"' ∨ c = '\\' ∨ isBackquote c then some (q.read .double (.quoted c))
    else if c = '\n' then some { q with mode := .double }
    else some ((q.read .double (.quoted '\\')).read .double (.quoted c))
  | .dollar inDouble =>
    if beginsExpansion c || !inDouble && (c == '\'' || c == '"') then none
    else if inDouble then (q.read .double (.quoted '$')).doubleStep c
    else (q.read .word (.bare '$')).wordStep c
  | .comment => if c = '\n' then none else some q
  | _ => none

/-- At the end the quotes are closed. -/
def ends (q : Scan) : Bool :=
  match q.mode with
  | .blank => true
  | .comment => true
  | .word => q.endWord.isSome
  | .dollar false => (q.read .word (.bare '$')).endWord.isSome
  | _ => false

def run (q : Scan) : List Char → Option Scan
  | [] => some q
  | c :: cs => (q.next c).bind (·.run cs)

end Scan

/-- The text has only words in it that are the same on every host, and perhaps a comment. -/
def isFixed (text : List Char) : Bool := (Scan.start.run text).any Scan.ends

section Lost

variable {s s' : State} {c : Char} {cs : List Char}

/-- A token that the words of a simple command are not. -/
def OutSpoilt (s : State) : Prop := ∃ t ∈ s.out, Token.fixed? noBraces t = none

def WordSpoilt (s : State) : Prop := ∃ m ∈ s.word, m.char? = none

def Mode.inWord : Mode → Bool
  | .word => true
  | .single => true
  | .double => true
  | .escape inWord => inWord
  | .escapeDouble => true
  | .dollar _ => true
  | _ => false

def Mode.isLost : Mode → Bool
  | .name _ _ => true
  | .command _ _ => true
  | .less => true
  | _ => false

def Mode.isKept : Mode → Bool
  | .blank => true
  | .comment => true
  | .escape _ => true
  | mode => mode.inWord

/-- The line is not one simple command whose words are the same on every host. -/
def Lost (s : State) : Prop :=
  OutSpoilt s ∨ s.mode.inWord = true ∧ WordSpoilt s ∨ s.mode.isLost = true

theorem text?_eq_none {w : Word} : w.text? = none ↔ ∃ m ∈ w, m.char? = none := by
  rw [Word.text?]
  induction w with
  | nil => simp
  | cons m w ih =>
    rw [List.mapM_cons, List.exists_mem_cons_iff, ← ih]
    cases m.char? <;> cases w.mapM Mark.char? <;> simp

theorem fixed?_noBraces (w : Word) : w.fixed? noBraces =
    if w.isPattern = true ∨ w.isTilde = true then none else w.text? := by
  simp [Word.fixed?, noBraces]

theorem fixed?_eq_none {w : Word} (h : ∃ m ∈ w, m.char? = none) : w.fixed? noBraces = none := by
  rw [fixed?_noBraces, text?_eq_none.mpr h, ite_self]

theorem lost_push (h : OutSpoilt s ∨ WordSpoilt s) (inDouble : Bool) (m : Mark) :
    Lost (s.push inDouble m) := by
  obtain h | ⟨m', hm, hnone⟩ := h
  · exact .inl h
  · refine .inr (.inl ⟨?_, m', List.mem_append_left _ hm, hnone⟩)
    cases inDouble <;> rfl

theorem wordSpoilt_push_expansion (s : State) (inDouble : Bool) (text : List Char) :
    WordSpoilt (s.push inDouble (.expansion text inDouble)) :=
  ⟨.expansion text inDouble, by simp [State.push], rfl⟩

theorem spoilt_push (h : OutSpoilt s ∨ WordSpoilt s) (inDouble : Bool) (m : Mark) :
    OutSpoilt (s.push inDouble m) ∨ WordSpoilt (s.push inDouble m) := by
  obtain h | ⟨m', hm, hnone⟩ := h
  · exact .inl h
  · exact .inr ⟨m', List.mem_append_left _ hm, hnone⟩

theorem lost_push_expansion (s : State) (inDouble : Bool) (text : List Char) :
    Lost (s.push inDouble (.expansion text inDouble)) := by
  refine .inr (.inl ⟨?_, wordSpoilt_push_expansion _ _ _⟩)
  cases inDouble <;> rfl

theorem outSpoilt_endWord (h : OutSpoilt s ∨ WordSpoilt s) (hs : s.endWord = some s') :
    OutSpoilt s' := by
  have hmem : ∃ t ∈ s.out ++ [Token.word s.word], Token.fixed? noBraces t = none := by
    obtain ⟨t, ht, hnone⟩ | hw := h
    · exact ⟨t, List.mem_append_left _ ht, hnone⟩
    · exact ⟨.word s.word, by simp, fixed?_eq_none hw⟩
  rw [State.endWord] at hs
  split at hs
  · split_ifs at hs
    obtain ⟨d, -, rfl⟩ := Option.map_eq_some_iff.mp hs
    exact hmem
  · cases hs
    exact hmem

/-- No simple command has an operator in it. -/
theorem lost_operator (hs : s.operator c = some s') : Lost s' := by
  have hmem : ∀ (mode : Mode) (w : Word) (here : Here),
      Lost ⟨mode, w, s.out ++ [.operator c], here⟩ :=
    fun _ _ _ => .inl ⟨.operator c, by simp, rfl⟩
  rw [State.operator] at hs
  split at hs
  · cases hs
  · split_ifs at hs <;> cases hs
    · exact .inr (.inr rfl)
    · exact hmem _ _ _
  · split_ifs at hs <;> cases hs
    · exact .inr (.inr rfl)
    · exact hmem _ _ _
    · exact hmem _ _ _

theorem lost_char {inWord : Bool} (h : OutSpoilt s ∨ inWord = true ∧ WordSpoilt s)
    (hs : s.char inWord c = some s') : Lost s' := by
  have hspoilt : OutSpoilt s ∨ WordSpoilt s := h.imp_right And.right
  rw [State.char] at hs
  split_ifs at hs <;> cases hs
  · exact hspoilt.imp_right fun h => .inl ⟨rfl, h⟩
  · exact hspoilt.imp_right fun h => .inl ⟨rfl, h⟩
  · exact h.imp_right .inl
  · exact hspoilt.imp_right fun h => .inl ⟨rfl, h⟩
  · exact lost_push hspoilt _ _

theorem lost_blankStep (h : OutSpoilt s) (hs : s.blankStep c = some s') : Lost s' := by
  rw [State.blankStep] at hs
  split_ifs at hs
  · cases hs
    exact .inl h
  · exact lost_operator hs
  · cases hs
    exact .inl h
  · exact lost_char (.inl h) hs

theorem lost_wordStep (h : OutSpoilt s ∨ WordSpoilt s) (hs : s.wordStep c = some s') : Lost s' := by
  rw [State.wordStep] at hs
  split_ifs at hs
  · exact .inl (outSpoilt_endWord h hs)
  · obtain ⟨s₁, -, hs⟩ := Option.bind_eq_some_iff.mp hs
    exact lost_operator hs
  · exact lost_char (h.imp_right fun h => ⟨rfl, h⟩) hs

theorem lost_doubleStep (h : OutSpoilt s ∨ WordSpoilt s) (hs : s.doubleStep c = some s') :
    Lost s' := by
  rw [State.doubleStep] at hs
  split_ifs at hs <;> cases hs
  · exact h.imp_right fun h => .inl ⟨rfl, h⟩
  · exact h.imp_right fun h => .inl ⟨rfl, h⟩
  · exact h.imp_right fun h => .inl ⟨rfl, h⟩
  · exact lost_push h _ _

theorem lost_resume {inDouble : Bool} (h : OutSpoilt s ∨ WordSpoilt s)
    (hs : s.resume inDouble c = some s') : Lost s' := by
  cases inDouble with
  | false => exact lost_wordStep h hs
  | true => exact lost_doubleStep h hs

theorem lost_dollarStep {inDouble : Bool} (h : OutSpoilt s ∨ WordSpoilt s)
    (hs : s.dollarStep inDouble c = some s') : Lost s' := by
  rw [State.dollarStep] at hs
  split_ifs at hs
  · cases hs
    exact .inr (.inr rfl)
  · cases hs
    exact lost_push h _ _
  · cases hs
    exact .inr (.inr rfl)
  · exact lost_doubleStep (spoilt_push h _ _) hs
  · exact lost_wordStep (spoilt_push h _ _) hs

theorem lost_commandStep {inDouble : Bool} {text : List Char}
    (hs : s.commandStep inDouble text c = some s') : Lost s' := by
  rw [State.commandStep] at hs
  split_ifs at hs <;> cases hs
  · exact lost_push_expansion _ _ _
  · exact .inr (.inr rfl)

/-- What is lost stays lost. -/
theorem Lost.step (h : Lost s) (hs : s.step c = some s') : Lost s' := by
  obtain ⟨mode, word, out, here⟩ := s
  cases mode with
  | blank => exact lost_blankStep (h.resolve_right (by simp [Mode.inWord, Mode.isLost])) hs
  | word => exact lost_wordStep (h.imp_right fun h => (h.resolve_right (by simp [Mode.isLost])).2) hs
  | double =>
    exact lost_doubleStep (h.imp_right fun h => (h.resolve_right (by simp [Mode.isLost])).2) hs
  | dollar inDouble =>
    exact lost_dollarStep (h.imp_right fun h => (h.resolve_right (by simp [Mode.isLost])).2) hs
  | single =>
    have hspoilt := h.imp_right fun h => (h.resolve_right (by simp [Mode.isLost])).2
    change (if c = '\'' then _ else _) = some s' at hs
    split_ifs at hs <;> cases hs
    · exact hspoilt.imp_right fun h => .inl ⟨rfl, h⟩
    · exact (spoilt_push hspoilt false (.quoted c)).imp_right fun h => .inl ⟨rfl, h⟩
  | escape inWord =>
    have hspoilt := h.imp_right fun h => h.resolve_right (by simp [Mode.isLost])
    change (if c = '\n' then _ else some (State.push _ _ _)) = some s' at hs
    split_ifs at hs with hn hw <;> cases hs
    · exact hspoilt.imp_right fun h => .inl ⟨rfl, h.2⟩
    · exact hspoilt.imp_right fun h => absurd h.1 hw
    · exact lost_push (hspoilt.imp_right And.right) _ _
  | escapeDouble =>
    have hspoilt := h.imp_right fun h => (h.resolve_right (by simp [Mode.isLost])).2
    change (if _ then some (State.push _ _ _) else if _ then _ else some (State.push _ _ _)) = some s' at hs
    split_ifs at hs <;> cases hs
    · exact lost_push hspoilt _ _
    · exact hspoilt.imp_right fun h => .inl ⟨rfl, h⟩
    · exact lost_push (spoilt_push hspoilt _ _) _ _
  | name inDouble text =>
    change (if isNameChar c then _ else State.resume _ inDouble c) = some s' at hs
    split_ifs at hs
    · cases hs
      exact .inr (.inr rfl)
    · exact lost_resume (.inr (wordSpoilt_push_expansion _ _ _)) hs
  | command inDouble text => exact lost_commandStep hs
  | comment =>
    change (if c = '\n' then State.operator _ c else _) = some s' at hs
    split_ifs at hs
    · exact lost_operator hs
    · cases hs
      exact h
  | less =>
    change (if c = '<' then _ else State.blankStep _ c) = some s' at hs
    split_ifs at hs
    · cases hs
      exact .inl ⟨.hereOperator, by simp, rfl⟩
    · have hop : OutSpoilt ⟨.blank, word, out ++ [.operator '<'], here⟩ :=
        ⟨.operator '<', by simp, rfl⟩
      exact lost_blankStep hop hs
  | hereOperator =>
    change (if c = '-' then none else State.blankStep _ c) = some s' at hs
    split_ifs at hs
    have hblank : OutSpoilt ⟨.blank, word, out, .awaited⟩ :=
      h.resolve_right (by simp [Mode.inWord, Mode.isLost])
    exact lost_blankStep hblank hs
  | document d line body =>
    have hout : ∃ t ∈ out, Token.fixed? noBraces t = none :=
      h.resolve_right (by simp [Mode.inWord, Mode.isLost])
    change (if c ≠ '\n' then _ else if line = d then _ else _) = some s' at hs
    split_ifs at hs <;> cases hs
    · exact .inl hout
    · exact .inl ⟨.document body, by simp, rfl⟩
    · exact .inl hout

theorem Lost.run (h : Lost s) (hs : s.run cs = some s') : Lost s' := by
  induction cs generalizing s with
  | nil =>
    cases hs
    exact h
  | cons c cs ih =>
    obtain ⟨s₁, hs₁, hs⟩ := Option.bind_eq_some_iff.mp hs
    exact ih (h.step hs₁) hs

theorem spoilt_endWord_ended {ts : List Token} (h : OutSpoilt s ∨ WordSpoilt s)
    (hs : s.endWord.bind State.ended = some ts) : ∃ t ∈ ts, Token.fixed? noBraces t = none := by
  obtain ⟨s₁, hs₁, hs⟩ := Option.bind_eq_some_iff.mp hs
  rw [ended_out hs]
  exact outSpoilt_endWord h hs₁

theorem Lost.finish {ts : List Token} (h : Lost s) (hs : s.finish = some ts) :
    ∃ t ∈ ts, Token.fixed? noBraces t = none := by
  obtain ⟨mode, word, out, here⟩ := s
  cases mode with
  | blank =>
    rw [ended_out hs]
    exact h.resolve_right (by simp [Mode.inWord, Mode.isLost])
  | comment =>
    rw [ended_out hs]
    exact h.resolve_right (by simp [Mode.inWord, Mode.isLost])
  | word =>
    exact spoilt_endWord_ended (h.imp_right fun h => (h.resolve_right (by simp [Mode.isLost])).2) hs
  | dollar inDouble =>
    cases inDouble with
    | true => cases hs
    | false =>
      have hspoilt := h.imp_right fun h => (h.resolve_right (by simp [Mode.isLost])).2
      exact spoilt_endWord_ended (spoilt_push hspoilt false (.bare '$')) hs
  | name inDouble text =>
    cases inDouble with
    | true => cases hs
    | false => exact spoilt_endWord_ended (.inr (wordSpoilt_push_expansion _ false text)) hs
  | document d line body =>
    change (if line = d then some (out ++ [Token.document body]) else none) = some ts at hs
    split_ifs at hs
    cases hs
    exact ⟨.document body, by simp, rfl⟩
  | _ => cases hs

theorem mapM_fixed?_eq_none {ts : List Token} (h : ∃ t ∈ ts, Token.fixed? noBraces t = none) :
    ts.mapM (Token.fixed? noBraces) = none := by
  rw [Option.eq_none_iff_forall_ne_some]
  intro args hargs
  obtain ⟨t, ht, hnone⟩ := h
  obtain ⟨i, hi, rfl⟩ := List.mem_iff_getElem.mp ht
  have hall := mapM_eq_some.mp hargs
  have hsome := hall.get hi (hall.length_eq ▸ hi)
  simp [hnone] at hsome

end Lost

section Agree

variable {before : List Token} {s s' : State} {c : Char} {cs : List Char}

/-- What the scan keeps of a state. -/
def scanOf (s : State) : Scan :=
  ⟨s.mode, s.word.foldl Glob.next .outside, s.word.foldl Tilde.next .start⟩

/-- The words behind the tokens `before` are the same on every host so far. -/
structure Good (before : List Token) (s : State) : Prop where
  here : s.here = .none
  kept : s.mode.isKept = true
  extended : before <+: s.out
  out : ∀ t ∈ s.out, ∃ a, Token.fixed? noBraces t = some a
  word : ∀ m ∈ s.word, ∃ c, m.char? = some c
  blank : s.mode.inWord = false → s.word = []

/-- The scan goes on as the reading does, and stops where the line is lost. -/
inductive Agree (before : List Token) : Option State → Option Scan → Prop
  | goes (s : State) (h : Good before s) : Agree before (some s) (some (scanOf s))
  | lost (s : State) (h : Lost s) : Agree before (some s) none
  | refused : Agree before none none

theorem Good.mode (h : Good before s) {mode : Mode} (hk : mode.isKept = true)
    (hm : mode.inWord = false → s.word = []) : Good before { s with mode := mode } where
  here := h.here
  kept := hk
  extended := h.extended
  out := h.out
  word := h.word
  blank := hm

theorem Good.add (h : Good before s) {mode : Mode} (hk : mode.isKept = true)
    (hi : mode.inWord = true) {m : Mark} (hm : ∃ c, m.char? = some c) :
    Good before { s with mode := mode, word := s.word ++ [m] } where
  here := h.here
  kept := hk
  extended := h.extended
  out := h.out
  word := by
    intro m' hm'
    obtain hm' | hm' := List.mem_append.mp hm'
    · exact h.word m' hm'
    · rwa [List.mem_singleton.mp hm']
  blank := by
    intro hblank
    rw [hi] at hblank
    cases hblank

theorem scanOf_add (s : State) (mode : Mode) (m : Mark) :
    scanOf { s with mode := mode, word := s.word ++ [m] } = (scanOf s).read mode m := by
  simp [scanOf, Scan.read]

theorem agree_add (h : Good before s) {mode : Mode} (hk : mode.isKept = true)
    (hi : mode.inWord = true) {m : Mark} (hm : ∃ c, m.char? = some c) :
    Agree before (some { s with mode := mode, word := s.word ++ [m] })
      (some ((scanOf s).read mode m)) := by
  rw [← scanOf_add]
  exact .goes _ (h.add hk hi hm)

theorem Good.text (h : Good before s) : ∃ a, s.word.text? = some a := by
  cases ht : Word.text? s.word with
  | some a => exact ⟨a, rfl⟩
  | none =>
    obtain ⟨m, hm, hnone⟩ := text?_eq_none.mp ht
    obtain ⟨c, hc⟩ := h.word m hm
    rw [hnone] at hc
    cases hc

theorem isTilde_iff (w : Word) : w.isTilde = true ↔
    w.foldl Tilde.next .start = .login ∨ w.foldl Tilde.next .start = .found := by
  rw [Word.isTilde]
  cases w.foldl Tilde.next .start <;> simp

theorem Good.endWord (h : Good before s) :
    s.endWord = some (between (s.out ++ [.word s.word])) := by
  rw [State.endWord, h.here]
  rfl

theorem Good.fixed (h : Good before s) :
    (scanOf s).endWord = none ∧ Token.fixed? noBraces (.word s.word) = none ∨
      (scanOf s).endWord = some (scanOf (between (s.out ++ [.word s.word]))) ∧
        Good before (between (s.out ++ [.word s.word])) := by
  obtain ⟨a, ha⟩ := h.text
  have hfixed := fixed?_noBraces s.word
  simp only [ha, isTilde_iff, Word.isPattern, beq_iff_eq] at hfixed
  rw [Scan.endWord]
  split_ifs with hq
  · exact .inl ⟨rfl, hfixed.trans (if_pos hq)⟩
  · refine .inr ⟨rfl, rfl, rfl, h.extended.trans (List.prefix_append _ _), ?_, by simp [between],
      fun _ => rfl⟩
    intro t ht
    obtain ht | ht := List.mem_append.mp ht
    · exact h.out t ht
    · rw [List.mem_singleton.mp ht]
      exact ⟨a, hfixed.trans (if_neg hq)⟩

theorem agree_endWord (h : Good before s) : Agree before s.endWord (scanOf s).endWord := by
  rw [h.endWord]
  obtain ⟨hq, hnone⟩ | ⟨hq, hgood⟩ := h.fixed
  · rw [hq]
    exact .lost _ (.inl ⟨.word s.word, by simp [between], hnone⟩)
  · rw [hq]
    exact .goes _ hgood

theorem agree_operator (o : Option State) (h : ∀ s', o = some s' → Lost s') :
    Agree before o none := by
  cases o with
  | none => exact .refused
  | some s' => exact .lost s' (h s' rfl)

theorem agree_char (h : Good before s) {inWord : Bool} (hi : inWord = false → s.word = []) :
    Agree before (s.char inWord c) ((scanOf s).char inWord c) := by
  rw [State.char, Scan.char]
  split_ifs
  · exact .goes _ (h.mode rfl fun hm => by cases hm)
  · exact .goes _ (h.mode rfl fun hm => by cases hm)
  · exact .goes _ (h.mode rfl hi)
  · exact .goes _ (h.mode rfl fun hm => by cases hm)
  · exact .refused
  · exact agree_add h rfl rfl ⟨c, rfl⟩

theorem agree_wordStep (h : Good before s) :
    Agree before (s.wordStep c) ((scanOf s).wordStep c) := by
  rw [State.wordStep, Scan.wordStep]
  split_ifs
  · exact agree_endWord h
  · refine agree_operator _ fun s' hs => ?_
    obtain ⟨s₁, -, hs⟩ := Option.bind_eq_some_iff.mp hs
    exact lost_operator hs
  · exact agree_char h fun hi => by cases hi

theorem agree_doubleStep (h : Good before s) :
    Agree before (s.doubleStep c) ((scanOf s).doubleStep c) := by
  rw [State.doubleStep, Scan.doubleStep]
  split_ifs
  · exact .goes _ (h.mode rfl fun hm => by cases hm)
  · exact .goes _ (h.mode rfl fun hm => by cases hm)
  · exact .goes _ (h.mode rfl fun hm => by cases hm)
  · exact .refused
  · exact agree_add h rfl rfl ⟨c, rfl⟩

theorem agree_dollarStep (h : Good before s) (inDouble : Bool) :
    Agree before (s.dollarStep inDouble c)
      (if beginsExpansion c || !inDouble && (c == '\'' || c == '"') then none
      else if inDouble then ((scanOf s).read .double (.quoted '$')).doubleStep c
      else ((scanOf s).read .word (.bare '$')).wordStep c) := by
  by_cases hexp : (beginsExpansion c || !inDouble && (c == '\'' || c == '"')) = true
  · rw [if_pos hexp]
    refine agree_operator _ fun s' hs => ?_
    rw [State.dollarStep] at hs
    split_ifs at hs with h1 h2 h3 h4 h5
    · cases hs
      exact .inr (.inr rfl)
    · cases hs
      exact lost_push_expansion _ _ _
    · cases hs
      exact .inr (.inr rfl)
    · subst h5
      simp only [not_or] at h4
      simp [beginsExpansion, h1, h2, h3, h4] at hexp
    · simp only [not_or] at h4
      simp [beginsExpansion, h1, h2, h3, h4, h5] at hexp
      simp [h5] at h4
      exact absurd hexp (by simp [h4])
  · rw [if_neg hexp]
    simp only [beginsExpansion, Bool.or_eq_true, beq_iff_eq, not_or, Bool.and_eq_true,
      Bool.not_eq_true'] at hexp
    obtain ⟨⟨⟨⟨⟨h1, h2⟩, h3⟩, h4⟩, h5⟩, h6⟩ := hexp
    rw [State.dollarStep, if_neg h1, if_neg h2, if_neg h3, if_neg (by tauto)]
    cases inDouble with
    | true =>
      have hpush : Good before { s with mode := .double, word := s.word ++ [.quoted '$'] } :=
        h.add rfl rfl ⟨'$', rfl⟩
      have hstep := agree_doubleStep (c := c) hpush
      rwa [scanOf_add] at hstep
    | false =>
      have hpush : Good before { s with mode := .word, word := s.word ++ [.bare '$'] } :=
        h.add rfl rfl ⟨'$', rfl⟩
      have hstep := agree_wordStep (c := c) hpush
      rwa [scanOf_add] at hstep

theorem agree_step (h : Good before s) : Agree before (s.step c) ((scanOf s).next c) := by
  obtain ⟨mode, word, out, here⟩ := s
  cases mode with
  | blank =>
    change Agree before (State.blankStep _ c) (if isBlank c then _ else if isOperator c then none
      else if c = '#' then _ else Scan.char _ false c)
    rw [State.blankStep]
    split_ifs
    · exact .goes _ h
    · exact agree_operator _ fun s' hs => lost_operator hs
    · exact .goes _ (h.mode rfl fun _ => h.blank rfl)
    · exact agree_char h fun _ => h.blank rfl
  | word => exact agree_wordStep h
  | double => exact agree_doubleStep h
  | dollar inDouble => exact agree_dollarStep h inDouble
  | single =>
    change Agree before (if c = '\'' then _ else _) (if c = '\'' then _ else _)
    split_ifs
    · exact .goes _ (h.mode rfl fun hm => by cases hm)
    · exact agree_add h rfl rfl ⟨c, rfl⟩
  | escape inWord =>
    change Agree before (if c = '\n' then _ else _) (if c = '\n' then _ else _)
    split_ifs with hn hw
    · exact .goes _ (h.mode rfl fun hm => by cases hm)
    · exact .goes _ (h.mode rfl fun _ => h.blank (by simpa [Mode.inWord] using hw))
    · have hadd : Agree before (some ⟨.word, word ++ [.quoted c], out, here⟩) _ :=
        agree_add h rfl rfl ⟨c, rfl⟩
      exact hadd
  | escapeDouble =>
    change Agree before (if _ then _ else if _ then _ else _) (if _ then _ else if _ then _ else _)
    split_ifs
    · exact agree_add h rfl rfl ⟨c, rfl⟩
    · exact .goes _ (h.mode rfl fun hm => by cases hm)
    · have hpush : Good before ⟨.double, word ++ [.quoted '\\'], out, here⟩ :=
        h.add rfl rfl ⟨'\\', rfl⟩
      have hstep : Agree before (some ⟨.double, word ++ [.quoted '\\'] ++ [.quoted c], out, here⟩) _ :=
        agree_add hpush rfl rfl ⟨c, rfl⟩
      rwa [scanOf_add ⟨.escapeDouble, word, out, here⟩] at hstep
  | comment =>
    change Agree before (if c = '\n' then State.operator _ c else _) (if c = '\n' then none else _)
    split_ifs
    · exact agree_operator _ fun s' hs => lost_operator hs
    · exact .goes _ h
  | _ => cases h.kept

theorem agree_run (h : Good before s) : Agree before (s.run cs) ((scanOf s).run cs) := by
  induction cs generalizing s with
  | nil => exact .goes s h
  | cons c cs ih =>
    rw [State.run, Scan.run]
    have hstep := agree_step (c := c) h
    generalize s.step c = r, (scanOf s).next c = q at hstep
    cases hstep with
    | goes s' h' => exact ih h'
    | refused => exact .refused
    | lost s' h' => exact agree_operator _ fun s'' hs => h'.run hs

/-- The tokens are words that are the same on every host. -/
def AllFixed (ts : List Token) : Prop := ∀ t ∈ ts, ∃ a, Token.fixed? noBraces t = some a

theorem endWord_ended_iff (h : Good before s) : (scanOf s).endWord.isSome = true ↔
    ∃ ts, s.endWord.bind State.ended = some ts ∧ before <+: ts ∧ AllFixed ts := by
  rw [h.endWord]
  obtain ⟨hq, hnone⟩ | ⟨hq, hgood⟩ := h.fixed
  · rw [hq]
    refine iff_of_false (by simp) ?_
    rintro ⟨ts, hts, -, hfixed⟩
    rw [ended_out hts] at hfixed
    obtain ⟨a, ha⟩ := hfixed (.word s.word) (by simp [between])
    rw [hnone] at ha
    cases ha
  · rw [hq]
    exact iff_of_true rfl ⟨_, rfl, hgood.extended, hgood.out⟩

theorem finish_iff (h : Good before s) : (scanOf s).ends = true ↔
    ∃ ts, s.finish = some ts ∧ before <+: ts ∧ AllFixed ts := by
  obtain ⟨mode, word, out, here⟩ := s
  have hended : (⟨mode, word, out, here⟩ : State).ended = some out := if_pos h.here
  cases mode with
  | blank => exact iff_of_true rfl ⟨out, hended, h.extended, h.out⟩
  | comment => exact iff_of_true rfl ⟨out, hended, h.extended, h.out⟩
  | word => exact endWord_ended_iff h
  | dollar inDouble =>
    cases inDouble with
    | true => exact iff_of_false (by simp [scanOf, Scan.ends]) (by simp [State.finish])
    | false =>
      have hpush : Good before ⟨.word, word ++ [.bare '$'], out, here⟩ := h.add rfl rfl ⟨'$', rfl⟩
      have hend := endWord_ended_iff hpush
      rwa [scanOf_add ⟨.dollar false, word, out, here⟩] at hend
  | single => exact iff_of_false (by simp [scanOf, Scan.ends]) (by simp [State.finish])
  | double => exact iff_of_false (by simp [scanOf, Scan.ends]) (by simp [State.finish])
  | escape inWord => exact iff_of_false (by simp [scanOf, Scan.ends]) (by simp [State.finish])
  | escapeDouble => exact iff_of_false (by simp [scanOf, Scan.ends]) (by simp [State.finish])
  | _ => cases h.kept

theorem finish_extends {ts : List Token} (h : Good before s) (hs : s.finish = some ts) :
    before <+: ts := by
  have hend : ∀ {s : State}, Good before s → s.endWord.bind State.ended = some ts → before <+: ts := by
    intro s h hs
    rw [h.endWord] at hs
    rw [ended_out hs]
    exact h.extended.trans (List.prefix_append _ _)
  obtain ⟨mode, word, out, here⟩ := s
  cases mode with
  | blank =>
    rw [ended_out hs]
    exact h.extended
  | comment =>
    rw [ended_out hs]
    exact h.extended
  | word => exact hend h hs
  | dollar inDouble =>
    cases inDouble with
    | true => cases hs
    | false =>
      have hpush : Good before ⟨.word, word ++ [.bare '$'], out, here⟩ := h.add rfl rfl ⟨'$', rfl⟩
      exact hend hpush hs
  | name inDouble text => cases h.kept
  | document d line body => cases h.kept
  | _ => cases hs

theorem extends_of_allFixed {ts : List Token} (hbefore : AllFixed before) {text : List Char}
    (hts : ((between before).run text).bind State.finish = some ts) (h : AllFixed ts) :
    before <+: ts := by
  have hgood : Good before (between before) :=
    ⟨rfl, rfl, List.prefix_rfl, hbefore, by simp [between], fun _ => rfl⟩
  have hrun : Agree before (State.run _ text) (Scan.run _ text) := agree_run hgood
  generalize (between before).run text = r, (scanOf (between before)).run text = q at hrun hts
  cases hrun with
  | goes s hs => exact finish_extends hs hts
  | lost s hs =>
    obtain ⟨t, ht, hnone⟩ := hs.finish hts
    obtain ⟨a, ha⟩ := h t ht
    rw [hnone] at ha
    cases ha
  | refused => cases hts

/-- The words of a text are the same on every host if and only if the scan says so. -/
theorem isFixed_iff {before : List Token} (hbefore : AllFixed before) (text : List Char) :
    isFixed text = true ↔ ∃ ts, ((between before).run text).bind State.finish = some ts ∧
      before <+: ts ∧ AllFixed ts := by
  have hgood : Good before (between before) :=
    ⟨rfl, rfl, List.prefix_rfl, hbefore, by simp [between], fun _ => rfl⟩
  have hrun : Agree before (State.run _ text) (Scan.run _ text) := agree_run hgood
  have hstart : scanOf (between before) = Scan.start := rfl
  rw [isFixed, ← hstart]
  generalize (between before).run text = r, (scanOf (between before)).run text = q at hrun
  cases hrun with
  | goes s h => exact finish_iff h
  | lost s h =>
    refine iff_of_false (by simp) ?_
    rintro ⟨ts, hts, -, hfixed⟩
    obtain ⟨t, ht, hnone⟩ := h.finish hts
    obtain ⟨a, ha⟩ := hfixed t ht
    rw [hnone] at ha
    cases ha
  | refused => exact iff_of_false (by simp) (by simp)

theorem allFixed_iff {ts : List Token} :
    AllFixed ts ↔ ∃ args, ts.mapM (Token.fixed? noBraces) = some args := by
  constructor
  · intro h
    induction ts with
    | nil => exact ⟨[], rfl⟩
    | cons t ts ih =>
      obtain ⟨⟨a, ha⟩, hts⟩ := List.forall_mem_cons.mp h
      obtain ⟨args, hargs⟩ := ih hts
      exact ⟨a :: args, by rw [List.mapM_cons, ha, hargs]; rfl⟩
  · rintro ⟨args, hargs⟩ t ht
    by_contra hne
    have hnone : Token.fixed? noBraces t = none :=
      Option.eq_none_iff_forall_ne_some.mpr fun a ha => hne ⟨a, ha⟩
    rw [mapM_fixed?_eq_none ⟨t, ht, hnone⟩] at hargs
    cases hargs

/-- Behind words that are read as themselves, the line has further arguments and nothing else if
and only if the scan says so. -/
theorem argv_append_iff {args : List (List Char)} (hargs : args ≠ [])
    (h : ∀ a ∈ args, IsInert a ∧ Word.fixed? noBraces (a.map .bare) = some a) (text : List Char) :
    (∃ more, argv noBraces (spaced args ++ ' ' :: text) = some (args ++ more)) ↔
      isFixed text = true := by
  have hwords : (args.map fun a => Token.word (a.map .bare)).mapM (Token.fixed? noBraces) =
      some args := by
    rw [mapM_eq_some, List.forall₂_map_left_iff, List.forall₂_same]
    exact fun a ha => (h a ha).2
  have hrun : State.start.run (spaced args ++ ' ' :: text) = _ :=
    run_spaced_append hargs (fun a ha => (h a ha).1) [] text
  rw [isFixed_iff (allFixed_iff.mpr ⟨args, hwords⟩), argv, tokens, hrun, List.nil_append]
  constructor
  · rintro ⟨more, hmore⟩
    obtain ⟨ts, hts, hargv⟩ := Option.bind_eq_some_iff.mp hmore
    have hfixed := allFixed_iff.mpr ⟨_, hargv⟩
    exact ⟨ts, hts, extends_of_allFixed (allFixed_iff.mpr ⟨args, hwords⟩) hts hfixed, hfixed⟩
  · rintro ⟨ts, hts, ⟨rest, rfl⟩, hfixed⟩
    obtain ⟨more, hmore⟩ := allFixed_iff.mp fun t ht => hfixed t (List.mem_append_right _ ht)
    refine ⟨more, ?_⟩
    rw [hts, Option.bind_some, mapM_eq_some]
    exact List.rel_append (mapM_eq_some.mp hwords) (mapM_eq_some.mp hmore)

end Agree

end Hbird.Shell
