import Hbird.Interaction.Exec

namespace Hbird.Shell.Script

open Hbird.Interaction

/-- A part of a word inside double quotes. -/
inductive Fragment : Type
  | text (s : String)
  | variable (x : String)
  deriving DecidableEq, Repr

/-- A part of a word. -/
inductive Piece : Type
  | bare (s : String)
  | single (s : String)
  | double (fragments : List Fragment)
  deriving DecidableEq, Repr

abbrev Word := List Piece

/-- The commands of a script: no option that ends it at a failure is set. -/
inductive Command : Type
  | comment (text : String)
  | assign (x : String) (stages : List (List Word))
  | nonEmpty (x : String)
  | simple (words : List Word) (redirection : String)
  | exit (status : Nat)
  | seq (first second : Command)
  | orElse (first second : Command)
  deriving Repr

abbrev Vars := String → String

/-- Commands that are run, each with its arguments; the output is taken or not. -/
structure Query where
  stages : List (List String)
  captured : Bool
  deriving DecidableEq, Repr

structure Ended where
  stdout : String
  status : Nat
  deriving DecidableEq, Repr

abbrev Reply : Query → Type := fun _ => Ended

abbrev Session (α : Type) := Exec Query Reply Nat α

def Fragment.expand (v : Vars) : Fragment → String
  | .text s => s
  | .variable x => v x

def Piece.expand (v : Vars) : Piece → String
  | .bare s => s
  | .single s => s
  | .double fragments => String.join (fragments.map (Fragment.expand v))

def expand (v : Vars) (word : Word) : String := String.join (word.map (Piece.expand v))

/-- A command substitution takes the line feeds at the end away. -/
def substituted (stdout : String) : String := String.ofList (stdout.toList.rdropWhile (· = '\n'))

def ask (stages : List (List String)) (captured : Bool) : Session Ended :=
  Exec.observe (Program.perform ⟨stages, captured⟩)

def Command.exec : Command → Vars → Session (Nat × Vars)
  | .comment _, v => pure (0, v)
  | .assign x stages, v => ask (stages.map (List.map (expand v))) true >>= fun r =>
      pure (r.status, Function.update v x (substituted r.stdout))
  | .nonEmpty x, v => pure (if v x = "" then 1 else 0, v)
  | .simple words _, v => ask [words.map (expand v)] false >>= fun r => pure (r.status, v)
  | .exit status, _ => throw status
  | .seq first second, v => first.exec v >>= fun r => second.exec r.2
  | .orElse first second, v => first.exec v >>= fun r => if r.1 = 0 then pure r else second.exec r.2

def run : List Command → Vars → Session Vars
  | [], v => pure v
  | command :: commands, v => command.exec v >>= fun r => run commands r.2

section Texts

/-- Texts with a separator between them. -/
def joined (sep : String) : List String → String
  | [] => ""
  | [s] => s
  | s :: s' :: rest => s ++ sep ++ joined sep (s' :: rest)

def Fragment.toText : Fragment → String
  | .text s => s
  | .variable x => "$" ++ x

def Piece.toText : Piece → String
  | .bare s => s
  | .single s => "'" ++ s ++ "'"
  | .double fragments => "\"" ++ joined "" (fragments.map Fragment.toText) ++ "\""

def wordText (word : Word) : String := joined "" (word.map Piece.toText)

def argvText (words : List Word) : String := joined " " (words.map wordText)

def Command.toText : Command → String
  | .comment text => "#" ++ text
  | .assign x stages => x ++ "=$(" ++ joined " | " (stages.map argvText) ++ ")"
  | .nonEmpty x => "[ -n \"$" ++ x ++ "\" ]"
  | .simple words redirection => argvText words ++ redirection
  | .exit status => "exit " ++ toString status
  | .seq first second => first.toText ++ "; " ++ second.toText
  | .orElse first second => first.toText ++ " || \x7b " ++ second.toText ++ "; \x7d"

/-- The characters that stand for themselves outside quotes. -/
def isPlain (c : Char) : Bool := c.isAlphanum || c == '-' || c == '_' || c == '.' || c == ':' || c == '=' || c == '/'

/-- The characters that stand for themselves inside double quotes. -/
def isLiteral (c : Char) : Bool := c != '"' && c != '$' && c != '\\' && c.toNat != 0x60

def Fragment.isWritten : Fragment → Bool
  | .text s => s.toList.all isLiteral
  | .variable x => x.toList.all fun c => c.isAlphanum || c == '_'

def Piece.isWritten : Piece → Bool
  | .bare s => s.toList.all isPlain
  | .single s => s.toList.all (· != '\'')
  | .double fragments => fragments.all Fragment.isWritten

/-- The text of the command is read as the command: what each part holds stands for itself where it
stands. -/
def Command.isWritten : Command → Bool
  | .comment text => text.toList.all (· != '\n')
  | .assign x stages => x.toList.all Char.isAlphanum && stages.all (List.all · (List.all · Piece.isWritten))
  | .nonEmpty x => x.toList.all Char.isAlphanum
  | .simple words _ => words.all (List.all · Piece.isWritten)
  | .exit _ => true
  | .seq first second => first.isWritten && second.isWritten
  | .orElse first second => first.isWritten && second.isWritten

theorem joined_cons (s : String) (rest : List String) :
    joined "" (s :: rest) = s ++ joined "" rest := by
  cases rest with
  | nil => rw [joined, joined, String.append_empty]
  | cons s' rest => rw [joined, String.append_empty]

theorem joined_append (l l' : List String) : joined "" (l ++ l') = joined "" l ++ joined "" l' := by
  induction l with
  | nil => rw [List.nil_append, joined, String.empty_append]
  | cons s l ih => rw [List.cons_append, joined_cons, joined_cons, ih, String.append_assoc]

end Texts

section Runs

variable {a b commands : List Command} {c c' : Command} {v v' : Vars} {t : Trace Reply}
  {o : Except Nat Vars} {r : Except Nat (Nat × Vars)} {words : List Word} {redirection x : String}
  {stages : List (List Word)} {status : Nat}

theorem finishes_ask {stages : List (List String)} {captured : Bool} {r : Except Nat Ended} :
    Finishes (ask stages captured) t r ↔ ∃ e, t = [⟨⟨stages, captured⟩, e⟩] ∧ r = .ok e := by
  rw [ask, finishes_observe]
  constructor
  · rintro ⟨e, rfl, h⟩
    exact ⟨e, runs_perform.mp h, rfl⟩
  · rintro ⟨e, rfl, rfl⟩
    exact ⟨e, rfl, runs_perform.mpr rfl⟩

/-- One command is run, and its end is all there is to what follows. -/
theorem finishes_ask_map {α : Type} {stages : List (List String)} {captured : Bool} {f : Ended → α}
    {r : Except Nat α} : Finishes (ask stages captured >>= fun e => pure (f e)) t r ↔
      ∃ e, t = [⟨⟨stages, captured⟩, e⟩] ∧ r = .ok (f e) := by
  rw [finishes_bind]
  constructor
  · rintro (⟨e, rfl, h⟩ | ⟨e, t₁, t₂, rfl, h₁, h₂⟩)
    · obtain ⟨_, -, hr⟩ := finishes_ask.mp h
      cases hr
    · obtain ⟨_, rfl, hr⟩ := finishes_ask.mp h₁
      obtain rfl := Except.ok.inj hr
      obtain ⟨rfl, rfl⟩ := finishes_pure.mp h₂
      exact ⟨e, List.append_nil _, rfl⟩
  · rintro ⟨e, rfl, rfl⟩
    exact .inr ⟨e, _, [], (List.append_nil _).symm, finishes_ask.mpr ⟨e, rfl, rfl⟩,
      finishes_pure.mpr ⟨rfl, rfl⟩⟩

theorem finishes_assign : Finishes ((Command.assign x stages).exec v) t r ↔
    ∃ e, t = [⟨⟨stages.map (List.map (expand v)), true⟩, e⟩] ∧
      r = .ok (e.status, Function.update v x (substituted e.stdout)) := finishes_ask_map

theorem finishes_simple : Finishes ((Command.simple words redirection).exec v) t r ↔
    ∃ e, t = [⟨⟨[words.map (expand v)], false⟩, e⟩] ∧ r = .ok (e.status, v) := finishes_ask_map

/-- A variable that is to be set, or else a last command and the end of the script. -/
theorem finishes_nonEmpty_or :
    Finishes ((Command.orElse (.nonEmpty x) (.seq (.simple words redirection) (.exit status))).exec v) t r ↔
      (v x ≠ "" ∧ t = [] ∧ r = .ok (0, v)) ∨
        v x = "" ∧ r = .error status ∧ ∃ e, t = [⟨⟨[words.map (expand v)], false⟩, e⟩] := by
  have htest : (Command.orElse (.nonEmpty x) (.seq (.simple words redirection) (.exit status))).exec v =
      if v x = "" then (Command.simple words redirection).exec v >>= fun _ => throw status
      else pure (0, v) := by
    simp only [Command.exec, pure_bind]
    by_cases hx : v x = ""
    · simp [hx]
    · simp [hx]
  rw [htest]
  by_cases hx : v x = ""
  · rw [if_pos hx, finishes_bind]
    simp only [hx, ne_eq, not_true_eq_false, false_and, true_and, false_or]
    constructor
    · rintro (⟨n, -, h⟩ | ⟨_, t₁, t₂, rfl, h₁, h₂⟩)
      · obtain ⟨_, -, hr⟩ := finishes_simple.mp h
        cases hr
      · obtain ⟨e, rfl, -⟩ := finishes_simple.mp h₁
        obtain ⟨rfl, rfl⟩ := finishes_throw.mp h₂
        exact ⟨rfl, e, List.append_nil _⟩
    · rintro ⟨rfl, e, rfl⟩
      exact .inr ⟨(e.status, v), _, [], (List.append_nil _).symm, finishes_simple.mpr ⟨e, rfl, rfl⟩,
        finishes_throw.mpr ⟨rfl, rfl⟩⟩
  · rw [if_neg hx, finishes_pure]
    simp [hx]

theorem finishes_run_cons : Finishes (run (c :: commands) v) t o ↔
    (∃ status, o = .error status ∧ Finishes (c.exec v) t (.error status)) ∨
      ∃ r t₁ t₂, t = t₁ ++ t₂ ∧ Finishes (c.exec v) t₁ (.ok r) ∧ Finishes (run commands r.2) t₂ o :=
  finishes_bind

theorem run_comment (text : String) : run (.comment text :: commands) v = run commands v := rfl

/-- A lookup at the head of a script, whose output the rest has in a variable. -/
theorem finishes_run_assign : Finishes (run (.assign x stages :: commands) v) t o ↔ ∃ e t',
    t = ⟨⟨stages.map (List.map (expand v)), true⟩, e⟩ :: t' ∧
      Finishes (run commands (Function.update v x (substituted e.stdout))) t' o := by
  rw [finishes_run_cons]
  constructor
  · rintro (⟨status, -, h⟩ | ⟨r, t₁, t₂, rfl, h₁, h₂⟩)
    · obtain ⟨e, -, hr⟩ := finishes_assign.mp h
      cases hr
    · obtain ⟨e, rfl, hr⟩ := finishes_assign.mp h₁
      obtain rfl := Except.ok.inj hr
      exact ⟨e, t₂, rfl, h₂⟩
  · rintro ⟨e, t', rfl, h⟩
    exact .inr ⟨_, _, t', rfl, finishes_assign.mpr ⟨e, rfl, rfl⟩, h⟩

/-- A variable that the rest of a script needs: without it a last command is run, and no other. -/
theorem finishes_run_nonEmpty_or : Finishes
    (run (.orElse (.nonEmpty x) (.seq (.simple words redirection) (.exit status)) :: commands) v) t o ↔
      (v x ≠ "" ∧ Finishes (run commands v) t o) ∨
        v x = "" ∧ o = .error status ∧ ∃ e, t = [⟨⟨[words.map (expand v)], false⟩, e⟩] := by
  rw [finishes_run_cons]
  constructor
  · rintro (⟨n, rfl, h⟩ | ⟨r, t₁, t₂, rfl, h₁, h₂⟩)
    · obtain ⟨-, -, hr⟩ | ⟨hx, hr, he⟩ := finishes_nonEmpty_or.mp h
      · cases hr
      · exact .inr ⟨hx, by rw [Except.error.inj hr], he⟩
    · obtain ⟨hx, rfl, hr⟩ | ⟨-, hr, -⟩ := finishes_nonEmpty_or.mp h₁
      · obtain rfl := Except.ok.inj hr
        exact .inl ⟨hx, h₂⟩
      · cases hr
  · rintro (⟨hx, h⟩ | ⟨hx, rfl, he⟩)
    · exact .inr ⟨(0, v), [], t, rfl, finishes_nonEmpty_or.mpr (.inl ⟨hx, rfl, rfl⟩), h⟩
    · exact .inl ⟨status, rfl, finishes_nonEmpty_or.mpr (.inr ⟨hx, rfl, he⟩)⟩

/-- The commands of a list are all run, whatever becomes of each. -/
theorem finishes_run_simple {argvs : List (List Word × String)}
    (h : Finishes (run (argvs.map fun c => .simple c.1 c.2) v) t o) :
    t.map Sigma.fst = argvs.map fun c => ⟨[c.1.map (expand v)], false⟩ := by
  induction argvs generalizing t with
  | nil =>
    obtain ⟨rfl, -⟩ := finishes_pure.mp h
    rfl
  | cons c argvs ih =>
    rw [List.map_cons, finishes_run_cons] at h
    obtain ⟨n, -, h⟩ | ⟨_, t₁, t₂, rfl, h₁, h₂⟩ := h
    · obtain ⟨_, -, hr⟩ := finishes_simple.mp h
      cases hr
    · obtain ⟨e, rfl, hr⟩ := finishes_simple.mp h₁
      obtain rfl := Except.ok.inj hr
      rw [List.map_append, ih h₂]
      rfl

end Runs

end Hbird.Shell.Script
