import Hbird.Interaction.Transition
import Hbird.Pipe
import Hbird.Ssh

namespace Hbird.SshPipes

open Hbird.Interaction Hbird.Ssh

/-- What the child writes to. -/
inductive Output : Type
  | stdout
  | stderr
  deriving DecidableEq, Repr

/-- One call of `run_inner_impl` with a spawned child: the bytes for its standard input (none:
`Stdio::null`), the command timeout in milliseconds, the room in the three pipes, and whether the
child may close its standard input while it runs. -/
structure Call where
  stdin : Option (List UInt8)
  timeout : Option Nat
  stdinCapacity : Nat
  capacity : Output → Nat
  closesStdin : Bool

def Call.bytes (c : Call) : List UInt8 := c.stdin.getD []

/-- `WATCHDOG_POLL`, in milliseconds. -/
def watchdogPoll : Nat := 50

inductive Outcome : Type
  | stdinWrite
  | timeout
  | output (status : ExitStatus) (stdout stderr : List UInt8)
  deriving DecidableEq, Repr

/-- Where the parent is: in `write_all`, with the bytes it has not written; in the `wait` behind a
failed write; reading both outputs in `wait_with_output`, and in its `wait`; in the polling loop of
`wait_with_timeout`; joining the two readers behind that loop, or behind `kill`. -/
inductive Parent : Type
  | writing (rest : List UInt8)
  | reaping
  | collecting
  | waiting
  | watching (budget elapsed : Nat)
  | joining (status : ExitStatus)
  | joiningKilled
  | done (outcome : Outcome)
  deriving DecidableEq, Repr

/-- Whether the two outputs are being read: by `wait_with_output`, or by the drain threads. -/
def Parent.drains : Parent → Bool
  | .collecting | .watching .. | .joining _ | .joiningKilled => true
  | _ => false

/-- Whether the child has to go on for the parent to: to read, to write or to end. -/
def Parent.awaits : Parent → Bool
  | .writing _ | .reaping | .collecting | .waiting | .watching .. => true
  | .joining _ | .joiningKilled | .done _ => false

/-- The child runs, stands in a `read` or in a `write`, or has ended. -/
inductive Child : Type
  | running
  | reading
  | writing (o : Output) (rest : List UInt8)
  | exited (status : ExitStatus)
  deriving DecidableEq, Repr

def Child.status : Child → Option ExitStatus
  | .exited status => some status
  | _ => none

structure State (c : Call) where
  parent : Parent
  child : Child
  stdin : Pipe c.stdinCapacity
  outputs : (o : Output) → Pipe (c.capacity o)
  /-- What has been read of the outputs. -/
  read : Output → List UInt8

inductive Move : Type
  | beginRead
  | beginWrite (o : Output) (bytes : List UInt8)
  | proceed
  | closeStdin
  | exit (status : ExitStatus)
  deriving DecidableEq, Repr

/-- The parent goes on (`nap` is by how much its sleep takes longer than the poll interval), one of
the outputs is read on, or the child goes on. -/
inductive Action : Type
  | parent (nap : Nat)
  | drain (o : Output)
  | child (move : Move)
  deriving DecidableEq, Repr

/-- The actions of the parent and its threads. -/
def Action.isParents : Action → Bool
  | .parent _ | .drain _ => true
  | .child _ => false

namespace State

variable {c : Call}

def start (c : Call) : State c where
  parent := .writing c.bytes
  child := .running
  stdin := { Pipe.opened c.stdinCapacity with writer := c.stdin.isSome }
  outputs := fun o => Pipe.opened (c.capacity o)
  read := fun _ => []

/-- The end of the child closes its ends of the three pipes. -/
def ended (s : State c) (status : ExitStatus) : State c :=
  { s with
    child := .exited status
    stdin := s.stdin.closeReader
    outputs := fun o => (s.outputs o).closeWriter }

def OutputsAtEnd (s : State c) : Prop :=
  (s.outputs .stdout).AtEnd ∧ (s.outputs .stderr).AtEnd

instance {s : State c} : Decidable s.OutputsAtEnd := inferInstanceAs (Decidable (_ ∧ _))

/-- `SIGKILL`, which `Child::kill` sends. -/
def sigkill : ExitStatus := .signal 9

/-- One step of the code: `run_inner_impl` from the writing of the input on, and
`wait_with_timeout`. None where it waits. -/
def parentStep (s : State c) (nap : Nat) : Option (State c) :=
  match s.parent with
  | .writing [] =>
    some { s with
      stdin := s.stdin.closeWriter
      parent :=
        match c.timeout with
        | none => .collecting
        | some budget => .watching budget 0 }
  | .writing (b :: rest) =>
    if s.stdin.reader then
      (s.stdin.put b).map fun p => { s with stdin := p, parent := .writing rest }
    else
      -- EPIPE: the write has failed, the handle is dropped
      some { s with stdin := s.stdin.closeWriter, parent := .reaping }
  | .reaping => s.child.status.map fun _ => { s with parent := .done .stdinWrite }
  | .collecting => if s.OutputsAtEnd then some { s with parent := .waiting } else none
  | .waiting =>
    s.child.status.map fun status =>
      { s with parent := .done (.output status (s.read .stdout) (s.read .stderr)) }
  | .watching budget elapsed =>
    match s.child.status with
    | some status => some { s with parent := .joining status }
    | none =>
      if budget ≤ elapsed then some { s.ended sigkill with parent := .joiningKilled }
      else some { s with parent := .watching budget (elapsed + watchdogPoll + nap) }
  | .joining status =>
    if s.OutputsAtEnd then
      some { s with parent := .done (.output status (s.read .stdout) (s.read .stderr)) }
    else none
  | .joiningKilled => if s.OutputsAtEnd then some { s with parent := .done .timeout } else none
  | .done _ => none

def drainStep (s : State c) (o : Output) : Option (State c) :=
  if s.parent.drains then
    (s.outputs o).take.map fun p =>
      { s with
        outputs := Function.update s.outputs o p.2
        read := Function.update s.read o (s.read o ++ [p.1]) }
  else none

/-- One step of the child, which is free to do what it likes with its three ends. -/
def childStep (s : State c) : Move → Option (State c)
  | .beginRead =>
    if s.child = .running ∧ s.stdin.reader then some { s with child := .reading } else none
  | .beginWrite o bytes =>
    if s.child = .running then some { s with child := .writing o bytes } else none
  | .closeStdin =>
    if s.child = .running ∧ c.closesStdin then some { s with stdin := s.stdin.closeReader } else none
  | .exit status => if s.child = .running then some (s.ended status) else none
  | .proceed =>
    match s.child with
    | .reading =>
      match s.stdin.take with
      | some p => some { s with stdin := p.2, child := .running }
      | none => if s.stdin.writer then none else some { s with child := .running }
    | .writing _ [] => some { s with child := .running }
    | .writing o (b :: rest) =>
      ((s.outputs o).put b).map fun p =>
        { s with outputs := Function.update s.outputs o p, child := .writing o rest }
    | _ => none

def step (s : State c) : Action → Option (State c)
  | .parent nap => s.parentStep nap
  | .drain o => s.drainStep o
  | .child move => s.childStep move

/-- The parent stands in a write to the child's input, which is full. -/
def ParentBlocked (s : State c) : Prop :=
  (∃ b rest, s.parent = .writing (b :: rest)) ∧ s.stdin.reader = true ∧ s.stdin.Full

/-- The child stands in a write to an output, which is full. -/
def ChildBlocked (s : State c) : Prop :=
  ∃ o b rest, s.child = .writing o (b :: rest) ∧ (s.outputs o).Full

def Deadlock (s : State c) : Prop := s.ParentBlocked ∧ s.ChildBlocked

/-- The child lives, and the parent is in a call whose return depends on it. -/
def Waits (s : State c) : Prop := s.child.status = none ∧ s.parent.awaits = true

/-- The parent's own steps, without one of the child, lead to the end of the call by the timeout. -/
def EndedByWatchdog (s : State c) : Prop :=
  ∃ as s', (∀ a ∈ as, a.isParents = true) ∧ exec step s as = some s' ∧ s'.parent = .done .timeout

end State

/-- No run reaches a deadlock, and under a timeout the watchdog can end every wait. -/
structure NeverHangs (c : Call) : Prop where
  live : ∀ s, Reachable State.step (.start c) s → ¬ s.Deadlock
  watched : c.timeout.isSome → ∀ s, Reachable State.step (.start c) s → s.Waits →
    s.EndedByWatchdog

namespace State

variable {c : Call} {s s' : State c}

section Steps

theorem drainStep_some {o : Output} (h : s.drainStep o = some s') :
    s'.parent = s.parent ∧ s'.child = s.child ∧ s'.stdin = s.stdin := by
  unfold drainStep at h
  split at h
  · obtain ⟨p, -, rfl⟩ := Option.map_eq_some_iff.mp h
    exact ⟨rfl, rfl, rfl⟩
  · cases h

/-- Only a living child acts; what its input holds does not grow, and the input loses its reader
only by the child's end, or where the child may close it. -/
theorem childStep_some {m : Move} (h : s.childStep m = some s') :
    s'.parent = s.parent ∧ s.child.status = none ∧
      s'.stdin.content.length ≤ s.stdin.content.length ∧
      (s'.stdin.reader = false →
        s.stdin.reader = false ∨ s'.child.status ≠ none ∨ c.closesStdin = true) := by
  cases m with
  | beginRead =>
    simp only [childStep] at h
    split at h
    case isTrue hif =>
      cases h
      exact ⟨rfl, by rw [hif.1]; rfl, le_rfl, .inl⟩
    case isFalse => cases h
  | beginWrite o bytes =>
    simp only [childStep] at h
    split at h
    case isTrue hif =>
      cases h
      exact ⟨rfl, by rw [hif]; rfl, le_rfl, .inl⟩
    case isFalse => cases h
  | closeStdin =>
    simp only [childStep] at h
    split at h
    case isTrue hif =>
      cases h
      exact ⟨rfl, by rw [hif.1]; rfl, le_rfl, fun _ => .inr (.inr hif.2)⟩
    case isFalse => cases h
  | exit status =>
    simp only [childStep] at h
    split at h
    case isTrue hif =>
      cases h
      exact ⟨rfl, by rw [hif]; rfl, le_rfl, fun _ => .inr (.inl (Option.some_ne_none _))⟩
    case isFalse => cases h
  | proceed =>
    simp only [childStep] at h
    split at h
    case h_1 hchild =>
      split at h
      case h_1 p htake =>
        cases h
        obtain ⟨hcontent, -, hreader⟩ := Pipe.take_eq_some.mp htake
        refine ⟨rfl, by rw [hchild]; rfl, ?_, fun hr => .inl (hreader ▸ hr)⟩
        rw [hcontent]
        exact Nat.le_succ _
      case h_2 =>
        split at h
        · cases h
        · cases h
          exact ⟨rfl, by rw [hchild]; rfl, le_rfl, .inl⟩
    case h_2 hchild =>
      cases h
      exact ⟨rfl, by rw [hchild]; rfl, le_rfl, .inl⟩
    case h_3 hchild =>
      obtain ⟨p, -, rfl⟩ := Option.map_eq_some_iff.mp h
      exact ⟨rfl, by rw [hchild]; rfl, le_rfl, .inl⟩
    case h_4 => cases h

end Steps

/-- What holds along every run. -/
structure Invariant (s : State c) : Prop where
  /-- No more is under way to the child than it was given. -/
  given : ∀ rest, s.parent = .writing rest →
    s.stdin.content.length + rest.length ≤ c.bytes.length
  closed : s.stdin.reader = false → s.child.status ≠ none ∨ c.closesStdin = true
  timed : c.timeout.isSome → s.parent ≠ .collecting ∧ s.parent ≠ .waiting
  reaping : s.parent = .reaping →
    s.child.status ≠ none ∨ c.closesStdin = true ∧ c.bytes ≠ []

theorem invariant_start : (start c).Invariant where
  given := by
    intro rest h
    obtain rfl : c.bytes = rest := Parent.writing.inj h
    exact (Nat.zero_add _).le
  closed := fun h => nomatch h
  timed := fun _ => ⟨Parent.noConfusion, Parent.noConfusion⟩
  reaping := fun h => nomatch h

theorem Invariant.drain {o : Output} (hs : s.Invariant) (h : s.drainStep o = some s') :
    s'.Invariant := by
  obtain ⟨hparent, hchild, hstdin⟩ := drainStep_some h
  exact ⟨by rw [hparent, hstdin]; exact hs.given, by rw [hstdin, hchild]; exact hs.closed,
    by rw [hparent]; exact hs.timed, by rw [hparent, hchild]; exact hs.reaping⟩

theorem Invariant.child {m : Move} (hs : s.Invariant) (h : s.childStep m = some s') :
    s'.Invariant := by
  obtain ⟨hparent, halive, hcontent, hreader⟩ := childStep_some h
  refine ⟨fun rest hrest => ?_, fun hr => ?_, by rw [hparent]; exact hs.timed, fun hr => ?_⟩
  · have := hs.given rest (hparent ▸ hrest)
    omega
  · obtain hr | hr | hr := hreader hr
    · exact .inr ((hs.closed hr).resolve_left (· halive))
    · exact .inl hr
    · exact .inr hr
  · exact .inr ((hs.reaping (hparent ▸ hr)).resolve_left (· halive))

/-- The phases of the parent of which the invariant says nothing. -/
def settled : Parent → Bool
  | .watching .. | .joining _ | .joiningKilled | .done _ => true
  | _ => false

theorem invariant_of_settled (hclosed : s.stdin.reader = false →
    s.child.status ≠ none ∨ c.closesStdin = true) (h : settled s.parent = true) : s.Invariant where
  given := fun rest hrest => by rw [hrest] at h; cases h
  closed := hclosed
  timed := fun _ => by
    constructor <;>
    · intro hp
      rw [hp] at h
      cases h
  reaping := fun hp => by rw [hp] at h; cases h

theorem Invariant.parent {nap : Nat} (hs : s.Invariant) (h : s.parentStep nap = some s') :
    s'.Invariant := by
  unfold parentStep at h
  split at h
  case h_1 hparent =>
    cases h
    refine ⟨fun rest hrest => ?_, hs.closed, fun htimed => ?_, fun hr => ?_⟩
    · cases hc : c.timeout <;> simp [hc] at hrest
    · obtain ⟨budget, hc⟩ := Option.isSome_iff_exists.mp htimed
      simp [hc]
    · cases hc : c.timeout <;> simp [hc] at hr
  case h_2 b rest hparent =>
    have hgiven := hs.given _ hparent
    rw [List.length_cons] at hgiven
    split at h
    case isTrue hopen =>
      obtain ⟨p, hput, rfl⟩ := Option.map_eq_some_iff.mp h
      obtain ⟨-, hcontent, -, hreader⟩ := Pipe.put_eq_some.mp hput
      refine ⟨fun rest' hrest => ?_, fun hr => ?_, fun _ => ⟨by simp, by simp⟩, by simp⟩
      · obtain rfl := Parent.writing.inj hrest
        simp only [hcontent, List.length_append, List.length_singleton]
        omega
      · exact absurd (hreader.symm.trans hr) (by simp [hopen])
    case isFalse hclosed =>
      cases h
      have hnone : c.bytes ≠ [] := by
        intro hnil
        rw [hnil] at hgiven
        exact absurd hgiven (by simp)
      have hend := hs.closed (Bool.eq_false_of_not_eq_true hclosed)
      exact ⟨by simp, fun _ => hend, fun _ => ⟨by simp, by simp⟩,
        fun _ => hend.imp id (⟨·, hnone⟩)⟩
  case h_3 | h_5 =>
    obtain ⟨status, -, rfl⟩ := Option.map_eq_some_iff.mp h
    exact invariant_of_settled hs.closed rfl
  case h_4 hparent =>
    split at h
    · cases h
      exact ⟨by simp, hs.closed, fun htimed => absurd hparent (hs.timed htimed).1, by simp⟩
    · cases h
  case h_6 =>
    split at h
    · cases h
      exact invariant_of_settled hs.closed rfl
    · split at h
      · cases h
        exact invariant_of_settled (fun _ => .inl (Option.some_ne_none _)) rfl
      · cases h
        exact invariant_of_settled hs.closed rfl
  case h_7 | h_8 =>
    split at h
    · cases h
      exact invariant_of_settled hs.closed rfl
    · cases h
  case h_9 => cases h

theorem Invariant.step {a : Action} (hs : s.Invariant) (h : s.step a = some s') :
    s'.Invariant := by
  cases a with
  | parent nap => exact hs.parent h
  | drain o => exact hs.drain h
  | child m => exact hs.child h

theorem invariant_of_reachable (h : Reachable step (start c) s) : s.Invariant :=
  h.keeps (fun _ _ _ hs hstep => hs.step hstep) invariant_start

section Watchdog

theorem EndedByWatchdog.of_step (a : Action) (s' : State c) (ha : a.isParents = true)
    (h : s.step a = some s')
    (hs : s'.EndedByWatchdog) : s.EndedByWatchdog := by
  obtain ⟨as, s'', has, hexec, hdone⟩ := hs
  exact ⟨a :: as, s'', List.forall_mem_cons.mpr ⟨ha, has⟩, exec_cons.mpr ⟨s', h, hexec⟩, hdone⟩

/-- Behind the kill the readers come to the end of what the child has left. -/
theorem ended_of_joiningKilled (n : Nat) (hparent : s.parent = .joiningKilled)
    (hclosed : ∀ o, (s.outputs o).writer = false)
    (hn : (s.outputs .stdout).content.length + (s.outputs .stderr).content.length = n) :
    s.EndedByWatchdog := by
  induction n generalizing s with
  | zero =>
    have hend : s.OutputsAtEnd := by
      refine ⟨⟨List.eq_nil_of_length_eq_zero ?_, hclosed _⟩,
        List.eq_nil_of_length_eq_zero ?_, hclosed _⟩ <;> omega
    refine .of_step (.parent 0) { s with parent := .done .timeout } rfl ?_
      ⟨[], _, by simp, rfl, rfl⟩
    rw [step, parentStep, hparent]
    exact if_pos hend
  | succ n ih =>
    have hsome : ∃ o, (s.outputs o).content ≠ [] := by
      by_contra hnone
      push Not at hnone
      rw [hnone, hnone] at hn
      cases hn
    obtain ⟨o, ho⟩ := hsome
    cases htake : (s.outputs o).take with
    | none => exact absurd (Pipe.take_eq_none.mp htake) ho
    | some p =>
      obtain ⟨hcontent, hwriter, -⟩ := Pipe.take_eq_some.mp htake
      refine .of_step (.drain o) { s with
        outputs := Function.update s.outputs o p.2
        read := Function.update s.read o (s.read o ++ [p.1]) } rfl ?_ (ih hparent ?_ ?_)
      · rw [step, drainStep, if_pos (by rw [hparent]; rfl), htake]
        rfl
      · intro o'
        by_cases ho' : o' = o
        · subst ho'
          simp [hwriter, hclosed]
        · simp [ho', hclosed]
      · have hlen : (s.outputs o).content.length = p.2.content.length + 1 := by rw [hcontent]; rfl
        cases o <;> simp <;> omega

theorem ended_of_watching {budget elapsed : Nat} (n : Nat)
    (hparent : s.parent = .watching budget elapsed) (halive : s.child.status = none)
    (hn : budget - elapsed = n) : s.EndedByWatchdog := by
  induction n using Nat.strong_induction_on generalizing s elapsed with
  | h n ih =>
    by_cases hexpired : budget ≤ elapsed
    · refine .of_step (.parent 0) { s.ended sigkill with parent := .joiningKilled } rfl ?_
        (ended_of_joiningKilled _ rfl (fun _ => rfl) rfl)
      rw [step, parentStep, hparent]
      simp only [halive]
      exact if_pos hexpired
    · refine .of_step (.parent 0)
        { s with parent := .watching budget (elapsed + watchdogPoll + 0) } rfl ?_
        (ih (budget - (elapsed + watchdogPoll + 0)) ?_ rfl halive rfl)
      · rw [step, parentStep, hparent]
        simp only [halive]
        exact if_neg hexpired
      · rw [watchdogPoll]
        omega

theorem ended_of_writing {rest : List UInt8} {budget : Nat} (htimeout : c.timeout = some budget)
    (hparent : s.parent = .writing rest) (halive : s.child.status = none)
    (hopen : rest ≠ [] → s.stdin.reader = true)
    (hroom : s.stdin.content.length + rest.length ≤ c.stdinCapacity) : s.EndedByWatchdog := by
  induction rest generalizing s with
  | nil =>
    refine .of_step (.parent 0)
      { s with stdin := s.stdin.closeWriter, parent := .watching budget 0 } rfl ?_
      (ended_of_watching _ rfl halive rfl)
    rw [step, parentStep, hparent]
    simp only [htimeout]
  | cons b rest ih =>
    have hreader := hopen (List.cons_ne_nil b rest)
    cases hput : s.stdin.put b with
    | none =>
      have hfull : s.stdin.content.length = c.stdinCapacity := Pipe.put_eq_none.mp hput
      rw [List.length_cons] at hroom
      omega
    | some p =>
      obtain ⟨-, hcontent, -, hp⟩ := Pipe.put_eq_some.mp hput
      refine .of_step (.parent 0) { s with stdin := p, parent := .writing rest } rfl ?_
        (ih rfl halive (fun _ => hp.trans hreader) ?_)
      · rw [step, parentStep, hparent]
        simp only [hreader, if_true, hput]
        rfl
      · rw [hcontent]
        simp at hroom ⊢
        omega

end Watchdog

section Hangs

/-- As many bytes as fit are written while the child does nothing. -/
theorem exec_writes (n : Nat) (rest sent : List UInt8) (hparent : s.parent = .writing (sent ++ rest))
    (hn : sent.length = n) (hopen : s.stdin.reader = true)
    (hroom : s.stdin.content.length + sent.length ≤ c.stdinCapacity) :
    ∃ s', Reachable step s s' ∧ s'.parent = .writing rest ∧ s'.stdin.reader = true ∧
      s'.stdin.content.length = s.stdin.content.length + n ∧ s'.child = s.child ∧
      s'.outputs = s.outputs := by
  induction sent generalizing s n with
  | nil =>
    subst hn
    exact ⟨s, .refl, hparent, hopen, rfl, rfl, rfl⟩
  | cons b sent ih =>
    rw [List.length_cons] at hroom hn
    cases hput : s.stdin.put b with
    | none =>
      have hfull : s.stdin.content.length = c.stdinCapacity := Pipe.put_eq_none.mp hput
      omega
    | some p =>
      obtain ⟨-, hcontent, -, hp⟩ := Pipe.put_eq_some.mp hput
      have hlen : p.content.length = s.stdin.content.length + 1 := by rw [hcontent]; simp
      obtain ⟨s', hreach, hs'⟩ := ih (s := { s with stdin := p, parent := .writing (sent ++ rest) })
        sent.length rfl rfl (hp.trans hopen) (by simp only; omega)
      refine ⟨s', .trans (.of_step (a := .parent 0) ?_) hreach, ?_⟩
      · rw [step, parentStep, hparent]
        simp only [List.cons_append, hopen, if_true, hput]
        rfl
      · simp only [hlen] at hs'
        obtain ⟨h₁, h₂, h₃, h₄, h₅⟩ := hs'
        exact ⟨h₁, h₂, by omega, h₄, h₅⟩

/-- The child fills an output that nobody reads. -/
theorem exec_fills {o : Output} (n : Nat) (rest sent : List UInt8)
    (hchild : s.child = .writing o (sent ++ rest)) (hn : sent.length = n)
    (hroom : (s.outputs o).content.length + sent.length ≤ c.capacity o) :
    ∃ s', Reachable step s s' ∧ s'.child = .writing o rest ∧
      (s'.outputs o).content.length = (s.outputs o).content.length + n ∧ s'.parent = s.parent ∧
      s'.stdin = s.stdin := by
  induction sent generalizing s n with
  | nil =>
    subst hn
    exact ⟨s, .refl, hchild, rfl, rfl, rfl⟩
  | cons b sent ih =>
    rw [List.length_cons] at hroom hn
    cases hput : (s.outputs o).put b with
    | none =>
      have hfull : (s.outputs o).content.length = c.capacity o := Pipe.put_eq_none.mp hput
      omega
    | some p =>
      obtain ⟨-, hcontent, -, -⟩ := Pipe.put_eq_some.mp hput
      have hlen : p.content.length = (s.outputs o).content.length + 1 := by rw [hcontent]; simp
      obtain ⟨s', hreach, h₁, h₂, h₃, h₄⟩ := ih (s := { s with
        outputs := Function.update s.outputs o p, child := .writing o (sent ++ rest) })
        sent.length rfl rfl (by simp only [Function.update_self]; omega)
      refine ⟨s', .trans (.of_step (a := .child .proceed) ?_) hreach, h₁, ?_, h₃, h₄⟩
      · rw [step, childStep, hchild]
        simp only [List.cons_append, hput]
        rfl
      · simp only [Function.update_self, hlen] at h₂
        omega

/-- Bytes that do not fit into the pipe, and a child that writes more than fits into an output
before it reads any of them. -/
theorem deadlock_of_long (h : c.stdinCapacity < c.bytes.length) :
    ∃ s, Reachable step (start c) s ∧ s.Deadlock := by
  obtain ⟨s₁, h₁, hparent, hopen, hcontent, hchild, houtputs⟩ := exec_writes (s := start c)
    c.stdinCapacity (c.bytes.drop c.stdinCapacity) (c.bytes.take c.stdinCapacity)
    (by rw [List.take_append_drop]; rfl) (by rw [List.length_take]; omega) rfl
    (by rw [List.length_take]; simp [start, Pipe.opened])
  let filling := List.replicate (c.capacity .stdout) (0 : UInt8)
  obtain ⟨s₂, h₂, hchild₂, hcontent₂, hparent₂, hstdin₂⟩ := exec_fills (o := .stdout)
    (s := { s₁ with child := .writing .stdout (filling ++ [0]) })
    (c.capacity .stdout) [0] filling rfl List.length_replicate
    (by simp [houtputs, start, Pipe.opened, filling])
  have hbegin : s₁.step (.child (.beginWrite .stdout (filling ++ [0]))) =
      some { s₁ with child := .writing .stdout (filling ++ [0]) } := if_pos hchild
  obtain ⟨b, rest, hrest⟩ := List.exists_cons_of_ne_nil
    (List.ne_nil_of_length_pos (l := c.bytes.drop c.stdinCapacity) (by rw [List.length_drop]; omega))
  refine ⟨s₂, (h₁.trans (.of_step hbegin)).trans h₂, ⟨⟨b, rest, ?_⟩, ?_, ?_⟩,
    .stdout, 0, [], hchild₂, ?_⟩
  · rw [hparent₂, ← hrest]
    exact hparent
  · rw [hstdin₂]
    exact hopen
  · rw [Pipe.Full, hstdin₂]
    exact hcontent.trans (Nat.zero_add _)
  · rw [Pipe.Full, hcontent₂, houtputs]
    exact Nat.zero_add _

/-- A failed write, and a child that goes on without its input: the parent waits for it without a
watchdog. -/
theorem unwatched_of_closed (hcloses : c.closesStdin = true) (hbytes : c.bytes ≠ []) :
    ∃ s, Reachable step (start c) s ∧ s.Waits ∧ ¬ s.EndedByWatchdog := by
  obtain ⟨b, rest, hcons⟩ := List.exists_cons_of_ne_nil hbytes
  let s₁ : State c := { start c with stdin := (start c).stdin.closeReader }
  let s₂ : State c := { s₁ with stdin := s₁.stdin.closeWriter, parent := .reaping }
  have hclose : (start c).step (.child .closeStdin) = some s₁ := if_pos ⟨rfl, hcloses⟩
  have hfail : s₁.step (.parent 0) = some s₂ := by
    rw [step, parentStep, show s₁.parent = .writing (b :: rest) from congrArg _ hcons]
    rfl
  refine ⟨s₂, .trans (.of_step hclose) (.of_step hfail), ⟨rfl, rfl⟩, ?_⟩
  -- the parent has no step to take, and none of its threads has been started
  rintro ⟨as, s', has, hexec, hdone⟩
  cases as with
  | nil =>
    cases hexec
    cases hdone
  | cons a as =>
    obtain ⟨s₃, hstep, -⟩ := exec_cons.mp hexec
    cases a with
    | parent nap => cases hstep
    | drain o => cases hstep
    | child m => exact absurd (has _ List.mem_cons_self) (by simp [Action.isParents])

end Hangs

end State

open State in
/-- The calls that never hang: the input fits into the pipe, and under a timeout there is none, or the
child keeps its input open. -/
theorem neverHangs_iff (c : Call) : NeverHangs c ↔ c.bytes.length ≤ c.stdinCapacity ∧
    (c.timeout.isSome → c.closesStdin = true → c.bytes = []) := by
  constructor
  · rintro ⟨hlive, hwatched⟩
    refine ⟨?_, fun htimed hcloses => ?_⟩
    · by_contra hlong
      obtain ⟨s, hs, hdeadlock⟩ := deadlock_of_long (Nat.lt_of_not_le hlong)
      exact hlive s hs hdeadlock
    · by_contra hbytes
      obtain ⟨s, hs, hwaits, hnot⟩ := unwatched_of_closed hcloses hbytes
      exact hnot (hwatched htimed s hs hwaits)
  · rintro ⟨hfits, hkeeps⟩
    refine ⟨fun s hs hdeadlock => ?_, fun htimed s hs ⟨halive, hawaits⟩ => ?_⟩
    · obtain ⟨⟨⟨b, rest, hparent⟩, -, hfull⟩, -⟩ := hdeadlock
      have hgiven := (invariant_of_reachable hs).given _ hparent
      rw [Pipe.Full] at hfull
      rw [List.length_cons] at hgiven
      omega
    · have hinv := invariant_of_reachable hs
      obtain ⟨budget, htimeout⟩ := Option.isSome_iff_exists.mp htimed
      cases hparent : s.parent with
      | writing rest =>
        have hgiven := hinv.given rest hparent
        refine ended_of_writing htimeout hparent halive (fun hrest => ?_) (hgiven.trans hfits)
        by_contra hclosed
        have hcloses := (hinv.closed (Bool.eq_false_of_not_eq_true hclosed)).resolve_left (· halive)
        rw [hkeeps htimed hcloses] at hgiven
        simp at hgiven
        exact hrest hgiven.2
      | reaping =>
        obtain ⟨hcloses, hbytes⟩ := (hinv.reaping hparent).resolve_left (· halive)
        exact absurd (hkeeps htimed hcloses) hbytes
      | watching budget' elapsed => exact ended_of_watching _ hparent halive rfl
      | collecting => exact absurd hparent (hinv.timed htimed).1
      | waiting => exact absurd hparent (hinv.timed htimed).2
      | joining status | joiningKilled | done outcome => rw [hparent] at hawaits; cases hawaits

/-- An upload of one byte more than a pipe of the kernel's default size holds. -/
def upload : Call where
  stdin := some (List.replicate 65537 0)
  timeout := some 30000
  stdinCapacity := 65536
  capacity := fun _ => 65536
  closesStdin := false

theorem upload_hangs : ¬ NeverHangs upload := by
  rintro ⟨hlive, -⟩
  have hlong : upload.stdinCapacity < upload.bytes.length :=
    lt_of_lt_of_eq (Nat.lt_succ_self 65536) (List.length_replicate (n := 65537)).symm
  obtain ⟨s, hs, hdeadlock⟩ := State.deadlock_of_long hlong
  exact hlive s hs hdeadlock

end Hbird.SshPipes
