import Hbird.Interaction.Transition

namespace Hbird.UpdateCluster.Lock

open Hbird.Interaction

/-- A `flock -n PATH -c COMMAND` process with its shell. It tries the lock once; with the lock
it forks the shell, which inherits the open lock file, and waits for it. A flock process that
is killed leaves its shell behind. -/
inductive Child : Type
  | absent
  | started
  | locked
  | running
  | exited (code : UInt8)
  | orphaned
  | ending
  | killed
  deriving DecidableEq, Repr

namespace Child

/-- Some process of the child has the locked file open. -/
def HasLock : Child → Prop
  | .locked | .running | .orphaned | .ending => True
  | .absent | .started | .exited _ | .killed => False

instance : (c : Child) → Decidable c.HasLock
  | .locked | .running | .orphaned | .ending => .isTrue trivial
  | .absent | .started | .exited _ | .killed => .isFalse id

/-- `Child::kill`: the signal reaches the flock process, not its shell. -/
def kill : Child → Child
  | .started | .locked => .killed
  | .running => .orphaned
  | c => c

/-- `kill -TERM` to the process group, unless that command could not be run, and then
`Child::kill`. -/
def killGroup (reached : Bool) : Child → Child
  | .running => if reached then .ending else .orphaned
  | c => c.kill

end Child

/-- The two children of a call: the one that is to keep the lock, and the one that tests it. -/
inductive Role : Type
  | holder
  | probe
  deriving DecidableEq, Repr

/-- What `output()` returned for the probe. -/
inductive ProbeResult : Type
  | notStarted
  | exited (code : UInt8)
  deriving DecidableEq, Repr

inductive Refusal : Type
  | setup
  | inProgress
  | flockExited (code : UInt8)
  | probeGot (code : UInt8)
  | probeNotStarted
  deriving DecidableEq, Repr

/-- Where a call of `acquire_lock` is; `owning` is the life of the guard it returned. -/
inductive Phase : Type
  | idle
  | spawned
  | probing
  | settling (probe : ProbeResult)
  | inspecting (probe : ProbeResult)
  | owning
  | released
  | failed (refusal : Refusal)
  deriving DecidableEq, Repr

structure Call where
  phase : Phase
  holder : Child
  probe : Child
  deriving DecidableEq, Repr

/-- The steps of a call and of its children. -/
inductive Act : Type
  | cannotStart
  | start
  | skipProbe
  | startProbe
  | attempt (role : Role)
  | flockFails (role : Role) (code : UInt8)
  | fork (role : Role)
  | probeDone
  | collect
  | settle
  | inspect
  | drop (reached : Bool)
  | shellEnds
  deriving DecidableEq, Repr

namespace Call

def idle : Call := ⟨.idle, .absent, .absent⟩

def child (c : Call) : Role → Child
  | .holder => c.holder
  | .probe => c.probe

def setChild (c : Call) (child : Child) : Role → Call
  | .holder => { c with holder := child }
  | .probe => { c with probe := child }

/-- The last part of `acquire_lock`: a holder that exited decides, else the probe does. -/
def inspected (c : Call) (probe : ProbeResult) : Call :=
  match c.holder with
  | .exited code =>
    { c with phase := .failed (if code = 1 then .inProgress else .flockExited code) }
  | holder =>
    match probe with
    | .exited code =>
      if code = 1 then { c with phase := .owning }
      else ⟨.failed (.probeGot code), holder.kill, c.probe⟩
    | .notStarted => ⟨.failed .probeNotStarted, holder.kill, c.probe⟩

/-- One step; `free` tells whether the kernel has the lock free. -/
def step (free : Bool) (c : Call) : Act → Option Call
  | .cannotStart => if c.phase = .idle then some { c with phase := .failed .setup } else none
  | .start => if c.phase = .idle then some ⟨.spawned, .started, c.probe⟩ else none
  | .skipProbe =>
    if c.phase = .spawned then some { c with phase := .settling .notStarted } else none
  | .startProbe => if c.phase = .spawned then some ⟨.probing, c.holder, .started⟩ else none
  -- Both exit with 1 when another process has the lock.
  | .attempt role =>
    if c.child role = .started then some (c.setChild (if free then .locked else .exited 1) role)
    else none
  | .flockFails role code =>
    if c.child role = .started ∧ code ≠ 0 ∧ code ≠ 1 then some (c.setChild (.exited code) role)
    else none
  | .fork role => if c.child role = .locked then some (c.setChild .running role) else none
  | .probeDone => if c.probe = .running then some { c with probe := .exited 0 } else none
  | .collect =>
    match c.phase, c.probe with
    | .probing, .exited code => some { c with phase := .settling (.exited code) }
    | _, _ => none
  | .settle =>
    match c.phase with
    | .settling probe => some { c with phase := .inspecting probe }
    | _ => none
  | .inspect =>
    match c.phase with
    | .inspecting probe => some (c.inspected probe)
    | _ => none
  | .drop reached =>
    if c.phase = .owning then some ⟨.released, c.holder.killGroup reached, c.probe⟩ else none
  | .shellEnds => if c.holder = .ending then some { c with holder := .killed } else none

end Call

variable {ι : Type} [DecidableEq ι]

/-- All calls on one lock file, and the child for which the kernel has it locked. -/
structure State (ι : Type) where
  calls : ι → Call
  lock : Option (ι × Role)

namespace State

def initial : State ι := ⟨fun _ => .idle, none⟩

/-- The kernel records the child that took the free lock, until no process has the file open. -/
def kernelLock (lock : Option (ι × Role)) (i : ι) (c : Call) : Option (ι × Role) :=
  match lock with
  | none =>
    if c.holder.HasLock then some (i, .holder)
    else if c.probe.HasLock then some (i, .probe)
    else none
  | some (j, role) => if j = i ∧ ¬ (c.child role).HasLock then none else some (j, role)

def put (s : State ι) (i : ι) (c : Call) : State ι :=
  ⟨Function.update s.calls i c, kernelLock s.lock i c⟩

/-- A step of the call `x.1`. -/
def step (s : State ι) (x : ι × Act) : Option (State ι) :=
  ((s.calls x.1).step s.lock.isNone x.2).map (s.put x.1)

end State

namespace Call

/-- What the holder can be in each phase. -/
def HolderOk : Phase → Child → Prop
  | .idle, h => h = .absent
  | .failed .setup, h => h = .absent
  | .released, h => h = .killed ∨ h = .orphaned ∨ h = .ending ∨ ∃ code, h = .exited code
  | .failed (.probeGot _), h => h = .killed ∨ h = .orphaned
  | .failed .probeNotStarted, h => h = .killed ∨ h = .orphaned
  | .failed .inProgress, h | .failed (.flockExited _), h => ∃ code, h = .exited code
  | .spawned, h | .probing, h | .settling _, h | .inspecting _, h | .owning, h =>
    h = .started ∨ h = .locked ∨ h = .running ∨ ∃ code, h = .exited code

/-- What the probe can be in each phase. -/
def ProbeOk : Phase → Child → Prop
  | .idle, p => p = .absent
  | .failed .setup, p => p = .absent
  | .spawned, p => p = .absent
  | .probing, p => p = .started ∨ p = .locked ∨ p = .running ∨ ∃ code, p = .exited code
  | .settling .notStarted, p => p = .absent
  | .inspecting .notStarted, p => p = .absent
  | .settling (.exited code), p => p = .exited code
  | .inspecting (.exited code), p => p = .exited code
  | .owning, p => p = .exited 1
  | .released, p | .failed .inProgress, p | .failed (.flockExited _), p | .failed (.probeGot _), p
  | .failed .probeNotStarted, p => p = .absent ∨ ∃ code, p = .exited code

structure Good (c : Call) : Prop where
  holder : HolderOk c.phase c.holder
  probe : ProbeOk c.phase c.probe

variable {c c' : Call} {a : Act} {free : Bool}

theorem good_idle : Good idle := ⟨rfl, rfl⟩

theorem holderOk_started {ph : Phase} (h : HolderOk ph .started) :
    HolderOk ph .locked ∧ ∀ code, HolderOk ph (.exited code) := by
  cases ph with
  | failed r => cases r <;> simp [HolderOk] at h
  | _ => simp_all [HolderOk]

theorem holderOk_locked {ph : Phase} (h : HolderOk ph .locked) : HolderOk ph .running := by
  cases ph with
  | failed r => cases r <;> simp [HolderOk] at h
  | _ => simp_all [HolderOk]

/-- A probe at work is waited for. -/
theorem probing_of_live {ph : Phase} {p : Child} (h : ProbeOk ph p) (ha : p ≠ .absent)
    (he : ∀ code, p ≠ .exited code) : ph = .probing := by
  cases ph with
  | probing => rfl
  | settling r => cases r <;> simp_all [ProbeOk]
  | inspecting r => cases r <;> simp_all [ProbeOk]
  | failed r => cases r <;> simp_all [ProbeOk]
  | _ => simp_all [ProbeOk]

/-- The moves of one child by itself. -/
inductive Child.Moves : Role → Child → Child → Prop
  | takes {role : Role} : Moves role .started .locked
  | exits {role : Role} (code : UInt8) : Moves role .started (.exited code)
  | forks {role : Role} : Moves role .locked .running
  | ends : Moves .probe .running (.exited 0)

theorem Good.setChild (h : c.Good) {role : Role} {child : Child}
    (hm : Child.Moves role (c.child role) child) : (c.setChild child role).Good := by
  cases role with
  | holder =>
    refine ⟨?_, h.probe⟩
    have hh : HolderOk c.phase (c.child .holder) := h.holder
    cases hc : c.child .holder <;> rw [hc] at hm hh <;> cases hm
    · exact (holderOk_started hh).1
    · exact (holderOk_started hh).2 _
    · exact holderOk_locked hh
  | probe =>
    have hp : ProbeOk c.phase (c.child .probe) := h.probe
    have hph : c.phase = .probing := by
      cases hc : c.child .probe <;> rw [hc] at hm hp <;> cases hm <;>
        exact probing_of_live hp (by simp) (by simp)
    refine ⟨h.holder, ?_⟩
    show ProbeOk c.phase child
    rw [hph]
    cases hc : c.child .probe <;> rw [hc] at hm <;> cases hm <;> simp [ProbeOk]

/-- What each step does: one case for each way a step can go. -/
inductive Steps (free : Bool) : Call → Act → Call → Prop
  | cannotStart (h p : Child) : Steps free ⟨.idle, h, p⟩ .cannotStart ⟨.failed .setup, h, p⟩
  | start (h p : Child) : Steps free ⟨.idle, h, p⟩ .start ⟨.spawned, .started, p⟩
  | skipProbe (h p : Child) : Steps free ⟨.spawned, h, p⟩ .skipProbe ⟨.settling .notStarted, h, p⟩
  | startProbe (h p : Child) : Steps free ⟨.spawned, h, p⟩ .startProbe ⟨.probing, h, .started⟩
  | takes {c : Call} {role : Role} (hc : c.child role = .started) (hf : free = true) :
      Steps free c (.attempt role) (c.setChild .locked role)
  | contends {c : Call} {role : Role} (hc : c.child role = .started) (hf : free = false) :
      Steps free c (.attempt role) (c.setChild (.exited 1) role)
  | flockFails {c : Call} {role : Role} {code : UInt8} (hc : c.child role = .started)
      (h₀ : code ≠ 0) (h₁ : code ≠ 1) :
      Steps free c (.flockFails role code) (c.setChild (.exited code) role)
  | forks {c : Call} {role : Role} (hc : c.child role = .locked) :
      Steps free c (.fork role) (c.setChild .running role)
  | probeDone (ph : Phase) (h : Child) :
      Steps free ⟨ph, h, .running⟩ .probeDone ⟨ph, h, .exited 0⟩
  | collect (h : Child) (code : UInt8) : Steps free ⟨.probing, h, .exited code⟩ .collect
      ⟨.settling (.exited code), h, .exited code⟩
  | settle (r : ProbeResult) (h p : Child) :
      Steps free ⟨.settling r, h, p⟩ .settle ⟨.inspecting r, h, p⟩
  | refused (r : ProbeResult) (code : UInt8) (p : Child) :
      Steps free ⟨.inspecting r, .exited code, p⟩ .inspect
        ⟨.failed (if code = 1 then .inProgress else .flockExited code), .exited code, p⟩
  | admitted {h : Child} (hh : ∀ code, h ≠ .exited code) (p : Child) :
      Steps free ⟨.inspecting (.exited 1), h, p⟩ .inspect ⟨.owning, h, p⟩
  | probeGot {h : Child} (hh : ∀ code, h ≠ .exited code) {code : UInt8} (hc : code ≠ 1)
      (p : Child) : Steps free ⟨.inspecting (.exited code), h, p⟩ .inspect
        ⟨.failed (.probeGot code), h.kill, p⟩
  | probeNotStarted {h : Child} (hh : ∀ code, h ≠ .exited code) (p : Child) :
      Steps free ⟨.inspecting .notStarted, h, p⟩ .inspect ⟨.failed .probeNotStarted, h.kill, p⟩
  | drop (reached : Bool) (h p : Child) :
      Steps free ⟨.owning, h, p⟩ (.drop reached) ⟨.released, h.killGroup reached, p⟩
  | shellEnds (ph : Phase) (p : Child) :
      Steps free ⟨ph, .ending, p⟩ .shellEnds ⟨ph, .killed, p⟩

theorem steps_inspect {r : ProbeResult} (h p : Child) :
    Steps free ⟨.inspecting r, h, p⟩ .inspect (inspected ⟨.inspecting r, h, p⟩ r) := by
  by_cases he : ∃ code, h = .exited code
  · obtain ⟨code, rfl⟩ := he
    exact .refused r code p
  · have hh : ∀ code, h ≠ .exited code := fun code hc => he ⟨code, hc⟩
    have hi : inspected ⟨.inspecting r, h, p⟩ r = match r with
        | .exited code =>
          if code = 1 then ⟨.owning, h, p⟩ else ⟨.failed (.probeGot code), h.kill, p⟩
        | .notStarted => ⟨.failed .probeNotStarted, h.kill, p⟩ := by
      cases h with
      | exited code => exact absurd rfl (hh code)
      | _ => cases r <;> rfl
    rw [hi]
    cases r with
    | notStarted => exact .probeNotStarted hh p
    | exited code =>
      by_cases hc : code = 1
      · subst hc
        exact .admitted hh p
      · simp only [hc, if_false]
        exact .probeGot hh hc p

theorem steps_of_step (hs : c.step free a = some c') : Steps free c a c' := by
  obtain ⟨ph, h, p⟩ := c
  cases a with
  | cannotStart | start | skipProbe | startProbe | probeDone | drop reached | shellEnds =>
    simp only [step, Option.ite_none_right_eq_some, Option.some.injEq] at hs
    obtain ⟨rfl, rfl⟩ := hs
    constructor
  | attempt role =>
    simp only [step, Option.ite_none_right_eq_some, Option.some.injEq] at hs
    obtain ⟨hc, rfl⟩ := hs
    cases free
    · exact .contends hc rfl
    · exact .takes hc rfl
  | flockFails role code =>
    simp only [step, Option.ite_none_right_eq_some, Option.some.injEq] at hs
    obtain ⟨⟨hc, h₀, h₁⟩, rfl⟩ := hs
    exact .flockFails hc h₀ h₁
  | fork role =>
    simp only [step, Option.ite_none_right_eq_some, Option.some.injEq] at hs
    obtain ⟨hc, rfl⟩ := hs
    exact .forks hc
  | collect =>
    unfold step at hs
    dsimp only at hs
    split at hs
    · cases hs
      exact .collect h _
    · cases hs
  | settle =>
    cases ph with
    | settling r =>
      cases hs
      exact .settle r h p
    | _ => cases hs
  | inspect =>
    cases ph with
    | inspecting r =>
      cases hs
      exact steps_inspect h p
    | _ => cases hs

theorem kill_live {h : Child} (hl : h = .started ∨ h = .locked ∨ h = .running ∨ ∃ code, h = .exited code)
    (hh : ∀ code, h ≠ .exited code) : h.kill = .killed ∨ h.kill = .orphaned := by
  obtain rfl | rfl | rfl | ⟨code, rfl⟩ := hl
  · exact .inl rfl
  · exact .inl rfl
  · exact .inr rfl
  · exact absurd rfl (hh code)

/-- With the result in hand the probe is over. -/
theorem probeOk_over {r : ProbeResult} {p : Child} (h : ProbeOk (.inspecting r) p) :
    p = .absent ∨ ∃ code, p = .exited code := by
  cases r with
  | notStarted => exact .inl h
  | exited code => exact .inr ⟨code, h⟩

theorem Good.step (h : c.Good) (hs : Steps free c a c') : c'.Good := by
  cases hs with
  | cannotStart => exact ⟨h.holder, h.probe⟩
  | start => exact ⟨.inl rfl, h.probe⟩
  | skipProbe => exact ⟨h.holder, h.probe⟩
  | startProbe => exact ⟨h.holder, .inl rfl⟩
  | takes hc hf => exact h.setChild (hc ▸ .takes)
  | contends hc hf => exact h.setChild (hc ▸ .exits 1)
  | flockFails hc h₀ h₁ => exact h.setChild (hc ▸ .exits _)
  | forks hc => exact h.setChild (hc ▸ .forks)
  | probeDone ph hld => exact @Good.setChild _ h .probe _ .ends
  | collect hld code => exact ⟨h.holder, rfl⟩
  | settle r hld p =>
    refine ⟨h.holder, ?_⟩
    cases r <;> exact h.probe
  | refused r code p =>
    have hp := probeOk_over h.probe
    by_cases hc : code = 1
    · rw [if_pos hc]
      exact ⟨⟨code, rfl⟩, hp⟩
    · rw [if_neg hc]
      exact ⟨⟨code, rfl⟩, hp⟩
  | admitted hh p => exact ⟨h.holder, h.probe⟩
  | probeGot hh hc p => exact ⟨kill_live h.holder hh, probeOk_over h.probe⟩
  | probeNotStarted hh p => exact ⟨kill_live h.holder hh, probeOk_over h.probe⟩
  | drop reached hld p =>
    refine ⟨?_, .inr ⟨1, h.probe⟩⟩
    obtain hl | hl | hl | ⟨code, hl⟩ := h.holder <;> cases hl
    · exact .inl rfl
    · exact .inl rfl
    · cases reached
      · exact .inr (.inl rfl)
      · exact .inr (.inr (.inl rfl))
    · exact .inr (.inr (.inr ⟨code, rfl⟩))
  | shellEnds ph p =>
    refine ⟨?_, h.probe⟩
    have hh := h.holder
    cases ph with
    | released => exact .inl rfl
    | failed r => cases r <;> simp [HolderOk] at hh
    | _ => simp [HolderOk] at hh

theorem hasLock_kill {h : Child} (hk : h.kill.HasLock) : h.HasLock := by
  cases h <;> trivial

theorem hasLock_killGroup {h : Child} {reached : Bool} (hk : (h.killGroup reached).HasLock) :
    h.HasLock := by
  cases h <;> trivial

theorem hasLock_setChild {role role' : Role} {child : Child}
    (h : ((c.setChild child role').child role).HasLock) :
    role = role' ∧ child.HasLock ∨ (c.child role).HasLock := by
  cases role <;> cases role' <;> first | exact .inr h | exact .inl ⟨rfl, h⟩

/-- A child gets the lock by taking the free lock, and in no other way. -/
theorem hasLock_of_step (hs : Steps free c a c') {role : Role} (h : (c'.child role).HasLock) :
    (c.child role).HasLock ∨ free = true ∧ a = .attempt role := by
  cases hs with
  | takes hc hf =>
    obtain ⟨rfl, -⟩ | h := hasLock_setChild h
    · exact .inr ⟨hf, rfl⟩
    · exact .inl h
  | contends hc hf | flockFails hc h₀ h₁ =>
    obtain ⟨-, hx⟩ | h := hasLock_setChild h
    · cases hx
    · exact .inl h
  | forks hc =>
    obtain ⟨rfl, -⟩ | h := hasLock_setChild h
    · exact .inl (by rw [hc]; trivial)
    · exact .inl h
  | start => cases role <;> first | cases h | exact .inl h
  | startProbe => cases role <;> first | cases h | exact .inl h
  | probeDone => cases role <;> first | cases h | exact .inl h
  | probeGot hh hc p =>
    cases role
    · exact .inl (hasLock_kill h)
    · exact .inl h
  | probeNotStarted hh p =>
    cases role
    · exact .inl (hasLock_kill h)
    · exact .inl h
  | drop reached hld p =>
    cases role
    · exact .inl (hasLock_killGroup h)
    · exact .inl h
  | shellEnds => cases role <;> first | cases h | exact .inl h
  | _ => cases role <;> exact .inl h

end Call

namespace State

variable {s s' : State ι} {x : ι × Act} {i j : ι}

theorem step_iff : s.step x = some s' ↔
    ∃ c', (s.calls x.1).step s.lock.isNone x.2 = some c' ∧ s' = s.put x.1 c' := by
  rw [step, Option.map_eq_some_iff]
  constructor
  · rintro ⟨c', h, rfl⟩
    exact ⟨c', h, rfl⟩
  · rintro ⟨c', h, rfl⟩
    exact ⟨c', h, rfl⟩

@[simp] theorem put_calls_self (c : Call) : (s.put i c).calls i = c := Function.update_self ..

theorem put_calls_ne (c : Call) (h : j ≠ i) : (s.put i c).calls j = s.calls j :=
  Function.update_of_ne h ..

/-- A step is one step of one call; the others stay as they are. -/
theorem step_cases (h : s.step x = some s') :
    Call.Steps s.lock.isNone (s.calls x.1) x.2 (s'.calls x.1) ∧
      (∀ j, j ≠ x.1 → s'.calls j = s.calls j) ∧ s' = s.put x.1 (s'.calls x.1) := by
  obtain ⟨c', hc, rfl⟩ := step_iff.mp h
  refine ⟨?_, fun j hj => put_calls_ne c' hj, ?_⟩
  · rw [put_calls_self]
    exact Call.steps_of_step hc
  · rw [put_calls_self]

/-- The kernel's record is right, and every call is well formed. -/
structure Sound (s : State ι) : Prop where
  good : ∀ i, (s.calls i).Good
  lock : ∀ i role, s.lock = some (i, role) ↔ ((s.calls i).child role).HasLock

omit [DecidableEq ι] in
theorem sound_initial : (initial : State ι).Sound where
  good _ := Call.good_idle
  lock i role := by cases role <;> simp [initial, Call.idle, Call.child, Child.HasLock]

theorem Sound.kernelLock (hs : s.Sound) {a : Act} {c' : Call}
    (h : Call.Steps s.lock.isNone (s.calls i) a c') (role : Role) :
    kernelLock s.lock i c' = some (i, role) ↔ (c'.child role).HasLock := by
  have hgets {role} (hl : (c'.child role).HasLock) := Call.hasLock_of_step h hl
  cases hlock : s.lock with
  | none =>
    have hnone : ∀ role, ¬ ((s.calls i).child role).HasLock := by
      intro role hl
      have := (hs.lock i role).mpr hl
      rw [hlock] at this
      cases this
    -- Only the child that made the attempt can have the lock now.
    have hone : (c'.child .holder).HasLock → ¬ (c'.child .probe).HasLock := by
      intro hh hp
      obtain ⟨-, ha⟩ := (hgets hh).resolve_left (hnone _)
      obtain ⟨-, hb⟩ := (hgets hp).resolve_left (hnone _)
      rw [ha] at hb
      cases hb
    by_cases hh : c'.holder.HasLock
    · have hp : ¬ c'.probe.HasLock := hone hh
      cases role <;> simp [State.kernelLock, Call.child, hh, hp]
    · by_cases hp : c'.probe.HasLock <;> cases role <;>
        simp [State.kernelLock, Call.child, hh, hp]
  | some owner =>
    obtain ⟨k, r⟩ := owner
    have hkept (hl : (c'.child role).HasLock) : k = i ∧ r = role := by
      obtain hc | ⟨hf, -⟩ := hgets hl
      · have := (hs.lock i role).mpr hc
        rw [hlock] at this
        exact Prod.mk.inj (Option.some.inj this)
      · rw [hlock] at hf
        cases hf
    simp only [State.kernelLock]
    split
    · next hgone =>
      simp only [reduceCtorEq, false_iff]
      intro hl
      obtain ⟨rfl, rfl⟩ := hkept hl
      exact hgone.2 hl
    · next hstays =>
      constructor
      · intro he
        obtain ⟨rfl, rfl⟩ := Prod.mk.inj (Option.some.inj he)
        by_contra hl
        exact hstays ⟨rfl, hl⟩
      · intro hl
        obtain ⟨rfl, rfl⟩ := hkept hl
        rfl

theorem kernelLock_ne {lock : Option (ι × Role)} {c : Call} {role : Role} (h : j ≠ i) :
    kernelLock lock i c = some (j, role) ↔ lock = some (j, role) := by
  cases lock with
  | none =>
    simp only [State.kernelLock, reduceCtorEq, iff_false]
    split
    · simp [h.symm]
    · split <;> simp [h.symm]
  | some owner =>
    simp only [State.kernelLock]
    split
    · next hgone =>
      simp only [reduceCtorEq, Option.some.injEq, false_iff]
      rintro rfl
      exact h hgone.1
    · rfl

theorem Sound.step (hs : s.Sound) (h : s.step x = some s') : s'.Sound := by
  obtain ⟨hstep, hother, hput⟩ := step_cases h
  constructor
  · intro j
    by_cases hj : j = x.1
    · rw [hj]
      exact (hs.good x.1).step hstep
    · rw [hother j hj]
      exact hs.good j
  · intro j role
    have hlock : s'.lock = State.kernelLock s.lock x.1 (s'.calls x.1) := by rw [hput]; simp [put]
    by_cases hj : j = x.1
    · rw [hj, hlock]
      exact hs.kernelLock hstep role
    · rw [hother j hj, ← hs.lock j role, hlock]
      exact kernelLock_ne hj

end State

end Hbird.UpdateCluster.Lock
