import Hbird.UpdateCluster.LockRuns

namespace Hbird.UpdateCluster.Lock

open Hbird.Interaction

def Child.work : Child → Nat
  | .started => 3
  | .locked => 2
  | .running => 1
  | _ => 0

theorem Child.work_lt {child child' : Child} (h : child = .started ∧ child' ≠ .started ∨
    child = .locked ∧ child' = .running) : child'.work < child.work := by
  obtain ⟨rfl, h⟩ | ⟨rfl, rfl⟩ := h
  · cases child' <;> first | exact absurd rfl h | simp [work]
  · decide

namespace Call

variable {c c' : Call} {a : Act} {free : Bool} {role : Role}

/-- The call has begun and has not returned. -/
def InFlight (c : Call) : Prop :=
  match c.phase with
  | .spawned | .probing | .settling _ | .inspecting _ => True
  | .idle | .owning | .released | .failed _ => False

/-- The call has returned the guard; that may have been dropped since. -/
def Obtained (c : Call) : Prop := c.phase = .owning ∨ c.phase = .released

/-- From the end of its settle window on, a holder either has the lock or has exited. -/
def Settled (c : Call) : Prop :=
  match c.phase with
  | .inspecting _ => c.holder ≠ .started
  | .owning => c.holder.HasLock
  | _ => True

theorem settled_setChild {child : Child} (h : c.Settled)
    (hc : c.child role = .started ∧ child ≠ .started ∨ c.child role = .locked ∧ child = .running) :
    (c.setChild child role).Settled := by
  cases role with
  | probe => exact h
  | holder =>
    obtain ⟨ph, hl, p⟩ := c
    cases ph with
    | inspecting r =>
      obtain ⟨hs, -⟩ | ⟨-, rfl⟩ := hc
      · exact absurd hs h
      · simp [setChild, Settled]
    | owning =>
      obtain ⟨hs, -⟩ | ⟨-, rfl⟩ := hc
      · obtain rfl : hl = .started := hs
        exact h.elim
      · trivial
    | _ => trivial

theorem Settled.step (hg : c.Good) (h : c.Settled) (hs : Steps free c a c')
    (hsettle : a = .settle → c.holder ≠ .started) : c'.Settled := by
  cases hs with
  | takes hc _ => exact settled_setChild h (.inl ⟨hc, by simp⟩)
  | contends hc _ => exact settled_setChild h (.inl ⟨hc, by simp⟩)
  | flockFails hc _ _ => exact settled_setChild h (.inl ⟨hc, by simp⟩)
  | forks hc => exact settled_setChild h (.inr ⟨hc, rfl⟩)
  | settle r hl p => exact hsettle rfl
  | admitted hh p =>
    obtain rfl | rfl | rfl | ⟨code, rfl⟩ := hg.holder
    · exact absurd rfl h
    · trivial
    · trivial
    · exact absurd rfl (hh code)
  | probeDone ph hl => exact h
  | shellEnds ph p =>
    cases ph with
    | inspecting r => simp [Settled]
    | owning =>
      have hh := hg.holder
      simp [HolderOk] at hh
    | _ => trivial
  | _ => trivial

/-- The steps that let a call have its guard: both processes can be run, the holder finds the lock
free, and the probe then finds it taken. -/
def Admits (free : Bool) : Act → Prop
  | .skipProbe => False
  | .flockFails _ _ => False
  | .attempt .holder => free = true
  | .attempt .probe => free = false
  | _ => True

/-- The same without a look at the lock: the probe has to wait for the holder's attempt. -/
def HolderFirst (c : Call) : Act → Prop
  | .skipProbe => False
  | .flockFails _ _ => False
  | .attempt .probe => c.holder ≠ .started
  | _ => True

/-- Nothing has happened yet that makes the call fail. -/
def Fine (c : Call) : Prop :=
  match c.phase with
  | .spawned => ∀ code, c.holder ≠ .exited code
  | .probing => (∀ code, c.holder ≠ .exited code) ∧ (c.probe = .started ∨ c.probe = .exited 1)
  | .settling r => (∀ code, c.holder ≠ .exited code) ∧ r = .exited 1
  | .inspecting r => (∀ code, c.holder ≠ .exited code) ∧ r = .exited 1
  | .owning => c.holder ≠ .started
  | .released => True
  | .idle | .failed _ => False

/-- The call has failed or is bound to. -/
def Spoiled (c : Call) : Prop :=
  match c.phase with
  | .spawned => ∃ code, c.holder = .exited code
  | .probing => (∃ code, c.holder = .exited code) ∨ c.probe ≠ .started ∧ c.probe ≠ .exited 1
  | .settling r => (∃ code, c.holder = .exited code) ∨ r ≠ .exited 1
  | .inspecting r => (∃ code, c.holder = .exited code) ∨ r ≠ .exited 1
  | .failed _ => True
  | .idle | .owning | .released => False

theorem Fine.obtained (h : c.Fine) (hf : ¬ c.InFlight) : c.Obtained := by
  obtain ⟨ph, hl, p⟩ := c
  cases ph with
  | owning => exact .inl rfl
  | released => exact .inr rfl
  | idle => exact h.elim
  | failed r => exact h.elim
  | _ => exact absurd trivial hf

theorem Spoiled.not_obtained (h : c.Spoiled) : ¬ c.Obtained := by
  rintro (hp | hp) <;> rw [Spoiled, hp] at h <;> exact h

/-- A holder that has not tried the lock belongs to a call under way. -/
theorem inFlight_of_started (hg : c.Good) (hn : c.Settled) (h : c.holder = .started) :
    c.InFlight := by
  obtain ⟨ph, hl, p⟩ := c
  obtain rfl : hl = .started := h
  have hh := hg.holder
  cases ph with
  | idle => cases hh
  | owning => exact hn.elim
  | released => simp [HolderOk] at hh
  | failed r => cases r <;> simp [HolderOk] at hh
  | _ => trivial

/-- A holder that did not exit leaves the call as fine as it was. -/
theorem Fine.setHolder (h : c.Fine) {child : Child} (hs : child ≠ .started)
    (he : ∀ code, child ≠ .exited code) : (c.setChild child .holder).Fine := by
  obtain ⟨ph, hl, p⟩ := c
  cases ph with
  | spawned => exact he
  | probing => exact ⟨he, h.2⟩
  | settling r => exact ⟨he, h.2⟩
  | inspecting r => exact ⟨he, h.2⟩
  | owning => exact hs
  | released => trivial
  | idle => exact h.elim
  | failed r => exact h.elim

theorem Spoiled.of_holder (hf : c.InFlight) (code : UInt8) :
    (c.setChild (.exited code) .holder).Spoiled := by
  obtain ⟨ph, hl, p⟩ := c
  cases ph with
  | spawned => exact ⟨code, rfl⟩
  | probing => exact .inl ⟨code, rfl⟩
  | settling r => exact .inl ⟨code, rfl⟩
  | inspecting r => exact .inl ⟨code, rfl⟩
  | _ => exact hf.elim

theorem phase_of_probe (hg : c.Good) {child : Child} (h : c.probe = child)
    (ha : child ≠ .absent) (he : ∀ code, child ≠ .exited code) : c.phase = .probing :=
  probing_of_live hg.probe (by rw [h]; exact ha) (by rw [h]; exact he)

theorem Fine.step (hg : c.Good) (h : c.Fine) (hs : Steps free c a c') (ha : Admits free a)
    (hsettle : c'.Settled) : c'.Fine := by
  cases hs with
  | cannotStart => exact h.elim
  | start => exact h.elim
  | skipProbe => exact ha.elim
  | flockFails => exact ha.elim
  | startProbe hl p => exact ⟨h, .inl rfl⟩
  | @takes _ role hc hf =>
    cases role with
    | holder => exact h.setHolder (by simp) (by simp)
    | probe => cases hf.symm.trans ha
  | @contends _ role hc hf =>
    cases role with
    | holder => cases hf.symm.trans ha
    | probe =>
      have hp := phase_of_probe hg hc (by simp) (by simp)
      rw [Fine, hp] at h
      rw [Fine, phase_setChild, hp]
      exact ⟨h.1, .inr rfl⟩
  | @forks _ role hc =>
    cases role with
    | holder => exact h.setHolder (by simp) (by simp)
    | probe =>
      have hc : c.probe = .locked := hc
      have hp := phase_of_probe hg hc (by simp) (by simp)
      rw [Fine, hp, hc] at h
      simp at h
  | probeDone ph hl =>
    obtain rfl : ph = .probing := phase_of_probe hg rfl (by simp) (by simp)
    obtain hp | hp := h.2 <;> cases hp
  | collect hl code =>
    obtain hp | hp := h.2
    · cases hp
    · exact ⟨h.1, by simpa using hp⟩
  | settle r hl p => exact h
  | refused r code p => exact absurd rfl (h.1 code)
  | admitted hh p =>
    intro hst
    obtain rfl := hst
    exact hsettle
  | probeGot hh hc p => exact absurd (by simpa using h.2) hc
  | probeNotStarted hh p => cases h.2
  | drop reached hl p => trivial
  | shellEnds ph p =>
    cases ph with
    | spawned => simp [Fine]
    | probing => exact ⟨by simp, h.2⟩
    | settling r => exact ⟨by simp, h.2⟩
    | inspecting r => exact ⟨by simp, h.2⟩
    | owning => simp [Fine]
    | released => trivial
    | idle => exact h.elim
    | failed r => exact h.elim

theorem Fine.spoil (hg : c.Good) (hn : c.Settled) (hs : Steps free c a c')
    (ha : ¬ Admits free a) (h : c.Fine) : c'.Spoiled := by
  cases hs with
  | skipProbe hl p => exact .inr (by simp)
  | @takes _ role hc hf =>
    cases role with
    | holder => exact absurd hf ha
    | probe =>
      rw [Spoiled, phase_setChild, phase_of_probe hg hc (by simp) (by simp)]
      exact .inr ⟨by simp [setChild], by simp [setChild]⟩
  | @contends _ role hc hf =>
    cases role with
    | holder => exact .of_holder (inFlight_of_started hg hn hc) 1
    | probe => exact absurd hf ha
  | @flockFails _ role code hc h₀ h₁ =>
    cases role with
    | holder => exact .of_holder (inFlight_of_started hg hn hc) code
    | probe =>
      rw [Spoiled, phase_setChild, phase_of_probe hg hc (by simp) (by simp)]
      exact .inr ⟨by simp [setChild], by simpa [setChild] using h₁⟩
  | _ => exact absurd trivial ha

theorem Spoiled.setHolder (h : c.Spoiled) {child : Child} (hc : ∀ code, c.holder ≠ .exited code) :
    (c.setChild child .holder).Spoiled := by
  obtain ⟨ph, hl, p⟩ := c
  cases ph with
  | spawned =>
    obtain ⟨code, he⟩ := h
    exact absurd he (hc code)
  | probing => exact h.imp (fun ⟨code, he⟩ => absurd he (hc code)) id
  | settling r => exact .inr (h.resolve_left fun ⟨code, he⟩ => hc code he)
  | inspecting r => exact .inr (h.resolve_left fun ⟨code, he⟩ => hc code he)
  | failed r => trivial
  | _ => exact h.elim

theorem Spoiled.setProbe (hg : c.Good) (h : c.Spoiled) {child : Child}
    (hl : c.probe ≠ .absent) (he : ∀ code, c.probe ≠ .exited code)
    (hc : c.probe = .started ∨ child ≠ .started ∧ child ≠ .exited 1) :
    (c.setChild child .probe).Spoiled := by
  have hp := probing_of_live hg.probe hl he
  rw [Spoiled, hp] at h
  rw [Spoiled, phase_setChild, hp]
  obtain hx | ⟨hs, -⟩ := h
  · exact .inl hx
  · exact .inr (hc.resolve_left hs)

theorem Spoiled.step (hg : c.Good) (h : c.Spoiled) (hs : Steps free c a c') : c'.Spoiled := by
  cases hs with
  | cannotStart => exact h.elim
  | start => exact h.elim
  | skipProbe hl p => exact .inl h
  | startProbe hl p => exact .inl h
  | @takes _ role hc _ =>
    cases role with
    | holder => exact h.setHolder (by simp [show c.holder = _ from hc])
    | probe =>
      have hc : c.probe = .started := hc
      exact h.setProbe hg (by simp [hc]) (by simp [hc]) (.inl hc)
  | @contends _ role hc _ =>
    cases role with
    | holder => exact h.setHolder (by simp [show c.holder = _ from hc])
    | probe =>
      have hc : c.probe = .started := hc
      exact h.setProbe hg (by simp [hc]) (by simp [hc]) (.inl hc)
  | @flockFails _ role code hc _ _ =>
    cases role with
    | holder => exact h.setHolder (by simp [show c.holder = _ from hc])
    | probe =>
      have hc : c.probe = .started := hc
      exact h.setProbe hg (by simp [hc]) (by simp [hc]) (.inl hc)
  | @forks _ role hc =>
    cases role with
    | holder => exact h.setHolder (by simp [show c.holder = _ from hc])
    | probe =>
      have hc : c.probe = .locked := hc
      exact h.setProbe hg (by simp [hc]) (by simp [hc]) (.inr ⟨by simp, by simp⟩)
  | probeDone ph hl =>
    exact Spoiled.setProbe (c := ⟨ph, hl, .running⟩) hg h (by simp) (by simp)
      (.inr ⟨by simp, by simp⟩)
  | collect hl code => exact h.imp id fun hp => by simpa using hp.2
  | settle r hl p => exact h
  | refused r code p => trivial
  | admitted hh p =>
    obtain ⟨code, he⟩ | hr := h
    · exact absurd he (hh code)
    · exact absurd rfl hr
  | probeGot hh hc p => trivial
  | probeNotStarted hh p => trivial
  | drop reached hl p => exact h.elim
  | shellEnds ph p =>
    exact Spoiled.setHolder (c := ⟨ph, .ending, p⟩) h (by simp)

/-- A call under way is never stuck, and its probe can wait for the holder. -/
theorem progress (free : Bool) (hg : c.Good) (hf : c.InFlight) : ∃ a,
    (a = .settle → c.holder ≠ .started) ∧ HolderFirst c a ∧ (c.step free a).isSome := by
  by_cases hh : c.holder = .started
  · exact ⟨.attempt .holder, by simp, trivial, by simp [step, child, hh]⟩
  obtain ⟨ph, hl, p⟩ := c
  have hh : hl ≠ .started := hh
  cases ph with
  | spawned => exact ⟨.startProbe, by simp, trivial, rfl⟩
  | probing =>
    obtain rfl | rfl | rfl | ⟨code, rfl⟩ := hg.probe
    · exact ⟨.attempt .probe, by simp, hh, rfl⟩
    · exact ⟨.fork .probe, by simp, trivial, rfl⟩
    · exact ⟨.probeDone, by simp, trivial, rfl⟩
    · exact ⟨.collect, by simp, trivial, rfl⟩
  | settling r => exact ⟨.settle, fun _ => hh, trivial, rfl⟩
  | inspecting r => exact ⟨.inspect, by simp, trivial, rfl⟩
  | _ => exact hf.elim

/-- How many steps a call takes before it returns, at most. -/
def left (c : Call) : Nat :=
  match c.phase with
  | .idle => 12
  | .spawned => 8 + Child.work c.holder
  | .probing => 3 + Child.work c.holder + Child.work c.probe
  | .settling _ => 2 + Child.work c.holder
  | .inspecting _ => 1 + Child.work c.holder
  | _ => 0

def Pending (c : Call) : Prop := c.phase = .idle ∨ c.InFlight

theorem pending_setChild {child : Child} : (c.setChild child role).Pending ↔ c.Pending := by
  simp [Pending, InFlight, phase_setChild]

theorem left_setChild (hg : c.Good) (hp : c.Pending) {child : Child}
    (h : c.child role = .started ∧ child ≠ .started ∨ c.child role = .locked ∧ child = .running) :
    (c.setChild child role).left < c.left := by
  have hw := Child.work_lt h
  have hm : c.child role ≠ .absent ∧ ∀ code, c.child role ≠ .exited code := by
    obtain ⟨h, -⟩ | ⟨h, -⟩ := h <;> simp [h]
  obtain ⟨ph, hl, p⟩ := c
  cases role with
  | holder =>
    cases ph with
    | idle => exact absurd hg.holder hm.1
    | spawned | probing | settling r | inspecting r => simpa [left, setChild, Call.child] using hw
    | _ => obtain hp | hp := hp <;> cases hp
  | probe =>
    obtain rfl : ph = .probing := probing_of_live hg.probe hm.1 hm.2
    simpa [left, setChild, Call.child] using hw

/-- Every step of a call that has not returned brings it nearer to its end. -/
theorem left_lt (hg : c.Good) (hs : Steps free c a c') (h : c'.Pending) :
    c.Pending ∧ c'.left < c.left := by
  cases hs with
  | cannotStart | refused | admitted | probeGot | probeNotStarted | drop =>
    obtain hp | hp := h <;> cases hp
  | start hl p => exact ⟨.inl rfl, by simp [left, Child.work]⟩
  | skipProbe hl p => exact ⟨.inr trivial, by simp [left]⟩
  | startProbe hl p => exact ⟨.inr trivial, by simp [left, Child.work]; omega⟩
  | takes hc _ =>
    have hp := pending_setChild.mp h
    exact ⟨hp, left_setChild hg hp (.inl ⟨hc, by simp⟩)⟩
  | contends hc _ =>
    have hp := pending_setChild.mp h
    exact ⟨hp, left_setChild hg hp (.inl ⟨hc, by simp⟩)⟩
  | flockFails hc _ _ =>
    have hp := pending_setChild.mp h
    exact ⟨hp, left_setChild hg hp (.inl ⟨hc, by simp⟩)⟩
  | forks hc =>
    have hp := pending_setChild.mp h
    exact ⟨hp, left_setChild hg hp (.inr ⟨hc, rfl⟩)⟩
  | probeDone ph hl =>
    obtain rfl : ph = .probing := phase_of_probe hg rfl (by simp) (by simp)
    exact ⟨.inr trivial, by simp [left, Child.work]⟩
  | collect hl code => exact ⟨.inr trivial, by simp [left]; omega⟩
  | settle r hl p => exact ⟨.inr trivial, by simp [left]⟩
  | shellEnds ph p =>
    have hh := hg.holder
    cases ph with
    | released => obtain hp | hp := h <;> cases hp
    | failed r => obtain hp | hp := h <;> cases hp
    | _ => simp [HolderOk] at hh

theorem left_pos (h : c.InFlight) : 0 < c.left := by
  obtain ⟨ph, hl, p⟩ := c
  cases ph with
  | spawned | probing | settling r | inspecting r =>
    simp only [left]
    omega
  | _ => exact h.elim

theorem Steps.attempt (h : Steps free c (.attempt role) c') : c.child role = .started := by
  cases h <;> assumption

theorem Fine.probe_not_hasLock (hg : c.Good) (h : c.Fine) : ¬ c.probe.HasLock := by
  intro hl
  have hp : c.phase = .probing := by
    refine probing_of_live hg.probe (fun hx => ?_) fun code hx => ?_ <;> rw [hx] at hl <;> exact hl
  rw [Fine, hp] at h
  obtain hx | hx := h.2 <;> rw [hx] at hl <;> exact hl

/-- A call that is not under way, and has no process at the lock, can only begin. -/
theorem eq_cannotStart (hg : c.Good) (hn : c.Settled) (hf : ¬ c.InFlight)
    (hl : ∀ role, ¬ (c.child role).HasLock) (hs : Steps free c a c') (ha : a ≠ .start) :
    c'.phase = .failed .setup ∧ c'.child = c.child := by
  have hstarted : ∀ role, c.child role ≠ .started := by
    intro role hc
    cases role with
    | holder => exact hf (inFlight_of_started hg hn hc)
    | probe =>
      have hp := phase_of_probe hg hc (by simp) (by simp)
      exact hf (by rw [InFlight, hp]; trivial)
  cases hs with
  | cannotStart => exact ⟨rfl, by funext role; cases role <;> rfl⟩
  | start => exact absurd rfl ha
  | takes hc _ | contends hc _ | flockFails hc _ _ => exact absurd hc (hstarted _)
  | @forks _ role hc => exact absurd (by rw [hc]; trivial) (hl role)
  | probeDone ph h => exact absurd trivial (hl .probe)
  | drop reached h p => exact absurd hn (hl .holder)
  | shellEnds ph p => exact absurd trivial (hl .holder)
  | _ => exact absurd trivial hf

end Call

variable {ι : Type} [DecidableEq ι]

namespace State

variable {s s' : State ι} {x : ι × Act} {i j : ι}

/-- The settle window is long enough: when it ends, the holder has tried the lock. -/
def SettlesOk (s : State ι) (x : ι × Act) : Prop :=
  x.2 = .settle → (s.calls x.1).holder ≠ .started

instance (s : State ι) (x : ι × Act) : Decidable (s.SettlesOk x) :=
  inferInstanceAs (Decidable (_ → _))

def AtMostOneGuard (s : State ι) : Prop :=
  ∀ i j, (s.calls i).phase = .owning → (s.calls j).phase = .owning → i = j

theorem settled_step (hs : s.Sound) (hn : ∀ i, (s.calls i).Settled) (hk : s.SettlesOk x)
    (h : s.step x = some s') (j : ι) : (s'.calls j).Settled := by
  obtain ⟨hstep, hother, -⟩ := step_cases h
  by_cases hj : j = x.1
  · rw [hj]
    exact (hn x.1).step (hs.good x.1) hstep hk
  · rw [hother j hj]
    exact hn j

omit [DecidableEq ι] in
/-- A guard is the lock. -/
theorem lock_of_owning (hs : s.Sound) (hn : (s.calls i).Settled) (hi : (s.calls i).phase = .owning) :
    s.lock = some (i, .holder) := by
  refine (hs.lock i .holder).mpr ?_
  rw [Call.Settled, hi] at hn
  exact hn

omit [DecidableEq ι] in
theorem atMostOneGuard (hs : s.Sound) (hn : ∀ i, (s.calls i).Settled) : s.AtMostOneGuard := by
  intro i j hi hj
  have hl := lock_of_owning hs (hn i) hi
  rw [lock_of_owning hs (hn j) hj] at hl
  exact (Prod.mk.inj (Option.some.inj hl)).1.symm

/-- What `Call.Admits` says of the steps of call `i`, in the state before each. -/
def Admits (i : ι) (s : State ι) (x : ι × Act) : Prop :=
  x.1 = i → Call.Admits s.lock.isNone x.2

def HolderFirst (i : ι) (s : State ι) (x : ι × Act) : Prop :=
  x.1 = i → Call.HolderFirst (s.calls i) x.2

/-- Call `i` begins on a free lock, with no other call under way, and none begins in the run. -/
structure Alone (s : State ι) (i : ι) (rest : List (ι × Act)) : Prop where
  lockFree : s.lock = none
  others : ∀ j, j ≠ i → ¬ (s.calls j).InFlight
  noStart : ∀ x ∈ rest, x.2 ≠ .start

/-- The calls other than `i` have no process at the lock. -/
def Quiet (i : ι) (s : State ι) : Prop :=
  ∀ j, j ≠ i → ¬ (s.calls j).InFlight ∧ ∀ role, ¬ ((s.calls j).child role).HasLock

theorem Quiet.step (hs : s.Sound) (hn : ∀ j, (s.calls j).Settled) (hq : s.Quiet i)
    (h : s.step x = some s') (hx : x.2 ≠ .start) : s'.Quiet i := by
  obtain ⟨hstep, hother, -⟩ := step_cases h
  intro j hj
  by_cases hjx : j = x.1
  · subst hjx
    obtain ⟨hf, hl⟩ := hq _ hj
    obtain ⟨hp, hc⟩ := Call.eq_cannotStart (hs.good _) (hn _) hf hl hstep hx
    refine ⟨fun hf' => ?_, fun role => ?_⟩
    · rw [Call.InFlight, hp] at hf'
      exact hf'
    · rw [hc]
      exact hl role
  · rw [hother j hjx]
    exact hq j hj

omit [DecidableEq ι] in
theorem Quiet.lock_none_iff (hs : s.Sound) (hq : s.Quiet i) :
    s.lock = none ↔ ∀ role, ¬ ((s.calls i).child role).HasLock := by
  constructor
  · intro hl role hh
    rw [(hs.lock i role).mpr hh] at hl
    cases hl
  · intro hi
    cases hl : s.lock with
    | none => rfl
    | some owner =>
      obtain ⟨j, role⟩ := owner
      have hh := (hs.lock j role).mp hl
      by_cases hj : j = i
      · exact absurd (hj ▸ hh) (hi role)
      · exact absurd hh ((hq j hj).2 role)

omit [DecidableEq ι] in
/-- A call alone has only its own two processes at the lock. -/
theorem Quiet.admits_iff (hs : s.Sound) (hq : s.Quiet i) (hf : (s.calls i).Fine) {c' : Call}
    (h : Call.Steps s.lock.isNone (s.calls i) a c') :
    Call.Admits s.lock.isNone a ↔ Call.HolderFirst (s.calls i) a := by
  have hg := hs.good i
  have hp := hf.probe_not_hasLock hg
  have hlock : s.lock.isNone = true ↔ ¬ (s.calls i).holder.HasLock := by
    rw [Option.isNone_iff_eq_none, hq.lock_none_iff hs]
    exact ⟨fun h => h .holder, fun h role => by cases role <;> assumption⟩
  cases a with
  | attempt role =>
    have hc := h.attempt
    cases role with
    | holder =>
      refine iff_of_true (hlock.mpr ?_) trivial
      rw [show (s.calls i).holder = .started from hc]
      exact id
    | probe =>
      have hprobing := Call.phase_of_probe hg hc (by simp) (by simp)
      have hh := hg.holder
      rw [Call.Fine, hprobing] at hf
      rw [hprobing] at hh
      show s.lock.isNone = false ↔ _
      rw [← Bool.not_eq_true, hlock, not_not]
      obtain hx | hx | hx | ⟨code, hx⟩ := hh
      · simp [hx, Child.HasLock, Call.HolderFirst]
      · simp [hx, Child.HasLock, Call.HolderFirst]
      · simp [hx, Child.HasLock, Call.HolderFirst]
      · exact absurd hx (hf.1 code)
  | _ => rfl

/-- The background of a call's run. -/
structure Settling (s : State ι) : Prop where
  sound : s.Sound
  settled : ∀ j, (s.calls j).Settled

theorem Settling.step (hs : s.Settling) (hk : s.SettlesOk x) (h : s.step x = some s') :
    s'.Settling :=
  ⟨hs.sound.step h, settled_step hs.sound hs.settled hk h⟩

omit [DecidableEq ι] in
theorem settling_initial : (initial : State ι).Settling :=
  ⟨sound_initial, fun _ => trivial⟩

/-- A call's own steps keep it fine just when they admit it. -/
theorem fine_or_spoiled (hs : s.Settling) (hk : s.SettlesOk x) (h : s.step x = some s')
    (hf : (s.calls i).Fine) :
    (s.Admits i x → (s'.calls i).Fine) ∧ (¬ s.Admits i x → (s'.calls i).Spoiled) := by
  obtain ⟨hstep, hother, -⟩ := step_cases h
  by_cases hi : x.1 = i
  · subst hi
    exact ⟨fun ha => hf.step (hs.sound.good _) hstep (ha rfl) ((hs.step hk h).settled _),
      fun ha => hf.spoil (hs.sound.good _) (hs.settled _) hstep fun hx => ha fun _ => hx⟩
  · rw [hother i (Ne.symm hi)]
    exact ⟨fun _ => hf, fun ha => absurd (fun hx => absurd hx hi) ha⟩

theorem spoiled_step (hs : s.Settling) (h : s.step x = some s') (hf : (s.calls i).Spoiled) :
    (s'.calls i).Spoiled := by
  obtain ⟨hstep, hother, -⟩ := step_cases h
  by_cases hi : i = x.1
  · rw [hi] at hf ⊢
    exact hf.step (hs.sound.good _) hstep
  · rw [hother i hi]
    exact hf

/-- A call that began and has returned has its guard just when all its steps admitted it. -/
theorem obtained_iff_admits {rest : List (ι × Act)} (hs : s.Settling)
    (hk : Meets State.step SettlesOk s rest) (h : exec State.step s rest = some s')
    (hf : (s.calls i).Fine) (he : ¬ (s'.calls i).InFlight) :
    (s'.calls i).Obtained ↔ Meets State.step (Admits i) s rest := by
  have hsplit := exec_split (C := Admits i) (I := fun s => s.Settling ∧ (s.calls i).Fine)
    (J := fun s => s.Settling ∧ (s.calls i).Spoiled)
    (fun s x s' hs hk hC h => ⟨hs.1.step hk h, (fine_or_spoiled hs.1 hk h hs.2).1 hC⟩)
    (fun s x s' hs hk hC h => ⟨hs.1.step hk h, (fine_or_spoiled hs.1 hk h hs.2).2 hC⟩)
    (fun s x s' hs hk h => ⟨hs.1.step hk h, spoiled_step hs.1 h hs.2⟩)
    ⟨hs, hf⟩ hk h
  obtain ⟨hm, -, hfine⟩ | ⟨hm, -, hspoiled⟩ := hsplit
  · exact iff_of_true (hfine.obtained he) hm
  · exact iff_of_false hspoiled.not_obtained hm

theorem holderFirst_iff_admits (hs : s.Settling) (hq : s.Quiet i) (h : s.step x = some s')
    (hf : (s.calls i).Fine) : s.HolderFirst i x ↔ s.Admits i x := by
  obtain ⟨hstep, -, -⟩ := step_cases h
  unfold HolderFirst Admits
  by_cases hi : x.1 = i
  · subst hi
    simp only [true_imp_iff]
    exact (hq.admits_iff hs.sound hf hstep).symm
  · simp [hi]

/-- Alone, that is a matter of which of its own two processes tries first. -/
theorem obtained_iff_holderFirst {rest : List (ι × Act)} (hs : s.Settling) (hq : s.Quiet i)
    (hk : Meets State.step SettlesOk s rest) (hn : ∀ x ∈ rest, x.2 ≠ .start)
    (h : exec State.step s rest = some s') (hf : (s.calls i).Fine) (he : ¬ (s'.calls i).InFlight) :
    (s'.calls i).Obtained ↔ Meets State.step (HolderFirst i) s rest := by
  have hsplit := exec_split (C := HolderFirst i) (R := fun s x => SettlesOk s x ∧ x.2 ≠ .start)
    (I := fun s => s.Settling ∧ s.Quiet i ∧ (s.calls i).Fine)
    (J := fun s => s.Settling ∧ (s.calls i).Spoiled)
    (fun s x s' ⟨hs, hq, hf⟩ hk hC h => ⟨hs.step hk.1 h, hq.step hs.sound hs.settled h hk.2,
      (fine_or_spoiled hs hk.1 h hf).1 ((holderFirst_iff_admits hs hq h hf).mp hC)⟩)
    (fun s x s' ⟨hs, hq, hf⟩ hk hC h => ⟨hs.step hk.1 h,
      (fine_or_spoiled hs hk.1 h hf).2 (mt (holderFirst_iff_admits hs hq h hf).mpr hC)⟩)
    (fun s x s' hs hk h => ⟨hs.1.step hk.1 h, spoiled_step hs.1 h hs.2⟩)
    ⟨hs, hq, hf⟩ (meets_and hk hn) h
  obtain ⟨hm, -, -, hfine⟩ | ⟨hm, -, hspoiled⟩ := hsplit
  · exact iff_of_true (hfine.obtained he) hm
  · exact iff_of_false hspoiled.not_obtained hm

/-- Steps of call `i` in a run. -/
def ownSteps (i : ι) (rest : List (ι × Act)) : Nat := rest.countP fun x => x.1 = i

theorem ownSteps_le {rest : List (ι × Act)} (hs : s.Sound) (h : exec State.step s rest = some s')
    (hp : (s'.calls i).Pending) :
    (s.calls i).Pending ∧ ownSteps i rest + (s'.calls i).left ≤ (s.calls i).left := by
  induction rest generalizing s with
  | nil =>
    cases h
    simp [ownSteps, hp]
  | cons x rest ih =>
    obtain ⟨s₁, h₁, h₂⟩ := exec_cons.mp h
    obtain ⟨hp₁, hle⟩ := ih (hs.step h₁) h₂
    obtain ⟨hstep, hother, -⟩ := step_cases h₁
    by_cases hi : x.1 = i
    · subst hi
      obtain ⟨hp₀, hlt⟩ := Call.left_lt (hs.good _) hstep hp₁
      refine ⟨hp₀, ?_⟩
      simp only [ownSteps, List.countP_cons, decide_true, if_true] at hle ⊢
      omega
    · rw [hother i (Ne.symm hi)] at hp₁ hle
      refine ⟨hp₁, ?_⟩
      simpa [ownSteps, List.countP_cons, hi] using hle

/-- The state in which call `i` has just spawned its holder. -/
theorem step_start (h : s.step (i, .start) = some s') :
    (s.calls i).phase = .idle ∧ (s'.calls i).phase = .spawned ∧ (s'.calls i).Fine := by
  obtain ⟨hstep, -, -⟩ := step_cases h
  revert hstep
  generalize s.calls i = c
  generalize s'.calls i = c'
  intro hstep
  cases hstep with
  | start hl p => exact ⟨rfl, rfl, by simp [Call.Fine]⟩

omit [DecidableEq ι] in
theorem Alone.quiet {rest : List (ι × Act)} (hs : s.Sound) (h : s.Alone i rest) : s.Quiet i := by
  intro j hj
  refine ⟨h.others j hj, fun role hh => ?_⟩
  have hl := (hs.lock j role).mpr hh
  rw [h.lockFree] at hl
  cases hl

theorem Quiet.start (hq : s.Quiet i) (h : s.step (i, .start) = some s') : s'.Quiet i := by
  obtain ⟨-, hother, -⟩ := step_cases h
  intro j hj
  rw [hother j hj]
  exact hq j hj

end State

open State in
theorem acquireLock_guards {as : List (ι × Act)} {s : State ι}
    (h : exec State.step .initial as = some s) (hk : Meets State.step SettlesOk .initial as) :
    Always State.step AtMostOneGuard .initial as ∧
    ∀ i rest s', exec State.step s ((i, .start) :: rest) = some s' →
      Meets State.step SettlesOk s ((i, .start) :: rest) →
      ((s'.calls i).InFlight → ownSteps i ((i, .start) :: rest) ≤ 11 ∧
        ∃ a, s'.SettlesOk (i, a) ∧ s'.HolderFirst i (i, a) ∧ (s'.step (i, a)).isSome) ∧
      (¬ (s'.calls i).InFlight →
        ((s'.calls i).Obtained ↔ Meets State.step (Admits i) s ((i, .start) :: rest)) ∧
        (s.Alone i rest → ((s'.calls i).Obtained ↔
          Meets State.step (HolderFirst i) s ((i, .start) :: rest)))) := by
  have hinv : ∀ s x s', Settling s → SettlesOk s x → State.step s x = some s' →
      Settling (ι := ι) s' := fun s x s' hs hk h => hs.step hk h
  refine ⟨always_of_meets hinv (fun s hs => atMostOneGuard hs.sound hs.settled) settling_initial hk,
    fun i rest s' he hke => ?_⟩
  have hs := exec_invariant hinv settling_initial hk h
  obtain ⟨s₁, h₁, h₂⟩ := exec_cons.mp he
  obtain ⟨hidle, -, hfine⟩ := step_start h₁
  have hk₁ := hke.2 s₁ h₁
  have hs₁ := hs.step hke.1 h₁
  have hmeets : ∀ C : State ι → ι × Act → Prop, C s (i, .start) →
      (Meets State.step C s ((i, .start) :: rest) ↔ Meets State.step C s₁ rest) := by
    intro C hC
    rw [meets_cons_iff, h₁]
    exact and_iff_right hC
  refine ⟨fun hf => ⟨?_, ?_⟩, fun hf => ⟨?_, fun ha => ?_⟩⟩
  · obtain ⟨-, hle⟩ := ownSteps_le hs.sound he (.inr hf)
    have hpos := Call.left_pos hf
    have h12 : (s.calls i).left = 12 := by rw [Call.left, hidle]
    omega
  · have hs' := exec_invariant hinv hs hke he
    obtain ⟨a, hsettle, hfirst, hstep⟩ := Call.progress s'.lock.isNone (hs'.sound.good i) hf
    exact ⟨a, hsettle, fun _ => hfirst, by simpa [State.step] using hstep⟩
  · rw [hmeets _ fun _ => trivial]
    exact obtained_iff_admits hs₁ hk₁ h₂ hfine hf
  · rw [hmeets _ fun _ => trivial]
    exact obtained_iff_holderFirst hs₁ ((ha.quiet hs.sound).start h₁) hk₁ ha.noStart h₂ hfine hf

/-- The steps of one call whose holder tries the lock before the probe does. -/
def holderGoesFirst : List (Unit × Act) :=
  [.startProbe, .attempt .holder, .attempt .probe, .collect, .fork .holder, .settle,
    .inspect].map ((), ·)

theorem alone_of_unit {rest : List (Unit × Act)} (hn : ∀ x ∈ rest, x.2 ≠ .start) :
    (State.initial : State Unit).Alone () rest :=
  ⟨rfl, fun _ hj => absurd rfl hj, hn⟩

instance (c : Call) (a : Act) : Decidable (Call.HolderFirst c a) := by
  unfold Call.HolderFirst
  split <;> infer_instance

instance (i : ι) (s : State ι) (x : ι × Act) : Decidable (State.HolderFirst i s x) :=
  inferInstanceAs (Decidable (_ → _))

theorem acquireLock_guards_holder_first : ∃ s : State Unit,
    exec State.step .initial (((), .start) :: holderGoesFirst) = some s ∧
    (s.calls ()).Obtained ∧ s.AtMostOneGuard := by
  obtain ⟨-, hcalls⟩ := acquireLock_guards
    (show exec State.step (State.initial : State Unit) [] = some .initial from rfl) (by decide)
  refine ⟨_, rfl, ?_, fun _ _ _ _ => rfl⟩
  refine ((((hcalls () holderGoesFirst _ rfl (by decide)).2 id).2 (alone_of_unit ?_)).mpr ?_)
  · decide
  · decide

/-- A call alone on the host: its probe has the lock when its holder tries, and the call reports
another run. -/
theorem acquireLock_refuses_alone : ∃ s : State Unit,
    exec State.step .initial holderRefused = some s ∧
    Meets State.step State.SettlesOk .initial holderRefused ∧
    State.Alone .initial () holderRefused.tail ∧
    ¬ (s.calls ()).InFlight ∧ (s.calls ()).phase = .failed .inProgress ∧
    ¬ (s.calls ()).Obtained := by
  refine ⟨_, rfl, by decide, alone_of_unit (by decide), id, rfl, ?_⟩
  rintro (h | h) <;> cases h

end Hbird.UpdateCluster.Lock
