import Hbird.UpdateCluster.Lock

namespace Hbird.UpdateCluster.Lock

open Hbird.Interaction

namespace Call

variable {c c' : Call} {a : Act} {free : Bool} {role : Role}

theorem phase_setChild {child : Child} : (c.setChild child role).phase = c.phase := by
  cases role <;> rfl

/-- The call is about to kill its holder and to return an error. -/
def GivesUp (c : Call) : Prop :=
  match c.phase, c.holder with
  | .inspecting _, .exited _ => False
  | .inspecting r, _ => r ≠ .exited 1
  | _, _ => False

instance (c : Call) : Decidable c.GivesUp := by
  unfold GivesUp
  split <;> infer_instance

theorem givesUp_iff {r : ProbeResult} {h p : Child} :
    GivesUp ⟨.inspecting r, h, p⟩ ↔ r ≠ .exited 1 ∧ ∀ code, h ≠ .exited code := by
  cases h <;> simp [GivesUp]

/-- A call that returned an error has left no process behind that has the lock. -/
def Clean (c : Call) : Prop :=
  ∀ refusal, c.phase = .failed refusal → ∀ role, ¬ (c.child role).HasLock

theorem Good.failed_child (h : c.Good) {refusal : Refusal} (hp : c.phase = .failed refusal)
    (role : Role) : c.child role ≠ .started ∧ c.child role ≠ .locked ∧ c.child role ≠ .running := by
  obtain ⟨hh, hpr⟩ := h
  rw [hp] at hh hpr
  cases role with
  | holder =>
    have hx : c.holder = .absent ∨ c.holder = .killed ∨ c.holder = .orphaned ∨
        ∃ code, c.holder = .exited code := by
      cases refusal <;> simp only [HolderOk] at hh <;> tauto
    obtain hx | hx | hx | ⟨code, hx⟩ := hx <;> simp [child, hx]
  | probe =>
    have hx : c.probe = .absent ∨ ∃ code, c.probe = .exited code := by
      cases refusal <;> simp_all [ProbeOk]
    obtain hx | ⟨code, hx⟩ := hx <;> simp [child, hx]

theorem over_not_hasLock {p : Child} (h : p = .absent ∨ ∃ code, p = .exited code) : ¬ p.HasLock := by
  obtain rfl | ⟨code, rfl⟩ := h <;> exact id

theorem kill_not_hasLock {r : ProbeResult} {h : Child} (hl : HolderOk (.inspecting r) h) (hr : h ≠ .running) :
    ¬ h.kill.HasLock := by
  obtain rfl | rfl | rfl | ⟨code, rfl⟩ := hl
  · exact id
  · exact id
  · exact absurd rfl hr
  · exact id

theorem Clean.step (hg : c.Good) (hc : c.Clean) (hs : Steps free c a c')
    (hk : a = .inspect → c.GivesUp → c.holder ≠ .running) : c'.Clean := by
  intro refusal hp role
  cases hs with
  | cannotStart h p =>
    obtain ⟨rfl, rfl⟩ : h = .absent ∧ p = .absent := ⟨hg.holder, hg.probe⟩
    cases role <;> exact id
  | refused r code p =>
    cases role
    · exact id
    · exact over_not_hasLock (probeOk_over hg.probe)
  | @probeGot h hh code hcode p =>
    cases role
    · exact kill_not_hasLock hg.holder (hk rfl (givesUp_iff.mpr ⟨by simpa using hcode, hh⟩))
    · exact over_not_hasLock (probeOk_over hg.probe)
  | @probeNotStarted h hh p =>
    cases role
    · exact kill_not_hasLock hg.holder (hk rfl (givesUp_iff.mpr ⟨by simp, hh⟩))
    · exact over_not_hasLock (probeOk_over hg.probe)
  | takes ht _ | contends ht _ | flockFails ht _ _ =>
    exact absurd ht (hg.failed_child (phase_setChild.symm.trans hp) _).1
  | forks ht => exact absurd ht (hg.failed_child (phase_setChild.symm.trans hp) _).2.1
  | probeDone ph h => exact absurd rfl (hg.failed_child hp .probe).2.2
  | shellEnds ph p =>
    cases role
    · exact id
    · exact hc refusal hp .probe
  | _ => cases hp

/-- A holder that already runs its shell leaves it behind. -/
theorem not_clean_of_late_kill (hs : Steps free c .inspect c') (hg : c.GivesUp)
    (hr : c.holder = .running) : ¬ c'.Clean := by
  cases hs with
  | refused r code p => cases hr
  | admitted hh p => exact absurd rfl (givesUp_iff.mp hg).1
  | probeGot hh hc p =>
    cases hr
    exact fun h => h _ rfl .holder trivial
  | probeNotStarted hh p =>
    cases hr
    exact fun h => h _ rfl .holder trivial

end Call

variable {ι : Type} [DecidableEq ι]

namespace State

variable {s s' : State ι} {x : ι × Act}

/-- Whenever a call gives its holder up, that has not forked its shell yet. -/
def KillsInTime (s : State ι) (x : ι × Act) : Prop :=
  x.2 = .inspect → (s.calls x.1).GivesUp → (s.calls x.1).holder ≠ .running

instance (s : State ι) (x : ι × Act) : Decidable (s.KillsInTime x) :=
  inferInstanceAs (Decidable (_ → _))

/-- No call that returned an error has left a process behind that has the lock. -/
def NoLeftover (s : State ι) : Prop := ∀ i, (s.calls i).Clean

theorem noLeftover_step (hs : s.Sound) (hn : s.NoLeftover) (hk : s.KillsInTime x)
    (h : s.step x = some s') : s'.NoLeftover := by
  obtain ⟨hstep, hother, -⟩ := step_cases h
  intro j
  by_cases hj : j = x.1
  · rw [hj]
    exact (hn x.1).step (hs.good x.1) hstep hk
  · rw [hother j hj]
    exact hn j

theorem leftover_of_late_kill (hk : ¬ s.KillsInTime x) (h : s.step x = some s') :
    ¬ s'.NoLeftover := by
  obtain ⟨hstep, -, -⟩ := step_cases h
  simp only [KillsInTime, not_forall, not_not] at hk
  obtain ⟨ha, hg, hr⟩ := hk
  rw [ha] at hstep
  exact fun hn => Call.not_clean_of_late_kill hstep hg hr (hn x.1)

omit [DecidableEq ι] in
/-- With nothing left behind, a host on which every call has ended with an error is free. -/
theorem free_of_noLeftover (hs : s.Sound) (hn : s.NoLeftover)
    (hall : ∀ i, (s.calls i).phase = .idle ∨ ∃ refusal, (s.calls i).phase = .failed refusal) :
    s.lock = none := by
  cases hl : s.lock with
  | none => rfl
  | some owner =>
    obtain ⟨i, role⟩ := owner
    have hh := (hs.lock i role).mp hl
    obtain hi | ⟨refusal, hi⟩ := hall i
    · obtain ⟨hho, hpr⟩ := hs.good i
      rw [hi] at hho hpr
      cases role
      · exact absurd hh (by rw [Call.child, hho]; exact id)
      · exact absurd hh (by rw [Call.child, hpr]; exact id)
    · exact absurd hh (hn i refusal hi role)

end State

theorem acquireLock_leaves_nothing_iff {as : List (ι × Act)} {s : State ι}
    (h : exec State.step .initial as = some s) :
    (Always State.step State.NoLeftover .initial as ↔
      Meets State.step State.KillsInTime .initial as) ∧
    (Meets State.step State.KillsInTime .initial as →
      (∀ i, (s.calls i).phase = .idle ∨ ∃ refusal, (s.calls i).phase = .failed refusal) →
      s.lock = none) := by
  have hinv : ∀ s x s', State.Sound s ∧ State.NoLeftover s → State.KillsInTime s x →
      State.step s x = some s' → State.Sound s' ∧ State.NoLeftover (ι := ι) s' :=
    fun s x s' hs hk h => ⟨hs.1.step h, State.noLeftover_step hs.1 hs.2 hk h⟩
  have hinit : State.Sound (State.initial : State ι) ∧ State.NoLeftover (State.initial : State ι) :=
    ⟨State.sound_initial, fun i refusal hp => nomatch hp⟩
  constructor
  · exact always_iff_meets hinv (fun s hs => hs.2)
      (fun s x s' _ hk hs => State.leftover_of_late_kill hk hs) hinit h
  · intro hm hall
    obtain ⟨hs, hn⟩ := exec_invariant hinv hinit hm h
    exact State.free_of_noLeftover hs hn hall

/-- The steps of one call whose probe takes the lock first and is over before the holder
tries. -/
def probeFirst : List (Unit × Act) :=
  [.start, .startProbe, .attempt .probe, .fork .probe, .probeDone, .collect, .attempt .holder,
    .fork .holder, .settle, .inspect].map ((), ·)

/-- The same with the holder too early: it exits by itself, and nothing is left. -/
def holderRefused : List (Unit × Act) :=
  [.start, .startProbe, .attempt .probe, .attempt .holder, .fork .probe, .probeDone, .collect,
    .settle, .inspect].map ((), ·)

theorem acquireLock_leaves_nothing_refused : ∃ s : State Unit,
    exec State.step .initial holderRefused = some s ∧
    (s.calls ()).phase = .failed .inProgress ∧ s.lock = none := by
  refine ⟨_, rfl, rfl, ?_⟩
  refine (acquireLock_leaves_nothing_iff
    (show exec State.step .initial holderRefused = some _ from rfl)).2 ?_ fun _ => .inr ⟨_, rfl⟩
  decide

/-- The call ends with an error, and the shell of its holder has the lock for good. -/
theorem acquireLock_leaves_shell : ∃ s : State Unit,
    exec State.step .initial probeFirst = some s ∧
    (s.calls ()).phase = .failed (.probeGot 0) ∧ (s.calls ()).holder = .orphaned ∧
    s.lock = some ((), .holder) ∧
    ¬ Always State.step State.NoLeftover .initial probeFirst := by
  refine ⟨_, rfl, rfl, rfl, rfl, fun h => ?_⟩
  exact (always_iff.mp h probeFirst _ List.prefix_rfl rfl) () _ rfl .holder trivial

end Hbird.UpdateCluster.Lock
