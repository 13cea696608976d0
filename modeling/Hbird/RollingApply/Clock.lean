import Hbird.RollingApply.Cluster

namespace Hbird.RollingApply

open Hbird.Interaction Hbird.StagedCheck

/-- The seconds go on, ten at least while the script sleeps. -/
def Ticks : World Nat Reply := fun now q r later => now ≤ later ∧
  match q, r with
  | .seconds, n => n = now
  | .sleep, () => now + 10 ≤ later
  | _, _ => True

/-- How often the script can sleep before a deadline. -/
def rounds (deadline now : Nat) : Nat := (deadline - now + 9) / 10

namespace Config

variable (cfg : Config)

def readyBudget : Nat := 4 * rounds cfg.readyTimeout 0 + 6

def bootBudget : Nat := 3 * rounds cfg.rebootTimeout 0 + 2 + cfg.readyBudget

/-- The most commands that one node can take. -/
def nodeBudget : Nat := cfg.bootBudget + 6

end Config

/-- The most commands that `apply_node` has yet to run. -/
def Point.budget (cfg : Config) (now : Nat) : Point → Nat
  | .probe => cfg.bootBudget + 5
  | .readBootId _ => cfg.bootBudget + 4
  | .cordon _ _ => cfg.bootBudget + 3
  | .drain _ _ => cfg.bootBudget + 2
  | .giveBack => 1
  | .reboot _ _ => cfg.bootBudget + 1
  | .bootDeadline _ _ => cfg.bootBudget
  | .bootClock _ _ deadline => 3 * rounds deadline now + 1 + cfg.readyBudget
  | .bootSleep _ _ deadline => 3 * (rounds deadline now - 1) + 3 + cfg.readyBudget
  | .bootPoll _ _ deadline => 3 * rounds deadline now + 2 + cfg.readyBudget
  | .readyDeadline _ _ => cfg.readyBudget
  | .askKubelet _ _ deadline => 4 * rounds deadline now + 5
  | .askReady _ _ deadline => 4 * rounds deadline now + 4
  | .readyClock _ _ deadline => 4 * rounds deadline now + 3
  | .readySleep _ _ deadline => 4 * (rounds deadline now - 1) + 6
  | .readBooted _ => 2
  | .uncordon => 1

/-- The most commands that the script has yet to run. -/
def State.budget (cfg : Config) (s : State) (now : Nat) : Nat :=
  match s.phase with
  | .resolveCp => (s.todo.length + 1) * cfg.nodeBudget
  | .pick => s.todo.length * cfg.nodeBudget
  | .within _ p => s.todo.length * cfg.nodeBudget + p.budget cfg now
  | .ended _ => 0

section Budget

variable {cfg : Config} {s : State} {t : Target} {p : Point} {now later deadline : Nat}

theorem rounds_mono (deadline : Nat) (h : now ≤ later) : rounds deadline later ≤ rounds deadline now := by
  unfold rounds
  omega

theorem rounds_sleep (deadline : Nat) (h : now + 10 ≤ later) : rounds deadline later ≤ rounds deadline now - 1 := by
  unfold rounds
  omega

theorem rounds_pos (h : now < deadline) : 0 < rounds deadline now := by
  unfold rounds
  omega

theorem rounds_from (timeout : Nat) (h : now ≤ later) :
    rounds (now + timeout) later ≤ rounds timeout 0 := by
  unfold rounds
  omega

theorem budget_pos : 0 < p.budget cfg now := by
  cases p <;> simp only [Point.budget, Config.bootBudget, Config.readyBudget] <;> omega

/-- The budget of a state is below that of a point of `apply_node` ahead of it. -/
def Below (cfg : Config) (s : State) (p : Point) (now : Nat) (s' : State) (later : Nat) : Prop :=
  s'.budget cfg later < s.todo.length * cfg.nodeBudget + p.budget cfg now

theorem below_next : Below cfg s p now s.next later := by
  have hpos : 0 < p.budget cfg now := budget_pos
  obtain ⟨todo, phase⟩ := s
  cases todo with
  | nil => exact Nat.lt_add_left _ hpos
  | cons name todo => exact Nat.lt_add_of_pos_right hpos

theorem below_fail : Below cfg s p now s.fail later := Nat.lt_add_left _ budget_pos

theorem below_goTo (p' : Point) (h : p'.budget cfg later < p.budget cfg now) :
    Below cfg s p now (s.goTo t p') later := Nat.add_lt_add_left h _

theorem below_choice {P : Prop} [Decidable P] {p₁ p₂ : Point}
    (h₁ : p₁.budget cfg later < p.budget cfg now) (h₂ : p₂.budget cfg later < p.budget cfg now) :
    Below cfg s p now (s.goTo t (if P then p₁ else p₂)) later := by
  split_ifs
  · exact below_goTo p₁ h₁
  · exact below_goTo p₂ h₂

section Waits

variable {staged bootId newId : String} {n : Nat}

theorem below_bootDeadline (h : now ≤ later) : Below cfg s (.bootDeadline staged bootId) now
    (s.goTo t (.bootClock staged bootId (now + cfg.rebootTimeout))) later := by
  have hrounds := rounds_from cfg.rebootTimeout h
  refine below_goTo _ ?_
  simp only [Point.budget, Config.bootBudget]
  omega

theorem below_bootClock (h : now ≤ later) : Below cfg s (.bootClock staged bootId deadline) now
    (applyNode cfg s t (.bootClock staged bootId deadline) .seconds now) later := by
  unfold applyNode
  dsimp only
  split_ifs with hlt
  · have hpos := rounds_pos hlt
    have hmono := rounds_mono deadline h
    refine below_goTo _ ?_
    simp only [Point.budget]
    omega
  · exact below_fail

theorem below_bootSleep (h : now + 10 ≤ later) : Below cfg s (.bootSleep staged bootId deadline) now
    (s.goTo t (.bootPoll staged bootId deadline)) later := by
  have hsleep := rounds_sleep deadline h
  refine below_goTo _ ?_
  simp only [Point.budget]
  omega

theorem below_bootPoll {out : String} (h : now ≤ later) :
    Below cfg s (.bootPoll staged bootId deadline) now
      (applyNode cfg s t (.bootPoll staged bootId deadline) (.pollBootId t.ip) out) later := by
  have hmono := rounds_mono deadline h
  refine below_choice ?_ ?_
  · simp only [Point.budget]
    omega
  · simp only [Point.budget]
    omega

theorem below_readyDeadline (h : now ≤ later) : Below cfg s (.readyDeadline staged newId) now
    (s.goTo t (.askKubelet staged newId (now + cfg.readyTimeout))) later := by
  have hrounds := rounds_from cfg.readyTimeout h
  refine below_goTo _ ?_
  simp only [Point.budget, Config.readyBudget]
  omega

theorem below_askKubelet {out : String} (h : now ≤ later) :
    Below cfg s (.askKubelet staged newId deadline) now
      (applyNode cfg s t (.askKubelet staged newId deadline) (.kubeletBootId t.node) out) later := by
  have hmono := rounds_mono deadline h
  refine below_choice ?_ ?_
  · simp only [Point.budget]
    omega
  · simp only [Point.budget]
    omega

theorem below_askReady {r : Shot} (h : now ≤ later) :
    Below cfg s (.askReady staged newId deadline) now
      (applyNode cfg s t (.askReady staged newId deadline) (.getNode t.node) r) later := by
  have hmono := rounds_mono deadline h
  refine below_choice ?_ ?_
  · simp only [Point.budget]
    omega
  · simp only [Point.budget]
    omega

theorem below_readyClock (h : now ≤ later) : Below cfg s (.readyClock staged newId deadline) now
    (applyNode cfg s t (.readyClock staged newId deadline) .seconds now) later := by
  unfold applyNode
  dsimp only
  split_ifs with hle
  · exact below_fail
  · have hpos := rounds_pos (Nat.lt_of_not_le hle)
    have hmono := rounds_mono deadline h
    refine below_goTo _ ?_
    simp only [Point.budget]
    omega

theorem below_readySleep (h : now + 10 ≤ later) :
    Below cfg s (.readySleep staged newId deadline) now
      (s.goTo t (.askKubelet staged newId deadline)) later := by
  have hsleep := rounds_sleep deadline h
  refine below_goTo _ ?_
  simp only [Point.budget]
  omega

end Waits

theorem below_step (r : Reply (p.query t)) (h : Ticks now (p.query t) r later) :
    Below cfg s p now (applyNode cfg s t p (p.query t) r) later := by
  obtain ⟨hle, hr⟩ := h
  cases p with
  | probe =>
    unfold applyNode
    dsimp only [Point.query]
    split_ifs
    · exact below_next
    · exact below_goTo _ (Nat.lt_succ_self _)
    · exact below_fail
  | readBootId staged =>
    unfold applyNode
    dsimp only [Point.query]
    split_ifs
    · exact below_goTo _ (Nat.add_lt_add_left (by decide) _)
    · exact below_goTo _ (Nat.lt_succ_self _)
    · exact below_fail
  | cordon staged bootId =>
    cases r with
    | true => exact below_goTo (.drain staged bootId) (Nat.lt_succ_self _)
    | false => exact below_fail
  | drain staged bootId =>
    cases r with
    | true => exact below_goTo (.reboot staged bootId) (Nat.lt_succ_self _)
    | false => exact below_goTo .giveBack (Nat.lt_add_left _ Nat.one_lt_two)
  | giveBack => exact below_fail
  | reboot staged bootId => exact below_goTo (.bootDeadline staged bootId) (Nat.lt_succ_self _)
  | bootDeadline staged bootId =>
    obtain rfl := hr
    exact below_bootDeadline hle
  | bootClock staged bootId deadline =>
    obtain rfl := hr
    exact below_bootClock hle
  | bootSleep staged bootId deadline => exact below_bootSleep hr
  | bootPoll staged bootId deadline => exact below_bootPoll hle
  | readyDeadline staged newId =>
    obtain rfl := hr
    exact below_readyDeadline hle
  | askKubelet staged newId deadline => exact below_askKubelet hle
  | askReady staged newId deadline => exact below_askReady hle
  | readyClock staged newId deadline =>
    obtain rfl := hr
    exact below_readyClock hle
  | readySleep staged newId deadline => exact below_readySleep hr
  | readBooted staged =>
    unfold applyNode
    dsimp only [Point.query]
    split_ifs
    · exact below_next
    · exact below_goTo .uncordon (Nat.lt_succ_self _)
    · exact below_fail
  | uncordon =>
    cases r with
    | true => exact below_next
    | false => exact below_fail

theorem budget_step (x : Exchange Reply) (hask : ask cfg s = some x.1)
    (h : Ticks now x.1 x.2 later) :
    (resume cfg s x.1 x.2).budget cfg later < s.budget cfg now := by
  obtain ⟨todo, phase⟩ := s
  obtain ⟨q, r⟩ := x
  have hnode : (Point.probe).budget cfg later < cfg.nodeBudget := Nat.lt_succ_self _
  cases phase with
  | resolveCp =>
    cases hask
    have hlt : todo.length * cfg.nodeBudget + (Point.probe).budget cfg later <
        (todo.length + 1) * cfg.nodeBudget := by
      rw [Nat.succ_mul]
      exact Nat.add_lt_add_left hnode _
    unfold resume
    dsimp only
    split_ifs
    · exact lt_of_le_of_lt (Nat.zero_le _) hlt
    · exact hlt
  | pick =>
    cases todo with
    | nil => cases hask
    | cons name todo =>
      cases hask
      have hlt : todo.length * cfg.nodeBudget + (Point.probe).budget cfg later <
          (todo.length + 1) * cfg.nodeBudget := by
        rw [Nat.succ_mul]
        exact Nat.add_lt_add_left hnode _
      unfold resume
      dsimp only
      split_ifs
      · exact lt_of_le_of_lt (Nat.zero_le _) hlt
      · exact hlt
  | within t p =>
    cases hask
    exact below_step (s := ⟨todo, .within t p⟩) r h
  | ended success => cases hask

/-- The script gives up or comes to its end, after so many commands at the most. -/
theorem ends_in_time {tr : Trace Reply} (h : exec (script cfg).step (start cfg) tr = some s)
    (hw : Leads Ticks now tr later) : tr.length ≤ (cfg.workerNames.length + 1) * cfg.nodeBudget ∧
      ((∃ success, s.phase = .ended success) ∨ ∃ q, ask cfg s = some q) := by
  constructor
  · exact Machine.length_le (fun _ _ => True) (fun s now => s.budget cfg now)
      (fun _ _ x _ _ hask hw => ⟨trivial, budget_step x hask hw⟩) trivial h hw
  · obtain ⟨visits, l, rfl, hdone, hacc⟩ := keeps_run h
    obtain ⟨todo, phase⟩ := s
    cases phase with
    | resolveCp => exact .inr ⟨_, rfl⟩
    | pick =>
      obtain ⟨-, hne, -⟩ := hacc
      cases todo with
      | nil => exact absurd rfl hne
      | cons name todo => exact .inr ⟨_, rfl⟩
    | within t p => exact .inr ⟨_, rfl⟩
    | ended success => exact .inl ⟨success, rfl⟩

/-- Commands that may take no time. -/
def Query.instant : Query → Bool
  | .seconds | .sleep => false
  | _ => true

theorem ticks_instant {q : Query} {r : Reply q} (hq : q.instant = true) : Ticks now q r now := by
  refine ⟨le_rfl, ?_⟩
  cases q with
  | seconds | sleep => cases hq
  | _ => trivial

theorem smallTrace_ticks : Leads Ticks 0 smallTrace 10 := by
  have hsleep : Ticks 0 .sleep () 10 := ⟨by decide, le_rfl⟩
  refine .cons (ticks_instant rfl) (.cons (ticks_instant rfl) (.cons (ticks_instant rfl) ?_))
  refine .cons (ticks_instant rfl) (.cons (ticks_instant rfl) (.cons (ticks_instant rfl) ?_))
  refine .cons (ticks_instant rfl) (.cons (ticks_instant rfl) (.cons ⟨le_rfl, rfl⟩ ?_))
  refine .cons ⟨le_rfl, rfl⟩ (.cons hsleep (.cons (ticks_instant rfl) (.cons ⟨le_rfl, rfl⟩ ?_)))
  refine .cons (ticks_instant rfl) (.cons (ticks_instant rfl) (.cons (ticks_instant rfl) ?_))
  exact .cons (ticks_instant rfl) (.nil 10)

theorem ends_in_time_sample : smallTrace.length ≤ (smallConfig.workerNames.length + 1) *
    smallConfig.nodeBudget :=
  (ends_in_time smallTrace_run smallTrace_ticks).1

end Budget

end Hbird.RollingApply
