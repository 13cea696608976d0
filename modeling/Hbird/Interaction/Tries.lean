import Hbird.Interaction.Poll

namespace Hbird.Interaction

variable {Q : Type} {R : Q → Type} {α β γ ε ε' : Type} {t : Trace R} {n : Nat}

/-- Up to `n` rounds, left with the value of the first that has one. -/
def tries (probe : Exec Q R β α) : Nat → β → Exec Q R β α
  | 0, seen => throw seen
  | n + 1, _ =>
    Exec.outcome probe >>= fun
      | .ok a => pure a
      | .error b => tries probe n b

theorem ceilDiv_of_pos {a b : Nat} (ha : 0 < a) (hb : 0 < b) : a ⌈/⌉ b = (a - b) ⌈/⌉ b + 1 := by
  rw [Nat.ceilDiv_eq_add_pred_div, Nat.ceilDiv_eq_add_pred_div, ← Nat.add_div_right _ hb]
  obtain hle | hle := Nat.le_total b a
  · congr 1
    omega
  · have hlast : (a + b - 1) / b = 1 := Nat.div_eq_of_lt_le (by omega) (by omega)
    have hnone : (a - b + b - 1 + b) / b = 1 := Nat.div_eq_of_lt_le (by omega) (by omega)
    rw [hlast, hnone]

/-- The counter of the seconds, also one that stops at the greatest number, lets as many rounds
through as intervals begin before the timeout. -/
theorem poll_eq_tries {interval timeout : UInt32} (hi : 0 < interval.toNat) {probe : Exec Q R β α}
    {elapsed : UInt32} {seen : β} (hn : timeout.toNat ≤ n + elapsed.toNat) :
    poll interval timeout probe n elapsed seen =
      tries probe ((timeout.toNat - elapsed.toNat) ⌈/⌉ interval.toNat) seen := by
  induction n generalizing elapsed seen with
  | zero =>
    rw [Nat.sub_eq_zero_of_le (by omega), zero_ceilDiv]
    rfl
  | succ n ih =>
    rw [poll]
    by_cases hlt : elapsed < timeout
    · have hnat := UInt32.lt_iff_toNat_lt.mp hlt
      have hbound := timeout.toNat_lt
      have hnext := toNat_saturatingAdd elapsed interval
      simp only [UInt32.size] at hnext
      have hrest : timeout.toNat - (saturatingAdd elapsed interval).toNat =
          timeout.toNat - elapsed.toNat - interval.toNat := by omega
      rw [if_pos hlt, ceilDiv_of_pos (by omega) hi, tries, ← hrest]
      congr 1
      funext r
      cases r with
      | ok a => rfl
      | error b => exact ih (by omega)
    · rw [UInt32.lt_iff_toNat_lt] at hlt
      rw [if_neg (by rwa [UInt32.lt_iff_toNat_lt]), Nat.sub_eq_zero_of_le (by omega), zero_ceilDiv]
      rfl

theorem pollLoop_eq_tries {interval timeout : UInt32} (hi : 0 < interval.toNat)
    {probe : Exec Q R β α} {seen : β} : pollLoop interval timeout probe seen =
      tries probe (timeout.toNat ⌈/⌉ interval.toNat) seen := poll_eq_tries hi (Nat.le_add_right _ _)

/-- The seconds that the counter shows before the `k`-th round. -/
def elapsedAt (interval : UInt32) (k : Nat) : UInt32 := (saturatingAdd · interval)^[k] 0

theorem toNat_elapsedAt (interval : UInt32) (k : Nat) :
    (elapsedAt interval k).toNat = min (k * interval.toNat) (UInt32.size - 1) := by
  induction k with
  | zero => simp [elapsedAt]
  | succ k ih =>
    rw [elapsedAt, Function.iterate_succ_apply', toNat_saturatingAdd, ← elapsedAt, ih, Nat.succ_mul]
    omega

/-- Up to the last round the counter has not reached its end. -/
theorem elapsedAt_exact {interval timeout : UInt32} (hi : 0 < interval.toNat) {k : Nat}
    (hk : k < timeout.toNat ⌈/⌉ interval.toNat) :
    (elapsedAt interval k).toNat = k * interval.toNat ∧ k * interval.toNat < timeout.toNat := by
  have hlt : k * interval.toNat < timeout.toNat := by
    by_contra hle
    have hround : timeout.toNat ⌈/⌉ interval.toNat ≤ k := by
      rw [ceilDiv_le_iff_le_smul hi, smul_eq_mul, Nat.mul_comm]
      exact not_lt.mp hle
    omega
  have hbound := timeout.toNat_lt
  refine ⟨?_, hlt⟩
  rw [toNat_elapsedAt]
  simp only [UInt32.size]
  omega

section Waits

variable {x : Exec Q R ε α} {good : Except ε α → Prop} {judge : Except ε α → Except β γ}
  {timedOut : Except ε' Unit} {g : Exec Q R ε' Unit}

/-- The loop `g` probes with `x`, up to `n` times, until the outcome is `good`. -/
structure Waits (n : Nat) (x : Exec Q R ε α) (good : Except ε α → Prop) (timedOut : Except ε' Unit)
    (g : Exec Q R ε' Unit) : Prop where
  /-- Whatever the probes give, it ends. -/
  ends : ∀ ω : Nat → Trace R × Except ε α, (∀ k, Finishes x (ω k).1 (ω k).2) →
    ∃ k ≤ n, ∃ o, Finishes g ((List.range k).flatMap fun i => (ω i).1) o
  /-- A run is one of probes, of which only the last may be good. -/
  probes : ∀ t o, Finishes g t o → ∃ ps : List (Trace R × Except ε α),
    t = ps.flatMap Prod.fst ∧ (∀ p ∈ ps, Finishes x p.1 p.2) ∧ ps.length ≤ n ∧
    (∀ p ∈ ps.dropLast, ¬ good p.2) ∧
    ((∃ p ∈ ps, good p.2) ∧ o = .ok () ∨ (∀ p ∈ ps, ¬ good p.2) ∧ ps.length = n ∧ o = timedOut)

theorem ends_tries (ω : Nat → Trace R × Except ε α) (hω : ∀ k, Finishes x (ω k).1 (ω k).2)
    (seen : β) : ∃ k ≤ n, ∃ o,
      Finishes (tries (attempt x judge) n seen) ((List.range k).flatMap fun i => (ω i).1) o := by
  induction n generalizing ω seen with
  | zero => exact ⟨0, le_rfl, _, finishes_throw.mpr ⟨rfl, rfl⟩⟩
  | succ n ih =>
    have hfirst : Finishes (attempt x judge) (ω 0).1 (judge (ω 0).2) :=
      finishes_attempt.mpr ⟨_, hω 0, rfl⟩
    cases hjudge : judge (ω 0).2 with
    | ok c =>
      rw [hjudge] at hfirst
      refine ⟨1, by omega, .ok c, finishes_outcome_bind.mpr ⟨_, _, _, ?_, hfirst, finishes_pure.mpr
        ⟨rfl, rfl⟩⟩⟩
      simp
    | error b =>
      rw [hjudge] at hfirst
      obtain ⟨k, hk, o, hrest⟩ := ih (fun i => ω (i + 1)) (fun i => hω (i + 1)) b
      refine ⟨k + 1, by omega, o, finishes_outcome_bind.mpr ⟨_, _, _, ?_, hfirst, hrest⟩⟩
      rw [List.range_succ_eq_map, List.flatMap_cons, List.flatMap_map]

theorem probes_tries {seen : β} {o : Except β γ}
    (h : Finishes (tries (attempt x judge) n seen) t o) : ∃ ps : List (Trace R × Except ε α),
      t = ps.flatMap Prod.fst ∧ (∀ p ∈ ps, Finishes x p.1 p.2) ∧ ps.length ≤ n ∧
      (∀ p ∈ ps.dropLast, ∃ b, judge p.2 = .error b) ∧
      ((∃ p ∈ ps, judge p.2 = o) ∧ (∃ c, o = .ok c) ∨
        (∀ p ∈ ps, ∃ b, judge p.2 = .error b) ∧ ps.length = n ∧ ∃ b, o = .error b) := by
  induction n generalizing seen t with
  | zero =>
    obtain ⟨rfl, rfl⟩ := finishes_throw.mp h
    exact ⟨[], by simp⟩
  | succ n ih =>
    obtain ⟨r, u, v, rfl, hu, hv⟩ := finishes_outcome_bind.mp h
    obtain ⟨p, hp, rfl⟩ := finishes_attempt.mp hu
    cases hjudge : judge p with
    | ok c =>
      rw [hjudge] at hv
      obtain ⟨rfl, rfl⟩ := finishes_pure.mp hv
      exact ⟨[(u, p)], by simp, by simpa using hp, by simp, by simp, .inl ⟨by simpa using hjudge, c, rfl⟩⟩
    | error b =>
      rw [hjudge] at hv
      obtain ⟨ps, rfl, hps, hlength, hmiss, hend⟩ := ih hv
      refine ⟨(u, p) :: ps, by simp, List.forall_mem_cons.mpr ⟨hp, hps⟩, by simpa using hlength, ?_, ?_⟩
      · cases ps with
        | nil => simp
        | cons q qs =>
          rw [List.dropLast_cons_cons]
          exact List.forall_mem_cons.mpr ⟨⟨b, hjudge⟩, hmiss⟩
      · obtain ⟨⟨q, hq, hqo⟩, hok⟩ | ⟨hall, hn, herr⟩ := hend
        · exact .inl ⟨⟨q, List.mem_cons_of_mem _ hq, hqo⟩, hok⟩
        · exact .inr ⟨List.forall_mem_cons.mpr ⟨⟨b, hjudge⟩, hall⟩, by simp [hn], herr⟩

/-- What a gate makes of the outcome of its loop. -/
def verdict (timedOut : Except ε' Unit) : Except β γ → Except ε' Unit
  | .ok _ => .ok ()
  | .error _ => timedOut

theorem waits_of_tries (judge : Except ε α → Except β γ) (seen : β)
    (hgood : ∀ r, good r ↔ ∃ c, judge r = .ok c)
    (hg : ∀ t o, Finishes g t o ↔
      ∃ r, Finishes (tries (attempt x judge) n seen) t r ∧ o = verdict timedOut r) :
    Waits n x good timedOut g := by
  have hbad : ∀ r, (∃ b, judge r = .error b) → ¬ good r := by
    rintro r ⟨b, hb⟩ hr
    obtain ⟨c, hc⟩ := (hgood r).mp hr
    rw [hb] at hc
    cases hc
  refine ⟨fun ω hω => ?_, fun t o h => ?_⟩
  · obtain ⟨k, hk, r, hr⟩ := ends_tries ω hω seen
    exact ⟨k, hk, verdict timedOut r, (hg _ _).mpr ⟨r, hr, rfl⟩⟩
  · obtain ⟨r, hr, rfl⟩ := (hg t o).mp h
    obtain ⟨ps, hps, hruns, hlength, hmiss, hend⟩ := probes_tries hr
    refine ⟨ps, hps, hruns, hlength, fun p hp => hbad _ (hmiss p hp), ?_⟩
    obtain ⟨⟨p, hp, hpo⟩, c, rfl⟩ | ⟨hall, hn, b, rfl⟩ := hend
    · exact .inl ⟨⟨p, hp, (hgood _).mpr ⟨c, hpo⟩⟩, rfl⟩
    · exact .inr ⟨fun p hp => hbad _ (hall p hp), hn, rfl⟩

theorem waits_waitFor {interval timeout : UInt32} (hi : 0 < interval.toNat) {ok : α → Bool}
    {failure : ε'} (hgood : ∀ r, good r ↔ ∃ a, r = .ok a ∧ ok a = true) :
    Waits (timeout.toNat ⌈/⌉ interval.toNat) x good (.error failure)
      (waitFor interval timeout ok failure x) := by
  refine waits_of_tries (untilOk ok) () (fun r => ?_) fun t o => ?_
  · exact (hgood r).trans (exists_congr fun a => untilOk_eq_ok.symm)
  · rw [waitFor, pollLoop_eq_tries hi, finishes_bind]
    constructor
    · rintro (⟨e, rfl, h⟩ | ⟨a, u, v, rfl, hu, hv⟩)
      · obtain ⟨r, hr, hrun⟩ := finishes_context.mp h
        cases r with
        | ok a => cases hr
        | error b =>
          cases hr
          exact ⟨_, hrun, rfl⟩
      · obtain ⟨rfl, rfl⟩ := finishes_pure.mp hv
        rw [List.append_nil]
        exact ⟨_, finishes_context_ok.mp hu, rfl⟩
    · rintro ⟨r, hr, rfl⟩
      cases r with
      | ok a =>
        exact .inr ⟨a, t, [], (List.append_nil t).symm, finishes_context_ok.mpr hr,
          finishes_pure.mpr ⟨rfl, rfl⟩⟩
      | error b => exact .inl ⟨_, rfl, finishes_context.mpr ⟨_, rfl, hr⟩⟩

/-- A gate that is passed also when its time is up. -/
theorem waits_outcome {interval timeout : UInt32} (hi : 0 < interval.toNat) {seen : β}
    (hgood : ∀ r, good r ↔ ∃ c, judge r = .ok c) :
    Waits (timeout.toNat ⌈/⌉ interval.toNat) x good (.ok ())
      ((Exec.outcome (pollLoop interval timeout (attempt x judge) seen) >>= fun _ => pure () :
        Exec Q R ε' Unit)) := by
  refine waits_of_tries judge seen hgood fun t o => ?_
  have hok : ∀ r : Except β γ, verdict (.ok ()) r = (.ok () : Except ε' Unit) := by
    intro r
    cases r <;> rfl
  rw [pollLoop_eq_tries hi, finishes_outcome_bind]
  constructor
  · rintro ⟨r, u, v, rfl, hu, hv⟩
    obtain ⟨rfl, rfl⟩ := finishes_pure.mp hv
    exact ⟨r, by rwa [List.append_nil], (hok r).symm⟩
  · rintro ⟨r, hr, rfl⟩
    exact ⟨r, t, [], (List.append_nil t).symm, hr, finishes_pure.mpr ⟨rfl, hok r⟩⟩

end Waits

end Hbird.Interaction
