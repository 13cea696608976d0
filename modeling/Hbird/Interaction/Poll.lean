import Hbird.Interaction.Exec

namespace Hbird.Interaction

variable {Q : Type} {R : Q → Type} {α β γ ε ε' : Type} {t : Trace R}

def saturatingAdd (a b : UInt32) : UInt32 :=
  if a.toNat + b.toNat < UInt32.size then a + b else UInt32.ofNat (UInt32.size - 1)

theorem toNat_saturatingAdd (a b : UInt32) :
    (saturatingAdd a b).toNat = min (a.toNat + b.toNat) (UInt32.size - 1) := by
  have hs : (UInt32.ofNat (UInt32.size - 1)).toNat = UInt32.size - 1 := by decide
  unfold saturatingAdd
  split
  · next h =>
    rw [UInt32.toNat_add, Nat.mod_eq_of_lt h]
    omega
  · next h => omega

/-- `while elapsed < timeout { probe; sleep(interval); elapsed += interval }`, left with
the value of the first probe that has one. What the last probe saw instead is kept for
the report; the count of rounds only makes the recursion structural. -/
def poll (interval timeout : UInt32) (probe : Exec Q R β α) : Nat → UInt32 → β → Exec Q R β α
  | 0, _, seen => throw seen
  | n + 1, elapsed, seen =>
    if elapsed < timeout then
      Exec.outcome probe >>= fun
        | .ok a => pure a
        | .error b => poll interval timeout probe n (saturatingAdd elapsed interval) b
    else throw seen

/-- The loop from `elapsed = 0`, with rounds enough for every interval. -/
def pollLoop (interval timeout : UInt32) (probe : Exec Q R β α) (seen : β) : Exec Q R β α :=
  poll interval timeout probe timeout.toNat 0 seen

/-- The count of rounds never ends the loop: any two that reach the timeout agree. -/
theorem poll_rounds (interval timeout : UInt32) (hi : 0 < interval.toNat) (probe : Exec Q R β α)
    (n m : Nat) (elapsed : UInt32) (seen : β) (hn : timeout.toNat ≤ n + elapsed.toNat)
    (hm : timeout.toNat ≤ m + elapsed.toNat) :
    poll interval timeout probe n elapsed seen = poll interval timeout probe m elapsed seen := by
  induction n generalizing m elapsed seen with
  | zero =>
    have hlt : ¬ elapsed < timeout := by rw [UInt32.lt_iff_toNat_lt]; omega
    cases m with
    | zero => rfl
    | succ m => rw [poll, poll, if_neg hlt]
  | succ n ih =>
    cases m with
    | zero =>
      have hlt : ¬ elapsed < timeout := by rw [UInt32.lt_iff_toNat_lt]; omega
      rw [poll, poll, if_neg hlt]
    | succ m =>
      by_cases hlt : elapsed < timeout
      · have hb := timeout.toNat_lt
        have hs := toNat_saturatingAdd elapsed interval
        simp only [UInt32.size] at hs
        rw [poll, poll, if_pos hlt, if_pos hlt]
        congr 1
        funext r
        cases r with
        | ok a => rfl
        | error b => exact ih m _ b (by omega) (by omega)
      · rw [poll, poll, if_neg hlt, if_neg hlt]

/-- A trace of probes none of which gave a value. -/
inductive Misses (probe : Exec Q R β α) : Trace R → Prop
  | nil : Misses probe []
  | cons {b : β} {u v : Trace R} (hu : Finishes probe u (.error b)) (hv : Misses probe v) :
      Misses probe (u ++ v)

theorem poll_finishes {interval timeout : UInt32} {probe : Exec Q R β α} {n : Nat}
    {elapsed : UInt32} {seen : β} {o : Except β α}
    (h : Finishes (poll interval timeout probe n elapsed seen) t o) :
    match o with
    | .ok a => ∃ u v, t = u ++ v ∧ Misses probe u ∧ Finishes probe v (.ok a)
    | .error _ => Misses probe t := by
  induction n generalizing elapsed seen t with
  | zero =>
    obtain ⟨rfl, rfl⟩ := finishes_throw.mp h
    exact .nil
  | succ n ih =>
    rw [poll] at h
    split at h
    · obtain ⟨r, t₁, t₂, rfl, h₁, h₂⟩ := finishes_outcome_bind.mp h
      cases r with
      | ok a =>
        obtain ⟨rfl, rfl⟩ := finishes_pure.mp h₂
        exact ⟨[], t₁, by simp, .nil, h₁⟩
      | error b =>
        have hr := ih h₂
        cases o with
        | ok a =>
          obtain ⟨u, v, rfl, hu, hv⟩ := hr
          exact ⟨t₁ ++ u, v, (List.append_assoc ..).symm, .cons h₁ hu, hv⟩
        | error c => exact .cons h₁ hr
    · obtain ⟨rfl, rfl⟩ := finishes_throw.mp h
      exact .nil

theorem pollLoop_ok {interval timeout : UInt32} {probe : Exec Q R β α} {seen : β} {a : α} (h : Finishes (pollLoop interval timeout probe seen) t (.ok a)) :
    ∃ u v, t = u ++ v ∧ Misses probe u ∧ Finishes probe v (.ok a) := poll_finishes h

theorem pollLoop_error {interval timeout : UInt32} {probe : Exec Q R β α} {seen b : β}
    (h : Finishes (pollLoop interval timeout probe seen) t (.error b)) :
    Misses probe t := poll_finishes h

theorem Misses.exists_of_mem {probe : Exec Q R β α} (h : Misses probe t)
    {x : Exchange R} (hx : x ∈ t) : ∃ u b, Finishes probe u (.error b) ∧ x ∈ u := by
  induction h with
  | nil => cases hx
  | cons hu _ ih =>
    obtain hx | hx := List.mem_append.mp hx
    · exact ⟨_, _, hu, hx⟩
    · exact ih hx

theorem puts_poll {φ : Q → Prop} {interval timeout : UInt32} {probe : Exec Q R β α}
    (hp : Puts φ probe.run) (seen : β) : Puts φ (pollLoop interval timeout probe seen).run := by
  have hm : ∀ u, Misses probe u → ∀ x ∈ u, φ x.1 := by
    intro u hu x hx
    obtain ⟨v, b, hv, hxv⟩ := hu.exists_of_mem hx
    exact hp v _ hv x hxv
  intro t o h
  cases o with
  | ok a =>
    obtain ⟨u, v, rfl, hu, hv⟩ := pollLoop_ok h
    intro x hx
    obtain hx | hx := List.mem_append.mp hx
    · exact hm u hu x hx
    · exact hp v _ hv x hx
  | error b => exact hm t (pollLoop_error h)

/-- One round of a gate: try `x`, and let `judge` say whether what came back ends it. -/
def attempt (x : Exec Q R ε α) (judge : Except ε α → Except β γ) : Exec Q R β γ :=
  Exec.outcome x >>= fun r => ExceptT.mk (pure (judge r))

theorem finishes_attempt {x : Exec Q R ε α} {judge : Except ε α → Except β γ} {o : Except β γ} :
    Finishes (attempt x judge) t o ↔ ∃ r, Finishes x t r ∧ o = judge r := by
  rw [attempt, finishes_outcome_bind]
  constructor
  · rintro ⟨r, t₁, t₂, rfl, h₁, h₂⟩
    obtain ⟨rfl, rfl⟩ := runs_done.mp h₂
    exact ⟨r, by rwa [List.append_nil], rfl⟩
  · rintro ⟨r, h, rfl⟩
    exact ⟨r, t, [], (List.append_nil t).symm, h, .done _⟩

/-- The round of a gate that waits for `good` to hold of a value; a failed try only
costs the round. -/
def untilOk (good : α → Bool) : Except ε α → Except Unit α
  | .ok a => if good a then .ok a else .error ()
  | .error _ => .error ()

theorem untilOk_eq_ok {good : α → Bool} {r : Except ε α} {a : α} :
    untilOk good r = .ok a ↔ r = .ok a ∧ good a = true := by
  cases r with
  | ok b =>
    by_cases hb : good b = true
    · simp only [untilOk, hb, if_true, Except.ok.injEq]
      exact ⟨fun h => ⟨h, h ▸ hb⟩, And.left⟩
    · simp only [untilOk, hb, if_false, Except.ok.injEq, reduceCtorEq, false_iff]
      rintro ⟨rfl, hg⟩
      exact hb hg
  | error e => simp [untilOk]

/-- `while elapsed < timeout { .. }` over rounds that wait for `good`, and the text to
raise when no round shows it. -/
def waitFor (interval timeout : UInt32) (good : α → Bool) (failure : ε') (x : Exec Q R ε α) :
    Exec Q R ε' Unit :=
  ((pollLoop interval timeout (attempt x (untilOk good)) ()).context fun _ => failure) >>=
    fun _ => pure ()

theorem waitFor_ok {interval timeout : UInt32} {good : α → Bool} {failure : ε'}
    {x : Exec Q R ε α} (h : Finishes (waitFor interval timeout good failure x) t (.ok ())) :
    ∃ u v a, t = u ++ v ∧ Finishes x v (.ok a) ∧ good a = true := by
  obtain ⟨a, t₁, t₂, rfl, h₁, h₂⟩ := finishes_bind_ok.mp h
  obtain ⟨rfl, -⟩ := finishes_pure.mp h₂
  obtain ⟨u, v, rfl, -, hv⟩ := pollLoop_ok (finishes_context_ok.mp h₁)
  obtain ⟨r, hr, ha⟩ := finishes_attempt.mp hv
  obtain ⟨rfl, hg⟩ := untilOk_eq_ok.mp ha.symm
  exact ⟨u, v, a, by rw [List.append_nil], hr, hg⟩

theorem puts_attempt {φ : Q → Prop} {x : Exec Q R ε α} {judge : Except ε α → Except β γ}
    (hx : Puts φ x.run) : Puts φ (attempt x judge).run := by
  intro t o h
  obtain ⟨r, hr, -⟩ := finishes_attempt.mp h
  exact hx t r hr

theorem puts_waitFor {φ : Q → Prop} {interval timeout : UInt32} {good : α → Bool}
    {failure : ε'} {x : Exec Q R ε α} (hx : Puts φ x.run) :
    Puts φ (waitFor interval timeout good failure x).run :=
  puts_exec_bind (puts_context (puts_poll (puts_attempt hx) ())) fun _ => puts_done φ _

end Hbird.Interaction
