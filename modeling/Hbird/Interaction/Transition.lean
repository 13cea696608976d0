import Mathlib

namespace Hbird.Interaction

variable {S A : Type} {step : S → A → Option S} {P I : S → Prop} {C : S → A → Prop} {s s' s'' : S}
  {a : A} {as bs : List A}

/-- Take the steps of a list one after the other; each must be possible. -/
def exec (step : S → A → Option S) : S → List A → Option S
  | s, [] => some s
  | s, a :: as => (step s a).bind fun s' => exec step s' as

/-- `P` holds in every state of the run, the first and the last included. -/
def Always (step : S → A → Option S) (P : S → Prop) : S → List A → Prop
  | s, [] => P s
  | s, a :: as => P s ∧ ∀ s', step s a = some s' → Always step P s' as

/-- Every step of the run is taken in a state that allows it. -/
def Meets (step : S → A → Option S) (C : S → A → Prop) : S → List A → Prop
  | _, [] => True
  | s, a :: as => C s a ∧ ∀ s', step s a = some s' → Meets step C s' as

theorem meets_cons_iff : Meets step C s (a :: as) ↔
    C s a ∧ (step s a).elim True fun s' => Meets step C s' as := by
  rw [Meets]
  cases step s a <;> simp

instance decidableMeets [∀ s a, Decidable (C s a)] :
    (s : S) → (as : List A) → Decidable (Meets step C s as)
  | _, [] => .isTrue trivial
  | s, a :: as =>
    have : Decidable ((step s a).elim True fun s' => Meets step C s' as) :=
      match step s a with
      | none => .isTrue trivial
      | some s' => decidableMeets s' as
    decidable_of_iff _ meets_cons_iff.symm

theorem exec_cons : exec step s (a :: as) = some s'' ↔
    ∃ s', step s a = some s' ∧ exec step s' as = some s'' := Option.bind_eq_some_iff

theorem exec_append : exec step s (as ++ bs) = some s'' ↔
    ∃ s', exec step s as = some s' ∧ exec step s' bs = some s'' := by
  induction as generalizing s with
  | nil => simp [exec]
  | cons a as ih =>
    rw [List.cons_append, exec_cons]
    constructor
    · rintro ⟨s₁, h₁, h⟩
      obtain ⟨s₂, h₂, h₃⟩ := ih.mp h
      exact ⟨s₂, exec_cons.mpr ⟨s₁, h₁, h₂⟩, h₃⟩
    · rintro ⟨s₂, h, h₃⟩
      obtain ⟨s₁, h₁, h₂⟩ := exec_cons.mp h
      exact ⟨s₁, h₁, ih.mpr ⟨s₂, h₂, h₃⟩⟩

/-- The states that runs from a first one lead to. -/
def Reachable (step : S → A → Option S) (s s' : S) : Prop := ∃ as, exec step s as = some s'

theorem Reachable.refl : Reachable step s s := ⟨[], rfl⟩

theorem Reachable.of_step (h : step s a = some s') : Reachable step s s' :=
  ⟨[a], exec_cons.mpr ⟨s', h, rfl⟩⟩

theorem Reachable.trans (h : Reachable step s s') (h' : Reachable step s' s'') :
    Reachable step s s'' := by
  obtain ⟨as, has⟩ := h
  obtain ⟨bs, hbs⟩ := h'
  exact ⟨as ++ bs, exec_append.mpr ⟨s', has, hbs⟩⟩

/-- What holds at first and is kept by every step holds of every reachable state. -/
theorem Reachable.keeps (hstep : ∀ s a s', I s → step s a = some s' → I s')
    (h : Reachable step s s') (hI : I s) : I s' := by
  obtain ⟨as, has⟩ := h
  induction as generalizing s with
  | nil =>
    cases has
    exact hI
  | cons a as ih =>
    obtain ⟨s₁, h₁, h₂⟩ := exec_cons.mp has
    exact ih (hstep s a s₁ hI h₁) h₂

theorem meets_append (h : exec step s as = some s') :
    Meets step C s (as ++ bs) ↔ Meets step C s as ∧ Meets step C s' bs := by
  induction as generalizing s with
  | nil =>
    cases h
    simp [Meets]
  | cons a as ih =>
    obtain ⟨s₁, h₁, h₂⟩ := exec_cons.mp h
    simp only [List.cons_append, Meets, h₁, Option.some.injEq, forall_eq', ih h₂, and_assoc]

theorem meets_and {p : A → Prop} (h : Meets step C s as) (hp : ∀ a ∈ as, p a) :
    Meets step (fun s a => C s a ∧ p a) s as := by
  induction as generalizing s with
  | nil => trivial
  | cons a as ih =>
    obtain ⟨ha, has⟩ := List.forall_mem_cons.mp hp
    exact ⟨⟨h.1, ha⟩, fun s' hs' => ih (h.2 s' hs') has⟩

theorem Always.head (h : Always step P s as) : P s := by
  cases as with
  | nil => exact h
  | cons a as => exact h.1

/-- The states of a run are those that its initial parts reach. -/
theorem always_iff : Always step P s as ↔ ∀ bs s', bs <+: as → exec step s bs = some s' → P s' := by
  induction as generalizing s with
  | nil =>
    constructor
    · intro h bs s' hb he
      rw [List.prefix_nil.mp hb] at he
      cases he
      exact h
    · intro h
      exact h [] s List.nil_prefix rfl
  | cons a as ih =>
    constructor
    · rintro ⟨hs, h⟩ bs s' hb he
      cases bs with
      | nil =>
        cases he
        exact hs
      | cons b bs =>
        obtain ⟨rfl, hbs⟩ := List.cons_prefix_cons.mp hb
        obtain ⟨s₁, h₁, h₂⟩ := exec_cons.mp he
        exact ih.mp (h s₁ h₁) bs s' hbs h₂
    · intro h
      refine ⟨h [] s List.nil_prefix rfl, fun s₁ h₁ => ih.mpr fun bs s' hb he => ?_⟩
      exact h (a :: bs) s' (List.cons_prefix_cons.mpr ⟨rfl, hb⟩) (exec_cons.mpr ⟨s₁, h₁, he⟩)

section Invariant

variable (hstep : ∀ s a s', I s → C s a → step s a = some s' → I s')
include hstep

/-- What every allowed step keeps, a run of allowed steps keeps. -/
theorem exec_invariant (hI : I s) (hm : Meets step C s as) (h : exec step s as = some s') : I s' := by
  induction as generalizing s with
  | nil =>
    cases h
    exact hI
  | cons a as ih =>
    obtain ⟨s₁, h₁, h₂⟩ := exec_cons.mp h
    exact ih (hstep s a s₁ hI hm.1 h₁) (hm.2 s₁ h₁) h₂

theorem always_of_meets (hP : ∀ s, I s → P s) (hI : I s) (hm : Meets step C s as) :
    Always step P s as := by
  induction as generalizing s with
  | nil => exact hP s hI
  | cons a as ih => exact ⟨hP s hI, fun s₁ h₁ => ih (hstep s a s₁ hI hm.1 h₁) (hm.2 s₁ h₁)⟩

/-- If every other step leads to a state without `P`, the runs that keep `P` are those of
allowed steps. -/
theorem always_iff_meets (hP : ∀ s, I s → P s)
    (hbad : ∀ s a s', I s → ¬ C s a → step s a = some s' → ¬ P s') (hI : I s)
    (h : exec step s as = some s') : Always step P s as ↔ Meets step C s as := by
  refine ⟨fun hA => ?_, always_of_meets hstep hP hI⟩
  induction as generalizing s with
  | nil => trivial
  | cons a as ih =>
    obtain ⟨s₁, h₁, h₂⟩ := exec_cons.mp h
    have hA₁ := hA.2 s₁ h₁
    have hC : C s a := by
      by_contra hn
      exact hbad s a s₁ hI hn h₁ hA₁.head
    refine ⟨hC, fun s₂ hs₂ => ?_⟩
    rw [h₁] at hs₂
    obtain rfl := Option.some.inj hs₂
    exact ih (hstep s a s₁ hI hC h₁) h₂ hA₁

end Invariant

/-- A run whose every step meets `C` keeps `I`; the first step that does not leads to `J`, which
every step keeps. `R` is what all the steps meet. -/
theorem exec_split {R : S → A → Prop} {J : S → Prop}
    (hI : ∀ s a s', I s → R s a → C s a → step s a = some s' → I s')
    (hIJ : ∀ s a s', I s → R s a → ¬ C s a → step s a = some s' → J s')
    (hJ : ∀ s a s', J s → R s a → step s a = some s' → J s')
    (hs : I s) (hR : Meets step R s as) (h : exec step s as = some s') :
    Meets step C s as ∧ I s' ∨ ¬ Meets step C s as ∧ J s' := by
  induction as generalizing s with
  | nil =>
    cases h
    exact .inl ⟨trivial, hs⟩
  | cons a as ih =>
    obtain ⟨s₁, h₁, h₂⟩ := exec_cons.mp h
    by_cases hC : C s a
    · obtain ⟨hm, hs'⟩ | ⟨hm, hs'⟩ := ih (hI s a s₁ hs hR.1 hC h₁) (hR.2 s₁ h₁) h₂
      · refine .inl ⟨⟨hC, fun s₂ hs₂ => ?_⟩, hs'⟩
        rw [h₁] at hs₂
        obtain rfl := Option.some.inj hs₂
        exact hm
      · exact .inr ⟨fun hm' => hm (hm'.2 s₁ h₁), hs'⟩
    · refine .inr ⟨fun hm => hC hm.1, ?_⟩
      exact exec_invariant hJ (hIJ s a s₁ hs hR.1 hC h₁) (hR.2 s₁ h₁) h₂

end Hbird.Interaction
