import Hbird.Interaction.Transition
import Hbird.Interaction.World

namespace Hbird.Interaction

theorem leads_free {Q : Type} {R : Q → Type} (t : Trace R) :
    Leads (fun _ _ _ _ => True : World Unit R) () t () := by
  induction t with
  | nil => exact .nil _
  | cons x t ih => exact .cons trivial ih

/-- A program by its states: what it asks next, if anything, and where the reply takes it. Unlike a
`Program` it need not end. -/
structure Machine (Q : Type) (R : Q → Type) (M : Type) where
  ask : M → Option Q
  resume : M → (q : Q) → R q → M

namespace Machine

variable {Q : Type} {R : Q → Type} {M S : Type} [DecidableEq Q] {m : Machine Q R M} {w : World S R}
  {k k' : M} {s s' : S} {x : Exchange R} {t : Trace R}

/-- One exchange, which must be the one that the machine asks for. -/
def step (m : Machine Q R M) (k : M) (x : Exchange R) : Option M :=
  if m.ask k = some x.1 then some (m.resume k x.1 x.2) else none

theorem step_eq_some : m.step k x = some k' ↔ m.ask k = some x.1 ∧ k' = m.resume k x.1 x.2 := by
  unfold step
  split_ifs with h
  · simp [h, eq_comm]
  · simp [h]

section Keeps

variable {I : Trace R → M → S → Prop} (hstep : ∀ t k s x s', I t k s → m.ask k = some x.1 →
  w s x.1 x.2 s' → I (t ++ [x]) (m.resume k x.1 x.2) s')
include hstep

theorem keeps_from {u : Trace R} (hI : I u k s) (h : exec m.step k t = some k') (hw : Leads w s t s') :
    I (u ++ t) k' s' := by
  induction t generalizing u k s with
  | nil =>
    obtain rfl := leads_nil.mp hw
    cases h
    rwa [List.append_nil]
  | cons x t ih =>
    obtain ⟨k₁, h₁, h₂⟩ := exec_cons.mp h
    obtain ⟨hask, rfl⟩ := step_eq_some.mp h₁
    obtain ⟨s₁, hw₁, hw₂⟩ := leads_cons.mp hw
    have hrest := ih (hstep u k s x s₁ hI hask hw₁) h₂ hw₂
    rwa [List.append_assoc, List.singleton_append] at hrest

/-- What every exchange keeps of the trace so far, the machine and its surroundings holds after a
whole run. -/
theorem keeps (hI : I [] k s) (h : exec m.step k t = some k') (hw : Leads w s t s') : I t k' s' :=
  keeps_from hstep hI h hw

end Keeps

/-- The same where the surroundings do not matter. -/
theorem records {I : Trace R → M → Prop} (hstep : ∀ t k x, I t k → m.ask k = some x.1 →
    I (t ++ [x]) (m.resume k x.1 x.2)) (hI : I [] k) (h : exec m.step k t = some k') : I t k' :=
  keeps (I := fun t k _ => I t k) (fun t k _ x _ hI hask _ => hstep t k x hI hask) hI h (leads_free t)

/-- A measure that every exchange lowers bounds the length of the runs. -/
theorem length_le (I : M → S → Prop) (size : M → S → Nat)
    (hstep : ∀ k s (x : Exchange R) s', I k s → m.ask k = some x.1 → w s x.1 x.2 s' →
      I (m.resume k x.1 x.2) s' ∧ size (m.resume k x.1 x.2) s' < size k s)
    (hI : I k s) (h : exec m.step k t = some k') (hw : Leads w s t s') : t.length ≤ size k s := by
  have hkeeps : I k' s' ∧ t.length + size k' s' ≤ size k s := by
    refine keeps (I := fun t k' s' => I k' s' ∧ t.length + size k' s' ≤ size k s) ?_ ⟨hI, by simp⟩ h hw
    rintro t k₁ s₁ x s₂ ⟨h₁, hle⟩ hask hw₁
    obtain ⟨h₂, hlt⟩ := hstep k₁ s₁ x s₂ h₁ hask hw₁
    refine ⟨h₂, ?_⟩
    rw [List.length_append, List.length_singleton]
    omega
  omega

end Machine

end Hbird.Interaction
