import Hbird.Interaction.World

namespace Hbird.Interaction

variable {Q S α β : Type} {R : Q → Type} {ε : Type}

/-- A step of a program among others: the state in which its last step left the surroundings, the
one the others have made of it, and the one that the step leaves. -/
structure Moment (S : Type) {Q : Type} (R : Q → Type) where
  exchange : Exchange R
  start : S
  before : S
  after : S

/-- The steps of a run, the others free to act ahead of each. -/
inductive Unfolds (w : World S R) : S → List (Moment S R) → S → Prop
  | nil (s : S) : Unfolds w s [] s
  | cons {start before after final : S} {x : Exchange R} {ms : List (Moment S R)}
      (h : w before x.1 x.2 after) (hms : Unfolds w after ms final) :
      Unfolds w start (⟨x, start, before, after⟩ :: ms) final

variable {w : World S R} {C G : Moment S R → Prop} {p : Program Q R α} {P P' : α → S → Prop}
  {s s' : S} {ms : List (Moment S R)} {t : Trace R}

/-- As long as every step meets `C`, every step satisfies `G`, and the program ends with a value and in
a state that satisfy `P`. -/
def assures (w : World S R) (C G : Moment S R → Prop) :
    Program Q R α → (α → S → Prop) → S → Prop
  | .done a, P, s => P a s
  | .ask q next, P, s => ∀ r before after, C ⟨⟨q, r⟩, s, before, after⟩ → w before q r after →
      G ⟨⟨q, r⟩, s, before, after⟩ ∧ assures w C G (next r) P after

theorem assures_run {a : α} (h : assures w C G p P s) (hr : Runs p t a) (hu : Unfolds w s ms s')
    (ht : ms.map Moment.exchange = t) (hC : ∀ m ∈ ms, C m) : (∀ m ∈ ms, G m) ∧ P a s' := by
  induction p generalizing s t ms with
  | done b =>
    obtain ⟨rfl, rfl⟩ := runs_done.mp hr
    obtain rfl := List.map_eq_nil_iff.mp ht
    cases hu
    exact ⟨fun m hm => absurd hm List.not_mem_nil, h⟩
  | ask q next ih =>
    obtain ⟨r, t', rfl, hnext⟩ := runs_ask.mp hr
    cases hu with
    | nil => cases ht
    | @cons _ before after _ x ms hw hms =>
      obtain ⟨rfl, ht'⟩ := List.cons.inj ht
      obtain ⟨hm, hC'⟩ := List.forall_mem_cons.mp hC
      obtain ⟨hG, hrest⟩ := h r before after hm hw
      obtain ⟨hGs, hP⟩ := ih r hrest hnext hms ht' hC'
      exact ⟨List.forall_mem_cons.mpr ⟨hG, hGs⟩, hP⟩

theorem assures_mono (h : assures w C G p P s) (hP : ∀ a s, P a s → P' a s) :
    assures w C G p P' s := by
  induction p generalizing s with
  | done a => exact hP a s h
  | ask q next ih =>
    intro r before after hC hw
    obtain ⟨hG, hrest⟩ := h r before after hC hw
    exact ⟨hG, ih r hrest⟩

theorem assures_bind {f : α → Program Q R β} {P : β → S → Prop}
    (h : assures w C G p (fun a s' => assures w C G (f a) P s') s) :
    assures w C G (p >>= f) P s := by
  induction p generalizing s with
  | done a => exact h
  | ask q next ih =>
    intro r before after hC hw
    obtain ⟨hG, hrest⟩ := h r before after hC hw
    exact ⟨hG, ih r hrest⟩

theorem assures_exec_bind {x : Exec Q R ε α} {f : α → Exec Q R ε β} {P : Except ε β → S → Prop}
    (h : assures w C G x.run (fun
      | .ok a, s' => assures w C G (f a).run P s'
      | .error e, s' => P (.error e) s') s) : assures w C G (x >>= f).run P s := by
  refine assures_bind (p := x.run) (f := ExceptT.bindCont f) (assures_mono h fun r s' hr => ?_)
  cases r <;> exact hr

end Hbird.Interaction
