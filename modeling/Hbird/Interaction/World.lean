import Hbird.Interaction.Exec

namespace Hbird.Interaction

variable {Q : Type} {R : Q → Type} {ε ε' α β S : Type}

/-- What an exchange does to the surroundings: from the first state to the second, where the
reply can come at all. -/
abbrev World (S : Type) {Q : Type} (R : Q → Type) := S → (q : Q) → R q → S → Prop

variable {w : World S R} {s s' s'' : S} {p : Program Q R α} {t u : Trace R}
  {P P' : α → S → Prop}

/-- The exchanges of a trace, one after the other. -/
inductive Leads (w : World S R) : S → Trace R → S → Prop
  | nil (s : S) : Leads w s [] s
  | cons {s s' s'' : S} {q : Q} {r : R q} {t : Trace R} (h : w s q r s') (ht : Leads w s' t s'') :
      Leads w s (⟨q, r⟩ :: t) s''

theorem leads_nil : Leads w s [] s' ↔ s' = s := by
  constructor
  · rintro ⟨⟩
    rfl
  · rintro rfl
    exact .nil _

theorem leads_cons {x : Exchange R} :
    Leads w s (x :: t) s'' ↔ ∃ s', w s x.1 x.2 s' ∧ Leads w s' t s'' := by
  constructor
  · rintro ⟨⟩
    exact ⟨_, by assumption, by assumption⟩
  · rintro ⟨s', h, ht⟩
    exact .cons h ht

theorem leads_append : Leads w s (t ++ u) s'' ↔ ∃ s', Leads w s t s' ∧ Leads w s' u s'' := by
  induction t generalizing s with
  | nil => simp [leads_nil]
  | cons x t ih =>
    rw [List.cons_append, leads_cons]
    constructor
    · rintro ⟨s₁, h, ht⟩
      obtain ⟨s₂, h₁, h₂⟩ := ih.mp ht
      exact ⟨s₂, leads_cons.mpr ⟨s₁, h, h₁⟩, h₂⟩
    · rintro ⟨s₂, h, h₂⟩
      obtain ⟨s₁, h, h₁⟩ := leads_cons.mp h
      exact ⟨s₁, h, ih.mpr ⟨s₂, h₁, h₂⟩⟩

/-- The surroundings, as far as their exchanges meet `C`. -/
def World.restrict (w : World S R) (C : Exchange R → Prop) : World S R :=
  fun s q r s' => w s q r s' ∧ C ⟨q, r⟩

theorem leads_restrict {C : Exchange R → Prop} :
    Leads (w.restrict C) s t s' ↔ Leads w s t s' ∧ ∀ x ∈ t, C x := by
  induction t generalizing s with
  | nil => simp [leads_nil]
  | cons x t ih =>
    rw [leads_cons, leads_cons, List.forall_mem_cons]
    constructor
    · rintro ⟨s₁, ⟨hw, hx⟩, ht⟩
      obtain ⟨hl, hC⟩ := ih.mp ht
      exact ⟨⟨s₁, hw, hl⟩, hx, hC⟩
    · rintro ⟨⟨s₁, hw, hl⟩, hx, hC⟩
      exact ⟨s₁, ⟨hw, hx⟩, ih.mpr ⟨hl, hC⟩⟩

/-- The weakest precondition: however the surroundings reply, the program ends with a value and
in a state that satisfy `P`. -/
def wp (w : World S R) : Program Q R α → (α → S → Prop) → S → Prop
  | .done a, P, s => P a s
  | .ask q next, P, s => ∀ r s', w s q r s' → wp w (next r) P s'

theorem wp_iff : wp w p P s ↔ ∀ t a s', Runs p t a → Leads w s t s' → P a s' := by
  induction p generalizing s with
  | done a =>
    constructor
    · intro h t b s' hr hl
      obtain ⟨rfl, rfl⟩ := runs_done.mp hr
      obtain rfl := leads_nil.mp hl
      exact h
    · intro h
      exact h [] a s (.done a) (.nil s)
  | ask q next ih =>
    constructor
    · intro h t b s'' hr hl
      obtain ⟨r, t', rfl, hnext⟩ := runs_ask.mp hr
      obtain ⟨s', hw, hrest⟩ := leads_cons.mp hl
      exact (ih r).mp (h r s' hw) t' b s'' hnext hrest
    · intro h r s' hw
      exact (ih r).mpr fun t a s'' hr hl => h _ a s'' (.ask hr) (.cons hw hl)

theorem wp_mono (h : wp w p P s) (hP : ∀ a s, P a s → P' a s) : wp w p P' s := by
  rw [wp_iff] at h ⊢
  exact fun t a s' hr hl => hP a s' (h t a s' hr hl)

theorem wp_bind {f : α → Program Q R β} {P : β → S → Prop} :
    wp w (p >>= f) P s ↔ wp w p (fun a s' => wp w (f a) P s') s := by
  induction p generalizing s with
  | done a => exact Iff.rfl
  | ask q next ih =>
    constructor
    · exact fun h r s' hw => (ih r).mp (h r s' hw)
    · exact fun h r s' hw => (ih r).mpr (h r s' hw)

/-- The same for programs that may fail. -/
def wpe (w : World S R) (x : Exec Q R ε α) (P : Except ε α → S → Prop) (s : S) : Prop :=
  wp w x.run P s

variable {x : Exec Q R ε α} {f : α → Exec Q R ε β} {O : Except ε β → S → Prop}
  {O₁ O₂ : Except ε α → S → Prop}

theorem wpe_iff : wpe w x O₁ s ↔ ∀ t o s', Finishes x t o → Leads w s t s' → O₁ o s' := wp_iff

theorem wpe_mono (h : wpe w x O₁ s) (hO : ∀ o s, O₁ o s → O₂ o s) : wpe w x O₂ s := wp_mono h hO

theorem wpe_pure {a : α} : wpe w (pure a : Exec Q R ε α) O₁ s ↔ O₁ (.ok a) s := Iff.rfl

theorem wpe_bind : wpe w (x >>= f) O s ↔ wpe w x (fun
    | .ok a, s' => wpe w (f a) O s'
    | .error e, s' => O (.error e) s') s := by
  refine (wp_bind (p := x.run) (f := ExceptT.bindCont f)).trans ?_
  have hO : (fun r s' => wp w (ExceptT.bindCont f r) O s') = (fun
      | .ok a, s' => wpe w (f a) O s'
      | .error e, s' => O (.error e) s') := by
    funext r s'
    cases r <;> rfl
  rw [hO]
  exact Iff.rfl

theorem wpe_observe {p : Program Q R α} :
    wpe w (Exec.observe p : Exec Q R ε α) O₁ s ↔ wp w p (fun a s' => O₁ (.ok a) s') s := by
  rw [wpe_iff, wp_iff]
  constructor
  · exact fun h t a s' hr hl => h t (.ok a) s' (finishes_observe.mpr ⟨a, rfl, hr⟩) hl
  · intro h t o s' hf hl
    obtain ⟨a, rfl, hr⟩ := finishes_observe.mp hf
    exact h t a s' hr hl

theorem wpe_perform {q : Q} {O : Except ε (R q) → S → Prop} :
    wpe w (Exec.observe (Program.perform q) : Exec Q R ε (R q)) O s ↔
      ∀ r s', w s q r s' → O (.ok r) s' := wpe_observe

theorem wpe_outcome {y : Exec Q R ε' α} {O : Except ε (Except ε' α) → S → Prop} :
    wpe w (Exec.outcome y : Exec Q R ε (Except ε' α)) O s ↔
      wpe w y (fun r s' => O (.ok r) s') s := wpe_observe

end Hbird.Interaction
