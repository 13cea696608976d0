import Hbird.Interaction.Program

namespace Hbird.Interaction

variable {Q : Type} {R : Q → Type} {ε ε' α β γ σ : Type}

/-- A program that may fail. -/
abbrev Exec (Q : Type) (R : Q → Type) (ε α : Type) := ExceptT ε (Program Q R) α

def Finishes (x : Exec Q R ε α) (t : Trace R) (o : Except ε α) : Prop := Runs x.run t o

theorem finishes_of_play {x : Exec Q R ε α} (answer : Nat → (q : Q) → R q) {t : Trace R}
    {o : Except ε α} (h : play answer 0 x.run = (t, o)) : Finishes x t o := by
  have hr := runs_play answer 0 x.run
  rwa [h] at hr

namespace Exec

/-- Run a program that cannot fail inside one that can. -/
def observe (p : Program Q R α) : Exec Q R ε α := ExceptT.lift p

/-- Take the outcome of `x` as a value, so that its failure can be looked at. -/
def outcome (x : Exec Q R ε α) : Exec Q R ε' (Except ε α) := observe x.run

/-- Reword the error of `x`. -/
def context (g : ε → ε') (x : Exec Q R ε α) : Exec Q R ε' α :=
  ExceptT.mk (Except.mapError g <$> x.run)

end Exec

theorem finishes_pure {a : α} {t : Trace R} {o : Except ε α} :
    Finishes (pure a : Exec Q R ε α) t o ↔ t = [] ∧ o = .ok a := runs_done

theorem finishes_throw {e : ε} {t : Trace R} {o : Except ε α} :
    Finishes (throw e : Exec Q R ε α) t o ↔ t = [] ∧ o = .error e := runs_done

theorem finishes_observe {p : Program Q R α} {t : Trace R} {o : Except ε α} :
    Finishes (Exec.observe p : Exec Q R ε α) t o ↔ ∃ a, o = .ok a ∧ Runs p t a := runs_map

theorem finishes_outcome {x : Exec Q R ε α} {t : Trace R} {o : Except ε' (Except ε α)} :
    Finishes (Exec.outcome x : Exec Q R ε' (Except ε α)) t o ↔
      ∃ r, o = .ok r ∧ Finishes x t r := finishes_observe

theorem finishes_context {g : ε → ε'} {x : Exec Q R ε α} {t : Trace R} {o : Except ε' α} :
    Finishes (x.context g) t o ↔ ∃ r, o = r.mapError g ∧ Finishes x t r := runs_map

theorem finishes_context_ok {g : ε → ε'} {x : Exec Q R ε α} {t : Trace R} {a : α} :
    Finishes (x.context g) t (.ok a) ↔ Finishes x t (.ok a) := by
  rw [finishes_context]
  constructor
  · rintro ⟨r, hr, h⟩
    cases r with
    | ok b =>
      cases hr
      exact h
    | error e => cases hr
  · intro h
    exact ⟨.ok a, rfl, h⟩

theorem finishes_bind {x : Exec Q R ε α} {f : α → Exec Q R ε β} {t : Trace R} {o : Except ε β} :
    Finishes (x >>= f) t o ↔
      (∃ e, o = .error e ∧ Finishes x t (.error e)) ∨
        ∃ a t₁ t₂, t = t₁ ++ t₂ ∧ Finishes x t₁ (.ok a) ∧ Finishes (f a) t₂ o := by
  have hx : Finishes (x >>= f) t o ↔ Runs (x.run >>= ExceptT.bindCont f) t o := Iff.rfl
  rw [hx, runs_bind]
  constructor
  · rintro ⟨r, t₁, t₂, rfl, h₁, h₂⟩
    cases r with
    | ok a => exact .inr ⟨a, t₁, t₂, rfl, h₁, h₂⟩
    | error e =>
      obtain ⟨rfl, rfl⟩ := runs_done.mp h₂
      exact .inl ⟨e, rfl, by rwa [List.append_nil]⟩
  · rintro (⟨e, rfl, h⟩ | ⟨a, t₁, t₂, rfl, h₁, h₂⟩)
    · exact ⟨.error e, t, [], (List.append_nil t).symm, h, .done _⟩
    · exact ⟨.ok a, t₁, t₂, rfl, h₁, h₂⟩

theorem finishes_bind_ok {x : Exec Q R ε α} {f : α → Exec Q R ε β} {t : Trace R} {b : β} :
    Finishes (x >>= f) t (.ok b) ↔
      ∃ a t₁ t₂, t = t₁ ++ t₂ ∧ Finishes x t₁ (.ok a) ∧ Finishes (f a) t₂ (.ok b) := by
  rw [finishes_bind]
  constructor
  · rintro (⟨e, he, -⟩ | h)
    · cases he
    · exact h
  · exact .inr

theorem finishes_observe_bind {p : Program Q R α} {f : α → Exec Q R ε β} {t : Trace R}
    {o : Except ε β} :
    Finishes (Exec.observe p >>= f) t o ↔
      ∃ a t₁ t₂, t = t₁ ++ t₂ ∧ Runs p t₁ a ∧ Finishes (f a) t₂ o := by
  rw [finishes_bind]
  constructor
  · rintro (⟨e, rfl, h⟩ | ⟨a, t₁, t₂, rfl, h₁, h₂⟩)
    · obtain ⟨a, ha, -⟩ := finishes_observe.mp h
      cases ha
    · obtain ⟨a', ha, h⟩ := finishes_observe.mp h₁
      cases ha
      exact ⟨a, t₁, t₂, rfl, h, h₂⟩
  · rintro ⟨a, t₁, t₂, rfl, h₁, h₂⟩
    exact .inr ⟨a, t₁, t₂, rfl, finishes_observe.mpr ⟨a, rfl, h₁⟩, h₂⟩

theorem finishes_outcome_bind {x : Exec Q R ε α} {f : Except ε α → Exec Q R ε' β} {t : Trace R}
    {o : Except ε' β} :
    Finishes (Exec.outcome x >>= f) t o ↔
      ∃ r t₁ t₂, t = t₁ ++ t₂ ∧ Finishes x t₁ r ∧ Finishes (f r) t₂ o := finishes_observe_bind

theorem puts_observe {φ : Q → Prop} {p : Program Q R α} (hp : Puts φ p) :
    Puts φ (Exec.observe (ε := ε) p).run := by
  intro t o h
  obtain ⟨a, -, ha⟩ := finishes_observe.mp h
  exact hp t a ha

theorem puts_outcome {φ : Q → Prop} {x : Exec Q R ε α} (hx : Puts φ x.run) :
    Puts φ (Exec.outcome x : Exec Q R ε' (Except ε α)).run := puts_observe hx

theorem puts_context {φ : Q → Prop} {x : Exec Q R ε α} {g : ε → ε'} (hx : Puts φ x.run) :
    Puts φ (x.context g).run := by
  intro t o h
  obtain ⟨r, -, hr⟩ := finishes_context.mp h
  exact hx t r hr

theorem puts_exec_bind {φ : Q → Prop} {x : Exec Q R ε α} {f : α → Exec Q R ε β}
    (hx : Puts φ x.run) (hf : ∀ a, Puts φ (f a).run) : Puts φ (x >>= f).run := by
  intro t o h
  obtain ⟨e, -, he⟩ | ⟨a, t₁, t₂, rfl, h₁, h₂⟩ := finishes_bind.mp h
  · exact hx t _ he
  · intro y hy
    obtain hy | hy := List.mem_append.mp hy
    · exact hx t₁ _ h₁ y hy
    · exact hf a t₂ _ h₂ y hy

namespace Program

/-- Every query of `p` carries the record. -/
def tag (s : σ) : Program Q R α → Program (σ × Q) (fun x => R x.2) α
  | .done a => .done a
  | .ask q next => .ask (s, q) fun r => (next r).tag s

def untag : Program (σ × Q) (fun x => R x.2) α → Program Q R α
  | .done a => .done a
  | .ask x next => .ask x.2 fun r => (next r).untag

@[simp] theorem untag_tag (s : σ) (p : Program Q R α) : (p.tag s).untag = p := by
  induction p with
  | done a => rfl
  | ask q next ih => exact congrArg (ask q) (funext ih)

theorem untag_bind (p : Program (σ × Q) (fun x => R x.2) α)
    (f : α → Program (σ × Q) (fun x => R x.2) β) :
    (p >>= f).untag = p.untag >>= fun a => (f a).untag := by
  induction p with
  | done a => rfl
  | ask x next ih => exact congrArg (ask x.2) (funext ih)

end Program

/-- A program that may fail and owns a record of type `σ`, which is still there when
it does: what a destructor sees on the way out. Each query carries the record that it finds. -/
def Guarded (Q : Type) (R : Q → Type) (σ ε α : Type) :=
  σ → Program (σ × Q) (fun x => R x.2) (Except ε α × σ)

namespace Guarded

instance : Monad (Guarded Q R σ ε) where
  pure a := fun s => .done (.ok a, s)
  bind x f := fun s => x s >>= fun
    | (.ok a, s') => f a s'
    | (.error e, s') => .done (.error e, s')

def fail (e : ε) : Guarded Q R σ ε α := fun s => .done (.error e, s)

def call (x : Exec Q R ε α) : Guarded Q R σ ε α := fun s => (fun r => (r, s)) <$> x.run.tag s

def modify (g : σ → σ) : Guarded Q R σ ε Unit := fun s => .done (.ok (), g s)

end Guarded

namespace Guarded

theorem pure_bind (a : α) (f : α → Guarded Q R σ ε β) : (pure a >>= f) = f a := rfl

theorem bind_assoc (x : Guarded Q R σ ε α) (f : α → Guarded Q R σ ε β)
    (g : β → Guarded Q R σ ε γ) : (x >>= f >>= g) = (x >>= fun a => f a >>= g) := by
  funext s
  refine (Program.bind_assoc _ _ _).trans (congrArg (x s >>= ·) (funext ?_))
  rintro ⟨r, s'⟩
  cases r with
  | ok a => rfl
  | error e => rfl

theorem bind_pure (x : Guarded Q R σ ε α) : (x >>= pure) = x := by
  funext s
  refine (congrArg (x s >>= ·) (funext ?_)).trans (Program.bind_done (x s))
  rintro ⟨r, s'⟩
  cases r with
  | ok a => rfl
  | error e => rfl

end Guarded

/-- `Ends x s t o s'`: from the record `s`, `x` runs with trace `t` to the outcome `o`
and leaves the record `s'`. -/
def Ends (x : Guarded Q R σ ε α) (s : σ) (t : Trace R) (o : Except ε α) (s' : σ) : Prop :=
  Runs (x s).untag t (o, s')

theorem ends_pure {a : α} {s s' : σ} {t : Trace R} {o : Except ε α} :
    Ends (pure a : Guarded Q R σ ε α) s t o s' ↔ t = [] ∧ o = .ok a ∧ s' = s :=
  runs_done.trans (by rw [Prod.mk.injEq])

theorem ends_fail {e : ε} {s s' : σ} {t : Trace R} {o : Except ε α} :
    Ends (Guarded.fail e : Guarded Q R σ ε α) s t o s' ↔ t = [] ∧ o = .error e ∧ s' = s :=
  runs_done.trans (by rw [Prod.mk.injEq])

theorem ends_modify {g : σ → σ} {s s' : σ} {t : Trace R} {o : Except ε Unit} :
    Ends (Guarded.modify g : Guarded Q R σ ε Unit) s t o s' ↔ t = [] ∧ o = .ok () ∧ s' = g s :=
  runs_done.trans (by rw [Prod.mk.injEq])

theorem ends_call {x : Exec Q R ε α} {s s' : σ} {t : Trace R} {o : Except ε α} :
    Ends (Guarded.call x : Guarded Q R σ ε α) s t o s' ↔ s' = s ∧ Finishes x t o := by
  have huntag : (Guarded.call x s).untag = (fun r => (r, s)) <$> x.run := by
    rw [Guarded.call, map_eq_pure_bind, Program.untag_bind, Program.untag_tag, map_eq_pure_bind]
    rfl
  rw [Ends, huntag, runs_map]
  constructor
  · rintro ⟨r, hr, h⟩
    obtain ⟨rfl, rfl⟩ := Prod.mk.inj hr
    exact ⟨rfl, h⟩
  · rintro ⟨rfl, h⟩
    exact ⟨o, rfl, h⟩

theorem ends_bind {x : Guarded Q R σ ε α} {f : α → Guarded Q R σ ε β} {s s' : σ} {t : Trace R}
    {o : Except ε β} :
    Ends (x >>= f) s t o s' ↔
      (∃ e, o = .error e ∧ Ends x s t (.error e) s') ∨
        ∃ a s₁ t₁ t₂, t = t₁ ++ t₂ ∧ Ends x s t₁ (.ok a) s₁ ∧ Ends (f a) s₁ t₂ o s' := by
  have huntag : ((x >>= f) s).untag = _ := Program.untag_bind (x s) _
  rw [Ends, huntag, runs_bind]
  constructor
  · rintro ⟨⟨r, s₁⟩, t₁, t₂, rfl, h₁, h₂⟩
    cases r with
    | ok a => exact .inr ⟨a, s₁, t₁, t₂, rfl, h₁, h₂⟩
    | error e =>
      obtain ⟨rfl, he⟩ := runs_done.mp h₂
      obtain ⟨rfl, rfl⟩ := Prod.mk.inj he
      exact .inl ⟨e, rfl, by rwa [List.append_nil]⟩
  · rintro (⟨e, rfl, h⟩ | ⟨a, s₁, t₁, t₂, rfl, h₁, h₂⟩)
    · exact ⟨(.error e, s'), t, [], (List.append_nil t).symm, h, .done _⟩
    · exact ⟨(.ok a, s₁), t₁, t₂, rfl, h₁, h₂⟩

theorem ends_modify_bind {g : σ → σ} {f : Unit → Guarded Q R σ ε β} {s s' : σ} {t : Trace R}
    {o : Except ε β} :
    Ends (Guarded.modify g >>= f) s t o s' ↔ Ends (f ()) (g s) t o s' := Iff.rfl

theorem ends_call_bind {x : Exec Q R ε α} {f : α → Guarded Q R σ ε β} {s s' : σ} {t : Trace R}
    {o : Except ε β} :
    Ends (Guarded.call x >>= f) s t o s' ↔
      (∃ e, o = .error e ∧ s' = s ∧ Finishes x t (.error e)) ∨
        ∃ a t₁ t₂, t = t₁ ++ t₂ ∧ Finishes x t₁ (.ok a) ∧ Ends (f a) s t₂ o s' := by
  rw [ends_bind]
  constructor
  · rintro (⟨e, rfl, h⟩ | ⟨a, s₁, t₁, t₂, rfl, h₁, h₂⟩)
    · exact .inl ⟨e, rfl, ends_call.mp h⟩
    · obtain ⟨rfl, h⟩ := ends_call.mp h₁
      exact .inr ⟨a, t₁, t₂, rfl, h, h₂⟩
  · rintro (⟨e, rfl, h⟩ | ⟨a, t₁, t₂, rfl, h₁, h₂⟩)
    · exact .inl ⟨e, rfl, ends_call.mpr h⟩
    · exact .inr ⟨a, s, t₁, t₂, rfl, ends_call.mpr ⟨rfl, h₁⟩, h₂⟩

section Stays

variable {φ : Q → Prop}

/-- However it ends, all its queries are such ones. -/
def Stays (φ : Q → Prop) (x : Guarded Q R σ ε α) : Prop := ∀ s, Puts φ (x s).untag

theorem stays_pure (a : α) : Stays φ (pure a : Guarded Q R σ ε α) := fun _ => puts_done φ _

theorem stays_fail (e : ε) : Stays φ (Guarded.fail e : Guarded Q R σ ε α) := fun _ => puts_done φ _

theorem stays_modify (g : σ → σ) : Stays φ (Guarded.modify g : Guarded Q R σ ε Unit) :=
  fun _ => puts_done φ _

theorem stays_call {x : Exec Q R ε α} (hx : Puts φ x.run) :
    Stays φ (Guarded.call x : Guarded Q R σ ε α) := by
  rintro s t ⟨o, s'⟩ h
  obtain ⟨-, hrun⟩ := ends_call.mp h
  exact hx t o hrun

theorem Stays.bind {x : Guarded Q R σ ε α} {f : α → Guarded Q R σ ε β} (hx : Stays φ x)
    (hf : ∀ a, Stays φ (f a)) : Stays φ (x >>= f) := by
  rintro s t ⟨o, s'⟩ h
  obtain ⟨e, -, he⟩ | ⟨a, s₁, t₁, t₂, rfl, h₁, h₂⟩ := ends_bind.mp h
  · exact hx s t _ he
  · exact List.forall_mem_append.mpr ⟨hx s t₁ _ h₁, hf a s₁ t₂ _ h₂⟩

end Stays

end Hbird.Interaction
