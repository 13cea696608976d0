import Hbird.Interaction.Handle
import Hbird.Interaction.Tries
import Hbird.Interaction.Unwind
import Hbird.Interaction.World

namespace Hbird.Interaction

variable {Q : Type} {R : Q → Type} {ε ε' α β S : Type}

section Asks

variable {φ ψ : Q → Prop} {P P' : α → Prop} {p : Program Q R α}

/-- Whatever the replies, every query is a `φ`, and a value that the program ends with a `P`. -/
def Asks (φ : Q → Prop) (P : α → Prop) : Program Q R α → Prop
  | .done a => P a
  | .ask q next => φ q ∧ ∀ r, Asks φ P (next r)

theorem asks_perform {q : Q} (h : φ q) : Asks φ (fun _ : R q => True) (Program.perform q) :=
  ⟨h, fun _ => trivial⟩

theorem asks_mono (h : Asks φ P p) (hφ : ∀ q, φ q → ψ q) (hP : ∀ a, P a → P' a) : Asks ψ P' p := by
  induction p with
  | done a => exact hP a h
  | ask q next ih => exact ⟨hφ q h.1, fun r => ih r (h.2 r)⟩

theorem asks_bind {f : α → Program Q R β} {P : β → Prop}
    (h : Asks φ (fun a => Asks φ P (f a)) p) : Asks φ P (p >>= f) := by
  induction p with
  | done a => exact h
  | ask q next ih => exact ⟨h.1, fun r => ih r (h.2 r)⟩

theorem asks_run {t : Trace R} {a : α} (h : Asks φ P p) (hr : Runs p t a) :
    (∀ y ∈ t, φ y.1) ∧ P a := by
  induction hr with
  | done a => exact ⟨fun y hy => absurd hy List.not_mem_nil, h⟩
  | ask _ ih =>
    obtain ⟨hy, ha⟩ := ih (h.2 _)
    exact ⟨List.forall_mem_cons.mpr ⟨h.1, hy⟩, ha⟩

variable {x : Exec Q R ε α} {f : α → Exec Q R ε β} {O : Except ε α → Prop}

theorem asks_exec_bind {O : Except ε β → Prop} (h : Asks φ (fun
    | .ok a => Asks φ O (f a).run
    | .error e => O (.error e)) x.run) : Asks φ O (x >>= f).run := by
  refine asks_bind (p := x.run) (f := ExceptT.bindCont f) (asks_mono h (fun _ hq => hq) fun r hr => ?_)
  cases r <;> exact hr

/-- The first part is asked for a fact of its results only. -/
theorem asks_exec_step {P : α → Prop} {O : Except ε β → Prop}
    (hx : Asks φ (fun r => ∀ a, r = .ok a → P a) x.run) (hf : ∀ a, P a → Asks φ O (f a).run)
    (he : ∀ e, O (.error e)) : Asks φ O (x >>= f).run := by
  refine asks_exec_bind (asks_mono hx (fun _ hq => hq) fun r hr => ?_)
  cases r with
  | ok a => exact hf a (hr a rfl)
  | error e => exact he e

/-- Every query is a `φ`. -/
abbrev Only (φ : Q → Prop) (p : Program Q R α) : Prop := Asks φ (fun _ => True) p

theorem only_bind {x : Exec Q R ε α} {f : α → Exec Q R ε β} (hx : Only φ x.run)
    (hf : ∀ a, Only φ (f a).run) : Only φ (x >>= f).run :=
  asks_exec_step (P := fun _ => True) (asks_mono hx (fun _ hq => hq) fun _ _ _ _ => trivial)
    (fun a _ => hf a) fun _ => trivial

theorem asks_observe {p : Program Q R α} (h : Asks φ (fun a => O (.ok a)) p) :
    Asks φ O (Exec.observe (ε := ε) p).run := asks_bind (p := p) h

theorem asks_context {g : ε' → ε} {y : Exec Q R ε' α} (h : Asks φ (fun r => O (r.mapError g)) y.run) :
    Asks φ O (y.context g).run := by
  have hmap : (y.context g).run = y.run >>= fun r => pure (r.mapError g) := map_eq_pure_bind ..
  rw [hmap]
  exact asks_bind h

end Asks

variable {w : World S R} {G : S → Q → Prop} {s s' : S} {p : Program Q R α} {t : Trace R}
  {P P' : α → S → Prop}

theorem Runs.unique {a b : α} (h : Runs p t a) (h' : Runs p t b) : a = b := by
  induction h with
  | done a => exact (runs_done.mp h').2.symm
  | ask _ ih =>
    obtain ⟨r, t', heq, hn⟩ := runs_ask.mp h'
    obtain ⟨hy, rfl⟩ := List.cons.inj heq
    cases hy
    exact ih hn

/-- The weakest precondition that also has `G` hold of every query in the state that it is put in. -/
def wps (w : World S R) (G : S → Q → Prop) : Program Q R α → (α → S → Prop) → S → Prop
  | .done a, P, s => P a s
  | .ask q next, P, s => G s q ∧ ∀ r s', w s q r s' → wps w G (next r) P s'

theorem wps_mono (h : wps w G p P s) (hP : ∀ a s, P a s → P' a s) : wps w G p P' s := by
  induction p generalizing s with
  | done a => exact hP a s h
  | ask q next ih => exact ⟨h.1, fun r s' hw => ih r (h.2 r s' hw)⟩

theorem wps_bind {f : α → Program Q R β} {P : β → S → Prop} :
    wps w G (p >>= f) P s ↔ wps w G p (fun a s' => wps w G (f a) P s') s := by
  induction p generalizing s with
  | done a => exact Iff.rfl
  | ask q next ih =>
    constructor
    · exact fun h => ⟨h.1, fun r s' hw => (ih r).mp (h.2 r s' hw)⟩
    · exact fun h => ⟨h.1, fun r s' hw => (ih r).mpr (h.2 r s' hw)⟩

theorem wps_run {a : α} (h : wps w G p P s) (hr : Runs p t a) (hl : Leads w s t s') : P a s' := by
  induction hr generalizing s with
  | done a =>
    obtain rfl := leads_nil.mp hl
    exact h
  | ask _ ih =>
    obtain ⟨s₁, hw, hrest⟩ := leads_cons.mp hl
    exact ih (h.2 _ s₁ hw) hrest

/-- What every exchange of such a program keeps up is there in the end. -/
theorem wps_frame {φ : Q → Prop} {A : α → Prop} {I : S → Prop} (hp : Asks φ A p)
    (hG : ∀ s q, φ q → I s → G s q) (hI : ∀ s q r s', φ q → w s q r s' → I s → I s') (hs : I s) :
    wps w G p (fun a s' => A a ∧ I s') s := by
  induction p generalizing s with
  | done a => exact ⟨hp, hs⟩
  | ask q next ih => exact ⟨hG s q hp.1 hs, fun r s' hw => ih r (hp.2 r) (hI s q r s' hp.1 hw hs)⟩

section Exec

variable {x : Exec Q R ε α} {f : α → Exec Q R ε β} {O O' : Except ε α → S → Prop}

/-- The same for programs that may fail. -/
def wpse (w : World S R) (G : S → Q → Prop) (x : Exec Q R ε α) (O : Except ε α → S → Prop) (s : S) :
    Prop := wps w G x.run O s

theorem wpse_mono (h : wpse w G x O s) (hO : ∀ o s, O o s → O' o s) : wpse w G x O' s :=
  wps_mono h hO

theorem wpse_bind {O : Except ε β → S → Prop} (h : wpse w G x (fun
    | .ok a, s' => wpse w G (f a) O s'
    | .error e, s' => O (.error e) s') s) : wpse w G (x >>= f) O s := by
  refine (wps_bind (p := x.run) (f := ExceptT.bindCont f)).mpr (wps_mono h fun r s' hr => ?_)
  cases r <;> exact hr

/-- Part by part: what the first part leaves where it succeeds is enough for the second, and all
that is asked where it fails. -/
theorem wpse_step {P : α → S → Prop} {O : Except ε β → S → Prop}
    (hx : wpse w G x (fun
      | .ok a, s' => P a s'
      | .error e, s' => O (.error e) s') s) (hf : ∀ a s', P a s' → wpse w G (f a) O s') :
    wpse w G (x >>= f) O s := by
  refine wpse_bind (wpse_mono hx fun r s' hr => ?_)
  cases r with
  | ok a => exact hf a s' hr
  | error e => exact hr

/-- A value has `P`, a failure leaves `E`. -/
def Leaves (P : α → S → Prop) (E : S → Prop) : Except ε α → S → Prop
  | .ok a, s => P a s
  | .error _, s => E s

/-- A program that goes on behind a success only. -/
theorem wpse_seq {P : α → S → Prop} {P' : β → S → Prop} {E : S → Prop}
    (hx : wpse w G x (Leaves P E) s) (hf : ∀ a s', P a s' → wpse w G (f a) (Leaves P' E) s') :
    wpse w G (x >>= f) (Leaves P' E) s := by
  refine wpse_step (P := P) (wpse_mono hx fun r s' hr => ?_) hf
  cases r with
  | ok a => exact hr
  | error e => exact hr

theorem leaves_mono {P P' : α → S → Prop} {E E' : S → Prop} (h : wpse w G x (Leaves P E) s)
    (hP : ∀ a s', P a s' → P' a s') (hE : ∀ s', E s' → E' s') : wpse w G x (Leaves P' E') s := by
  refine wpse_mono h fun r s' hr => ?_
  cases r with
  | ok a => exact hP a s' hr
  | error e => exact hE s' hr

theorem wpe_context {g : ε' → ε} {y : Exec Q R ε' α} :
    wpe w (y.context g) O s ↔ wpe w y (fun r s' => O (r.mapError g) s') s := by
  have hmap : (y.context g).run = y.run >>= fun r => pure (r.mapError g) := map_eq_pure_bind ..
  rw [wpe, hmap, wp_bind]
  exact Iff.rfl

theorem wpse_observe {p : Program Q R α} (h : wps w G p (fun a s' => O (.ok a) s') s) :
    wpse w G (Exec.observe p : Exec Q R ε α) O s := wps_bind.mpr h

theorem wpse_outcome {y : Exec Q R ε' α} {O : Except ε (Except ε' α) → S → Prop}
    (h : wpse w G y (fun r s' => O (.ok r) s') s) :
    wpse w G (Exec.outcome y : Exec Q R ε (Except ε' α)) O s := wpse_observe h

theorem wpse_context {g : ε' → ε} {y : Exec Q R ε' α}
    (h : wpse w G y (fun r s' => O (r.mapError g) s') s) : wpse w G (y.context g) O s := by
  have hmap : (y.context g).run = y.run >>= fun r => pure (r.mapError g) := map_eq_pure_bind ..
  rw [wpse, hmap]
  exact wps_bind.mpr h

theorem wpse_frame {φ : Q → Prop} {A : Except ε α → Prop} {I : S → Prop} (hx : Asks φ A x.run)
    (hG : ∀ s q, φ q → I s → G s q) (hI : ∀ s q r s', φ q → w s q r s' → I s → I s') (hs : I s) :
    wpse w G x (fun o s' => A o ∧ I s') s := wps_frame hx hG hI hs

end Exec

section Tries

variable {x : Exec Q R ε α} {P : α → S → Prop} {I : S → Prop}

/-- A probe that leaves `I` where it misses can be repeated. -/
theorem wpe_tries (hx : ∀ s, I s → wpe w x (Leaves P I) s) (n : Nat) (seen : ε) (hs : I s) :
    wpe w (tries x n seen) (Leaves P I) s := by
  induction n generalizing s seen with
  | zero => exact hs
  | succ n ih =>
    refine wpe_bind.mpr (wpe_outcome.mpr (wpe_mono (hx s hs) fun r s' hr => ?_))
    cases r with
    | ok a => exact hr
    | error b => exact ih b hr

end Tries

section Through

variable {Q' : Type} {R' : Q' → Type} {h : (q : Q) → Program Q' R' (R q)} {w : World S R'}

/-- The surroundings of a program whose queries a handler carries out. -/
def World.through (w : World S R') (h : (q : Q) → Program Q' R' (R q)) : World S R :=
  fun s q r s' => ∃ t, Runs (h q) t r ∧ Leads w s t s'

theorem wp_handle {P : α → S → Prop} : wp w (p.handle h) P s ↔ wp (w.through h) p P s := by
  induction p generalizing s with
  | done a => exact Iff.rfl
  | ask q next ih =>
    rw [Program.handle, wp_bind, wp_iff]
    constructor
    · rintro hp r s' ⟨t, hr, hl⟩
      exact ih r |>.mp (hp t r s' hr hl)
    · intro hp t r s' hr hl
      exact (ih r).mpr (hp r s' ⟨t, hr, hl⟩)

end Through

section Recorded

/-- The surroundings with a record of what has been exchanged. -/
def World.recorded (w : World S R) : World (S × Trace R) R :=
  fun s q r s' => w s.1 q r s'.1 ∧ s'.2 = s.2 ++ [⟨q, r⟩]

theorem leads_recorded {c c' : S × Trace R} :
    Leads w.recorded c t c' ↔ Leads w c.1 t c'.1 ∧ c'.2 = c.2 ++ t := by
  induction t generalizing c with
  | nil =>
    rw [leads_nil, leads_nil, List.append_nil]
    exact Prod.ext_iff
  | cons y t ih =>
    rw [leads_cons, leads_cons]
    constructor
    · rintro ⟨c₁, ⟨hw, hu⟩, ht⟩
      obtain ⟨hl, hu'⟩ := ih.mp ht
      exact ⟨⟨c₁.1, hw, hl⟩, by rw [hu', hu, List.append_assoc, List.singleton_append]⟩
    · rintro ⟨⟨s₁, hw, hl⟩, hu⟩
      exact ⟨(s₁, c.2 ++ [y]), ⟨hw, rfl⟩, ih.mpr ⟨hl, by rw [hu, List.append_assoc, List.singleton_append]⟩⟩

end Recorded

end Hbird.Interaction
