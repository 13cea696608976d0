import Hbird.Interaction.Exec

namespace Hbird.Interaction

variable {Q Q' : Type} {R : Q → Type} {R' : Q' → Type} {α β : Type}

namespace Program

/-- Carry out every query of a program by a program of the level below. -/
def handle (h : (q : Q) → Program Q' R' (R q)) : Program Q R α → Program Q' R' α
  | .done a => .done a
  | .ask q next => h q >>= fun r => (next r).handle h

end Program

/-- `Carries h t t'`: the lower trace `t'` is the runs of the handler on the exchanges
of `t`, one after the other. -/
inductive Carries (h : (q : Q) → Program Q' R' (R q)) : Trace R → Trace R' → Prop
  | nil : Carries h [] []
  | cons {q : Q} {r : R q} {t : Trace R} {u v : Trace R'} (hq : Runs (h q) u r)
      (ht : Carries h t v) : Carries h (⟨q, r⟩ :: t) (u ++ v)

variable {h : (q : Q) → Program Q' R' (R q)}

theorem Carries.append {s t : Trace R} {u v : Trace R'} (hs : Carries h s u)
    (ht : Carries h t v) : Carries h (s ++ t) (u ++ v) := by
  induction hs with
  | nil => exact ht
  | cons hq _ ih => rw [List.append_assoc]; exact .cons hq ih

theorem carries_cons {q : Q} {r : R q} {t : Trace R} {w : Trace R'} :
    Carries h (⟨q, r⟩ :: t) w ↔ ∃ u v, w = u ++ v ∧ Runs (h q) u r ∧ Carries h t v := by
  constructor
  · rintro ⟨⟩
    exact ⟨_, _, rfl, by assumption, by assumption⟩
  · rintro ⟨u, v, rfl, hq, ht⟩
    exact .cons hq ht

theorem carries_nil {w : Trace R'} : Carries h [] w ↔ w = [] := by
  constructor
  · rintro ⟨⟩
    rfl
  · rintro rfl
    exact .nil

theorem carries_append {s t : Trace R} {w : Trace R'} :
    Carries h (s ++ t) w ↔ ∃ u v, w = u ++ v ∧ Carries h s u ∧ Carries h t v := by
  constructor
  · intro hw
    induction s generalizing w with
    | nil => exact ⟨[], w, rfl, .nil, hw⟩
    | cons x s ih =>
      obtain ⟨u, v, rfl, hq, ht⟩ := carries_cons.mp hw
      obtain ⟨u', v', rfl, hs, ht'⟩ := ih ht
      exact ⟨u ++ u', v', (List.append_assoc ..).symm, .cons hq hs, ht'⟩
  · rintro ⟨u, v, rfl, hs, ht⟩
    exact hs.append ht

/-- A run of the handled program is a run of the program together with runs of the
handler for its exchanges, and nothing else. -/
theorem runs_handle {p : Program Q R α} {w : Trace R'} {a : α} :
    Runs (p.handle h) w a ↔ ∃ t, Runs p t a ∧ Carries h t w := by
  induction p generalizing w with
  | done b =>
    simp only [Program.handle, runs_done]
    constructor
    · rintro ⟨rfl, rfl⟩
      exact ⟨[], ⟨rfl, rfl⟩, .nil⟩
    · rintro ⟨t, ⟨rfl, rfl⟩, ht⟩
      exact ⟨carries_nil.mp ht, rfl⟩
  | ask q next ih =>
    rw [Program.handle, runs_bind]
    constructor
    · rintro ⟨r, u, v, rfl, hq, hv⟩
      obtain ⟨t, ht, hc⟩ := (ih r).mp hv
      exact ⟨⟨q, r⟩ :: t, .ask ht, .cons hq hc⟩
    · rintro ⟨t, ht, hc⟩
      obtain ⟨r, t', rfl, hn⟩ := runs_ask.mp ht
      obtain ⟨u, v, rfl, hq, hv⟩ := carries_cons.mp hc
      exact ⟨r, u, v, rfl, hq, (ih r).mpr ⟨t', hn, hv⟩⟩

/-- A lower exchange belongs to the run of the handler on one upper exchange; what is
carried out before it is the upper trace before that one, and so for what comes after. -/
theorem Carries.split {t : Trace R} {p s : Trace R'} {y : Exchange R'}
    (hc : Carries h t (p ++ y :: s)) :
    ∃ (s₁ s₂ : Trace R) (q : Q) (r : R q) (u v w z : Trace R'),
      t = s₁ ++ ⟨q, r⟩ :: s₂ ∧ p = u ++ v ∧ s = w ++ z ∧ Carries h s₁ u ∧
        Runs (h q) (v ++ y :: w) r ∧ Carries h s₂ z := by
  generalize hz : p ++ y :: s = z at hc
  induction hc generalizing p with
  | nil => simp at hz
  | @cons q r t u v hq ht ih =>
    obtain ⟨w, rfl, hw⟩ | ⟨w, rfl, hw⟩ := List.append_eq_append_iff.mp hz
    · cases w with
      | nil =>
        obtain ⟨s₁, s₂, q', r', u', v', w', z', rfl, hp, rfl, hs, hr, hrest⟩ := ih (p := []) hw
        obtain ⟨rfl, rfl⟩ := List.append_eq_nil_iff.mp hp.symm
        exact ⟨⟨q, r⟩ :: s₁, s₂, q', r', p ++ [], [], w', z', rfl, by simp, rfl,
          .cons (by simpa using hq) hs, hr, hrest⟩
      | cons x w =>
        obtain ⟨rfl, rfl⟩ := List.cons.inj hw
        exact ⟨[], t, q, r, [], p, w, v, rfl, rfl, rfl, .nil, hq, ht⟩
    · obtain ⟨s₁, s₂, q', r', u', v', w', z', rfl, rfl, rfl, hs, hr, hrest⟩ := ih hw.symm
      exact ⟨⟨q, r⟩ :: s₁, s₂, q', r', u ++ u', v', w', z', rfl, (List.append_assoc ..).symm, rfl,
        .cons hq hs, hr, hrest⟩

theorem Carries.exists_of_mem {t : Trace R} {w : Trace R'} (hc : Carries h t w) {y : Exchange R'}
    (hy : y ∈ w) : ∃ x ∈ t, ∃ u, Runs (h x.1) u x.2 ∧ y ∈ u := by
  obtain ⟨p, s, rfl⟩ := List.append_of_mem hy
  obtain ⟨s₁, s₂, q, r, u, v, w, z, rfl, -, -, -, hr, -⟩ := hc.split
  exact ⟨⟨q, r⟩, by simp, v ++ y :: w, hr, by simp⟩

theorem Carries.runs_of_mem {t : Trace R} {w : Trace R'} (hc : Carries h t w) {x : Exchange R}
    (hx : x ∈ t) : ∃ u, Runs (h x.1) u x.2 ∧ ∀ y ∈ u, y ∈ w := by
  obtain ⟨s₁, s₂, rfl⟩ := List.append_of_mem hx
  obtain ⟨u, v, rfl, -, hv⟩ := carries_append.mp hc
  obtain ⟨a, b, rfl, ha, -⟩ := carries_cons.mp hv
  exact ⟨a, ha, fun y hy => by simp [hy]⟩

section Laws

variable {ε ε' : Type}

theorem handle_bind (p : Program Q R α) (f : α → Program Q R β) :
    (p >>= f).handle h = p.handle h >>= fun a => (f a).handle h := by
  induction p with
  | done a => rfl
  | ask q next ih =>
    rw [Program.handle, Program.bind_assoc]
    exact congrArg (h q >>= ·) (funext ih)

theorem handle_perform (q : Q) : (Program.perform q : Program Q R (R q)).handle h = h q :=
  Program.bind_done _

theorem handle_map (p : Program Q R α) (f : α → β) : (f <$> p).handle h = f <$> p.handle h := by
  rw [map_eq_pure_bind, map_eq_pure_bind, handle_bind]
  rfl

/-- The same for programs that may fail. -/
def Exec.handle {ε : Type} (h : (q : Q) → Program Q' R' (R q)) (x : Exec Q R ε α) :
    Exec Q' R' ε α := ExceptT.mk (x.run.handle h)

theorem Exec.handle_bind (x : Exec Q R ε α) (f : α → Exec Q R ε β) :
    Exec.handle h (x >>= f) = Exec.handle h x >>= fun a => Exec.handle h (f a) := by
  refine ExceptT.ext ((Hbird.Interaction.handle_bind x.run (ExceptT.bindCont f)).trans ?_)
  refine congrArg (x.run.handle h >>= ·) (funext fun r => ?_)
  cases r with
  | ok a => rfl
  | error e => rfl

theorem Exec.handle_observe (p : Program Q R α) :
    Exec.handle h (Exec.observe p : Exec Q R ε α) = Exec.observe (p.handle h) :=
  ExceptT.ext (handle_map p Except.ok)

theorem Exec.handle_outcome (x : Exec Q R ε α) :
    Exec.handle h (Exec.outcome x : Exec Q R ε' (Except ε α)) =
      Exec.outcome (Exec.handle h x) := Exec.handle_observe x.run

theorem Exec.handle_context (x : Exec Q R ε α) (g : ε → ε') :
    Exec.handle h (x.context g) = (Exec.handle h x).context g :=
  ExceptT.ext (handle_map x.run (Except.mapError g))

end Laws

end Hbird.Interaction
