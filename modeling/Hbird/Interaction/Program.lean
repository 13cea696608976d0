import Mathlib

namespace Hbird.Interaction

/-- A program that talks to its surroundings: it ends with a value, or puts a
query and goes on with whatever reply comes back. -/
inductive Program (Q : Type) (R : Q → Type) (α : Type) : Type
  | done (value : α)
  | ask (query : Q) (next : R query → Program Q R α)

variable {Q : Type} {R : Q → Type} {α β γ : Type}

abbrev Exchange (R : Q → Type) := (query : Q) × R query

abbrev Trace (R : Q → Type) := List (Exchange R)

namespace Program

def bind : Program Q R α → (α → Program Q R β) → Program Q R β
  | .done a, f => f a
  | .ask q next, f => .ask q (fun r => (next r).bind f)

instance : Monad (Program Q R) where
  pure := .done
  bind := bind

def perform (q : Q) : Program Q R (R q) := .ask q .done

@[simp] theorem pure_def (a : α) : (pure a : Program Q R α) = .done a := rfl

@[simp] theorem done_bind (a : α) (f : α → Program Q R β) : (done a >>= f) = f a := rfl

@[simp] theorem ask_bind (q : Q) (next : R q → Program Q R α) (f : α → Program Q R β) :
    (ask q next >>= f) = .ask q (fun r => next r >>= f) := rfl

@[simp] theorem perform_bind (q : Q) (f : R q → Program Q R β) :
    (perform q >>= f) = .ask q f := rfl

theorem bind_done (p : Program Q R α) : (p >>= done) = p := by
  induction p with
  | done a => rfl
  | ask q next ih => exact congrArg (ask q) (funext ih)

theorem bind_assoc (p : Program Q R α) (f : α → Program Q R β) (g : β → Program Q R γ) :
    (p >>= f >>= g) = (p >>= fun a => f a >>= g) := by
  induction p with
  | done a => rfl
  | ask q next ih => exact congrArg (ask q) (funext ih)

instance : LawfulMonad (Program Q R) :=
  LawfulMonad.mk' (Program Q R) bind_done (fun _ _ => rfl) bind_assoc

end Program

/-- `Runs p t a`: against surroundings that reply as the trace `t` records, the
program `p` puts exactly the queries of `t` and ends with `a`. -/
inductive Runs : Program Q R α → Trace R → α → Prop
  | done (a : α) : Runs (.done a) [] a
  | ask {q : Q} {next : R q → Program Q R α} {r : R q} {t : Trace R} {a : α}
      (h : Runs (next r) t a) : Runs (.ask q next) (⟨q, r⟩ :: t) a

@[simp] theorem runs_done {a b : α} {t : Trace R} :
    Runs (.done a) t b ↔ t = [] ∧ b = a := by
  constructor
  · rintro ⟨⟩
    exact ⟨rfl, rfl⟩
  · rintro ⟨rfl, rfl⟩
    exact .done _

@[simp] theorem runs_pure {a b : α} {t : Trace R} :
    Runs (pure a : Program Q R α) t b ↔ t = [] ∧ b = a := runs_done

theorem runs_ask {q : Q} {next : R q → Program Q R α} {t : Trace R} {a : α} :
    Runs (.ask q next) t a ↔ ∃ r t', t = ⟨q, r⟩ :: t' ∧ Runs (next r) t' a := by
  constructor
  · rintro ⟨⟩
    exact ⟨_, _, rfl, by assumption⟩
  · rintro ⟨r, t', rfl, h⟩
    exact .ask h

theorem runs_perform {q : Q} {r : R q} {t : Trace R} :
    Runs (Program.perform q) t r ↔ t = [⟨q, r⟩] := by
  rw [Program.perform, runs_ask]
  constructor
  · rintro ⟨r', t', rfl, h⟩
    obtain ⟨rfl, rfl⟩ := runs_done.mp h
    rfl
  · rintro rfl
    exact ⟨r, [], rfl, .done r⟩

theorem runs_bind {p : Program Q R α} {f : α → Program Q R β} {t : Trace R} {b : β} :
    Runs (p >>= f) t b ↔ ∃ a t₁ t₂, t = t₁ ++ t₂ ∧ Runs p t₁ a ∧ Runs (f a) t₂ b := by
  induction p generalizing t with
  | done a =>
    constructor
    · intro h
      exact ⟨a, [], t, rfl, .done a, h⟩
    · rintro ⟨a', t₁, t₂, rfl, h₁, h₂⟩
      obtain ⟨rfl, rfl⟩ := runs_done.mp h₁
      exact h₂
  | ask q next ih =>
    rw [Program.ask_bind, runs_ask]
    constructor
    · rintro ⟨r, t', rfl, h⟩
      obtain ⟨a, t₁, t₂, rfl, h₁, h₂⟩ := (ih r).mp h
      exact ⟨a, ⟨q, r⟩ :: t₁, t₂, rfl, .ask h₁, h₂⟩
    · rintro ⟨a, t₁, t₂, rfl, h₁, h₂⟩
      obtain ⟨r, t', rfl, h⟩ := runs_ask.mp h₁
      exact ⟨r, t' ++ t₂, rfl, (ih r).mpr ⟨a, t', t₂, rfl, h, h₂⟩⟩

theorem Runs.bind {p : Program Q R α} {f : α → Program Q R β} {t₁ t₂ : Trace R} {a : α} {b : β}
    (h₁ : Runs p t₁ a) (h₂ : Runs (f a) t₂ b) : Runs (p >>= f) (t₁ ++ t₂) b :=
  runs_bind.mpr ⟨a, t₁, t₂, rfl, h₁, h₂⟩

theorem runs_map {p : Program Q R α} {f : α → β} {t : Trace R} {b : β} :
    Runs (f <$> p) t b ↔ ∃ a, b = f a ∧ Runs p t a := by
  rw [map_eq_pure_bind, runs_bind]
  constructor
  · rintro ⟨a, t₁, t₂, rfl, h₁, h₂⟩
    obtain ⟨rfl, rfl⟩ := runs_pure.mp h₂
    exact ⟨a, rfl, by rwa [List.append_nil]⟩
  · rintro ⟨a, rfl, h⟩
    exact ⟨a, t, [], (List.append_nil t).symm, h, runs_pure.mpr ⟨rfl, rfl⟩⟩

/-- Play a program against surroundings that answer the `n`-th query by
`answer n`. This is how a run on concrete replies is computed. -/
def play (answer : Nat → (q : Q) → R q) : Nat → Program Q R α → Trace R × α
  | _, .done a => ([], a)
  | n, .ask q next =>
    let rest := play answer (n + 1) (next (answer n q))
    (⟨q, answer n q⟩ :: rest.1, rest.2)

theorem runs_play (answer : Nat → (q : Q) → R q) (n : Nat) (p : Program Q R α) :
    Runs p (play answer n p).1 (play answer n p).2 := by
  induction p generalizing n with
  | done a => exact .done a
  | ask q next ih => exact .ask (ih (answer n q) (n + 1))

/-- Against surroundings that answer every query in one way, the program has a run. -/
theorem exists_runs (answer : (q : Q) → R q) (p : Program Q R α) :
    ∃ t a, Runs p t a ∧ ∀ x ∈ t, x.2 = answer x.1 := by
  induction p with
  | done a => exact ⟨[], a, .done a, by simp⟩
  | ask q next ih =>
    obtain ⟨t, a, h, ht⟩ := ih (answer q)
    exact ⟨⟨q, answer q⟩ :: t, a, .ask h, List.forall_mem_cons.mpr ⟨rfl, ht⟩⟩

/-- Every query the program can put, in whatever run, satisfies `φ`. -/
def Puts (φ : Q → Prop) (p : Program Q R α) : Prop :=
  ∀ t a, Runs p t a → ∀ x ∈ t, φ x.1

theorem puts_done (φ : Q → Prop) (a : α) : Puts φ (.done a : Program Q R α) := by
  intro t b h x hx
  obtain ⟨rfl, -⟩ := runs_done.mp h
  cases hx

theorem puts_ask {φ : Q → Prop} {q : Q} {next : R q → Program Q R α}
    (hq : φ q) (hn : ∀ r, Puts φ (next r)) : Puts φ (.ask q next) := by
  intro t a h x hx
  obtain ⟨r, t', rfl, hr⟩ := runs_ask.mp h
  cases hx with
  | head => exact hq
  | tail _ hx => exact hn r t' a hr x hx

theorem puts_bind {φ : Q → Prop} {p : Program Q R α} {f : α → Program Q R β}
    (hp : Puts φ p) (hf : ∀ a, Puts φ (f a)) : Puts φ (p >>= f) := by
  intro t b h x hx
  obtain ⟨a, t₁, t₂, rfl, h₁, h₂⟩ := runs_bind.mp h
  obtain hx | hx := List.mem_append.mp hx
  · exact hp t₁ a h₁ x hx
  · exact hf a t₂ b h₂ x hx

end Hbird.Interaction
