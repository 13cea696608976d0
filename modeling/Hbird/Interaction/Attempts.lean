import Hbird.Interaction.Program

namespace Hbird.Interaction

variable {α ε : Type} {keep : α → Prop}

/-- `Attempted keep xs as o`: the elements of `xs` are tried one after the other, with the
results `as`; one that fails ends the sequence with its error unless it is kept. -/
inductive Attempted (keep : α → Prop) : List α → List (α × Except ε Unit) → Except ε Unit → Prop
  | nil : Attempted keep [] [] (.ok ())
  | ok {x : α} {xs : List α} {as : List (α × Except ε Unit)} {o : Except ε Unit}
      (h : Attempted keep xs as o) : Attempted keep (x :: xs) ((x, .ok ()) :: as) o
  | kept {x : α} {e : ε} {xs : List α} {as : List (α × Except ε Unit)} {o : Except ε Unit}
      (hk : keep x) (h : Attempted keep xs as o) :
      Attempted keep (x :: xs) ((x, .error e) :: as) o
  | stopped {x : α} {e : ε} {xs : List α} (hk : ¬ keep x) :
      Attempted keep (x :: xs) [(x, .error e)] (.error e)

namespace Attempted

variable {xs ys : List α} {as bs u v : List (α × Except ε Unit)} {o : Except ε Unit} {x : α} {e : ε}

theorem append (h : Attempted keep xs as (.ok ())) (h' : Attempted keep ys bs o) :
    Attempted keep (xs ++ ys) (as ++ bs) o := by
  generalize ho : (Except.ok () : Except ε Unit) = o' at h
  induction h with
  | nil => exact h'
  | ok _ ih => exact .ok (ih ho)
  | kept hk _ ih => exact .kept hk (ih ho)
  | stopped _ => cases ho

theorem append_error (h : Attempted keep xs as (.error e)) :
    Attempted keep (xs ++ ys) as (.error e) := by
  generalize ho : (Except.error e : Except ε Unit) = o at h ⊢
  induction h with
  | nil => cases ho
  | ok _ ih => exact .ok (ih ho)
  | kept hk _ ih => exact .kept hk (ih ho)
  | stopped hk => exact .stopped hk

/-- In order, each at most once, and with none left out. -/
theorem order (h : Attempted keep xs as o) : as.map Prod.fst <+: xs := by
  induction h with
  | nil => exact List.nil_prefix
  | ok _ ih => exact List.cons_prefix_cons.mpr ⟨rfl, ih⟩
  | kept _ _ ih => exact List.cons_prefix_cons.mpr ⟨rfl, ih⟩
  | stopped _ => exact List.cons_prefix_cons.mpr ⟨rfl, List.nil_prefix⟩

theorem head (h : Attempted keep (x :: xs) as o) : ∃ r bs, as = (x, r) :: bs := by
  cases h with
  | ok _ => exact ⟨_, _, rfl⟩
  | kept _ _ => exact ⟨_, _, rfl⟩
  | stopped _ => exact ⟨_, _, rfl⟩

theorem stops (h : Attempted keep xs as o) (hs : as = u ++ (x, .error e) :: v) (hk : ¬ keep x) :
    v = [] ∧ o = .error e := by
  induction h generalizing u with
  | nil => simp at hs
  | ok _ ih =>
    cases u with
    | nil => simp at hs
    | cons a u => exact ih (List.cons.inj hs).2
  | kept hk' _ ih =>
    cases u with
    | nil =>
      obtain ⟨hx, -⟩ := List.cons.inj hs
      exact absurd ((Prod.mk.inj hx).1 ▸ hk') hk
    | cons a u => exact ih (List.cons.inj hs).2
  | stopped _ =>
    cases u with
    | nil =>
      obtain ⟨hx, hv⟩ := List.cons.inj hs
      obtain ⟨-, he⟩ := Prod.mk.inj hx
      exact ⟨hv.symm, he⟩
    | cons a u => simp at hs

theorem complete (h : Attempted keep xs as o) (hk : ∀ x e, (x, .error e) ∈ as → keep x) :
    as.map Prod.fst = xs ∧ o = .ok () := by
  induction h with
  | nil => exact ⟨rfl, rfl⟩
  | ok _ ih =>
    obtain ⟨hm, ho⟩ := ih fun x e hx => hk x e (List.mem_cons_of_mem _ hx)
    exact ⟨by rw [List.map_cons, hm], ho⟩
  | kept _ _ ih =>
    obtain ⟨hm, ho⟩ := ih fun x e hx => hk x e (List.mem_cons_of_mem _ hx)
    exact ⟨by rw [List.map_cons, hm], ho⟩
  | @stopped x e _ hn => exact absurd (hk x e (List.mem_singleton_self _)) hn

end Attempted

section Settles

variable {Q K : Type} {R : Q → Type} {takes settles : K → Exchange R → Prop} {s t : Trace R}
  {x : Exchange R}

/-- Whatever an exchange takes on under a key, a later one settles. -/
def Settled (takes settles : K → Exchange R → Prop) : Trace R → Prop
  | [] => True
  | x :: t => (∀ k, takes k x → ∃ y ∈ t, settles k y) ∧ Settled takes settles t

/-- An exchange that takes nothing on. -/
theorem settled_cons_aside (hx : ∀ k, ¬ takes k x) :
    Settled takes settles (x :: t) ↔ Settled takes settles t :=
  and_iff_right fun k hk => absurd hk (hx k)

theorem settled_append_aside (hs : ∀ x ∈ s, ∀ k, ¬ takes k x) :
    Settled takes settles (s ++ t) ↔ Settled takes settles t := by
  induction s with
  | nil => exact Iff.rfl
  | cons x s ih =>
    obtain ⟨hx, hs⟩ := List.forall_mem_cons.mp hs
    rw [List.cons_append, settled_cons_aside hx, ih hs]

theorem settled_of_aside (hs : ∀ x ∈ s, ∀ k, ¬ takes k x) : Settled takes settles s := by
  rw [← List.append_nil s, settled_append_aside hs]
  trivial

/-- Behind a trace that is settled, only what follows counts. -/
theorem settled_append (hs : Settled takes settles s) :
    Settled takes settles (s ++ t) ↔ Settled takes settles t := by
  induction s with
  | nil => exact Iff.rfl
  | cons x s ih =>
    obtain ⟨hx, hs⟩ := hs
    rw [List.cons_append, Settled, ih hs]
    refine and_iff_right fun k hk => ?_
    obtain ⟨y, hy, hk⟩ := hx k hk
    exact ⟨y, List.mem_append_left t hy, hk⟩

end Settles

end Hbird.Interaction
