import Mathlib

namespace Hbird.Cuts

variable {α β : Type} {p : α → Prop} {u u' v v' : List α} {a a' : α}

/-- A list is cut at its first element of a kind in one way only. -/
theorem first_unique (hu : ∀ x ∈ u, ¬ p x) (ha : p a) (hu' : ∀ x ∈ u', ¬ p x) (ha' : p a')
    (h : u ++ a :: v = u' ++ a' :: v') : u = u' ∧ a = a' ∧ v = v' := by
  induction u generalizing u' with
  | nil =>
    cases u' with
    | nil => exact ⟨rfl, (List.cons.inj h).1, (List.cons.inj h).2⟩
    | cons x u' =>
      obtain ⟨rfl, -⟩ := List.cons.inj h
      exact absurd ha (hu' _ (List.mem_cons_self ..))
  | cons y u ih =>
    cases u' with
    | nil =>
      obtain ⟨rfl, -⟩ := List.cons.inj h
      exact absurd ha' (hu _ (List.mem_cons_self ..))
    | cons x u' =>
      obtain ⟨rfl, ht⟩ := List.cons.inj h
      obtain ⟨rfl, hav⟩ := ih (fun x hx => hu x (List.mem_cons_of_mem _ hx))
        (fun x hx => hu' x (List.mem_cons_of_mem _ hx)) ht
      exact ⟨rfl, hav⟩

/-- Where the only element of a kind stands is the same in every cut. -/
theorem only_unique (h : u ++ a :: v = u' ++ a' :: v') (hu : ∀ x ∈ u, ¬ p x)
    (hv : ∀ x ∈ v, ¬ p x) (ha' : p a') : u' = u := by
  obtain ⟨m, rfl, hm⟩ | ⟨m, rfl, hm⟩ := List.append_eq_append_iff.mp h
  · cases m with
    | nil => simp
    | cons x m =>
      obtain ⟨rfl, rfl⟩ := List.cons.inj hm
      exact absurd ha' (hv a' (by simp))
  · cases m with
    | nil => simp
    | cons x m =>
      obtain ⟨rfl, rfl⟩ := List.cons.inj hm
      exact absurd ha' (hu a' (by simp))

/-- The last element of a list stands behind every other. -/
theorem mem_of_last {z : α} (h : u ++ [z] = u' ++ a :: v') (hne : a ≠ z) : z ∈ v' := by
  have hlast : (u' ++ a :: v').getLast? = some z := by rw [← h, List.getLast?_concat]
  rw [List.getLast?_append_of_ne_nil _ (List.cons_ne_nil a v'), List.getLast?_cons] at hlast
  cases hl : v'.getLast? with
  | none => exact absurd (by simpa [hl] using hlast) hne
  | some y =>
    obtain rfl : y = z := by simpa [hl] using hlast
    exact List.mem_of_getLast? hl

variable {R : α → β → Prop} {xs : List α} {ys : List β}

theorem exists_zip_left (h : List.Forall₂ R xs ys) {x : α} (hx : x ∈ xs) :
    ∃ y, (x, y) ∈ xs.zip ys ∧ R x y := by
  induction h with
  | nil => exact absurd hx List.not_mem_nil
  | cons hab _ ih =>
    obtain rfl | hx := List.mem_cons.mp hx
    · exact ⟨_, List.mem_cons_self, hab⟩
    · obtain ⟨y, hy, hR⟩ := ih hx
      exact ⟨y, List.mem_cons_of_mem _ hy, hR⟩

theorem exists_zip_right (h : List.Forall₂ R xs ys) {y : β} (hy : y ∈ ys) :
    ∃ x, (x, y) ∈ xs.zip ys ∧ R x y := by
  induction h with
  | nil => exact absurd hy List.not_mem_nil
  | cons hab _ ih =>
    obtain rfl | hy := List.mem_cons.mp hy
    · exact ⟨_, List.mem_cons_self, hab⟩
    · obtain ⟨x, hx, hR⟩ := ih hy
      exact ⟨x, List.mem_cons_of_mem _ hx, hR⟩

theorem exists_forall₂ (h : ∀ x ∈ xs, ∃ y, R x y) : ∃ ys, List.Forall₂ R xs ys := by
  induction xs with
  | nil => exact ⟨[], .nil⟩
  | cons x xs ih =>
    obtain ⟨hx, hxs⟩ := List.forall_mem_cons.mp h
    obtain ⟨y, hy⟩ := hx
    obtain ⟨ys, hys⟩ := ih hxs
    exact ⟨y :: ys, .cons hy hys⟩

end Hbird.Cuts
