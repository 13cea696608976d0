import Mathlib

namespace Hbird.Paths

/-- The last component of a path. -/
def base (path : String) : List Char := path.toList.rtakeWhile (· ≠ '/')

/-- What stands before the last slash. -/
def parent (path : String) : List Char := (path.toList.rdropWhile (· ≠ '/')).dropLast

variable {dir name path other : String}

theorem rtakeWhile_append {α : Type} {p : α → Bool} {a : α} {l r : List α} (hr : ∀ c ∈ r, p c)
    (ha : p a = false) : (l ++ a :: r).rtakeWhile p = r := by
  rw [List.rtakeWhile, List.reverse_append, List.reverse_cons, List.append_assoc,
    List.takeWhile_append_of_pos fun c hc => hr c (List.mem_reverse.mp hc), List.singleton_append,
    List.takeWhile_cons_of_neg (by simp [ha]), List.append_nil, List.reverse_reverse]

theorem rdropWhile_append {α : Type} {p : α → Bool} {a : α} {l r : List α} (hr : ∀ c ∈ r, p c)
    (ha : p a = false) : (l ++ a :: r).rdropWhile p = l ++ [a] := by
  rw [List.rdropWhile, List.reverse_append, List.reverse_cons, List.append_assoc,
    List.dropWhile_append_of_pos fun c hc => hr c (List.mem_reverse.mp hc), List.singleton_append,
    List.dropWhile_cons_of_neg (by simp [ha]), List.reverse_cons, List.reverse_reverse]

theorem toList_within : (dir ++ "/" ++ name).toList = dir.toList ++ '/' :: name.toList := by
  simp

theorem base_within (h : '/' ∉ name.toList) : base (dir ++ "/" ++ name) = name.toList := by
  rw [base, toList_within]
  exact rtakeWhile_append (fun c hc => by simpa using fun hs : c = '/' => h (hs ▸ hc)) (by simp)

theorem parent_within (h : '/' ∉ name.toList) : parent (dir ++ "/" ++ name) = dir.toList := by
  rw [parent, toList_within,
    rdropWhile_append (fun c hc => by simpa using fun hs : c = '/' => h (hs ▸ hc)) (by simp),
    List.dropLast_concat]

theorem getLast?_base {c : Char} (hc : c ≠ '/') (h : path.toList.getLast? = some c) :
    (base path).getLast? = some c := by
  obtain ⟨l, hl⟩ := List.getLast?_eq_some_iff.mp h
  rw [base, hl, List.rtakeWhile_concat_pos _ _ _ (by simpa using hc), List.getLast?_concat]

theorem getLast?_append {s t : String} {c : Char} (h : t.toList.getLast? = some c) :
    (s ++ t).toList.getLast? = some c := by
  rw [String.toList_append]
  exact List.mem_getLast?_append_of_mem_getLast? h

/-- Files with different last characters. -/
theorem base_ne {c d : Char} (hc : c ≠ '/') (hd : d ≠ '/') (hcd : c ≠ d)
    (hpath : path.toList.getLast? = some c) (hother : other.toList.getLast? = some d) :
    base path ≠ base other := by
  intro h
  have hlast := getLast?_base hc hpath
  rw [h, getLast?_base hd hother] at hlast
  exact hcd (Option.some.inj hlast).symm

/-- Two entries of one directory. -/
structure Siblings (path other : String) : Prop where
  parent : parent path = parent other
  base : base path ≠ base other

end Hbird.Paths
