import Hbird.Virt.Connection

namespace Hbird.Virt

open Hbird.Text

/-- The root and the top-level system directories. -/
def banned : List String :=
  ["/", "/bin", "/boot", "/dev", "/etc", "/home", "/lib", "/lib64", "/proc", "/root", "/run",
    "/sbin", "/srv", "/sys", "/tmp", "/usr", "/var"]

def trimSlashes (path : List Char) : List Char := path.rdropWhile (· = '/')

def rejectDestructivePath (path : String) : Except Error Unit :=
  let refuse stderr := Except.error (Error.virshFailed "remote_rm_rf" stderr)
  if path = "" then refuse "refusing empty path: rm -rf '' would target cwd"
  else if !startsWith path "/" then
    refuse ("refusing non-absolute path: " ++ quoted path ++ " (must start with /)")
  else if ['.', '.'] ∈ path.toList.splitOn '/' then
    refuse ("refusing path with " ++ tick ++ ".." ++ tick ++ " segment: " ++ quoted path)
  else
    let trimmed := trimSlashes path.toList
    let toCheck := if trimmed = [] then "/" else String.ofList trimmed
    if toCheck ∈ banned then
      refuse ("refusing destructive path: " ++ quoted path ++ " is a top-level system " ++
        "directory; remote_rm_rf is only meant for cluster scratch dirs under POOL_DIR")
    else .ok ()

/-- The guard comes before the command. -/
def Connection.remoteRmRf (conn : Connection) (path : String) : Ssh.Remote Error Unit :=
  (rejectDestructivePath path : Except _ _) >>= fun _ => conn.verb ("rm -rf -- " ++ shellQuote path)

/-- The components that count: an empty one and `.` denote the directory before them. -/
def components (path : List Char) : List (List Char) :=
  (path.splitOn '/').filter fun c => c ≠ [] ∧ c ≠ ['.']

def IsAbsolute (path : String) : Prop := path.toList.head? = some '/'

def HasParent (path : String) : Prop := ['.', '.'] ∈ components path.toList

/-- The directory is one of those that are kept. -/
def IsBanned (path : String) : Prop := ∃ dir ∈ banned, components path.toList = components dir.toList

/-- Slashes at the end apart, the path has none but the components that count. -/
def IsCanonical (path : String) : Prop :=
  trimSlashes path.toList = (components path.toList).flatMap ('/' :: ·)

/-- A directory that may be removed. -/
structure IsRemovable (path : String) : Prop where
  absolute : IsAbsolute path
  noParent : ¬ HasParent path
  notBanned : ¬ IsBanned path

theorem components_concat (s : List Char) : components (s ++ ['/']) = components s := by
  rw [components, List.splitOn_append_cons_self, List.filter_append]
  simp [components]

theorem components_trimSlashes (s : List Char) : components (trimSlashes s) = components s := by
  induction s using List.reverseRecOn with
  | nil => rfl
  | append_singleton s c ih =>
    by_cases hc : c = '/'
    · subst hc
      rw [trimSlashes, List.rdropWhile_concat_pos _ _ _ (by simp), components_concat]
      exact ih
    · rw [trimSlashes, List.rdropWhile_concat_neg _ _ _ (by simpa using hc)]

theorem hasParent_iff {path : String} : HasParent path ↔ ['.', '.'] ∈ path.toList.splitOn '/' := by
  simp [HasParent, components]

theorem startsWith_slash_iff {path : String} : startsWith path "/" = true ↔ IsAbsolute path := by
  rw [startsWith_iff, IsAbsolute]
  constructor
  · rintro ⟨t, ht⟩
    rw [← ht]
    rfl
  · intro h
    obtain ⟨t, ht⟩ := List.head?_eq_some_iff.mp h
    exact ⟨t, ht.symm⟩

/-- A directory that is kept is recognised when its components are all there is. -/
theorem spelling_of_banned : ∀ dir ∈ banned,
    (components dir.toList).flatMap ('/' :: ·) = if dir = "/" then [] else dir.toList := by
  decide

theorem toCheck_iff {path : String} :
    (if trimSlashes path.toList = [] then "/" else String.ofList (trimSlashes path.toList)) ∈ banned ↔
      IsCanonical path ∧ IsBanned path := by
  have hcomponents := components_trimSlashes path.toList
  constructor
  · intro h
    by_cases hnil : trimSlashes path.toList = []
    · rw [hnil] at hcomponents
      refine ⟨?_, "/", by decide, hcomponents.symm⟩
      rw [IsCanonical, hnil, ← hcomponents]
      rfl
    · rw [if_neg hnil] at h
      obtain ⟨dir, hdir, rfl⟩ : ∃ dir ∈ banned, dir = String.ofList (trimSlashes path.toList) :=
        ⟨_, h, rfl⟩
      have hspelling := spelling_of_banned _ hdir
      rw [String.toList_ofList, hcomponents] at hspelling
      refine ⟨?_, _, hdir, by rw [String.toList_ofList, hcomponents]⟩
      rw [IsCanonical, hspelling, if_neg]
      intro hroot
      have htwice : trimSlashes (trimSlashes path.toList) = trimSlashes path.toList :=
        List.rdropWhile_idempotent (· = '/') path.toList
      have hslash : trimSlashes path.toList = ['/'] := by
        rw [← String.toList_ofList (l := trimSlashes path.toList), hroot]
        rfl
      rw [hslash] at htwice
      cases htwice
  · rintro ⟨hcanonical, dir, hdir, heq⟩
    have hspelling := spelling_of_banned dir hdir
    rw [← heq, ← hcanonical] at hspelling
    by_cases hroot : dir = "/"
    · rw [if_pos hroot] at hspelling
      rw [if_pos hspelling]
      decide
    · rw [if_neg hroot] at hspelling
      rw [hspelling, String.ofList_toList]
      split
      · decide
      · exact hdir

theorem rejectDestructivePath_ok_iff {path : String} :
    rejectDestructivePath path = .ok () ↔
      IsAbsolute path ∧ ¬ HasParent path ∧ ¬ (IsCanonical path ∧ IsBanned path) := by
  unfold rejectDestructivePath
  by_cases hempty : path = ""
  · subst hempty
    simp [IsAbsolute]
  rw [if_neg hempty]
  by_cases habs : IsAbsolute path
  · rw [startsWith_slash_iff.mpr habs, Bool.not_true, if_neg Bool.false_ne_true]
    by_cases hparent : HasParent path
    · rw [if_pos (hasParent_iff.mp hparent)]
      simp [hparent]
    · rw [if_neg fun h => hparent (hasParent_iff.mpr h), ← toCheck_iff]
      simp only [habs, hparent, not_false_eq_true, true_and]
      split <;> simp_all
  · rw [Bool.eq_false_iff.mpr fun h => habs (startsWith_slash_iff.mp h), Bool.not_false, if_pos rfl]
    simp [habs]

/-- What the guard lets through may be removed, unless it is another spelling of a directory that
is kept. -/
theorem rejectDestructivePath_safe_iff (path : String) :
    (rejectDestructivePath path = .ok () → IsRemovable path) ↔
      ¬ IsAbsolute path ∨ HasParent path ∨ IsCanonical path ∨ ¬ IsBanned path := by
  rw [rejectDestructivePath_ok_iff]
  constructor
  · intro h
    by_contra hcon
    simp only [not_or, not_not] at hcon
    obtain ⟨habs, hparent, hcanonical, hbanned⟩ := hcon
    exact (h ⟨habs, hparent, fun hc => hcanonical hc.1⟩).notBanned hbanned
  · rintro h ⟨habs, hparent, hkept⟩
    refine ⟨habs, hparent, fun hbanned => ?_⟩
    obtain h | h | h | h := h
    · exact h habs
    · exact hparent h
    · exact hkept ⟨h, hbanned⟩
    · exact h hbanned

theorem other_spelling : ¬ (rejectDestructivePath "/./etc" = .ok () → IsRemovable "/./etc") := by
  intro h
  exact (h rfl).notBanned ⟨"/etc", by decide, by decide⟩

end Hbird.Virt
