import Hbird.Interaction.Exec
import Hbird.VersionSort

namespace Hbird.BootcSemverUpdate

open Hbird.Interaction Hbird.VersionSort

/-- What `/etc/hummingbird/bootc-update.env` leaves in the variables. -/
structure Env where
  repo : Option String
  tagPrefix : Option String

inductive Exit
  | repoNotSet
  | refused
  | failed (status : Nat)

/-- The commands that leave the script. The filters between `skopeo` and `tags` are computed. -/
inductive Query
  | logger (priority : Option String) (message : String)
  | mktemp
  | listTags (image : String) (errors : String)
  | joinedLines (file : String)
  | rm (file : String)
  | status
  | switch (target : String)
  | upgrade

def Output : Query → Type
  | .mktemp | .joinedLines _ | .status => String
  | .listTags .. => List String
  | _ => Unit

/-- A command fails with its exit status. -/
abbrev Reply (q : Query) := Except Nat (Output q)

abbrev Script (α : Type) := Exec Query Reply Exit α

/-- A command whose failure ends the script. -/
def errexit (q : Query) : Script (Output q) :=
  Exec.context Exit.failed (Program.perform q)

def isPrefixChar (c : Char) : Bool := c.isAlphanum || c == '.' || c == '_' || c == '-'

structure Config where
  repo : String
  tagPrefix : String

namespace Config

variable (config : Config)

def image (tag : String) : String := config.repo ++ ":" ++ tag

/-- What is left of a tag behind the prefix. In the regular expression a dot of the prefix
stands for any character. -/
def behind : List Char → List Char → Option (List Char)
  | [], s => some s
  | _ :: _, [] => none
  | p :: ps, c :: s => if p = '.' ∨ p = c then behind ps s else none

/-- `grep -E "^${PREFIX}[0-9]+\.[0-9]+\.[0-9]+$"`. -/
def grep (tag : String) : Bool :=
  (behind config.tagPrefix.toList tag.toList).any isRelease

/-- The tags in the order of their versions. -/
def sorted (c : Collation) (tags : List String) : List String :=
  c.sortV (tags.filter config.grep)

end Config

def readConfig (env : Env) : Script Config :=
  match env.repo.filter (· ≠ "") with
  | none => throw .repoNotSet
  | some repo => do
    let tagPrefix := env.tagPrefix.getD "v"
    if tagPrefix.toList.all isPrefixChar then
      pure ⟨repo, tagPrefix⟩
    else
      _ ← errexit (.logger (some "user.err")
        ("invalid PREFIX '" ++ tagPrefix ++ "': only [A-Za-z0-9._-] allowed"))
      throw .refused

def listTags (repo : String) : Script (List String) := do
  let errors : String ← errexit .mktemp
  match ← Exec.outcome (errexit (.listTags ("docker://" ++ repo) errors)) with
  | .ok tags =>
    _ ← errexit (.rm errors)
    pure tags
  | .error _ =>
    -- The status of a substitution in an argument is not looked at.
    let text := match ← Exec.outcome (errexit (.joinedLines errors)) with
      | .ok (text : String) => text
      | .error (_ : Exit) => ""
    _ ← errexit (.logger (some "user.err")
      ("skopeo list-tags docker://" ++ repo ++ " failed: " ++ text))
    _ ← errexit (.rm errors)
    throw .refused

def switchTo (config : Config) (tag current : String) : Script Unit := do
  let target := config.image tag
  if current = "" then
    _ ← errexit (.logger (some "user.err") "could not read current bootc image; exit 1")
    throw .refused
  else if current = target then
    _ ← errexit (.logger none ("already on " ++ target))
  else
    _ ← errexit (.logger none ("advancing " ++ current ++ " -> " ++ target))
    _ ← errexit (.switch target)
    _ ← errexit .upgrade

def main (c : Collation) (env : Env) : Script Unit := do
  let config ← readConfig env
  let tags ← listTags config.repo
  match (config.sorted c tags).getLast? with
  | none =>
    _ ← errexit (.logger none ("no semver tags at " ++ config.repo ++ "; exit 0"))
  | some tag =>
    let current : String ← errexit .status
    switchTo config tag current

def Env.Gives (env : Env) (config : Config) : Prop :=
  env.repo = some config.repo ∧ config.repo ≠ "" ∧ env.tagPrefix.getD "v" = config.tagPrefix ∧
    config.tagPrefix.toList.all isPrefixChar = true

namespace Config

variable (config : Config)

/-- The tag of a release: the prefix itself and three numbers. -/
def tag (r : Release) : String := config.tagPrefix ++ String.ofList r.text

/-- A switch goes to the greatest release in the registry, and never back. -/
def Forward (tags : List String) (current target : String) : Prop :=
  ∃ r, target = config.image (config.tag r) ∧ config.tag r ∈ tags ∧
    (∀ q, config.tag q ∈ tags → q.version ≤ r.version) ∧
    ∀ b, current = config.image (config.tag b) → b.version < r.version

/-- There is nothing to switch to: no image is booted, no tag is selected, or the booted tag is
sorted behind all others. -/
def Settled (c : Collation) (tags : List String) (current : String) : Prop :=
  current = "" ∨ (∀ tag ∈ tags, config.grep tag = false) ∨
    ∃ tag ∈ tags, config.grep tag = true ∧ current = config.image tag ∧
      ∀ other ∈ tags, config.grep other = true → other ≠ tag → c.versionCmp other tag = .lt

/-- The registry has a release behind every tag that only a dot of the prefix lets through, sorts
a greatest release last, and has one that is newer than the booted release. -/
structure Orderly (c : Collation) (tags : List String) (current : String) : Prop where
  literal : ∀ tag ∈ tags, config.grep tag = true → (∀ r, tag ≠ config.tag r) →
    ∃ r, config.tag r ∈ tags ∧ c.versionCmp tag (config.tag r) = .lt
  ordered : ∀ r q, config.tag r ∈ tags → config.tag q ∈ tags → r.version < q.version →
    ∃ other ∈ tags, config.grep other = true ∧ c.versionCmp (config.tag r) other = .lt
  newer : ∀ b, current = config.image (config.tag b) →
    ∃ r, config.tag r ∈ tags ∧ b.version < r.version

end Config

/-- Every run that finds these tags in the registry and this image booted switches forward. -/
def Advances (c : Collation) (env : Env) (tags : List String) (current : String) : Prop :=
  ∀ config, env.Gives config → ∀ t o, Finishes (main c env) t o →
    ∀ errors, ⟨.listTags ("docker://" ++ config.repo) errors, .ok tags⟩ ∈ t →
      ⟨.status, .ok current⟩ ∈ t → ∀ target reply, ⟨.switch target, reply⟩ ∈ t →
        config.Forward tags current target

namespace Config

variable {config : Config} {c : Collation} {tags : List String} {tag current : String}

theorem behind_append (p s : List Char) : behind p (p ++ s) = some s := by
  induction p with
  | nil => rfl
  | cons c p ih => rw [List.cons_append, behind, if_pos (.inr rfl), ih]

theorem behind_eq_some {p s r : List Char} (hdot : '.' ∉ p) (h : behind p s = some r) :
    s = p ++ r := by
  induction p generalizing s with
  | nil => exact Option.some.inj h
  | cons c p ih =>
    cases s with
    | nil => cases h
    | cons d s =>
      rw [behind] at h
      by_cases hc : c = '.' ∨ c = d
      · rw [if_pos hc] at h
        obtain rfl | rfl := hc
        · exact absurd (List.mem_cons_self ..) hdot
        · rw [List.cons_append, ih (fun hm => hdot (List.mem_cons_of_mem _ hm)) h]
      · rw [if_neg hc] at h
        cases h

theorem grep_tag (r : Release) : config.grep (config.tag r) = true := by
  rw [grep, Config.tag, String.toList_append, String.toList_ofList, behind_append]
  exact isRelease_iff.mpr ⟨r, rfl⟩

/-- Only a dot of the prefix lets a tag through that does not begin with it. -/
theorem grep_literal (hdot : '.' ∉ config.tagPrefix.toList) (h : config.grep tag = true) :
    ∃ r, tag = config.tag r := by
  rw [grep, Option.any_eq_true] at h
  obtain ⟨s, hs, hrel⟩ := h
  obtain ⟨r, rfl⟩ := isRelease_iff.mp hrel
  exact ⟨r, String.toList_injective (by
    rw [Config.tag, String.toList_append, String.toList_ofList, behind_eq_some hdot hs])⟩

theorem last_sorted : (config.sorted c tags).getLast? = some tag ↔
    (tag ∈ tags ∧ config.grep tag = true) ∧
      ∀ other ∈ tags, config.grep other = true → other ≠ tag → c.versionCmp other tag = .lt := by
  rw [sorted, Collation.last_sortV, List.mem_filter]
  simp only [List.mem_filter, and_imp]

theorem image_injective {s t : String} (h : config.image s = config.image t) : s = t := by
  have hl := congrArg String.toList h
  simp only [image, String.toList_append] at hl
  exact String.toList_injective (List.append_cancel_left hl)

theorem version_tag {r q : Release} (h : config.tag r = config.tag q) :
    r.version = q.version := by
  have hl := congrArg String.toList h
  simp only [Config.tag, String.toList_append, String.toList_ofList] at hl
  exact Release.version_congr (List.append_cancel_left hl)

/-- With numbers read as they are written, releases are sorted as they should. -/
theorem ordered_of_plain (h : (numberAfter none config.tagPrefix.toList).getD 0 = 0 ∨
      ∀ r, config.tag r ∈ tags → r.Plain) (r q : Release) (hr : config.tag r ∈ tags)
    (hq : config.tag q ∈ tags) (hlt : r.version < q.version) :
    ∃ other ∈ tags, config.grep other = true ∧ c.versionCmp (config.tag r) other = .lt :=
  ⟨config.tag q, hq, grep_tag q,
    Release.versionCmp_release c config.tagPrefix (h.imp_right fun hp => ⟨hp r hr, hp q hq⟩) hlt⟩

/-- With a prefix like `v`, all that can go wrong is that the booted release is the newest. -/
theorem orderly_iff (hdot : '.' ∉ config.tagPrefix.toList)
    (hnumber : (numberAfter none config.tagPrefix.toList).getD 0 = 0) :
    config.Orderly c tags current ↔ ∀ b, current = config.image (config.tag b) →
      ∃ r, config.tag r ∈ tags ∧ b.version < r.version := by
  refine ⟨Orderly.newer, fun h => ⟨fun tag _ hg hlit => ?_, ordered_of_plain (.inl hnumber), h⟩⟩
  obtain ⟨r, hr⟩ := grep_literal hdot hg
  exact absurd hr (hlit r)

/-- What a switch to the last of the sorted tags needs. -/
theorem forward_iff (hlast : (config.sorted c tags).getLast? = some tag)
    (hne : current ≠ config.image tag) :
    config.Forward tags current (config.image tag) ↔ config.Orderly c tags current := by
  obtain ⟨⟨htag, hgrep⟩, hlast⟩ := last_sorted.mp hlast
  constructor
  · rintro ⟨r, himage, hr, hmax, hnewer⟩
    obtain rfl := image_injective himage
    refine ⟨fun tag' ht hg hlit => ⟨r, hr, hlast tag' ht hg (hlit r)⟩, fun r' q hr' hq hlt => ?_,
      fun b hb => ⟨r, hr, hnewer b hb⟩⟩
    refine ⟨config.tag r, hr, hgrep, hlast _ hr' (grep_tag r') fun he => ?_⟩
    exact (hlt.trans_le (hmax q hq)).ne (version_tag he)
  · intro h
    obtain ⟨r, rfl⟩ : ∃ r, tag = config.tag r := by
      by_contra hlit
      obtain ⟨r, hr, hlt⟩ := h.literal tag htag hgrep fun r he => hlit ⟨r, he⟩
      have hne : config.tag r ≠ tag := fun he => hlit ⟨r, he.symm⟩
      exact c.versionCmp_lt_asymm hlt (hlast _ hr (grep_tag r) hne)
    have hmax : ∀ q, config.tag q ∈ tags → q.version ≤ r.version := by
      intro q hq
      by_contra hlt
      obtain ⟨other, ho, hg, hafter⟩ := h.ordered r q htag hq (not_le.mp hlt)
      by_cases he : other = config.tag r
      · rw [he, c.versionCmp_eq.mpr rfl] at hafter
        cases hafter
      · exact c.versionCmp_lt_asymm hafter (hlast other ho hg he)
    refine ⟨r, rfl, htag, hmax, fun b hb => ?_⟩
    obtain ⟨q, hq, hlt⟩ := h.newer b hb
    exact hlt.trans_le (hmax q hq)

end Config

section Runs

variable {c : Collation} {env : Env} {config : Config} {tags : List String}
  {tag current target : String} {t : Trace Reply}

theorem finishes_errexit {q : Query} {o : Except Exit (Output q)} :
    Finishes (errexit q) t o ↔ ∃ r : Reply q, t = [⟨q, r⟩] ∧ o = r.mapError .failed := by
  rw [errexit, finishes_context]
  constructor
  · rintro ⟨r, rfl, h⟩
    exact ⟨r, runs_perform.mp h, rfl⟩
  · rintro ⟨r, rfl, rfl⟩
    exact ⟨r, rfl, runs_perform.mpr rfl⟩

theorem finishes_errexit_ok {q : Query} {a : Output q} :
    Finishes (errexit q) t (.ok a) ↔ t = [⟨q, .ok a⟩] := by
  rw [finishes_errexit]
  constructor
  · rintro ⟨r, rfl, h⟩
    cases r with
    | ok b =>
      cases h
      rfl
    | error n => cases h
  · rintro rfl
    exact ⟨.ok a, rfl, rfl⟩

theorem puts_errexit {φ : Query → Prop} {q : Query} (h : φ q) : Puts φ (errexit q).run := by
  intro t o hrun x hx
  obtain ⟨r, rfl, -⟩ := finishes_errexit.mp hrun
  obtain rfl := List.mem_singleton.mp hx
  exact h

/-- The commands of the first half of the script. -/
def Looks : Query → Prop
  | .status | .switch _ => False
  | _ => True

/-- The commands once the booted image is known. A switch goes to the selected tag, and only when
another image is booted. -/
def Moves (config : Config) (tag current : String) : Query → Prop
  | .listTags .. | .status => False
  | .switch target =>
    current ≠ "" ∧ current ≠ config.image tag ∧ target = config.image tag
  | _ => True

theorem finishes_readConfig_ok :
    Finishes (readConfig env) t (.ok config) ↔ t = [] ∧ env.Gives config := by
  have hfilter : ∀ repo, env.repo.filter (· ≠ "") = some repo ↔ env.repo = some repo ∧ repo ≠ "" := by
    simp [Option.filter_eq_some_iff]
  rw [readConfig]
  cases hr : env.repo.filter (· ≠ "") with
  | none =>
    refine iff_of_false (fun h => ?_) ?_
    · cases (finishes_throw.mp h).2
    · rintro ⟨-, hrepo, hne, -⟩
      rw [(hfilter _).mpr ⟨hrepo, hne⟩] at hr
      cases hr
  | some repo =>
    obtain ⟨hrepo, hne⟩ := (hfilter repo).mp hr
    dsimp only
    by_cases hp : (env.tagPrefix.getD "v").toList.all isPrefixChar = true
    · rw [if_pos hp, finishes_pure]
      constructor
      · rintro ⟨rfl, h⟩
        cases h
        exact ⟨rfl, hrepo, hne, rfl, hp⟩
      · rintro ⟨rfl, hrepo', -, hempty, -⟩
        rw [hrepo] at hrepo'
        obtain ⟨repo', tagPrefix⟩ := config
        cases hrepo'
        cases hempty
        exact ⟨rfl, rfl⟩
    · rw [if_neg hp]
      refine iff_of_false (fun h => ?_) ?_
      · obtain ⟨_, _, _, -, -, hthrow⟩ := finishes_bind_ok.mp h
        cases (finishes_throw.mp hthrow).2
      · rintro ⟨-, -, -, hempty, hall⟩
        rw [hempty] at hp
        exact hp hall

theorem Env.Gives.unique {other : Config} (h : env.Gives config) (h' : env.Gives other) :
    other = config := by
  obtain ⟨repo, tagPrefix⟩ := config
  obtain ⟨repo', tagPrefix'⟩ := other
  obtain ⟨hr, -, hp, -⟩ := h
  obtain ⟨hr', -, hp', -⟩ := h'
  rw [hr] at hr'
  rw [hp] at hp'
  cases hr'
  cases hp'
  rfl

theorem puts_readConfig : Puts Looks (readConfig env).run := by
  rw [readConfig]
  cases env.repo.filter (· ≠ "") with
  | none => exact puts_done _ _
  | some repo =>
    dsimp only
    by_cases hp : (env.tagPrefix.getD "v").toList.all isPrefixChar = true
    · rw [if_pos hp]
      exact puts_done _ _
    · rw [if_neg hp]
      exact puts_exec_bind (puts_errexit trivial) fun _ => puts_done _ _

theorem puts_listTags (repo : String) : Puts Looks (listTags repo).run := by
  refine puts_exec_bind (puts_errexit trivial) fun errors => ?_
  refine puts_exec_bind (puts_outcome (puts_errexit trivial)) fun r => ?_
  cases r with
  | ok tags => exact puts_exec_bind (puts_errexit trivial) fun _ => puts_done _ _
  | error e =>
    refine puts_exec_bind (puts_outcome (puts_errexit trivial)) fun text => ?_
    refine puts_exec_bind (puts_errexit trivial) fun _ => ?_
    exact puts_exec_bind (puts_errexit trivial) fun _ => puts_done _ _

theorem puts_switchTo : Puts (Moves config tag current) (switchTo config tag current).run := by
  rw [switchTo]
  by_cases hempty : current = ""
  · rw [if_pos hempty]
    exact puts_exec_bind (puts_errexit trivial) fun _ => puts_done _ _
  · rw [if_neg hempty]
    by_cases hsame : current = config.image tag
    · rw [if_pos hsame]
      exact puts_exec_bind (puts_errexit trivial) fun _ => puts_done _ _
    · rw [if_neg hsame]
      refine puts_exec_bind (puts_errexit trivial) fun _ => ?_
      refine puts_exec_bind (puts_errexit ⟨hempty, hsame, rfl⟩) fun _ => ?_
      exact puts_exec_bind (puts_errexit trivial) fun _ => puts_done _ _

theorem finishes_listTags_ok {repo : String} :
    Finishes (listTags repo) t (.ok tags) ↔ ∃ errors : String, t = [⟨.mktemp, .ok errors⟩,
      ⟨.listTags ("docker://" ++ repo) errors, .ok tags⟩, ⟨.rm errors, .ok ()⟩] := by
  constructor
  · intro h
    obtain ⟨errors, t₁, u, rfl, h₁, h⟩ := finishes_bind_ok.mp h
    obtain ⟨r, t₂, t₃, rfl, h₂, h⟩ := finishes_outcome_bind.mp h
    cases r with
    | ok found =>
      obtain ⟨_, t₄, t₅, rfl, h₃, h⟩ := finishes_bind_ok.mp h
      obtain ⟨rfl, htags⟩ := finishes_pure.mp h
      cases htags
      rw [finishes_errexit_ok.mp h₁, finishes_errexit_ok.mp h₂, finishes_errexit_ok.mp h₃]
      exact ⟨errors, rfl⟩
    | error e =>
      obtain ⟨_, _, _, -, -, h⟩ := finishes_outcome_bind.mp h
      obtain ⟨_, _, _, -, -, h⟩ := finishes_bind_ok.mp h
      obtain ⟨_, _, _, -, -, h⟩ := finishes_bind_ok.mp h
      cases (finishes_throw.mp h).2
  · rintro ⟨errors, rfl⟩
    refine finishes_bind_ok.mpr ⟨errors, [_], [_, _], rfl, finishes_errexit_ok.mpr rfl, ?_⟩
    refine finishes_outcome_bind.mpr ⟨.ok tags, [_], [_], rfl, finishes_errexit_ok.mpr rfl, ?_⟩
    exact finishes_bind_ok.mpr ⟨(), [_], [], rfl, finishes_errexit_ok.mpr rfl,
      finishes_pure.mpr ⟨rfl, rfl⟩⟩

/-- A switch goes to the last of the sorted tags, unless that is what is booted. -/
theorem finishes_main {o : Except Exit Unit} {errors : String} {reply : Reply (.switch target)}
    (hconfig : env.Gives config) (h : Finishes (main c env) t o)
    (hlist : ⟨.listTags ("docker://" ++ config.repo) errors, .ok tags⟩ ∈ t)
    (hstatus : ⟨.status, .ok current⟩ ∈ t) (hswitch : ⟨.switch target, reply⟩ ∈ t) :
    ∃ tag, (config.sorted c tags).getLast? = some tag ∧ current ≠ "" ∧
      current ≠ config.image tag ∧ target = config.image tag := by
  obtain ⟨e, -, he⟩ | ⟨config', t₁, u, rfl, hread, hrest⟩ := finishes_bind.mp h
  · exact (puts_readConfig _ _ he _ hswitch).elim
  obtain ⟨rfl, hgives⟩ := finishes_readConfig_ok.mp hread
  obtain rfl := hconfig.unique hgives
  rw [List.nil_append] at hlist hstatus hswitch
  obtain ⟨e, -, he⟩ | ⟨found, t₂, t₃, rfl, hfound, hlast⟩ := finishes_bind.mp hrest
  · exact (puts_listTags _ _ _ he _ hswitch).elim
  have hlooks := puts_listTags _ _ _ hfound
  replace hswitch := (List.mem_append.mp hswitch).resolve_left fun hm => hlooks _ hm
  replace hstatus := (List.mem_append.mp hstatus).resolve_left fun hm => hlooks _ hm
  cases hsorted : (config'.sorted c found).getLast? with
  | none =>
    rw [hsorted] at hlast
    have hlogs : Puts (· ≠ Query.switch target) (errexit (.logger none
        ("no semver tags at " ++ config'.repo ++ "; exit 0")) >>= fun _ => pure ()).run :=
      puts_exec_bind (puts_errexit (by rintro ⟨⟩)) fun _ => puts_done _ _
    exact absurd rfl (hlogs _ _ hlast _ hswitch)
  | some tag =>
    rw [hsorted] at hlast
    obtain ⟨e, -, he⟩ | ⟨booted, t₄, t₅, rfl, hbooted, hmoves⟩ := finishes_bind.mp hlast
    · obtain ⟨r, rfl, -⟩ := finishes_errexit.mp he
      cases List.mem_singleton.mp hswitch
    · obtain rfl := finishes_errexit_ok.mp hbooted
      have hputs := puts_switchTo _ _ hmoves
      obtain ⟨errors', rfl⟩ := finishes_listTags_ok.mp hfound
      obtain ⟨hempty, hsame, htarget⟩ : Moves config' tag booted (.switch target) := by
        obtain hm | hm := List.mem_append.mp hswitch
        · cases List.mem_singleton.mp hm
        · exact hputs _ hm
      have hbooted : current = booted := by
        obtain hm | hm := List.mem_append.mp hstatus
        · cases List.mem_singleton.mp hm
          rfl
        · exact (hputs _ hm).elim
      have hfound : tags = found := by
        obtain hm | hm := List.mem_append.mp hlist
        · simp only [List.mem_cons, List.not_mem_nil, or_false] at hm
          obtain hm | hm | hm := hm
          · cases hm
          · cases hm
            rfl
          · cases hm
        · obtain hm | hm := List.mem_append.mp hm
          · cases List.mem_singleton.mp hm
          · exact (hputs _ hm).elim
      rw [hbooted, hfound]
      exact ⟨tag, hsorted, hempty, hsame, htarget⟩

/-- The run in which every command succeeds. -/
theorem main_finishes (hconfig : env.Gives config)
    (hlast : (config.sorted c tags).getLast? = some tag) (hempty : current ≠ "")
    (hsame : current ≠ config.image tag) :
    ∃ t o errors, Finishes (main c env) t o ∧
      ⟨.listTags ("docker://" ++ config.repo) errors, .ok tags⟩ ∈ t ∧
      ⟨.status, .ok current⟩ ∈ t ∧ ∃ reply, ⟨.switch (config.image tag), reply⟩ ∈ t := by
  have hmoves : Finishes (errexit .status >>= fun current => switchTo config tag current)
      [⟨.status, .ok current⟩,
        ⟨.logger none ("advancing " ++ current ++ " -> " ++ config.image tag), .ok ()⟩,
        ⟨.switch (config.image tag), .ok ()⟩, ⟨.upgrade, .ok ()⟩] (.ok ()) := by
    refine finishes_bind_ok.mpr ⟨current, [_], [_, _, _], rfl, finishes_errexit_ok.mpr rfl, ?_⟩
    rw [switchTo, if_neg hempty, if_neg hsame]
    refine finishes_bind_ok.mpr ⟨(), [_], [_, _], rfl, finishes_errexit_ok.mpr rfl, ?_⟩
    refine finishes_bind_ok.mpr ⟨(), [_], [_], rfl, finishes_errexit_ok.mpr rfl, ?_⟩
    exact finishes_bind_ok.mpr ⟨(), [_], [], rfl, finishes_errexit_ok.mpr rfl,
      finishes_pure.mpr ⟨rfl, rfl⟩⟩
  have hlist : Finishes (listTags config.repo) [⟨.mktemp, .ok ""⟩,
      ⟨.listTags ("docker://" ++ config.repo) "", .ok tags⟩, ⟨.rm "", .ok ()⟩] (.ok tags) :=
    finishes_listTags_ok.mpr ⟨"", rfl⟩
  have hmain : Finishes (main c env) _ (.ok ()) :=
    finishes_bind_ok.mpr ⟨config, [], _, rfl, finishes_readConfig_ok.mpr ⟨rfl, hconfig⟩,
      finishes_bind_ok.mpr ⟨tags, _, _, rfl, hlist, by rw [hlast]; exact hmoves⟩⟩
  exact ⟨_, _, "", hmain, by simp, by simp, .ok (), by simp⟩

end Runs

/-- The script only moves forward exactly when nothing is due or the tags are orderly; with a prefix
like `v` that only asks for a release newer than the booted one. -/
theorem switches_forward_iff (c : Collation) (env : Env) (tags : List String) (current : String) :
    (Advances c env tags current ↔
      ∀ config, env.Gives config → config.Settled c tags current ∨ config.Orderly c tags current) ∧
    ∀ config : Config, '.' ∉ config.tagPrefix.toList →
      (numberAfter none config.tagPrefix.toList).getD 0 = 0 →
        (config.Orderly c tags current ↔ ∀ b, current = config.image (config.tag b) →
          ∃ r, config.tag r ∈ tags ∧ b.version < r.version) := by
  refine ⟨?_, fun config hdot hnumber => Config.orderly_iff hdot hnumber⟩
  constructor
  · intro h config hconfig
    by_cases hs : config.Settled c tags current
    · exact .inl hs
    · refine .inr ?_
      obtain ⟨hempty, htags, hbooted⟩ := not_or.mp hs |>.imp_right not_or.mp
      obtain ⟨tag, hlast⟩ : ∃ tag, (config.sorted c tags).getLast? = some tag := by
        push Not at htags
        obtain ⟨tag, hm, hg⟩ := htags
        have hsorted : tag ∈ config.sorted c tags :=
          List.mem_mergeSort.mpr (List.mem_filter.mpr ⟨hm, Bool.of_not_eq_false hg⟩)
        exact ⟨_, List.getLast?_eq_some_getLast (List.ne_nil_of_mem hsorted)⟩
      have hsame : current ≠ config.image tag := by
        intro he
        obtain ⟨⟨hm, hg⟩, hl⟩ := Config.last_sorted.mp hlast
        exact hbooted ⟨tag, hm, hg, he, hl⟩
      obtain ⟨t, o, errors, hrun, hlist, hstatus, reply, hswitch⟩ :=
        main_finishes hconfig hlast hempty hsame
      exact (Config.forward_iff hlast hsame).mp
        (h config hconfig t o hrun errors hlist hstatus _ reply hswitch)
  · intro h config hconfig t o hrun errors hlist hstatus target reply hswitch
    obtain ⟨tag, hlast, hempty, hsame, rfl⟩ := finishes_main hconfig hrun hlist hstatus hswitch
    refine (Config.forward_iff hlast hsame).mpr ((h config hconfig).resolve_left ?_)
    obtain ⟨⟨hm, hg⟩, hlater⟩ := Config.last_sorted.mp hlast
    rintro (he | hnone | ⟨booted, hb, hgb, rfl, hbooted⟩)
    · exact hempty he
    · rw [hnone tag hm] at hg
      cases hg
    · have hne : tag ≠ booted := fun he => hsame (congrArg config.image he.symm)
      exact c.versionCmp_lt_asymm (hbooted tag hm hg hne) (hlater booted hb hgb hne.symm)

/-- The release that is booted was taken out of the registry. -/
theorem switches_back : ¬ Advances .codes ⟨some "ghcr.io/aatchison/hummingbird", none⟩ ["v1.0.0"]
    "ghcr.io/aatchison/hummingbird:v2.0.0" := by
  intro h
  let config : Config := ⟨"ghcr.io/aatchison/hummingbird", "v"⟩
  let old : Release := ⟨['1'], ['0'], ['0'], rfl, rfl, rfl⟩
  let new : Release := ⟨['2'], ['0'], ['0'], rfl, rfl, rfl⟩
  have hlast : (config.sorted .codes ["v1.0.0"]).getLast? = some "v1.0.0" := by
    refine Config.last_sorted.mpr ⟨⟨by simp, Config.grep_tag old⟩, ?_⟩
    simp
  have hconfig : Env.Gives ⟨some config.repo, none⟩ config := ⟨rfl, by decide, rfl, by decide⟩
  have hempty : config.image "v2.0.0" ≠ "" := by decide
  have hsame : config.image "v2.0.0" ≠ config.image "v1.0.0" := by decide
  obtain ⟨t, o, errors, hrun, hlist, hstatus, reply, hswitch⟩ :=
    main_finishes hconfig hlast hempty hsame
  obtain ⟨r, -, hr, -, hnewer⟩ := h config hconfig t o hrun errors hlist hstatus _ reply hswitch
  have hr' : config.tag r = config.tag old := List.mem_singleton.mp hr
  have hlt := hnewer new rfl
  rw [Config.version_tag hr'] at hlt
  exact absurd hlt (by decide)

end Hbird.BootcSemverUpdate
