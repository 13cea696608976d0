import Mathlib

namespace Hbird.Getopt

/-- The letters of an option string, and whether they take an argument. -/
abbrev Table := Char → Option Bool

structure Opt where
  letter : Char
  value : Option String
  deriving DecidableEq, Repr

/-- An argument that begins with a dash and is not the dash alone. -/
def IsDashed (arg : String) : Prop := ∃ c cs, arg.toList = '-' :: c :: cs

theorem isDashed_iff (arg : String) :
    arg.toList.head? = some '-' ∧ 2 ≤ arg.toList.length ↔ IsDashed arg := by
  constructor
  · rintro ⟨hhead, hlength⟩
    obtain ⟨tail, htail⟩ := List.head?_eq_some_iff.mp hhead
    cases tail with
    | nil =>
      rw [htail] at hlength
      exact absurd hlength (by decide)
    | cons c cs => exact ⟨c, cs, htail⟩
  · rintro ⟨c, cs, h⟩
    rw [h]
    simp

instance (arg : String) : Decidable (IsDashed arg) := decidable_of_iff _ (isDashed_iff arg)

/-- The options in one argument behind its dash, and the letter that still waits for its own
argument. -/
def cluster (t : Table) : List Char → Option (List Opt × Option Char)
  | [] => some ([], none)
  | c :: cs =>
    match t c with
    | none => none
    | some false => (cluster t cs).map fun r => (⟨c, none⟩ :: r.1, r.2)
    | some true =>
      if cs = [] then some ([], some c) else some ([⟨c, some (String.ofList cs)⟩], none)

/-- What `getopt` has read when it stops: the options, the arguments from there on, and whether
`--` made it stop. -/
structure Options where
  opts : List Opt
  rest : List String
  terminated : Bool
  deriving DecidableEq, Repr

def Options.behind (opts : List Opt) (r : Options) : Options := { r with opts := opts ++ r.opts }

/-- Options up to the first argument that is none; `waiting` is the letter that takes the next
argument. -/
def options (t : Table) : Option Char → List String → Option Options
  | none, [] => some ⟨[], [], false⟩
  | some _, [] => none
  | some c, arg :: args => (options t none args).map (.behind [⟨c, some arg⟩])
  | none, arg :: args =>
    match arg.toList with
    | ['-', '-'] => some ⟨[], args, true⟩
    | '-' :: c :: cs => (cluster t (c :: cs)).bind fun r => (options t r.2 args).map (.behind r.1)
    | _ => some ⟨[], arg :: args, false⟩

/-- What `ssh` makes of its arguments. -/
structure Reading where
  opts : List Opt
  destination : String
  command : List String
  deriving DecidableEq, Repr

/-- Options may stand before the destination and behind it; what follows them is the command. -/
def sshRead (t : Table) (args : List String) : Option Reading :=
  (options t none args).bind fun r =>
    match r.rest with
    | [] => none
    | destination :: rest =>
      if r.terminated || rest.isEmpty then some ⟨r.opts, destination, rest⟩
      else (options t none rest).map fun r' => ⟨r.opts ++ r'.opts, destination, r'.rest⟩

section Reading

variable {t : Table} {arg : String} {args : List String} {r : Options} {waiting : Option Char}

theorem options_plain (h : ¬ IsDashed arg) :
    options t none (arg :: args) = some ⟨[], arg :: args, false⟩ := by
  rw [options]
  split
  · next hl => exact absurd ⟨'-', [], hl⟩ h
  · next c cs _ hl => exact absurd ⟨c, cs, hl⟩ h
  · rfl

/-- A letter with its argument, as two words. -/
theorem options_pair {c : Char} (hc : t c = some true) (hd : c ≠ '-') (value : String) :
    options t none (String.ofList ['-', c] :: value :: args) =
      (options t none args).map (.behind [⟨c, some value⟩]) := by
  have hcluster : cluster t [c] = some ([], some c) := by
    rw [cluster, hc]
    rfl
  rw [options, String.toList_ofList]
  split
  · next hl =>
    simp only [List.cons.injEq, and_true, true_and] at hl
    exact absurd hl hd
  · next c' cs _ hl =>
    simp only [List.cons.injEq, true_and] at hl
    obtain ⟨rfl, rfl⟩ := hl
    rw [hcluster, Option.bind_some, options, Option.map_map]
    congr 1
  · next hne => exact absurd rfl (hne c [])

theorem cluster_some {c : Char} {cs : List Char} {o : List Opt × Option Char}
    (h : cluster t (c :: cs) = some o) : o.1 ≠ [] ∨ o.2 ≠ none := by
  rw [cluster] at h
  split at h
  · cases h
  · obtain ⟨o', -, rfl⟩ := Option.map_eq_some_iff.mp h
    exact .inl (by simp)
  · split_ifs at h
    · cases h
      exact .inr (by simp)
    · cases h
      exact .inl (by simp)

theorem options_waiting {c : Char} (h : options t (some c) args = some r) : r.opts ≠ [] := by
  cases args with
  | nil => cases h
  | cons arg args =>
    obtain ⟨r', -, rfl⟩ := Option.map_eq_some_iff.mp h
    simp [Options.behind]

/-- An argument with a dash is an option, or ends them. -/
theorem options_dashed (h : IsDashed arg) (hr : options t none (arg :: args) = some r) :
    r.opts ≠ [] ∨ r = ⟨[], args, true⟩ := by
  obtain ⟨c, cs, hl⟩ := h
  rw [options, hl] at hr
  split at hr
  · exact .inr (Option.some.inj hr).symm
  · next c' cs' _ hl' =>
    obtain ⟨o, ho, hr⟩ := Option.bind_eq_some_iff.mp hr
    obtain ⟨r', hr', rfl⟩ := Option.map_eq_some_iff.mp hr
    refine .inl fun hnil => ?_
    obtain ⟨hopts, hrest⟩ := List.append_eq_nil_iff.mp hnil
    obtain hne | hne := cluster_some ho
    · exact hne hopts
    · obtain ⟨w, hw⟩ := Option.ne_none_iff_exists'.mp hne
      rw [hw] at hr'
      exact options_waiting hr' hrest
  · next hne => exact absurd rfl (hne c cs)

end Reading

section SshRead

variable {t : Table} {destination command : String}

theorem sshRead_plain (hd : ¬ IsDashed destination) (hc : ¬ IsDashed command) :
    sshRead t [destination, command] = some ⟨[], destination, [command]⟩ := by
  rw [sshRead, options_plain hd, Option.bind_some]
  simp [options_plain hc]

/-- A dash before the destination or the command is always noticed: an option more, or a command
less. -/
theorem sshRead_dashed (h : IsDashed destination ∨ IsDashed command) :
    sshRead t [destination, command] ≠ some ⟨[], destination, [command]⟩ := by
  intro hread
  obtain ⟨⟨opts, rest, terminated⟩, hr, hread⟩ := Option.bind_eq_some_iff.mp hread
  by_cases hd : IsDashed destination
  · obtain hne | hend := options_dashed hd hr
    · cases rest with
      | nil => cases hread
      | cons destination' rest =>
        simp only at hread
        split_ifs at hread
        · exact hne (congrArg Reading.opts (Option.some.inj hread))
        · obtain ⟨r', -, hr'⟩ := Option.map_eq_some_iff.mp hread
          exact hne (List.append_eq_nil_iff.mp (congrArg Reading.opts hr')).1
    · cases hend
      cases congrArg Reading.command (Option.some.inj hread)
  · have hc : IsDashed command := h.resolve_left hd
    rw [options_plain hd] at hr
    cases hr
    simp only [Bool.false_or, List.isEmpty_cons, Bool.false_eq_true, if_false] at hread
    obtain ⟨r', hr', hread⟩ := Option.map_eq_some_iff.mp hread
    obtain hne | rfl := options_dashed hc hr'
    · exact hne (congrArg Reading.opts hread)
    · cases congrArg Reading.command hread

/-- Options before the destination go to the front. -/
theorem sshRead_pair {c : Char} (hc : t c = some true) (hd : c ≠ '-') (value : String)
    (args : List String) : sshRead t (String.ofList ['-', c] :: value :: args) =
      (sshRead t args).map fun r => { r with opts := ⟨c, some value⟩ :: r.opts } := by
  rw [sshRead, sshRead, options_pair hc hd]
  cases options t none args with
  | none => rfl
  | some r =>
    obtain ⟨opts, rest, terminated⟩ := r
    rw [Option.map_some, Option.bind_some, Option.bind_some]
    cases rest with
    | nil => rfl
    | cons destination rest =>
      cases terminated with
      | true => rfl
      | false =>
        cases rest with
        | nil => rfl
        | cons arg more =>
          change (options t none (arg :: more)).map _ = ((options t none (arg :: more)).map _).map _
          rw [Option.map_map]
          rfl

/-- The arguments of a list of options that take one. -/
def pairs (opts : List (Char × String)) : List String :=
  opts.flatMap fun o => [String.ofList ['-', o.1], o.2]

theorem sshRead_pairs {opts : List (Char × String)}
    (h : ∀ o ∈ opts, t o.1 = some true ∧ o.1 ≠ '-') (args : List String) :
    sshRead t (pairs opts ++ args) = (sshRead t args).map fun r =>
      { r with opts := opts.map (fun o => ⟨o.1, some o.2⟩) ++ r.opts } := by
  induction opts with
  | nil => exact Option.map_id'.symm
  | cons o opts ih =>
    obtain ⟨⟨ht, hd⟩, hopts⟩ := List.forall_mem_cons.mp h
    have hcons : pairs (o :: opts) ++ args =
        String.ofList ['-', o.1] :: o.2 :: (pairs opts ++ args) := rfl
    rw [hcons, sshRead_pair ht hd, ih hopts, Option.map_map]
    rfl

/-- Behind any options that take an argument, destination and command are read as they are exactly
where neither begins with a dash. -/
theorem sshRead_iff {opts : List (Char × String)} (h : ∀ o ∈ opts, t o.1 = some true ∧ o.1 ≠ '-') :
    sshRead t (pairs opts ++ [destination, command]) =
      some ⟨opts.map fun o => ⟨o.1, some o.2⟩, destination, [command]⟩ ↔
    ¬ IsDashed destination ∧ ¬ IsDashed command := by
  rw [sshRead_pairs h]
  constructor
  · intro hread
    obtain ⟨⟨opts', destination', command'⟩, hr, heq⟩ := Option.map_eq_some_iff.mp hread
    have hopts : opts' = [] := List.append_right_eq_self.mp (congrArg Reading.opts heq)
    have hdestination : destination' = destination := congrArg Reading.destination heq
    have hcommand : command' = [command] := congrArg Reading.command heq
    subst hopts hdestination hcommand
    exact not_or.mp fun hdashed => sshRead_dashed hdashed hr
  · rintro ⟨hd, hc⟩
    rw [sshRead_plain hd hc, Option.map_some, List.append_nil]

end SshRead

end Hbird.Getopt
