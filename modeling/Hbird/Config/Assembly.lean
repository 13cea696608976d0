import Hbird.Config.Composition

namespace Hbird.Config

open Hbird.Text

/-- A field of the configuration: its key, the shape that the key is assigned, how it is read and
where it is kept. It reads its own key only and refuses the other shape. -/
structure Field : Type 1 where
  key : String
  expected : String
  {type : Type}
  reader : Reader type
  get : ClusterConfig → type
  reads : ∀ raw, reader raw =
    (reader ((Raw.lookup raw key).toList.map fun v => (key, v))).map fun r =>
      (r.1, raw.filter (·.1 ≠ key))
  mismatch : ∀ lineNo value, shape value ≠ expected →
    reader [(key, lineNo, value)] = .error (.typeMismatch key expected (shape value) lineNo)

/-- What the field is, given what its key was last assigned. -/
def Field.read (f : Field) (assigned : Option (Nat × Value)) : Except Error f.type :=
  (f.reader (assigned.toList.map fun v => (f.key, v))).map (·.1)

section Readers

variable {α : Type} {key : String} {absent : Except Error α} {read : Nat → String → Except Error α}

/-- What `takeScalar` makes of what the key was assigned. -/
def readScalar (key : String) (absent : Except Error α) (read : Nat → String → Except Error α) :
    Option (Nat × Value) → Except Error α
  | none => absent
  | some (lineNo, .scalar text) => read lineNo text
  | some (lineNo, .array elements) =>
    .error (.typeMismatch key "scalar" (shape (.array elements)) lineNo)

/-- What `takeOptionalArray` makes of what the key was assigned. -/
def readArray (key : String) : Option (Nat × Value) → Except Error (Option (List String))
  | none => .ok none
  | some (_, .array elements) => .ok (some elements)
  | some (lineNo, .scalar text) =>
    .error (.typeMismatch key "array" (shape (.scalar text)) lineNo)

theorem takeScalar_eq (raw : Raw) : takeScalar key absent read raw =
    (readScalar key absent read (raw.lookup key)).map fun x => (x, raw.filter (·.1 ≠ key)) := by
  rw [takeScalar]
  simp only [bind, StateT.bind, takeKey, Except.bind, Raw.lookup]
  cases (raw.find? (·.1 = key)).map (·.2) with
  | none => cases absent <;> rfl
  | some v =>
    obtain ⟨lineNo, text | elements⟩ := v
    · change (StateT.lift (read lineNo text) _ : Except Error _) = Except.map _ (read lineNo text)
      cases h : read lineNo text <;> simp [StateT.lift, bind, Except.bind, Except.map, pure, Except.pure]
    · rfl

theorem takeOptionalArray_eq (raw : Raw) : takeOptionalArray key raw =
    (readArray key (raw.lookup key)).map fun x => (x, raw.filter (·.1 ≠ key)) := by
  rw [takeOptionalArray]
  simp only [bind, StateT.bind, takeKey, Except.bind, Raw.lookup]
  cases (raw.find? (·.1 = key)).map (·.2) with
  | none => rfl
  | some v => obtain ⟨lineNo, text | elements⟩ := v <;> rfl

theorem lookup_single (key : String) (o : Option (Nat × Value)) :
    Raw.lookup (o.toList.map fun v => (key, v)) key = o := by
  cases o <;> simp [Raw.lookup]

end Readers

/-- A field that a scalar gives. -/
def Field.scalar {α : Type} {key : String} {absent : Except Error α}
    {read : Nat → String → Except Error α} (reader : Reader α)
    (hreader : reader = takeScalar key absent read) (get : ClusterConfig → α) : Field where
  key := key
  expected := "scalar"
  reader := reader
  get := get
  reads := by
    intro raw
    rw [hreader, takeScalar_eq, takeScalar_eq, lookup_single]
    cases readScalar key absent read (raw.lookup key) <;> rfl
  mismatch := by
    intro lineNo value h
    cases value with
    | scalar text => exact absurd rfl h
    | array elements => rw [hreader, takeScalar_eq, Raw.lookup]; simp [readScalar, Except.map]

/-- A field that an array gives. -/
def Field.array (key : String) (get : ClusterConfig → Option (List String)) : Field where
  key := key
  expected := "array"
  reader := takeOptionalArray key
  get := get
  reads := by
    intro raw
    rw [takeOptionalArray_eq, takeOptionalArray_eq, lookup_single]
    cases readArray key (raw.lookup key) <;> rfl
  mismatch := by
    intro lineNo value h
    cases value with
    | array elements => exact absurd rfl h
    | scalar text => rw [takeOptionalArray_eq, Raw.lookup]; simp [readArray, Except.map]

/-- The fields in the order in which they are read. -/
def fields (sourcePath : String) : List Field := [
  .scalar (takeRequiredScalar "CP_NAME" sourcePath) rfl (·.cpName),
  .scalar (takeRequiredScalar "SSH_PUBKEY_FILE" sourcePath) rfl (·.sshPubkeyFile),
  .scalar (takeOptionalScalar "KVM_HOST") rfl (·.kvmHost),
  .scalar (takeScalarOrDefault "IMAGE_SOURCE" "ghcr") rfl (·.imageSource),
  .scalar (takeScalarOrDefault "GHCR_TAG" "latest") rfl (·.ghcrTag),
  .scalar (takeU32OrDefault "ENABLE_CLOUD_INIT" 0) rfl (·.enableCloudInit),
  .scalar (takeBoolStrictOrDefault "AUTO_UPDATE_CP" true) rfl (·.autoUpdateCp),
  .scalar (takeBoolStrictOrDefault "SWITCH_TO_GHCR" true) rfl (·.switchToGhcr),
  .scalar (takeU32OrDefault "CP_MEMORY" 8192) rfl (·.cpMemory),
  .scalar (takeU32OrDefault "CP_VCPUS" 4) rfl (·.cpVcpus),
  .scalar (takeU32OrDefault "WORKER_MEMORY" 4096) rfl (·.workerMemory),
  .scalar (takeU32OrDefault "WORKER_VCPUS" 2) rfl (·.workerVcpus),
  .scalar (takeScalarOrDefault "POOL_DIR" "/var/lib/libvirt/images") rfl (·.poolDir),
  .scalar (takeBoolOrDefault "RUN_VERIFY" false) rfl (·.runVerify),
  .scalar (takeOptionalScalar "BOOTC_UPDATE_SCHEDULE") rfl (·.bootcUpdateSchedule),
  .scalar (takeOptionalScalar "BOOTC_UPDATE_REPO_K8S") rfl (·.bootcUpdateRepoK8s),
  .scalar (takeOptionalScalar "BOOTC_UPDATE_REPO_WORKER") rfl (·.bootcUpdateRepoWorker),
  .array "WORKER_NAMES" (·.workerNames),
  .scalar (takeOptionalScalar "CP_IP") rfl (·.cpIp),
  .array "WORKER_IPS" (·.workerIps),
  .scalar (takeOptionalScalar "POD_CIDR") rfl (·.podCidr),
  .scalar (takeOptionalScalar "SERVICE_CIDR") rfl (·.serviceCidr),
  .scalar (takeOptionalScalar "CP_MAC") rfl (·.cpMac),
  .array "WORKER_MACS" (·.workerMacs),
  .scalar (takeOptionalScalar "EXTRA_NETWORK") rfl (·.extraNetwork),
  .scalar (takeOptionalScalar "EXTRA_NET_CP_MAC") rfl (·.extraNetCpMac),
  .scalar (takeOptionalScalar "EXTRA_NET_CP_IP") rfl (·.extraNetCpIp),
  .array "EXTRA_NET_WORKER_MACS" (·.extraNetWorkerMacs),
  .array "EXTRA_NET_WORKER_IPS" (·.extraNetWorkerIps)]

theorem fields_nodup (sourcePath : String) : ((fields sourcePath).map (·.key)).Nodup := by
  have hkeys : (fields sourcePath).map (·.key) = (fields "").map (·.key) := rfl
  rw [hkeys]
  decide

/-- What reading the fields `fs` makes of the assignments that are left: where each of them can be
read the configuration holds them all and warns of the other keys, and else the first one that
cannot be read gives its error. -/
structure Assembles (fs : List Field) (P : ClusterConfig → Prop)
    (reader : Reader ClusterConfig) : Prop where
  ok : ∀ raw config left, reader raw = .ok (config, left) → P config ∧
    (∀ f ∈ fs, f.read (Raw.lookup raw f.key) = .ok (f.get config)) ∧
      config.warnings = unknownKeys (raw.filter (·.1 ∉ fs.map (·.key)))
  error : ∀ raw e, reader raw = .error e → ∃ before f after, fs = before ++ f :: after ∧
    (∀ g ∈ before, ∃ x, g.read (Raw.lookup raw g.key) = .ok x) ∧
      f.read (Raw.lookup raw f.key) = .error e

theorem assembles_nil {P : ClusterConfig → Prop} {config : List Warning → ClusterConfig}
    (hP : ∀ warnings, P (config warnings)) (hw : ∀ warnings, (config warnings).warnings = warnings) :
    Assembles [] P (do let warnings := unknownKeys (← get); pure (config warnings)) where
  ok := by
    intro raw c left h
    cases h
    refine ⟨hP _, by simp, ?_⟩
    rw [hw, List.filter_eq_self.mpr (by simp)]
  error := by
    intro raw e h
    cases h

theorem assembles_cons {f : Field} {fs : List Field} {P : ClusterConfig → Prop}
    {k : f.type → Reader ClusterConfig} (hf : f.key ∉ fs.map (·.key))
    (h : ∀ x, Assembles fs (fun config => P config ∧ f.get config = x) (k x)) :
    Assembles (f :: fs) P (f.reader >>= k) := by
  have hbind : ∀ raw : Raw, (f.reader >>= k) raw =
      f.read (Raw.lookup raw f.key) >>= fun x => k x (raw.filter (·.1 ≠ f.key)) := by
    intro raw
    change f.reader raw >>= (fun r => k r.1 r.2) = _
    rw [f.reads, Field.read]
    cases f.reader ((Raw.lookup raw f.key).toList.map fun v => (f.key, v)) <;> rfl
  have hother : ∀ raw : Raw, ∀ g ∈ fs, Raw.lookup (raw.filter (·.1 ≠ f.key)) g.key = raw.lookup g.key := by
    intro raw g hg
    refine Raw.lookup_filter fun he => hf ?_
    rw [← he]
    exact List.mem_map_of_mem hg
  constructor
  · intro raw config left hok
    rw [hbind] at hok
    obtain ⟨x, hx, hok⟩ := bind_eq_ok.mp hok
    obtain ⟨⟨hP, hget⟩, hfs, hw⟩ := (h x).ok _ _ _ hok
    refine ⟨hP, ?_, ?_⟩
    · refine List.forall_mem_cons.mpr ⟨by rw [hx, hget], fun g hg => ?_⟩
      rw [← hother raw g hg]
      exact hfs g hg
    · rw [hw, List.filter_filter]
      congr 1
      apply List.filter_congr
      intro a _
      rw [Bool.eq_iff_iff]
      simp [and_comm]
  · intro raw e herr
    rw [hbind] at herr
    cases hx : f.read (Raw.lookup raw f.key) with
    | error e' =>
      rw [hx] at herr
      cases herr
      exact ⟨[], f, fs, rfl, by simp, hx⟩
    | ok x =>
      rw [hx] at herr
      obtain ⟨before, g, after, rfl, hbefore, hg⟩ := (h x).error _ _ herr
      refine ⟨f :: before, g, after, rfl, ?_, ?_⟩
      · refine List.forall_mem_cons.mpr ⟨⟨x, hx⟩, fun g' hg' => ?_⟩
        rw [← hother raw g' (List.mem_append_left _ hg')]
        exact hbefore g' hg'
      · rw [← hother raw g (by simp)]
        exact hg

theorem buildConfig_assembles (sourcePath : String) :
    Assembles (fields sourcePath) (fun _ => True) (buildConfig sourcePath) := by
  rw [fields, buildConfig]
  iterate 29 refine assembles_cons (by simp [Field.scalar, Field.array]) fun _ => ?_
  refine assembles_nil (fun _ => ?_) fun _ => rfl
  iterate 29 refine ⟨?_, rfl⟩
  trivial

section Warnings

variable {raw : Raw} {key : String} {as : List Assignment}

def Raw.Distinct (raw : Raw) : Prop := (raw.map (·.1)).Nodup

theorem Raw.Distinct.filter (h : raw.Distinct) (p : Assignment → Bool) :
    Raw.Distinct (raw.filter p) := by
  rw [Distinct] at h ⊢
  exact h.sublist (List.filter_sublist.map _)

theorem Raw.Distinct.insert (h : raw.Distinct) (key : String) (lineNo : Nat) (value : Value) :
    (raw.insert key lineNo value).Distinct := by
  rw [Distinct, Raw.insert, List.map_cons, List.nodup_cons]
  refine ⟨?_, h.filter _⟩
  intro hmem
  obtain ⟨a, ha, rfl⟩ := List.mem_map.mp hmem
  simpa using (List.mem_filter.mp ha).2

theorem Raw.distinct_assign (as : List Assignment) : (Raw.assign [] as).Distinct := by
  induction as using List.reverseRecOn with
  | nil => exact List.nodup_nil
  | append_singleton as a ih =>
    rw [assign_append]
    exact ih.insert _ _ _

theorem Raw.mem_of_lookup {v : Nat × Value} (h : raw.lookup key = some v) : (key, v) ∈ raw := by
  obtain ⟨a, ha, rfl⟩ := Option.map_eq_some_iff.mp h
  have hk : a.1 = key := by simpa using List.find?_some ha
  rw [← hk]
  exact List.mem_of_find?_eq_some ha

theorem Raw.Distinct.lookup_of_mem (h : raw.Distinct) {v : Nat × Value} (hm : (key, v) ∈ raw) :
    raw.lookup key = some v := by
  induction raw with
  | nil => cases hm
  | cons a raw ih =>
    obtain ⟨ha, hraw⟩ := List.nodup_cons.mp h
    obtain rfl | hm := List.mem_cons.mp hm
    · simp [lookup]
    · have hmem : key ∈ raw.map (·.1) := List.mem_map_of_mem hm
      have hne : a.1 ≠ key := fun he => ha (by simpa [he] using hmem)
      rw [lookup, List.find?_cons_of_neg (by simpa using hne)]
      exact ih hraw hm

theorem Raw.Distinct.filter_key (h : raw.Distinct) {v : Nat × Value}
    (hv : raw.lookup key = some v) : raw.filter (·.1 = key) = [(key, v)] := by
  induction raw with
  | nil => cases hv
  | cons a raw ih =>
    obtain ⟨ha, hraw⟩ := List.nodup_cons.mp h
    by_cases hk : a.1 = key
    · have hrest : raw.filter (·.1 = key) = [] := by
        rw [List.filter_eq_nil_iff]
        intro b hb he
        have hmem : b.1 ∈ raw.map (·.1) := List.mem_map_of_mem hb
        have hb' : b.1 = key := by simpa using he
        exact ha (by simpa [hk, hb'] using hmem)
      rw [lookup, List.find?_cons_of_pos (by simpa using hk)] at hv
      cases hv
      rw [List.filter_cons_of_pos (by simpa using hk), hrest, ← hk]
    · rw [lookup, List.find?_cons_of_neg (by simpa using hk)] at hv
      rw [List.filter_cons_of_neg (by simpa using hk)]
      exact ih hraw hv

theorem unknownKeys_perm (raw : Raw) :
    (unknownKeys raw).Perm (raw.map fun a => ⟨a.1, a.2.1⟩) := List.mergeSort_perm _ _

theorem unknownKeys_sorted (raw : Raw) :
    (unknownKeys raw).Pairwise fun a b => a.lineNo ≤ b.lineNo := by
  refine (List.pairwise_mergeSort ?_ ?_ _).imp ?_
  · intro a b c hab hbc
    simp only [Bool.or_eq_true, decide_eq_true_eq, Bool.and_eq_true, beq_iff_eq] at hab hbc ⊢
    obtain hab | ⟨hab, hk⟩ := hab <;> obtain hbc | ⟨hbc, hk'⟩ := hbc
    · exact .inl (hab.trans hbc)
    · exact .inl (hbc ▸ hab)
    · exact .inl (hab ▸ hbc)
    · exact .inr ⟨hab.trans hbc, hk.trans hk'⟩
  · intro a b
    simp only [Bool.or_eq_true, decide_eq_true_eq, Bool.and_eq_true, beq_iff_eq]
    obtain h | h | h := Nat.lt_trichotomy a.lineNo b.lineNo
    · exact .inl (.inl h)
    · obtain hk | hk := le_total a.key b.key
      · exact .inl (.inr ⟨h, hk⟩)
      · exact .inr (.inr ⟨h.symm, hk⟩)
    · exact .inr (.inl h)
  · intro a b h
    simp only [Bool.or_eq_true, decide_eq_true_eq, Bool.and_eq_true, beq_iff_eq] at h
    omega

theorem filter_unknownKeys_perm (raw : Raw) (key : String) :
    ((unknownKeys raw).filter (·.key = key)).Perm
      ((raw.filter (·.1 = key)).map fun a => ⟨a.1, a.2.1⟩) := by
  have hmap := (unknownKeys_perm raw).filter (·.key = key)
  rw [List.filter_map] at hmap
  exact hmap

end Warnings

section Fields

variable {fs : List Field} {f : Field} {key : String}

theorem filter_key_eq_singleton (h : (fs.map (·.key)).Nodup) (hf : f ∈ fs) (hk : f.key = key) :
    fs.filter (·.key = key) = [f] := by
  induction fs with
  | nil => cases hf
  | cons g fs ih =>
    obtain ⟨hg, hfs⟩ := List.nodup_cons.mp h
    obtain rfl | hf := List.mem_cons.mp hf
    · have hrest : fs.filter (·.key = key) = [] := by
        rw [List.filter_eq_nil_iff]
        intro g' hg' he
        have hk' : g'.key = key := by simpa using he
        have hmem : g'.key ∈ fs.map (·.key) := List.mem_map_of_mem hg'
        exact hg (by simpa [hk, hk'] using hmem)
      rw [List.filter_cons_of_pos (by simpa using hk), hrest]
    · have hmem : f.key ∈ fs.map (·.key) := List.mem_map_of_mem hf
      have hne : g.key ≠ key := by
        intro he
        exact hg (by simpa [he, ← hk] using hmem)
      rw [List.filter_cons_of_neg (by simpa using hne)]
      exact ih hfs hf

end Fields

/-- The last assignment of its key. -/
def IsLast (as : List Assignment) (key : String) (line : Nat) (value : Value) : Prop :=
  ∃ before after, as = before ++ (key, line, value) :: after ∧ ∀ a ∈ after, a.1 ≠ key

/-- One field has the key, holds what was assigned, and no warning is about the key. -/
def Taken (sourcePath key : String) (line : Nat) (value : Value) (config : ClusterConfig) : Prop :=
  (∃ f, (fields sourcePath).filter (·.key = key) = [f] ∧
    f.read (some (line, value)) = .ok (f.get config)) ∧
  config.warnings.filter (·.key = key) = []

/-- No field has the key, and one warning is about it. -/
def Reported (sourcePath key : String) (line : Nat) (config : ClusterConfig) : Prop :=
  (fields sourcePath).filter (·.key = key) = [] ∧
    config.warnings.filter (·.key = key) = [⟨key, line⟩]

/-- Every assigned key is in a field or in a warning, and nothing else is. -/
structure Accounted (sourcePath : String) (as : List Assignment) (config : ClusterConfig) : Prop where
  assigned : ∀ key line value, IsLast as key line value →
    Taken sourcePath key line value config ∨ Reported sourcePath key line config
  absent : ∀ f ∈ fields sourcePath, (∀ a ∈ as, a.1 ≠ f.key) → f.read none = .ok (f.get config)
  warned : ∀ w ∈ config.warnings, ∃ value, IsLast as w.key w.lineNo value
  sorted : config.warnings.Pairwise fun a b => a.lineNo ≤ b.lineNo

/-- A field that its key's last assignment has the wrong shape for stops the reading, where no
field before it does. -/
def Mismatched (sourcePath : String) (as : List Assignment) (f : Field) (line : Nat)
    (value : Value) (result : Except Error ClusterConfig) : Prop :=
  result = .error (.typeMismatch f.key f.expected (shape value) line) ∨
    ∃ before g after e, fields sourcePath = before ++ g :: after ∧ f ∈ after ∧
      g.read (Raw.lookup (Raw.assign [] as) g.key) = .error e ∧ result = .error e

section Parse

variable {input sourcePath : String} {as : List Assignment} {config : ClusterConfig}

theorem parseWithSource_eq (has : assignments 0 1 (splitLines input.toList) = .ok as) :
    parseWithSource input sourcePath =
      (buildConfig sourcePath (Raw.assign [] as)).map (·.1) := by
  rw [parseWithSource, tokenize_eq_assign, has]
  rfl

theorem parse_accounted (has : assignments 0 1 (splitLines input.toList) = .ok as)
    (h : parseWithSource input sourcePath = .ok config) : Accounted sourcePath as config := by
  rw [parseWithSource_eq has] at h
  obtain ⟨⟨config, left⟩, hbuild, rfl⟩ := map_eq_ok.mp h
  obtain ⟨-, hfields, hwarn⟩ := (buildConfig_assembles sourcePath).ok _ _ _ hbuild
  have hdistinct := Raw.distinct_assign as
  refine ⟨?_, ?_, ?_, by rw [hwarn]; exact unknownKeys_sorted _⟩
  · intro key line value hlast
    have hlookup := Raw.lookup_assign_eq_some.mpr hlast
    have hperm := filter_unknownKeys_perm
      ((Raw.assign [] as).filter (·.1 ∉ (fields sourcePath).map (·.key))) key
    rw [← hwarn, List.filter_filter] at hperm
    by_cases hkey : key ∈ (fields sourcePath).map (·.key)
    · obtain ⟨f, hf, rfl⟩ := List.mem_map.mp hkey
      refine .inl ⟨⟨f, filter_key_eq_singleton (fields_nodup _) hf rfl, ?_⟩, ?_⟩
      · rw [← hlookup]
        exact hfields f hf
      · have hfilter : (Raw.assign [] as).filter (fun a =>
            a.1 = f.key && decide (a.1 ∉ (fields sourcePath).map (·.key))) = [] := by
          rw [List.filter_eq_nil_iff]
          intro a _ ha
          rw [Bool.and_eq_true, decide_eq_true_eq, decide_eq_true_eq] at ha
          exact ha.2 (ha.1 ▸ hkey)
        rw [hfilter] at hperm
        exact hperm.eq_nil
    · refine .inr ⟨?_, ?_⟩
      · rw [List.filter_eq_nil_iff]
        intro f hf he
        exact hkey (List.mem_map.mpr ⟨f, hf, by simpa using he⟩)
      · have hfilter : (Raw.assign [] as).filter (fun a =>
            a.1 = key && decide (a.1 ∉ (fields sourcePath).map (·.key))) = [(key, line, value)] := by
          rw [← hdistinct.filter_key hlookup]
          apply List.filter_congr
          intro a _
          by_cases ha : a.1 = key <;> simp [ha, hkey]
        rw [hfilter] at hperm
        exact List.perm_singleton.mp hperm
  · intro f hf hnone
    rw [← Raw.lookup_assign_eq_none.mpr hnone]
    exact hfields f hf
  · intro w hw
    rw [hwarn] at hw
    obtain ⟨a, ha, rfl⟩ := List.mem_map.mp ((unknownKeys_perm _).mem_iff.mp hw)
    refine ⟨a.2.2, Raw.lookup_assign_eq_some.mp ?_⟩
    exact hdistinct.lookup_of_mem (List.mem_filter.mp ha).1

theorem parse_mismatched (has : assignments 0 1 (splitLines input.toList) = .ok as) {f : Field}
    (hf : f ∈ fields sourcePath) {line : Nat} {value : Value} (hlast : IsLast as f.key line value)
    (hshape : shape value ≠ f.expected) :
    Mismatched sourcePath as f line value (parseWithSource input sourcePath) := by
  have hlookup := Raw.lookup_assign_eq_some.mpr hlast
  have hread : f.read ((Raw.assign [] as).lookup f.key) =
      .error (.typeMismatch f.key f.expected (shape value) line) := by
    rw [hlookup]
    exact congrArg (Except.map (·.1)) (f.mismatch line value hshape)
  rw [parseWithSource_eq has]
  cases hbuild : buildConfig sourcePath (Raw.assign [] as) with
  | ok r =>
    obtain ⟨-, hfields, -⟩ := (buildConfig_assembles sourcePath).ok _ _ _ hbuild
    rw [hfields f hf] at hread
    cases hread
  | error e =>
    obtain ⟨before, g, after, hfs, hbefore, hg⟩ := (buildConfig_assembles sourcePath).error _ _ hbuild
    rw [hfs] at hf
    obtain hf | hf := List.mem_append.mp hf
    · obtain ⟨x, hx⟩ := hbefore f hf
      rw [hx] at hread
      cases hread
    · obtain rfl | hf := List.mem_cons.mp hf
      · rw [hread] at hg
        cases hg
        exact .inl rfl
      · exact .inr ⟨before, g, after, e, hfs, hf, hg, rfl⟩

end Parse

/-- A text put behind another one overrides what that one assigns, with its lines moved on, and
is accepted as it is on its own. Of an accepted text every assigned key is in one field or in one
warning. A field whose key was last assigned the wrong shape is refused with that shape, or the
text is refused for a field that is read before it. -/
theorem parse_composes :
    (∀ (a b : String) (m : Raw), tokenize a = .ok m →
      ((∃ r, tokenize (a ++ "\n" ++ b) = .ok r) ↔ ∃ r, tokenize b = .ok r) ∧
        ∀ r r', tokenize b = .ok r → tokenize (a ++ "\n" ++ b) = .ok r' →
          m.Overridden r r' (lines (a ++ "\n")).length) ∧
      (∀ (input sourcePath : String) (config : ClusterConfig),
        parseWithSource input sourcePath = .ok config →
          ∃ as, assignments 0 1 (splitLines input.toList) = .ok as ∧
            tokenize input = .ok (Raw.assign [] as) ∧ Accounted sourcePath as config) ∧
      ∀ (input sourcePath : String) (as : List Assignment) (f : Field) (line : Nat) (value : Value),
        assignments 0 1 (splitLines input.toList) = .ok as → f ∈ fields sourcePath →
          IsLast as f.key line value → shape value ≠ f.expected →
            Mismatched sourcePath as f line value (parseWithSource input sourcePath) := by
  refine ⟨?_, ?_, ?_⟩
  · intro a b m h
    exact ⟨tokenize_append_ok_iff h b, fun r r' hr hr' => tokenize_append_overridden h hr hr'⟩
  · intro input sourcePath config h
    obtain ⟨raw, hraw, -⟩ := bind_eq_ok.mp h
    rw [tokenize_eq_assign] at hraw
    obtain ⟨as, has, rfl⟩ := map_eq_ok.mp hraw
    refine ⟨as, has, ?_, parse_accounted has h⟩
    rw [tokenize_eq_assign, has]
    rfl
  · intro input sourcePath as f line value has hf hlast hshape
    exact parse_mismatched has hf hlast hshape

/-- `CP_MAC` is no array, but is one to begin with here. -/
def mismatchedText : String := "CP_NAME=a\nSSH_PUBKEY_FILE=b\nCP_MAC=(c)"

theorem parse_composes_sample :
    ((∃ r, tokenize (mismatchedText ++ "\n" ++ "CP_MAC=d") = .ok r) ↔
      ∃ r, tokenize "CP_MAC=d" = .ok r) ∧
    (∃ as config, Accounted "<inline>" as config) ∧
    ∃ as f, Mismatched "<inline>" as f 3 (.array ["c"]) (parseStr mismatchedText) :=
  ⟨(parse_composes.1 mismatchedText "CP_MAC=d" _ rfl).1,
    (parse_composes.2.1 (mismatchedText ++ "\n" ++ "CP_MAC=d") "<inline>" _ rfl).elim fun as h =>
      ⟨as, _, h.2.2⟩,
    _, .scalar (takeOptionalScalar "CP_MAC") rfl (·.cpMac),
    parse_composes.2.2 mismatchedText "<inline>" _ _ 3 (.array ["c"]) rfl
      (by simp [fields]) ⟨[("CP_NAME", 1, .scalar "a"), ("SSH_PUBKEY_FILE", 2, .scalar "b")], [],
        rfl, by simp⟩ (by decide)⟩

/-- An error of a field that is read before comes first, and a later assignment makes good for a
wrong shape. -/
theorem mismatch_unreported :
    parseStr "CP_MAC=(c)" = .error (.missingRequired "CP_NAME" "<inline>") ∧
      ∃ config, parseStr (mismatchedText ++ "\n" ++ "CP_MAC=d") = .ok config ∧
        config.cpMac = some "d" :=
  ⟨rfl, _, rfl, rfl⟩

end Hbird.Config
