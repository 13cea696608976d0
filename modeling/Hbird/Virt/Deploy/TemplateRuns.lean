import Hbird.Interaction.World
import Hbird.Virt.Deploy.Template

namespace Hbird.Virt.Deploy

open Hbird.Interaction Hbird.Ssh Hbird.Text

/-- An image as `podman` has it: the text of its revision label, and the Containerfile that it was
made of. -/
structure Image where
  label : String
  containerfile : List UInt8
  deriving DecidableEq, Repr

/-- What a disk was built from, and where that came from. -/
structure Built where
  source : String
  image : Image
  deriving DecidableEq, Repr

/-- The build id of the image that a disk was built from. -/
def Built.buildId (b : Built) : Option String :=
  if b.source = "ghcr" ∨ b.source = "forgejo" then Deploy.buildId b.source (trim b.image.label)
  else if b.source = "local" then Deploy.buildId "local" (containerfileHash b.image.containerfile)
  else none

/-- The images of the KVM host, its disks with what they were built from, and its sidecars. -/
structure KvmHost where
  images : String → Option Image
  disk : String → Option Built
  text : String → Option String

namespace KvmHost

def putDisk (s : KvmHost) (path : String) (b : Option Built) : KvmHost :=
  { s with disk := Function.update s.disk path b }

def putText (s : KvmHost) (path : String) (text : Option String) : KvmHost :=
  { s with text := Function.update s.text path text }

variable {s : KvmHost} {path other : String} {b : Option Built} {text : Option String}

@[simp] theorem putDisk_images : (s.putDisk path b).images = s.images := rfl

@[simp] theorem putDisk_text : (s.putDisk path b).text = s.text := rfl

@[simp] theorem putDisk_self : (s.putDisk path b).disk path = b := Function.update_self ..

theorem putDisk_ne (h : other ≠ path) : (s.putDisk path b).disk other = s.disk other :=
  Function.update_of_ne h ..

@[simp] theorem putText_images : (s.putText path text).images = s.images := rfl

@[simp] theorem putText_disk : (s.putText path text).disk = s.disk := rfl

@[simp] theorem putText_self : (s.putText path text).text path = text := Function.update_self ..

theorem putText_ne (h : other ≠ path) : (s.putText path text).text other = s.text other :=
  Function.update_of_ne h ..

end KvmHost

/-- Commands that touch neither images nor disks nor sidecars. -/
inductive IsAside : Command → Prop
  | readPubkey : IsAside .readPubkey
  | writeBibConfig (path content : String) : IsAside (.writeBibConfig path content)
  | removeFile (path : String) : IsAside (.removeFile path)
  | refreshPool (pool : String) : IsAside (.refreshPool pool)

/-- What the steps of a build do to the KVM host. A command that fails may have done all, a part or
nothing of its work; what the process sees of its own machine is the KVM host only where the two
are one. -/
inductive Serves (plan : Plan) : World KvmHost Reply
  | aside {s : KvmHost} {c : Command} (h : IsAside c) (r : Except Error String) :
      Serves plan s (.run c) r s
  | inspect {s : KvmHost} {imageRef out : String} {image : Image}
      (h : s.images imageRef = some image) (hout : trim out = trim image.label) :
      Serves plan s (.run (.inspect imageRef)) (.ok out) s
  | inspectFailed {s : KvmHost} {imageRef : String} (e : Error) :
      Serves plan s (.run (.inspect imageRef)) (.error e) s
  | bib {s : KvmHost} {imageRef config : String} {image : Image} (out : String)
      (h : s.images imageRef = some image) :
      Serves plan s (.run (.bib imageRef config)) (.ok out)
        (s.putDisk plan.stagingQcow (some ⟨plan.imageSource, image⟩))
  | bibFailed {s : KvmHost} {imageRef config : String} (e : Error) (b : Option Built) :
      Serves plan s (.run (.bib imageRef config)) (.error e) (s.putDisk plan.stagingQcow b)
  | move {s : KvmHost} {src dst : String} {b : Built} (r : Except Error String)
      (h : s.disk src = some b) :
      Serves plan s (.run (.move src dst)) r ((s.putDisk src none).putDisk dst (some b))
  | moveFailed {s : KvmHost} {src dst : String} (e : Error) :
      Serves plan s (.run (.move src dst)) (.error e) s
  | removeDir {s : KvmHost} {dir : String} (r : Except Error String) :
      Serves plan s (.run (.removeDir dir)) r (s.putDisk (dir ++ "/disk.qcow2") none)
  | removeDirFailed {s : KvmHost} {dir : String} (e : Error) :
      Serves plan s (.run (.removeDir dir)) (.error e) s
  | writeSidecar {s : KvmHost} {id path : String} (out : String) :
      Serves plan s (.run (.writeSidecar id path)) (.ok out) (s.putText path (some (id ++ "\n")))
  | writeSidecarFailed {s : KvmHost} {id path : String} (e : Error) (text : Option String) :
      Serves plan s (.run (.writeSidecar id path)) (.error e) (s.putText path text)
  | pathExists {s : KvmHost} {path : String} {r : Bool}
      (h : plan.conn = .onHost → r = (s.disk path).isSome) : Serves plan s (.pathExists path) r s
  | readToString {s : KvmHost} {path : String} {r : Option String}
      (h : plan.conn = .onHost → r = s.text path ∨ r = none) : Serves plan s (.readToString path) r s
  | readFile {s : KvmHost} {path : String} (r : Option (List UInt8)) :
      Serves plan s (.readFile path) r s
  | renderBibConfig {s : KvmHost} {pubkeyContents : String} (r : String) :
      Serves plan s (.renderBibConfig pubkeyContents) r s

/-- The templates that the code makes. -/
def IsTemplate (path : String) : Prop :=
  ∃ poolDir, path = cpTemplate poolDir ∨ path = workerTemplate poolDir

/-- A template with a sidecar that records an id was built from the image with that id. -/
def RecordedAt (s : KvmHost) (path : String) : Prop :=
  ∀ text b, s.text (sidecarPath path) = some text → trim text ≠ "" → s.disk path = some b →
    b.buildId = some (trim text)

def Recorded (s : KvmHost) : Prop := ∀ path, IsTemplate path → RecordedAt s path

/-- One use of `build_one_qcow2`. -/
structure Build where
  plan : Plan
  pid : UInt32
  imageRef : String
  qcow : String
  before : KvmHost
  trace : Trace Reply
  outcome : Except Failure Unit
  after : KvmHost

namespace Build

variable (b : Build)

structure IsRun : Prop where
  template : b.qcow = cpTemplate b.plan.poolDir ∨ b.qcow = workerTemplate b.plan.poolDir
  finishes : Finishes (buildOneQcow2 b.plan b.pid b.imageRef b.qcow) b.trace b.outcome
  leads : Leads (Serves b.plan) b.before b.trace b.after

/-- The id of the image can be told. -/
structure Known : Prop where
  source : b.plan.imageSource = "ghcr" ∨ b.plan.imageSource = "forgejo" ∨ b.plan.imageSource = "local"
  inspected : ∀ e, ⟨.run (.inspect b.imageRef), .error e⟩ ∉ b.trace
  labelled : ∀ out, ⟨.run (.inspect b.imageRef), .ok out⟩ ∈ b.trace → trim out ≠ ""
  read : ⟨.readFile (b.plan.containerfile b.imageRef), none⟩ ∉ b.trace

/-- The template is there, and nothing forces a new one. -/
def Kept : Prop := ⟨.pathExists b.qcow, false⟩ ∉ b.trace ∧ b.plan.forceRebuild = false

/-- Where a sidecar stands, the id is known and nothing fails from the move of the disk on; a sidecar
is written in full; and a local image was made of the Containerfile that is read. -/
structure Careful : Prop where
  replaced : b.before.text (sidecarPath b.qcow) = none ∨
    (∀ src dst e, ⟨.run (.move src dst), .error e⟩ ∉ b.trace) ∧
      (∀ dir e, ⟨.run (.removeDir dir), .error e⟩ ∉ b.trace) ∧ (b.Known ∨ b.Kept)
  written : ∀ id path e, ⟨.run (.writeSidecar id path), .error e⟩ ∉ b.trace
  made : b.plan.imageSource = "local" → ∀ contents image,
    ⟨.readFile (b.plan.containerfile b.imageRef), some contents⟩ ∈ b.trace →
      b.before.images b.imageRef = some image → image.containerfile = contents

end Build

/-- What goes on between two builds: images come and go, and disks and sidecars go. -/
structure Between (s s' : KvmHost) : Prop where
  disk : ∀ path b, s'.disk path = some b → IsTemplate path → s.disk path = some b
  text : ∀ path text, s'.text path = some text → s.text path = some text

/-- Builds one after the other, those of one run of `deploy-cluster` and those of the next ones. -/
inductive Sequence : KvmHost → List Build → KvmHost → Prop
  | nil (s : KvmHost) : Sequence s [] s
  | between {s s' s'' : KvmHost} {bs : List Build} (h : Between s s') (hbs : Sequence s' bs s'') :
      Sequence s bs s''
  | build {b : Build} {s : KvmHost} {bs : List Build} (h : b.IsRun) (hbs : Sequence b.after bs s) :
      Sequence b.before (b :: bs) s

section Ids

theorem sidecarPath_injective {path other : String} (h : sidecarPath path = sidecarPath other) :
    path = other := by
  have hlist := congrArg String.toList h
  rw [sidecarPath, sidecarPath, String.toList_append, String.toList_append] at hlist
  exact String.toList_injective (List.append_cancel_right hlist)

/-- The disk in the staging directory is no template. -/
theorem stagingQcow_ne {plan : Plan} {path : String} (h : IsTemplate path) :
    path ≠ plan.stagingQcow := by
  rintro rfl
  obtain ⟨poolDir, h | h⟩ := h
  all_goals
    have hlist := congrArg (fun s => s.toList.reverse) h
    simp [Plan.stagingQcow, Plan.stagingDir, cpTemplate, workerTemplate] at hlist

/-- The end of an identifier is no blank, so that a line with it is read back. -/
def EndsSolid (id : String) : Prop := ∀ c ∈ id.toList.getLast?, isWhitespace c = false

theorem endsSolid_trim (s : String) : EndsSolid (trim s) := by
  intro c hc
  rw [trim, String.toList_ofList] at hc
  have hne : (s.toList.dropWhile isWhitespace).rdropWhile isWhitespace ≠ [] := by
    intro hnil
    rw [hnil] at hc
    cases hc
  have hlast := List.rdropWhile_last_not isWhitespace (s.toList.dropWhile isWhitespace) hne
  rw [List.getLast?_eq_some_getLast hne] at hc
  obtain rfl := Option.some.inj hc
  simpa using hlast

theorem getLast?_containerfileHash (contents : List UInt8) : ∃ d < 16,
    (containerfileHash contents).toList.getLast? = some (Nat.digitChar d) := by
  rw [containerfileHash]
  generalize (fnv1a64 contents &&& 0x0000ffffffffffff).toNat = n
  refine ⟨n % 16, Nat.mod_lt n (by decide), ?_⟩
  have hlast : (Nat.toDigits 16 n).getLast? = some (Nat.digitChar (n % 16)) := by
    obtain h | h := Nat.lt_or_ge n 16
    · rw [Nat.toDigits_of_lt_base h, Nat.mod_eq_of_lt h]
      rfl
    · rw [Nat.toDigits_of_base_le (by decide) h, List.getLast?_concat]
  rw [String.toList_ofList, List.getLast?_append_of_ne_nil _ Nat.toDigits_ne_nil, hlast]

theorem endsSolid_containerfileHash (contents : List UInt8) :
    EndsSolid (containerfileHash contents) := by
  intro c hc
  obtain ⟨d, hd, hlast⟩ := getLast?_containerfileHash contents
  rw [hlast] at hc
  obtain rfl := Option.some.inj hc
  have hsolid : ∀ d < 16, isWhitespace (Nat.digitChar d) = false := by decide
  exact hsolid d hd

theorem containerfileHash_ne (contents : List UInt8) : containerfileHash contents ≠ "" := by
  intro h
  obtain ⟨d, -, hlast⟩ := getLast?_containerfileHash contents
  rw [h] at hlast
  cases hlast

/-- What is written to a sidecar is what a reader takes from it. -/
theorem trim_record {source id : String}
    (hs : source = "ghcr" ∨ source = "forgejo" ∨ source = "local") (hid : EndsSolid id) :
    trim (source ++ ":" ++ id ++ "\n") = source ++ ":" ++ id := by
  have hhead : ∃ c rest, source.toList = c :: rest ∧ isWhitespace c = false := by
    obtain rfl | rfl | rfl := hs <;> exact ⟨_, _, String.toList_ofList, by decide⟩
  obtain ⟨c, rest, hsource, hc⟩ := hhead
  have hlast : (c :: (rest ++ ':' :: id.toList)).rdropWhile isWhitespace =
      c :: (rest ++ ':' :: id.toList) := by
    refine List.rdropWhile_eq_self_iff.mpr fun hne => ?_
    have hget : (c :: (rest ++ ':' :: id.toList)).getLast? =
        some ((c :: (rest ++ ':' :: id.toList)).getLast hne) := List.getLast?_eq_some_getLast hne
    generalize (c :: (rest ++ ':' :: id.toList)).getLast hne = last at hget ⊢
    rw [← List.cons_append, List.getLast?_append_of_ne_nil _ (List.cons_ne_nil _ _)] at hget
    cases hidlist : id.toList with
    | nil =>
      rw [hidlist] at hget
      obtain rfl := Option.some.inj hget
      decide
    | cons d ds =>
      rw [hidlist, List.getLast?_cons_cons, ← hidlist] at hget
      simp [hid last hget]
  apply String.toList_injective
  rw [trim, String.toList_ofList]
  simp only [String.toList_append, hsource, show ":".toList = [':'] from String.toList_ofList,
    show "\n".toList = ['\n'] from String.toList_ofList, List.cons_append, List.append_assoc,
    List.nil_append]
  rw [List.dropWhile_cons_of_neg (by simp [hc])]
  have hassoc : c :: (rest ++ ':' :: (id.toList ++ ['\n'])) =
      (c :: (rest ++ ':' :: id.toList)) ++ ['\n'] := by simp
  rw [hassoc, List.rdropWhile_concat_pos _ _ _ (by decide), hlast]

end Ids

section Rules

variable {α : Type} {w : World KvmHost Reply} {s : KvmHost} {c : Command} {text : String}
  {O : Except Failure α → KvmHost → Prop}

theorem wpe_outcome_run {f : Except Error String → Steps Failure α}
    (h : ∀ r s', w s (.run c) r s' → wpe w (f r) O s') : wpe w (Exec.outcome (run c) >>= f) O s :=
  wpe_bind.mpr (wpe_observe.mpr fun r s' hw => h r s' hw)

theorem wpe_perform_bind {q : Query} {f : Reply q → Steps Failure α}
    (h : ∀ r s', w s q r s' → wpe w (f r) O s') :
    wpe w (Exec.observe (Program.perform q) >>= f) O s :=
  wpe_bind.mpr (wpe_perform.mpr fun r s' hw => h r s' hw)

theorem wpe_wrapped_run {f : String → Steps Failure α}
    (hok : ∀ out s', w s (.run c) (.ok out) s' → wpe w (f out) O s')
    (herr : ∀ e s', w s (.run c) (.error e) s' → O (.error (.msg (text ++ e.toText))) s') :
    wpe w (wrapped text (run c) >>= f) O s := by
  refine wpe_bind.mpr (wpe_iff.mpr fun t o s' hf hl => ?_)
  obtain ⟨r, rfl, hr⟩ := finishes_context.mp hf
  obtain rfl := runs_perform.mp hr
  obtain ⟨s₁, hw, hl⟩ := leads_cons.mp hl
  obtain rfl := leads_nil.mp hl
  cases r with
  | ok out => exact hok out _ hw
  | error e => exact herr e _ hw

theorem wpe_ignore_run {f : Unit → Steps Failure α}
    (h : ∀ r s', w s (.run c) r s' → wpe w (f ()) O s') : wpe w (ignore (run c) >>= f) O s :=
  wpe_bind.mpr (wpe_outcome_run fun r s' hw => h r s' hw)

end Rules

/-- Texts and images are as they were, and so are the templates. -/
structure Undisturbed (s s' : KvmHost) : Prop where
  text : s'.text = s.text
  images : s'.images = s.images
  disk : ∀ path, IsTemplate path → s'.disk path = s.disk path

section States

variable {s s' s'' : KvmHost} {path : String} {plan : Plan}

theorem Undisturbed.refl (s : KvmHost) : Undisturbed s s := ⟨rfl, rfl, fun _ _ => rfl⟩

theorem Undisturbed.trans (h : Undisturbed s s') (h' : Undisturbed s' s'') : Undisturbed s s'' :=
  ⟨h'.text.trans h.text, h'.images.trans h.images,
    fun path hpath => (h'.disk path hpath).trans (h.disk path hpath)⟩

theorem Undisturbed.recorded (h : Undisturbed s s') (hs : Recorded s) : Recorded s' := by
  intro path hpath text b htext hne hdisk
  rw [h.text] at htext
  rw [h.disk path hpath] at hdisk
  exact hs path hpath text b htext hne hdisk

theorem undisturbed_staging (b : Option Built) : Undisturbed s (s.putDisk plan.stagingQcow b) :=
  ⟨rfl, rfl, fun _ hpath => KvmHost.putDisk_ne (stagingQcow_ne hpath)⟩

theorem Between.recorded (h : Between s s') (hs : Recorded s) : Recorded s' :=
  fun path hpath text b htext hne hdisk =>
    hs path hpath text b (h.text _ _ htext) hne (h.disk path b hdisk hpath)

end States

namespace Build

variable {b : Build} {s : KvmHost} {expected : Option String}

/-- The surroundings of a build, as its trace shows them. -/
def world (b : Build) : World KvmHost Reply := (Serves b.plan).restrict (· ∈ b.trace)

/-- The expected id, where there is one, is that of the image. -/
def Tells (b : Build) (expected : Option String) : Prop :=
  ∀ id, expected = some id → trim (id ++ "\n") = id ∧
    ∀ image, b.before.images b.imageRef = some image →
      Built.buildId ⟨b.plan.imageSource, image⟩ = some id

theorem tells_none : b.Tells none := by
  intro id h
  cases h

theorem wpe_computeExpectedBuildId (hc : b.Careful) (himages : s.images = b.before.images) :
    wpe b.world (computeExpectedBuildId b.plan b.imageRef) (fun o s' => s' = s ∧
      ∃ expected, o = .ok expected ∧ b.Tells expected ∧ (b.Known → expected ≠ none)) s := by
  rw [computeExpectedBuildId]
  split_ifs with hremote hlocal
  · refine wpe_outcome_run fun r s' hw => ?_
    obtain ⟨hserves, htrace⟩ := hw
    cases hserves with
    | aside h => cases h
    | inspectFailed e =>
      exact ⟨rfl, none, rfl, tells_none, fun hknown => absurd htrace (hknown.inspected e)⟩
    | @inspect _ _ out image himage hout =>
      refine ⟨rfl, _, rfl, fun id hid => ?_, fun hknown hnone => ?_⟩
      · rw [buildId] at hid
        split_ifs at hid with hempty
        obtain rfl := Option.some.inj hid
        refine ⟨trim_record (hremote.imp_right .inl) (endsSolid_trim out), fun image' himage' => ?_⟩
        rw [← himages, himage] at himage'
        obtain rfl := Option.some.inj himage'
        rw [Built.buildId, if_pos hremote, buildId, if_neg (by rwa [← hout]), hout]
      · rw [buildId, if_neg (hknown.labelled out htrace)] at hnone
        cases hnone
  · refine wpe_perform_bind fun r s' hw => ?_
    obtain ⟨hserves, htrace⟩ := hw
    cases hserves
    cases r with
    | none => exact ⟨rfl, none, rfl, tells_none, fun hknown => absurd htrace hknown.read⟩
    | some contents =>
      have hid : ((some contents).map containerfileHash).bind (buildId "local") =
          some ("local" ++ ":" ++ containerfileHash contents) := by
        rw [Option.map_some, Option.bind_some, buildId, if_neg (containerfileHash_ne contents)]
      refine ⟨rfl, _, rfl, fun id h => ?_, fun _ hnone => ?_⟩
      · rw [hid] at h
        obtain rfl := Option.some.inj h
        refine ⟨trim_record (.inr (.inr rfl)) (endsSolid_containerfileHash contents), fun image himage => ?_⟩
        rw [Built.buildId, if_neg hremote, if_pos hlocal, hc.made hlocal contents image htrace himage,
          buildId, if_neg (containerfileHash_ne contents)]
      · rw [hid] at hnone
        cases hnone
  · refine ⟨rfl, none, rfl, tells_none, fun hknown => ?_⟩
    obtain h | h | h := hknown.source
    · exact absurd (.inl h) hremote
    · exact absurd (.inr h) hremote
    · exact absurd h hlocal

theorem assessQcow2Cache_none (cached : Option String) (strict : Bool) :
    assessQcow2Cache cached none strict ≠ .rebuild := by
  cases cached <;> cases strict <;> simp [assessQcow2Cache]

/-- A template that is kept is not built anew without an id. -/
theorem wpe_assess : wpe b.world (assess b.plan b.qcow expected) (fun o s' => s' = s ∧
    ∃ r, o = .ok r ∧ (b.Kept → expected = none → r ≠ .rebuild)) s := by
  refine wpe_perform_bind fun isThere s' hw => ?_
  obtain ⟨hserves, htrace⟩ := hw
  cases hserves
  split_ifs with hkeep
  · refine wpe_bind.mpr (wpe_perform_bind fun raw s' hw => ?_)
    obtain ⟨hserves, -⟩ := hw
    cases hserves
    refine ⟨rfl, _, rfl, fun _ hnone => ?_⟩
    rw [hnone]
    exact assessQcow2Cache_none _ _
  · refine ⟨rfl, _, rfl, fun hkept _ => absurd ?_ hkept.1⟩
    have hfalse : isThere = false := by simpa [hkept.2] using hkeep
    rwa [hfalse] at htrace

theorem wpe_buildDisk : wpe b.world (buildDisk b.plan b.pid b.imageRef) (fun o s' =>
    Undisturbed s s' ∧ (o = .ok () → ∃ image, s.images b.imageRef = some image ∧
      s'.disk b.plan.stagingQcow = some ⟨b.plan.imageSource, image⟩)) s := by
  refine wpe_wrapped_run (fun pubkeyContents s₁ hw => ?_) fun e s₁ hw => ?_
  · obtain ⟨hserves, -⟩ := hw
    cases hserves
    refine wpe_perform_bind fun config s₂ hw => ?_
    obtain ⟨hserves, -⟩ := hw
    cases hserves
    refine wpe_wrapped_run (fun out s₃ hw => ?_) fun e s₃ hw => ?_
    · obtain ⟨hserves, -⟩ := hw
      cases hserves
      refine wpe_wrapped_run (fun out s₄ hw => ?_) fun e s₄ hw => ?_
      · obtain ⟨hserves, -⟩ := hw
        cases hserves with
        | aside h => cases h
        | @bib _ _ _ image _ himage =>
          exact ⟨undisturbed_staging _, fun _ => ⟨image, himage, KvmHost.putDisk_self⟩⟩
      · obtain ⟨hserves, -⟩ := hw
        cases hserves with
        | aside h => cases h
        | bibFailed _ d => exact ⟨undisturbed_staging _, fun h => by cases h⟩
    · obtain ⟨hserves, -⟩ := hw
      cases hserves
      exact ⟨.refl s, fun h => by cases h⟩
  · obtain ⟨hserves, -⟩ := hw
    cases hserves
    exact ⟨.refl s, fun h => by cases h⟩

end Build

namespace Build

variable {b : Build} {s s' : KvmHost} {expected : Option String} {built : Built}

/-- The template has been replaced, and nothing else yet. -/
structure Replaced (b : Build) (built : Built) (s s' : KvmHost) : Prop where
  text : s'.text = s.text
  disk : s'.disk b.qcow = some built
  others : ∀ path, IsTemplate path → path ≠ b.qcow → s'.disk path = s.disk path

theorem Replaced.undisturbed {s'' : KvmHost} (h : b.Replaced built s s') (hu : Undisturbed s' s'')
    (hq : IsTemplate b.qcow) : b.Replaced built s s'' :=
  ⟨hu.text.trans h.text, (hu.disk _ hq).trans h.disk,
    fun path hpath hne => (hu.disk path hpath).trans (h.others path hpath hne)⟩

/-- Where no sidecar stands, a new template is recorded nowhere. -/
theorem Replaced.recorded (h : b.Replaced built s s') (hs : Recorded s)
    (hside : s.text (sidecarPath b.qcow) = none) : Recorded s' := by
  intro path hpath text b' htext hne hdisk
  rw [h.text] at htext
  by_cases hq : path = b.qcow
  · rw [hq, hside] at htext
    cases htext
  · rw [h.others path hpath hq] at hdisk
    exact hs path hpath text b' htext hne hdisk

/-- A sidecar with the id of the new template. -/
theorem Replaced.recorded_putText (h : b.Replaced built s s') (hs : Recorded s) {id : String}
    (hid : built.buildId = some id) (htrim : trim (id ++ "\n") = id) :
    Recorded (s'.putText (sidecarPath b.qcow) (some (id ++ "\n"))) := by
  intro path hpath text b' htext hne hdisk
  rw [KvmHost.putText_disk] at hdisk
  by_cases hq : path = b.qcow
  · rw [hq, KvmHost.putText_self] at htext
    obtain rfl := Option.some.inj htext
    rw [hq, h.disk] at hdisk
    obtain rfl := Option.some.inj hdisk
    rw [htrim, hid]
  · rw [KvmHost.putText_ne fun hp => hq (sidecarPath_injective hp), h.text] at htext
    rw [h.others path hpath hq] at hdisk
    exact hs path hpath text b' htext hne hdisk

/-- No failure from the move of the disk on can leave a sidecar that is not the template's. -/
def Sheltered (b : Build) (s : KvmHost) (expected : Option String) : Prop :=
  s.text (sidecarPath b.qcow) = none ∨ (∀ src dst e, ⟨.run (.move src dst), .error e⟩ ∉ b.trace) ∧
    (∀ dir e, ⟨.run (.removeDir dir), .error e⟩ ∉ b.trace) ∧ expected ≠ none

theorem wpe_writeSidecar (hc : b.Careful) (hs : Recorded s) (hr : b.Replaced built s s')
    (hside : b.Sheltered s expected)
    (hid : ∀ id, expected = some id → trim (id ++ "\n") = id ∧ built.buildId = some id) :
    wpe b.world (writeSidecar expected b.qcow) (fun _ s'' => Recorded s'') s' := by
  cases expected with
  | none =>
    obtain hnone | ⟨-, -, hne⟩ := hside
    · exact hr.recorded hs hnone
    · exact absurd rfl hne
  | some id =>
    obtain ⟨htrim, hbuilt⟩ := hid id rfl
    refine wpe_outcome_run fun r s₁ hw => ?_
    obtain ⟨hserves, htrace⟩ := hw
    cases hserves with
    | aside h => cases h
    | writeSidecar out => exact hr.recorded_putText hs hbuilt htrim
    | writeSidecarFailed e text => exact absurd htrace (hc.written _ _ _)

theorem wpe_ignore_aside {c : Command} (h : IsAside c) {f : Unit → Steps Failure Unit}
    {O : Except Failure Unit → KvmHost → Prop} (hf : wpe b.world (f ()) O s) :
    wpe b.world (ignore (run c) >>= f) O s := by
  refine wpe_ignore_run fun r s' hw => ?_
  obtain ⟨hserves, -⟩ := hw
  cases h <;> cases hserves <;> exact hf

theorem wpe_putInPlace (hc : b.Careful) (hq : IsTemplate b.qcow) (hs : Recorded s)
    (hside : b.Sheltered s expected) (hstaging : s.disk b.plan.stagingQcow = some built)
    (hid : ∀ id, expected = some id → trim (id ++ "\n") = id ∧ built.buildId = some id) :
    wpe b.world (putInPlace b.plan b.pid b.qcow expected) (fun _ s' => Recorded s') s := by
  have hmoved : b.Replaced built s ((s.putDisk b.plan.stagingQcow none).putDisk b.qcow (some built)) :=
    ⟨rfl, KvmHost.putDisk_self, fun path hpath hne => by
      rw [KvmHost.putDisk_ne hne, KvmHost.putDisk_ne (stagingQcow_ne hpath)]⟩
  refine wpe_wrapped_run (fun out s₁ hw => ?_) fun e s₁ hw => ?_
  · obtain ⟨hserves, -⟩ := hw
    cases hserves with
    | aside h => cases h
    | @move _ _ _ b' _ hb' =>
      obtain rfl := Option.some.inj (hstaging.symm.trans hb')
      refine wpe_wrapped_run (fun out s₂ hw => ?_) fun e s₂ hw => ?_
      · obtain ⟨hserves, -⟩ := hw
        cases hserves with
        | aside h => cases h
        | removeDir =>
          have hr := hmoved.undisturbed (@undisturbed_staging _ b.plan none) hq
          exact wpe_ignore_aside (.removeFile _) (wpe_ignore_aside (.refreshPool _)
            (wpe_ignore_aside (.refreshPool _) (wpe_writeSidecar hc hs hr hside hid)))
      · obtain ⟨hserves, htrace⟩ := hw
        have hnone : s.text (sidecarPath b.qcow) = none :=
          hside.resolve_right fun h => h.2.1 _ _ htrace
        cases hserves with
        | aside h => cases h
        | removeDir =>
          exact (hmoved.undisturbed (@undisturbed_staging _ b.plan none) hq).recorded hs hnone
        | removeDirFailed => exact hmoved.recorded hs hnone
  · obtain ⟨hserves, htrace⟩ := hw
    cases hserves with
    | aside h => cases h
    | @move _ _ _ b' _ hb' =>
      obtain rfl := Option.some.inj (hstaging.symm.trans hb')
      exact hmoved.recorded hs (hside.resolve_right fun h => h.1 _ _ _ htrace)
    | moveFailed => exact hs

theorem wpe_buildOneQcow2 (hc : b.Careful) (hq : IsTemplate b.qcow) (hs : Recorded b.before) :
    wpe b.world (buildOneQcow2 b.plan b.pid b.imageRef b.qcow) (fun _ s' => Recorded s') b.before := by
  refine wpe_bind.mpr (wpe_mono (wpe_computeExpectedBuildId hc rfl) ?_)
  rintro _ _ ⟨rfl, expected, rfl, htells, hknown⟩
  refine wpe_bind.mpr (wpe_mono wpe_assess ?_)
  rintro _ _ ⟨rfl, decision, rfl, hkept⟩
  cases decision with
  | reuse => exact hs
  | strictFail => exact hs
  | rebuild =>
    have hside : b.Sheltered b.before expected := by
      obtain hnone | ⟨hmove, hremove, h⟩ := hc.replaced
      · exact .inl hnone
      · refine .inr ⟨hmove, hremove, fun hnone => ?_⟩
        obtain h | h := h
        · exact hknown h hnone
        · exact hkept h hnone rfl
    refine wpe_bind.mpr (wpe_mono wpe_buildDisk ?_)
    rintro (e | u) s' ⟨hu, hbuilt⟩
    · exact hu.recorded hs
    · obtain ⟨image, himage, hstaging⟩ := hbuilt rfl
      refine wpe_putInPlace hc hq (hu.recorded hs) ?_ hstaging fun id hid => ?_
      · rwa [Sheltered, hu.text]
      · obtain ⟨htrim, hid⟩ := htells id hid
        exact ⟨htrim, hid image himage⟩

/-- A careful build keeps what the sidecars record true. -/
theorem IsRun.recorded (h : b.IsRun) (hc : b.Careful) (hs : Recorded b.before) : Recorded b.after := by
  have hq : IsTemplate b.qcow := ⟨_, h.template⟩
  exact wpe_iff.mp (wpe_buildOneQcow2 hc hq hs) _ _ _ h.finishes
    (leads_restrict.mpr ⟨h.leads, fun _ hx => hx⟩)

end Build

namespace Build

/-- The run ends with the look at the sidecar: the template is taken over with the id in it. -/
def ReusedOn (b : Build) (id : String) : Prop :=
  b.outcome = .ok () ∧ id ≠ "" ∧ ∃ u text, trim text = id ∧
    b.trace = u ++ [⟨.pathExists b.qcow, true⟩, ⟨.readToString (sidecarPath b.qcow), some text⟩]

/-- On the KVM host itself, a template that is taken over was built from the image with the id that its
sidecar records. -/
theorem IsRun.reusedOn {b : Build} (h : b.IsRun) (hs : Recorded b.after)
    (honHost : b.plan.conn = .onHost) {id : String} (hr : b.ReusedOn id) :
    ∃ built, b.after.disk b.qcow = some built ∧ built.buildId = some id := by
  obtain ⟨-, hne, u, text, htext, ht⟩ := hr
  have hl := h.leads
  rw [ht, leads_append] at hl
  obtain ⟨s, -, hl⟩ := hl
  obtain ⟨s₁, hexists, hl⟩ := leads_cons.mp hl
  obtain ⟨s₂, hread, hl⟩ := leads_cons.mp hl
  have hafter := leads_nil.mp hl
  cases hexists with
  | pathExists hthere =>
    cases hread with
    | readToString hsidecar =>
      obtain ⟨built, hbuilt⟩ := Option.isSome_iff_exists.mp (hthere honHost).symm
      have hrecorded := hs b.qcow ⟨_, h.template⟩ text built
      rw [hafter, htext] at hrecorded
      obtain hsidecar | hsidecar := hsidecar honHost
      · exact ⟨built, by rw [hafter, hbuilt], hrecorded hsidecar.symm hne hbuilt⟩
      · cases hsidecar

end Build

/-- Through any number of runs, as long as every build is careful, what the sidecars record is true,
and on the KVM host itself no template is taken over that was built from another image. -/
theorem sequence_recorded {s s' : KvmHost} {bs : List Build} (h : Sequence s bs s')
    (hs : Recorded s) (hc : ∀ b ∈ bs, b.Careful) : Recorded s' ∧ ∀ b ∈ bs,
      Recorded b.before ∧ Recorded b.after ∧ (b.plan.conn = .onHost → ∀ id, b.ReusedOn id →
        ∃ built, b.after.disk b.qcow = some built ∧ built.buildId = some id) := by
  induction h with
  | nil s => exact ⟨hs, fun b hb => absurd hb List.not_mem_nil⟩
  | between hbetween _ ih => exact ih (hbetween.recorded hs) hc
  | @build b _ bs hrun _ ih =>
    obtain ⟨hb, hbs⟩ := List.forall_mem_cons.mp hc
    have hafter := hrun.recorded hb hs
    obtain ⟨hlast, hall⟩ := ih hafter hbs
    exact ⟨hlast, List.forall_mem_cons.mpr ⟨⟨hs, hafter, fun honHost id hr =>
      hrun.reusedOn hafter honHost hr⟩, hall⟩⟩

section Samples

def samplePlan : Plan where
  cpName := "cp"
  workerNames := []
  ghcrTag := "latest"
  cpMemory := 4096
  cpVcpus := 2
  workerMemory := 4096
  workerVcpus := 2
  poolDir := "/pool"
  autoUpdateCp := true
  switchToGhcr := false
  kvmHost := none
  dryRun := false
  bootcUpdateSchedule := none
  bootcUpdateRepoK8s := none
  bootcUpdateRepoWorker := none
  podCidr := none
  serviceCidr := none
  cpIp := none
  workerIps := none
  configPath := "cluster.local.conf"
  imageSource := "ghcr"
  enableCloudInit := 1
  sshPubkeyFile := "/root/.ssh/id.pub"
  runVerify := false
  bib := "bib"
  podmanRoot := none
  podmanRunroot := none
  storageDriver := none
  forceRebuild := true
  strictCache := false
  repoRoot := "."
  cpMac := none
  workerMacs := none
  extraNetwork := none
  extraNetCpMac := none
  extraNetCpIp := none
  extraNetWorkerMacs := none
  extraNetWorkerIps := none
  cpReadyRetries := 60
  cpReadySleepSecs := 10
  tokenTtl := "2h"

def sampleRef : String := "ghcr.io/aatchison/hummingbird-k8s:latest"

/-- A host with one image, and a disk and a sidecar of the control plane's template. -/
def sampleHost (label : String) (built : Option Built) (text : Option String) : KvmHost where
  images := fun _ => some ⟨label, []⟩
  disk := Function.update (fun _ => none) "/pool/hummingbird-k8s-deploy.qcow2" built
  text := Function.update (fun _ => none) "/pool/hummingbird-k8s-deploy.qcow2.build-ref" text

/-- The replies to the commands from the one that reads the key to the refresh of the second pool. -/
def sampleSteps : Trace Reply :=
  [⟨.run .readPubkey, .ok "key"⟩, ⟨.renderBibConfig "key", "config"⟩,
    ⟨.run (.writeBibConfig "/tmp/hbird-bib-config-7.toml" "config"), .ok ""⟩,
    ⟨.run (.bib sampleRef "/tmp/hbird-bib-config-7.toml"), .ok ""⟩,
    ⟨.run (.move "/pool/qcow2/disk.qcow2" "/pool/hummingbird-k8s-deploy.qcow2"), .ok ""⟩,
    ⟨.run (.removeDir "/pool/qcow2"), .ok ""⟩,
    ⟨.run (.removeFile "/tmp/hbird-bib-config-7.toml"), .ok ""⟩,
    ⟨.run (.refreshPool "default"), .ok ""⟩, ⟨.run (.refreshPool "mass2"), .ok ""⟩]

def sampleEnd (s : KvmHost) (label : String) : KvmHost :=
  ((((s.putDisk "/pool/qcow2/disk.qcow2" (some ⟨"ghcr", ⟨label, []⟩⟩)).putDisk
    "/pool/qcow2/disk.qcow2" none).putDisk "/pool/hummingbird-k8s-deploy.qcow2"
      (some ⟨"ghcr", ⟨label, []⟩⟩)).putDisk "/pool/qcow2/disk.qcow2" none)

theorem leads_sampleSteps (label : String) (built : Option Built) (text : Option String) :
    Leads (Serves samplePlan) (sampleHost label built text) sampleSteps
      (sampleEnd (sampleHost label built text) label) :=
  .cons (.aside .readPubkey _) <| .cons (.renderBibConfig _) <| .cons (.aside (.writeBibConfig _ _) _) <|
    .cons (.bib "" rfl) <| .cons (.move _ KvmHost.putDisk_self) <| .cons (.removeDir _) <|
      .cons (.aside (.removeFile _) _) <| .cons (.aside (.refreshPool _) _) <|
        .cons (.aside (.refreshPool _) _) <| .nil _

def firstBuild : Build where
  plan := samplePlan
  pid := 7
  imageRef := sampleRef
  qcow := cpTemplate "/pool"
  before := sampleHost "abc" none none
  trace := ⟨.run (.inspect sampleRef), .ok "abc\n"⟩ :: ⟨.pathExists (cpTemplate "/pool"), false⟩ ::
    (sampleSteps ++ [⟨.run (.writeSidecar "ghcr:abc" (sidecarPath (cpTemplate "/pool"))), .ok ""⟩])
  outcome := .ok ()
  after := (sampleEnd (sampleHost "abc" none none) "abc").putText (sidecarPath (cpTemplate "/pool"))
    (some ("ghcr:abc" ++ "\n"))

def secondBuild : Build where
  plan := { samplePlan with forceRebuild := false }
  pid := 8
  imageRef := sampleRef
  qcow := cpTemplate "/pool"
  before := firstBuild.after
  trace := [⟨.run (.inspect sampleRef), .ok "abc\n"⟩, ⟨.pathExists (cpTemplate "/pool"), true⟩,
    ⟨.readToString (sidecarPath (cpTemplate "/pool")), some "ghcr:abc\n"⟩]
  outcome := .ok ()
  after := firstBuild.after

/-- The image is not inspected, and the new template goes beside the sidecar of the old one. -/
def staleBuild : Build where
  plan := samplePlan
  pid := 7
  imageRef := sampleRef
  qcow := cpTemplate "/pool"
  before := sampleHost "def" (some ⟨"ghcr", ⟨"abc", []⟩⟩) (some "ghcr:abc\n")
  trace := ⟨.run (.inspect sampleRef), .error (.virshFailed "podman" "")⟩ ::
    ⟨.pathExists (cpTemplate "/pool"), true⟩ :: sampleSteps
  outcome := .ok ()
  after := sampleEnd (sampleHost "def" (some ⟨"ghcr", ⟨"abc", []⟩⟩) (some "ghcr:abc\n")) "def"

/-- Answers to the queries of a sample, by their number. -/
def answers (rs : List (Except Error String)) (isThere : Bool) (n : Nat) : (q : Query) → Reply q
  | .run _ => (rs[n]?).getD (.ok "")
  | .pathExists _ => isThere
  | .readToString _ => some "ghcr:abc\n"
  | .readFile _ => none
  | .renderBibConfig _ => "config"
  | .imageVcsRef _ => none
  | .containerfileChangedSince _ _ _ => .unverifiable
  | .verify _ => .exited true

theorem isRun_firstBuild : firstBuild.IsRun where
  template := .inl rfl
  finishes := finishes_of_play (answers [.ok "abc\n", .ok "", .ok "key"] false) (by decide +kernel)
  leads := .cons (.inspect rfl (by decide +kernel)) <| .cons (.pathExists fun _ => rfl) <|
    leads_append.mpr ⟨_, leads_sampleSteps _ _ _, .cons (.writeSidecar _) (.nil _)⟩

theorem isRun_secondBuild : secondBuild.IsRun where
  template := .inl rfl
  finishes := finishes_of_play (answers [.ok "abc\n"] true) (by decide +kernel)
  leads := .cons (.inspect rfl (by decide +kernel)) <| .cons (.pathExists fun _ => rfl) <|
    .cons (.readToString fun _ => .inl rfl) <| .nil _

theorem isRun_staleBuild : staleBuild.IsRun where
  template := .inl rfl
  finishes := finishes_of_play (answers [.error (.virshFailed "podman" ""), .ok "", .ok "key"] true)
    (by decide +kernel)
  leads := .cons (.inspectFailed _) <| .cons (.pathExists fun _ => rfl) <| leads_sampleSteps _ _ _

theorem recorded_empty : Recorded (sampleHost "abc" none none) := by
  rintro path - text b htext
  have hnone : (sampleHost "abc" none none).text = fun _ => none := Function.update_eq_self ..
  rw [hnone] at htext
  cases htext

theorem careful_firstBuild : firstBuild.Careful where
  replaced := .inl (by decide +kernel)
  written := by simp [firstBuild, sampleSteps]
  made h := by simp [firstBuild, samplePlan] at h

theorem careful_secondBuild : secondBuild.Careful where
  replaced := .inr ⟨by simp [secondBuild], by simp [secondBuild], .inr ⟨by simp [secondBuild], rfl⟩⟩
  written := by simp [secondBuild]
  made h := by simp [secondBuild, samplePlan] at h

/-- A template is built, and then taken over. -/
theorem sequence_recorded_sample : Recorded secondBuild.after ∧
    ∃ built, secondBuild.after.disk (cpTemplate "/pool") = some built ∧
      built.buildId = some "ghcr:abc" := by
  obtain ⟨hlast, hall⟩ := sequence_recorded (.build isRun_firstBuild (.build isRun_secondBuild (.nil _)))
    recorded_empty (List.forall_mem_cons.mpr ⟨careful_firstBuild,
      List.forall_mem_cons.mpr ⟨careful_secondBuild, by simp⟩⟩)
  refine ⟨hlast, (hall secondBuild (by simp)).2.2 rfl "ghcr:abc" ⟨rfl, by decide +kernel, ?_⟩⟩
  exact ⟨[⟨.run (.inspect sampleRef), .ok "abc\n"⟩], "ghcr:abc\n", by decide +kernel, rfl⟩

/-- A forced build of an image whose label cannot be read leaves the old id beside the new template. -/
theorem not_sequence_recorded :
    ¬ ∀ s bs s', Sequence s bs s' → Recorded s → Recorded s' := by
  intro h
  have hbefore : Recorded staleBuild.before := by
    rintro path - text b htext hne hdisk
    by_cases hp : path = cpTemplate "/pool"
    · rw [hp] at htext hdisk
      have hbuilt : b = ⟨"ghcr", ⟨"abc", []⟩⟩ := (Option.some.inj hdisk).symm
      have htext' : text = "ghcr:abc\n" := (Option.some.inj htext).symm
      rw [hbuilt, htext']
      decide +kernel
    · have hp : path ≠ "/pool/hummingbird-k8s-deploy.qcow2" := fun h => hp (h.trans (by decide +kernel))
      have hnone : staleBuild.before.disk path = none := Function.update_of_ne hp _ fun _ => none
      rw [hnone] at hdisk
      cases hdisk
  have hafter := h _ _ _ (.build isRun_staleBuild (.nil _)) hbefore (cpTemplate "/pool") ⟨"/pool", .inl rfl⟩
    "ghcr:abc\n" ⟨"ghcr", ⟨"def", []⟩⟩ rfl (by decide +kernel) rfl
  revert hafter
  decide +kernel

end Samples

end Hbird.Virt.Deploy
