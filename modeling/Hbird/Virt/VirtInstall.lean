import Hbird.Virt.Quoting

namespace Hbird.Virt

open Hbird.Shell

/-- `shell_single_quote`: quotes around any text. -/
def shellSingleQuote (s : String) : String := wrapQuotes s

def isAsciiHexdigit (c : Char) : Bool :=
  c.isDigit || ('a' ≤ c && c ≤ 'f') || ('A' ≤ c && c ≤ 'F')

/-- `aa:bb:cc:dd:ee:ff`. -/
def isValidMac (s : String) : Bool :=
  let parts := s.toList.splitOn ':'
  parts.length == 6 && parts.all fun p => p.length == 2 && p.all isAsciiHexdigit

/-- The words of a `virt-install` command, its names and paths written by `quote`. -/
def installWords (quote : String → String) (spec : VmSpec) : List String :=
  ["virt-install", "--connect", remoteUri, "--name", quote spec.name,
    "--memory", toString spec.memoryMib, "--vcpus", toString spec.vcpus.toNat,
    "--disk", quote spec.diskPath ++ ",format=qcow2,bus=virtio"] ++
  (spec.cdrom.elim [] fun path =>
    ["--disk", "path=" ++ quote path ++ ",device=cdrom,readonly=on"]) ++
  ["--import", "--os-variant", "fedora-unknown",
    "--network", "network=default,model=virtio" ++ spec.primaryMac.elim "" (",mac=" ++ ·)] ++
  (spec.extraNic.elim [] fun extra =>
    ["--network", "network=" ++ quote extra.network ++ ",mac=" ++ extra.mac]) ++
  ["--graphics", "vnc,listen=127.0.0.1", "--noautoconsole"]

/-- What `virt-install` is meant to be called with. -/
def virtInstallArgs (spec : VmSpec) : List String := installWords id spec

/-- The MACs are those that the callers have checked. -/
def VmSpec.Checked (spec : VmSpec) : Prop :=
  (∀ mac ∈ spec.primaryMac, isValidMac mac = true) ∧
    ∀ extra ∈ spec.extraNic, isValidMac extra.mac = true

section Words

variable {s : String} {quote : String → String} {spec : VmSpec}

/-- The characters of the fixed parts of the command. -/
def wordSafe (c : Char) : Bool := shSafe c || c = ',' || c = '='

theorem wordSafe_class : SafeClass wordSafe := safeClass_of (by decide)

theorem toList_shellSingleQuote (s : String) :
    (shellSingleQuote s).toList = quoteWith (fun _ => false) s.toList := by
  rw [shellSingleQuote, toList_wrapQuotes, quoteWith]
  split_ifs with hnil hall
  · rw [hnil]
    rfl
  · obtain ⟨c, cs, hcs⟩ := List.exists_cons_of_ne_nil hnil
    rw [hcs] at hall
    cases hall
  · rfl

theorem denotes_shellSingleQuote (s : String) : Denotes (shellSingleQuote s).toList s.toList := by
  rw [toList_shellSingleQuote]
  exact denotes_quoteWith (safeClass_of rfl) s.toList

/-- A line of words each of which one word is read of. -/
theorem argv_intercalate {texts args : List String}
    (h : List.Forall₂ (fun t a : String => Denotes t.toList a.toList) texts args) (hne : texts ≠ []) :
    argv noBraces (" ".intercalate texts).toList = some (args.map String.toList) := by
  have hspaced : (" ".intercalate texts).toList = spaced (texts.map String.toList) := by
    rw [String.toList_intercalate]
    rfl
  rw [hspaced]
  refine argv_denotes ?_ (by simpa using hne)
  rw [List.forall₂_map_left_iff, List.forall₂_map_right_iff]
  exact h

/-- Of a list of words, each in quotes, the shell reads the list. -/
theorem argv_map (hq : ∀ s, Denotes (quote s).toList s.toList) (args : List String) :
    argv noBraces (" ".intercalate (args.map quote)).toList = some (args.map String.toList) := by
  by_cases hne : args = []
  · subst hne
    rfl
  · refine argv_intercalate ?_ (by simpa using hne)
    rw [List.forall₂_map_left_iff]
    exact List.forall₂_same.mpr fun s _ => hq s

theorem spells_shellQuote (s : String) : Spells (shellQuote s).toList s.toList := by
  rw [toList_shellQuote]
  exact spells_quoteWith shellSafe_class s.toList

theorem spells_fixed (h : s.toList.all wordSafe = true) (hne : s.toList ≠ []) :
    Spells s.toList s.toList :=
  spells_plain wordSafe_class h hne

theorem virtInstallCommand_eq (spec : VmSpec) :
    virtInstallCommand spec = " ".intercalate (installWords shellQuote spec) := by
  have hconnect : "virt-install --connect " = "virt-install" ++ " " ++ "--connect" ++ " " := by decide +kernel
  have hname : " --name " = " " ++ "--name" ++ " " := by decide +kernel
  have hmemory : " --memory " = " " ++ "--memory" ++ " " := by decide +kernel
  have hvcpus : " --vcpus " = " " ++ "--vcpus" ++ " " := by decide +kernel
  have hdisk : " --disk " = " " ++ "--disk" ++ " " := by decide +kernel
  have hpath : " --disk path=" = " " ++ "--disk" ++ " " ++ "path=" := by decide +kernel
  have himport : " --import --os-variant fedora-unknown --network network=default,model=virtio" =
      " " ++ "--import" ++ " " ++ "--os-variant" ++ " " ++ "fedora-unknown" ++ " " ++ "--network" ++
        " " ++ "network=default,model=virtio" := by decide +kernel
  have hextra : " --network network=" = " " ++ "--network" ++ " " ++ "network=" := by decide +kernel
  have hgraphics : " --graphics vnc,listen=127.0.0.1 --noautoconsole" =
      " " ++ "--graphics" ++ " " ++ "vnc,listen=127.0.0.1" ++ " " ++ "--noautoconsole" := by decide +kernel
  obtain ⟨name, memoryMib, vcpus, diskPath, cdrom, primaryMac, extraNic⟩ := spec
  unfold virtInstallCommand installWords
  cases cdrom <;> cases primaryMac <;> cases extraNic <;>
    simp only [hconnect, hname, hmemory, hvcpus, hdisk, himport,
      hgraphics, hpath, hextra, Option.elim_none, Option.elim_some, List.cons_append, List.nil_append,
      String.intercalate_cons_cons, String.intercalate_singleton, String.append_assoc,
      String.append_empty]

theorem mem_intercalate {α : Type} {x c : α} {ps : List (List α)} (h : c ∈ [x].intercalate ps) :
    c = x ∨ ∃ p ∈ ps, c ∈ p := by
  induction ps with
  | nil => cases h
  | cons p ps ih =>
    cases ps with
    | nil =>
      rw [List.intercalate_singleton] at h
      exact .inr ⟨p, List.mem_cons_self, h⟩
    | cons q ps =>
      rw [List.intercalate_cons_cons] at h
      obtain h | h := List.mem_append.mp h
      · obtain h | h := List.mem_append.mp h
        · exact .inr ⟨p, List.mem_cons_self, h⟩
        · exact .inl (List.mem_singleton.mp h)
      · exact (ih h).imp_right fun ⟨r, hr, hc⟩ => ⟨r, List.mem_cons_of_mem _ hr, hc⟩

theorem isValidMac_char (h : isValidMac s = true) {c : Char} (hc : c ∈ s.toList) :
    c = ':' ∨ isAsciiHexdigit c = true := by
  simp only [isValidMac, Bool.and_eq_true, List.all_eq_true] at h
  obtain ⟨-, hall⟩ := h
  have hjoin : [':'].intercalate (s.toList.splitOn ':') = s.toList := List.intercalate_splitOn ':'
  rw [← hjoin] at hc
  exact (mem_intercalate hc).imp_right fun ⟨p, hp, hcp⟩ => (hall p hp).2 c hcp

theorem isAlphanum_of_hexdigit {c : Char} (h : isAsciiHexdigit c = true) : c.isAlphanum = true := by
  simp only [isAsciiHexdigit, Bool.or_eq_true, Bool.and_eq_true, decide_eq_true_eq] at h
  obtain (h | h) | h := h
  · simp [Char.isAlphanum, h]
  · have hlower : c.isLower = true := by
      simp only [Char.isLower, Bool.and_eq_true, decide_eq_true_eq]
      exact ⟨h.1, h.2.trans (by decide)⟩
    simp [Char.isAlphanum, Char.isAlpha, hlower]
  · have hupper : c.isUpper = true := by
      simp only [Char.isUpper, decide_eq_true_eq]
      exact ⟨h.1, h.2.trans (by decide)⟩
    simp [Char.isAlphanum, Char.isAlpha, hupper]

theorem wordSafe_of_hexdigit {c : Char} (h : isAsciiHexdigit c = true) : wordSafe c = true := by
  simp [wordSafe, shSafe, isAlphanum_of_hexdigit h]

theorem spells_mac (h : isValidMac s = true) : Spells (",mac=" ++ s).toList (",mac=" ++ s).toList := by
  have hfield : ",mac=".toList = [',', 'm', 'a', 'c', '='] := rfl
  refine spells_fixed ?_ (by rw [String.toList_append, hfield]; simp)
  rw [String.toList_append, List.all_append, hfield, Bool.and_eq_true]
  refine ⟨by decide, List.all_eq_true.mpr fun c hc => ?_⟩
  obtain rfl | hc := isValidMac_char h hc
  · decide
  · exact wordSafe_of_hexdigit hc

theorem spells_nat (n : Nat) : Spells (toString n).toList (toString n).toList := by
  have htext : (toString n).toList = Nat.toDigits 10 n := Nat.toList_repr
  rw [htext]
  refine spells_plain wordSafe_class (List.all_eq_true.mpr fun c hc => ?_) Nat.toDigits_ne_nil
  have hd : c.isDigit = true := Nat.isDigit_of_mem_toDigits (by decide) (by decide) hc
  simp [wordSafe, shSafe, Char.isAlphanum, hd]

theorem spells_append {t t' a a' : String} (h : Spells t.toList a.toList)
    (h' : Spells t'.toList a'.toList) : Spells (t ++ t').toList (a ++ a').toList := by
  rw [String.toList_append, String.toList_append]
  exact h.append h'

theorem virtInstall_denotes (h : spec.Checked) :
    List.Forall₂ (fun t a : String => Denotes t.toList a.toList) (installWords shellQuote spec)
      (virtInstallArgs spec) := by
  have hfixed : ∀ words : List String, (∀ w ∈ words, w.toList.all wordSafe = true ∧ w.toList ≠ []) →
      List.Forall₂ (fun t a : String => Denotes t.toList a.toList) words words := fun words hw =>
    List.forall₂_same.mpr fun w hmem => (spells_fixed (hw w hmem).1 (hw w hmem).2).denotes
  have hplain : ∀ w : String, w.toList.all wordSafe = true ∧ w.toList ≠ [] →
      Spells w.toList w.toList := fun w hw => spells_fixed hw.1 hw.2
  have hformat := spells_append (spells_shellQuote spec.diskPath)
    (hplain ",format=qcow2,bus=virtio" (by decide))
  refine List.rel_append (List.rel_append (List.rel_append (List.rel_append ?_ ?_) ?_) ?_) ?_
  · exact .cons (hplain _ (by decide)).denotes <| .cons (hplain _ (by decide)).denotes <|
      .cons (hplain _ (by decide)).denotes <| .cons (hplain _ (by decide)).denotes <|
      .cons (spells_shellQuote spec.name).denotes <| .cons (hplain _ (by decide)).denotes <|
      .cons (spells_nat _).denotes <| .cons (hplain _ (by decide)).denotes <|
      .cons (spells_nat _).denotes <| .cons (hplain _ (by decide)).denotes <|
      .cons hformat.denotes .nil
  · cases spec.cdrom with
    | none => exact .nil
    | some path =>
      have hpath := spells_append (spells_append (hplain "path=" (by decide)) (spells_shellQuote path))
        (hplain ",device=cdrom,readonly=on" (by decide))
      exact .cons (hplain _ (by decide)).denotes (.cons hpath.denotes .nil)
  · have hnetwork : Spells ("network=default,model=virtio" ++ spec.primaryMac.elim "" (",mac=" ++ ·)).toList
        ("network=default,model=virtio" ++ spec.primaryMac.elim "" (",mac=" ++ ·)).toList := by
      cases hmac : spec.primaryMac with
      | none => exact hplain _ (by decide)
      | some mac => exact spells_append (hplain _ (by decide)) (spells_mac (h.1 mac hmac))
    exact List.rel_append (hfixed ["--import", "--os-variant", "fedora-unknown", "--network"]
      (by decide)) (.cons hnetwork.denotes .nil)
  · cases hextra : spec.extraNic with
    | none => exact .nil
    | some extra =>
      have hnetwork := spells_append (spells_append (hplain "network=" (by decide))
        (spells_shellQuote extra.network)) (spells_mac (h.2 extra hextra))
      simp only [String.append_assoc] at hnetwork ⊢
      exact .cons (hplain _ (by decide)).denotes (.cons hnetwork.denotes .nil)
  · exact hfixed _ (by decide)

end Words

/-- The three quoting functions are undone by the shell, for one word and for lists of words, and
`virt-install` is called with what it is meant to be. -/
theorem quoting_exact :
    (∀ quote : String → String, quote = shQuote ∨ quote = shellQuote ∨ quote = shellSingleQuote →
      (∀ s, argv noBraces (quote s).toList = some [s.toList]) ∧
      ∀ args : List String, argv noBraces (" ".intercalate (args.map quote)).toList =
        some (args.map String.toList)) ∧
    ∀ spec : VmSpec, spec.Checked → argv noBraces (virtInstallCommand spec).toList =
      some ((virtInstallArgs spec).map String.toList) := by
  refine ⟨fun quote hquote => ?_, fun spec h => ?_⟩
  · have hdenotes : ∀ s, Denotes (quote s).toList s.toList := by
      obtain rfl | rfl | rfl := hquote
      · exact denotes_shQuote
      · exact denotes_shellQuote
      · exact denotes_shellSingleQuote
    refine ⟨fun s => ?_, argv_map hdenotes⟩
    have hone := argv_map hdenotes [s]
    rwa [List.map_singleton, String.intercalate_singleton] at hone
  · rw [virtInstallCommand_eq]
    exact argv_intercalate (virtInstall_denotes h) (by simp [installWords])

def sampleSpec : VmSpec where
  name := "o'brien"
  memoryMib := 4096
  vcpus := 2
  diskPath := "/pool/a b.qcow2"
  cdrom := some "/pool/~seed.iso"
  primaryMac := some "52:54:00:f0:1d:bd"
  extraNic := some ⟨"lan", "52:54:00:AA:00:02"⟩

theorem quoting_exact_sample : argv noBraces (virtInstallCommand sampleSpec).toList =
    some ((virtInstallArgs sampleSpec).map String.toList) :=
  quoting_exact.2 sampleSpec ⟨by decide, by decide⟩

end Hbird.Virt
