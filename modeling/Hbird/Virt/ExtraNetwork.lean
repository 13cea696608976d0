import Hbird.Config.ClusterConfig
import Hbird.Ipv4
import Hbird.Sha256Hex
import Hbird.Virt.DeployCluster
import Hbird.Virt.VirtInstall

namespace Hbird.Virt.DeployCluster

open Hbird.Text Hbird.Config

/-- The fields of the plan that name the interfaces of the VMs. -/
structure NicPlan where
  cpName : String
  workerNames : List String
  podCidr : Option String
  serviceCidr : Option String
  cpMac : Option String
  workerMacs : Option (List String)
  extraNetwork : Option String
  extraNetCpMac : Option String
  extraNetCpIp : Option String
  extraNetWorkerMacs : Option (List String)
  extraNetWorkerIps : Option (List String)
  deriving DecidableEq, Repr

def derivePrimaryMac (name : String) : String :=
  let h := Sha256.sha256Hex name.toUTF8.data.toList
  "52:54:00:" ++ String.ofList (h.take 2) ++ ":" ++ String.ofList ((h.drop 2).take 2) ++ ":" ++
    String.ofList ((h.drop 4).take 2)

/-- The workers from the `i`-th on, with the MACs seen so far and their owners. -/
def resolveWorkerMacs (workerMacs : Option (List String)) :
    Nat → List (String × String) → List String → Except String (List String)
  | _, _, [] => .ok []
  | i, seen, w :: ws =>
    let mac := ((workerMacs.bind (·[i]?)).filter (· ≠ "")).getD (derivePrimaryMac w)
    if !isValidMac mac then
      .error ("WORKER_MACS[" ++ toString i ++ "] is malformed (need aa:bb:cc:dd:ee:ff): '" ++ mac ++
        "'")
    else match seen.lookup (toAsciiLowercase mac) with
      | some other =>
        .error ("primary-NIC MAC collision: " ++ w ++ " and " ++ other ++ " would both use " ++ mac ++
          " — set CP_MAC/WORKER_MACS explicitly to break the tie")
      | none => (resolveWorkerMacs workerMacs (i + 1) ((toAsciiLowercase mac, w) :: seen) ws).map
          (mac :: ·)

def resolvePrimaryMacs (cpName : String) (cpMac : Option String) (workerNames : List String)
    (workerMacs : Option (List String)) : Except String PrimaryMacs :=
  let cp := (cpMac.filter (· ≠ "")).getD (derivePrimaryMac cpName)
  if !isValidMac cp then
    .error ("CP_MAC is malformed (need aa:bb:cc:dd:ee:ff): '" ++ cp ++ "'")
  else (resolveWorkerMacs workerMacs 0 [(toAsciiLowercase cp, cpName)] workerNames).map (⟨cp, ·⟩)

/-- `str::split_once` with the slash. -/
def splitSlash (s : List Char) : Option (List Char × List Char) :=
  match s.dropWhile (· ≠ '/') with
  | [] => none
  | _ :: rest => some (s.takeWhile (· ≠ '/'), rest)

def isValidCidr (s : String) : Bool :=
  match splitSlash s.toList with
  | none => false
  | some (addr, pfx) => Ipv4.isAddress addr && Ipv4.isDecimalInRange pfx 32

def dropPlus : List Char → List Char
  | '+' :: cs => cs
  | cs => cs

/-- `parse::<u8>` and `parse::<u32>`: a plus sign and zeros may stand in front. -/
def parseBelow (bound : Nat) (s : List Char) : Option Nat :=
  if dropPlus s ≠ [] ∧ (dropPlus s).all Char.isDigit ∧ Ipv4.value (dropPlus s) < bound then
    some (Ipv4.value (dropPlus s))
  else none

def toU32 (a : List Char) : Option UInt32 :=
  ((a.splitOn '.').mapM (parseBelow (2 ^ 8))).bind fun octets =>
    if octets.length = 4 then
      some (octets.foldl (fun out o => out <<< 8 ||| UInt32.ofNat o) 0)
    else none

def ipInCidr (addr : List Char) (cidr : String) : Bool :=
  match splitSlash cidr.toList with
  | none => false
  | some (base, pfx) =>
    match toU32 addr, toU32 base, parseBelow (2 ^ 32) pfx with
    | some a, some c, some p =>
      if p = 0 then true
      else if 32 < p then false
      else
        let mask : UInt32 := 0xffffffff <<< UInt32.ofNat (32 - p)
        a &&& mask == c &&& mask
    | _, _, _ => false

/-- `for a in as { check(a)?; }`. -/
def checkAll {α : Type} (check : α → Except String Unit) : List α → Except String Unit
  | [] => .ok ()
  | a :: as => check a >>= fun _ => checkAll check as

/-- No MAC twice, and none of a primary interface. -/
def checkMacs (primary : List (String × String)) : List String → List String → Except String Unit
  | _, [] => .ok ()
  | seen, m :: ms =>
    let mk := toAsciiLowercase m
    if mk ∈ seen then
      .error ("duplicate MAC in the EXTRA_NET_* family: '" ++ m ++ "' — every NIC needs a unique MAC")
    else match primary.lookup mk with
      | some owner =>
        .error ("EXTRA_NET MAC '" ++ m ++ "' collides with the primary-NIC MAC of " ++ owner ++
          " — every NIC on the host needs a unique MAC")
      | none => checkMacs primary (mk :: seen) ms

/-- The address of a CIDR. -/
def bareAddress (a : String) : List Char := a.toList.takeWhile (· ≠ '/')

def checkAddresses : List (List Char) → List String → Except String Unit
  | _, [] => .ok ()
  | seen, a :: as =>
    if seen.contains (bareAddress a) then
      .error ("duplicate address in the EXTRA_NET_* family: '" ++ String.ofList (bareAddress a) ++
        "' — every NIC needs a unique address")
    else checkAddresses (bareAddress a :: seen) as

def checkOverlap (a : String) (named : String × Option String) : Except String Unit :=
  match named.2.filter (· ≠ "") with
  | none => .ok ()
  | some range =>
    if ipInCidr (bareAddress a) range then
      .error ("EXTRA_NET address " ++ String.ofList (bareAddress a) ++ " falls inside " ++ named.1 ++
        "=" ++ range ++ " — traffic to it would be swallowed by the cluster network. " ++
        "Pick ranges that overlap neither.")
    else .ok ()

def isSet (v : Option String) : Bool := v.any (· ≠ "")

def isAnySet (v : Option (List String)) : Bool := v.any fun vs => vs.any (· ≠ "")

/-- `Err(anyhow!(..))` where a condition holds. -/
def failIf (bad : Bool) (text : String) : Except String Unit := if bad then .error text else .ok ()

/-- The entries of an array that are wrong, by their place in it. -/
def checkEntries (ok : String → Bool) (knob : String) (entries : List String) :
    Except String Unit :=
  checkAll (fun (v, i) => failIf (!ok v) (knob ++ "[" ++ toString i ++ "] malformed: '" ++ v ++ "'"))
    entries.zipIdx

def notParallel (knob : String) (entries names : Nat) : String :=
  knob ++ " has " ++ toString entries ++ " entries but WORKER_NAMES has " ++ toString names ++
    " — the arrays must be parallel"

/-- `primary_by_mac`: what is put in last is found first. -/
def primaryByMac (plan : NicPlan) (macs : PrimaryMacs) : List (String × String) :=
  (((macs.cp :: macs.workers).map toAsciiLowercase).zip (plan.cpName :: plan.workerNames)).reverse

def checkFamily (plan : NicPlan) (macs : PrimaryMacs) (cpMac cpIp : String)
    (wMacs wIps : List String) : Except String Unit := do
  failIf (!isValidMac cpMac) ("EXTRA_NETWORK is set but EXTRA_NET_CP_MAC is missing/malformed " ++
    "(need aa:bb:cc:dd:ee:ff): '" ++ cpMac ++ "'")
  failIf (!isValidCidr cpIp) ("EXTRA_NETWORK is set but EXTRA_NET_CP_IP is missing/malformed " ++
    "(need CIDR like 10.0.0.241/24): '" ++ cpIp ++ "'")
  failIf (wMacs.length != plan.workerNames.length)
    (notParallel "EXTRA_NET_WORKER_MACS" wMacs.length plan.workerNames.length)
  failIf (wIps.length != plan.workerNames.length)
    (notParallel "EXTRA_NET_WORKER_IPS" wIps.length plan.workerNames.length)
  checkEntries isValidMac "EXTRA_NET_WORKER_MACS" wMacs
  checkEntries isValidCidr "EXTRA_NET_WORKER_IPS" wIps
  checkMacs (primaryByMac plan macs) [] (cpMac :: wMacs)
  checkAddresses [] (cpIp :: wIps)
  checkAll (fun a => checkAll (checkOverlap a)
    [("POD_CIDR", plan.podCidr), ("SERVICE_CIDR", plan.serviceCidr)]) (cpIp :: wIps)

def validateExtraNetwork (plan : NicPlan) (macs : PrimaryMacs) :
    Except String (Option (Net2 × List Net2)) :=
  match plan.extraNetwork.filter (· ≠ "") with
  | none =>
    if isSet plan.extraNetCpMac || isSet plan.extraNetCpIp || isAnySet plan.extraNetWorkerMacs ||
        isAnySet plan.extraNetWorkerIps then
      .error ("EXTRA_NET_* values are set but EXTRA_NETWORK is empty — " ++
        "set EXTRA_NETWORK=<libvirt network> or clear the family")
    else .ok none
  | some net =>
    let cpMac := plan.extraNetCpMac.getD ""
    let cpIp := plan.extraNetCpIp.getD ""
    let wMacs := plan.extraNetWorkerMacs.getD []
    let wIps := plan.extraNetWorkerIps.getD []
    checkFamily plan macs cpMac cpIp wMacs wIps >>= fun _ =>
      .ok (some (⟨net, cpMac, cpIp⟩, (wMacs.zip wIps).map fun p => ⟨net, p.1, p.2⟩))

/-- `sha256sum` of the name gives `f01dbd…`. -/
example : derivePrimaryMac "hbird-cp1" = "52:54:00:f0:1d:bd" := by decide +kernel

/-- A derived MAC is well-formed: only a configured one can be refused. -/
theorem isValidMac_derivePrimaryMac (name : String) : isValidMac (derivePrimaryMac name) = true := by
  have hhex : ∀ c ∈ Sha256.hexDigits, isAsciiHexdigit c = true ∧ c ≠ ':' := by
    simp [Sha256.hexDigits, isAsciiHexdigit, Char.isDigit]
  have hchars : ∀ c ∈ Sha256.sha256Hex name.toUTF8.data.toList,
      isAsciiHexdigit c = true ∧ c ≠ ':' := fun c hc => hhex c (Sha256.mem_sha256Hex hc)
  have hlength := Sha256.length_sha256Hex name.toUTF8.data.toList
  unfold derivePrimaryMac
  generalize Sha256.sha256Hex name.toUTF8.data.toList = h at hchars hlength
  obtain _ | ⟨a, _ | ⟨b, _ | ⟨c, _ | ⟨d, _ | ⟨e, _ | ⟨f, rest⟩⟩⟩⟩⟩⟩ := h
  iterate 6 simp at hlength
  have hpair : ∀ x y, x ∈ a :: b :: c :: d :: e :: f :: rest →
      y ∈ a :: b :: c :: d :: e :: f :: rest → ':' ∉ [x, y] ∧
        ([x, y].length == 2 && [x, y].all isAsciiHexdigit) = true := by
    intro x y hx hy
    obtain ⟨hx, hxc⟩ := hchars x hx
    obtain ⟨hy, hyc⟩ := hchars y hy
    exact ⟨by simp [hxc.symm, hyc.symm], by simp [hx, hy]⟩
  obtain ⟨hab, hab'⟩ := hpair a b (by simp) (by simp)
  obtain ⟨hcd, hcd'⟩ := hpair c d (by simp) (by simp)
  obtain ⟨hef, hef'⟩ := hpair e f (by simp) (by simp)
  have htext : ("52:54:00:" ++ String.ofList [a, b] ++ ":" ++ String.ofList [c, d] ++ ":" ++
      String.ofList [e, f]).toList = ['5', '2'] ++ ':' :: (['5', '4'] ++ ':' :: (['0', '0'] ++ ':' ::
        ([a, b] ++ ':' :: ([c, d] ++ ':' :: [e, f])))) := by
    simp only [String.toList_append, String.toList_ofList]
    rfl
  have hsplit : ("52:54:00:" ++ String.ofList [a, b] ++ ":" ++ String.ofList [c, d] ++ ":" ++
      String.ofList [e, f]).toList.splitOn ':' =
        [['5', '2'], ['5', '4'], ['0', '0'], [a, b], [c, d], [e, f]] := by
    rw [htext, List.splitOn_append_cons_self, List.splitOn_append_cons_self,
      List.splitOn_append_cons_self, List.splitOn_append_cons_self, List.splitOn_append_cons_self,
      List.splitOn_eq_singleton hab, List.splitOn_eq_singleton hcd, List.splitOn_eq_singleton hef]
    rfl
  have hall : ∀ p ∈ [['5', '2'], ['5', '4'], ['0', '0'], [a, b], [c, d], [e, f]],
      (p.length == 2 && p.all isAsciiHexdigit) = true := by
    simp only [List.forall_mem_cons]
    exact ⟨by decide, by decide, by decide, hab', hcd', hef', by simp⟩
  rw [isValidMac]
  simp only [List.take, List.drop, hsplit]
  exact Bool.and_eq_true_iff.mpr ⟨rfl, List.all_eq_true.mpr hall⟩

section Checks

variable {primary : List (String × String)} {seen ms : List String} {names : List String}

end Checks

/-- The addresses of a CIDR: those whose first bits are its own. -/
def InCidr (addr : List Char) (cidr : String) : Prop :=
  ∃ base pfx, splitSlash cidr.toList = some (base, pfx) ∧
    Ipv4.toNat addr / 2 ^ (32 - Ipv4.value pfx) = Ipv4.toNat base / 2 ^ (32 - Ipv4.value pfx)

section Cidr

theorem toNat_and_mask (a : UInt32) {s : Nat} (hs : s < 32) :
    (a &&& (0xffffffff <<< UInt32.ofNat s)).toNat = a.toNat / 2 ^ s * 2 ^ s := by
  have hshift : (UInt32.ofNat s).toNat % 32 = s := by
    rw [UInt32.toNat_ofNat']
    omega
  rw [UInt32.toNat_and, UInt32.toNat_shiftLeft, hshift, ← Nat.shiftRight_eq_div_pow,
    ← Nat.shiftLeft_eq]
  have hones : UInt32.toNat 0xffffffff = 2 ^ 32 - 1 := rfl
  rw [hones]
  refine Nat.eq_of_testBit_eq fun i => ?_
  have hlt : a.toNat < 2 ^ 32 := a.toNat_lt
  simp only [Nat.testBit_and, Nat.testBit_mod_two_pow, Nat.testBit_shiftLeft,
    Nat.testBit_two_pow_sub_one, Nat.testBit_shiftRight]
  by_cases hi : i < 32
  · by_cases hsi : s ≤ i
    · have : i - s < 32 := by omega
      simp [hi, hsi, this]
    · simp [hsi]
  · have : a.toNat.testBit i = false := Nat.testBit_lt_two_pow (hlt.trans_le (Nat.pow_le_pow_right (by decide) (by omega)))
    simp [hi]
    intro hsi
    rw [Nat.add_sub_cancel' hsi, this]

theorem toNat_shift_or (out : UInt32) {o : Nat} (hout : out.toNat < 2 ^ 24) (ho : o < 256) :
    (out <<< 8 ||| UInt32.ofNat o).toNat = 256 * out.toNat + o := by
  have hshift : UInt32.toNat 8 % 32 = 8 := rfl
  have hsmall : out.toNat <<< 8 < 2 ^ 32 := by
    rw [Nat.shiftLeft_eq]
    omega
  rw [UInt32.toNat_or, UInt32.toNat_shiftLeft, hshift, Nat.mod_eq_of_lt hsmall,
    UInt32.toNat_ofNat', Nat.mod_eq_of_lt (by omega), ← Nat.shiftLeft_add_eq_or_of_lt ho,
    Nat.shiftLeft_eq]
  omega

theorem isValidCidr_iff {s : String} : isValidCidr s = true ↔ ∃ addr pfx,
    splitSlash s.toList = some (addr, pfx) ∧ Ipv4.isAddress addr = true ∧
      Ipv4.isDecimalInRange pfx 32 = true := by
  rw [isValidCidr]
  cases hsplit : splitSlash s.toList with
  | none => simp
  | some p =>
    obtain ⟨addr, pfx⟩ := p
    simp [Bool.and_eq_true]

/-- A number in the strict form is read as what it is. -/
theorem parseBelow_eq {s : List Char} {max bound : Nat} (h : Ipv4.isDecimalInRange s max = true)
    (hbound : max < bound) : parseBelow bound s = some (Ipv4.value s) := by
  obtain ⟨hdecimal, -, hle⟩ := Ipv4.isDecimalInRange_iff.mp h
  obtain ⟨hne, hdigits, -⟩ := Ipv4.isDecimal_iff.mp hdecimal
  obtain ⟨c, cs, rfl⟩ := List.exists_cons_of_ne_nil hne
  have hplus : c ≠ '+' := by
    rintro rfl
    exact absurd (hdigits '+' List.mem_cons_self) (by decide)
  have hall : (c :: cs).all Char.isDigit = true := List.all_eq_true.mpr hdigits
  have hdrop : dropPlus (c :: cs) = c :: cs := by
    unfold dropPlus
    split
    · rename_i heq
      exact absurd (List.cons.inj heq).1 hplus
    · rfl
  rw [parseBelow, hdrop]
  exact if_pos ⟨hne, hall, hle.trans_lt hbound⟩

theorem toU32_eq {s : List Char} (h : Ipv4.isAddress s = true) :
    ∃ u, toU32 s = some u ∧ u.toNat = Ipv4.toNat s := by
  obtain ⟨a, b, c, d, hsplit, hall⟩ := Ipv4.isAddress_iff.mp h
  have hparse : ∀ p ∈ [a, b, c, d], parseBelow (2 ^ 8) p = some (Ipv4.value p) := fun p hp =>
    parseBelow_eq (hall p hp) (by decide)
  have hle : ∀ p ∈ [a, b, c, d], Ipv4.value p < 256 := fun p hp =>
    Nat.lt_succ_of_le (Ipv4.isDecimalInRange_iff.mp (hall p hp)).2.2
  have ha := hle a (by simp)
  have hb := hle b (by simp)
  have hc := hle c (by simp)
  have hd := hle d (by simp)
  have hmap : [a, b, c, d].mapM (parseBelow (2 ^ 8)) =
      some [Ipv4.value a, Ipv4.value b, Ipv4.value c, Ipv4.value d] := by
    simp only [List.mapM_cons, List.mapM_nil, hparse a (by simp), hparse b (by simp),
      hparse c (by simp), hparse d (by simp)]
    rfl
  have h₁ := toNat_shift_or 0 (o := Ipv4.value a) (by decide) ha
  have h₂ := toNat_shift_or _ (o := Ipv4.value b) (by rw [h₁]; simp; omega) hb
  have h₃ := toNat_shift_or _ (o := Ipv4.value c) (by rw [h₂, h₁]; simp; omega) hc
  have h₄ := toNat_shift_or _ (o := Ipv4.value d) (by rw [h₃, h₂, h₁]; simp; omega) hd
  rw [toU32, hsplit, hmap]
  refine ⟨_, rfl, ?_⟩
  rw [List.foldl_cons, List.foldl_cons, List.foldl_cons, List.foldl_cons, List.foldl_nil, h₄, h₃, h₂,
    h₁, Ipv4.toNat, hsplit, List.map_cons, List.map_cons, List.map_cons, List.map_cons, List.map_nil,
    Ipv4.fromOctets_four]
  simp

theorem ipInCidr_iff {addr : List Char} {cidr : String} (haddr : Ipv4.isAddress addr = true)
    (hcidr : isValidCidr cidr = true) : ipInCidr addr cidr = true ↔ InCidr addr cidr := by
  obtain ⟨base, pfx, hsplit, hbase, hpfx⟩ := isValidCidr_iff.mp hcidr
  obtain ⟨a, ha, haNat⟩ := toU32_eq haddr
  obtain ⟨c, hc, hcNat⟩ := toU32_eq hbase
  have hp : parseBelow (2 ^ 32) pfx = some (Ipv4.value pfx) := parseBelow_eq hpfx (by decide)
  have hle : Ipv4.value pfx ≤ 32 := (Ipv4.isDecimalInRange_iff.mp hpfx).2.2
  have hin : InCidr addr cidr ↔
      a.toNat / 2 ^ (32 - Ipv4.value pfx) = c.toNat / 2 ^ (32 - Ipv4.value pfx) := by
    rw [InCidr, hsplit, haNat, hcNat]
    constructor
    · rintro ⟨base', pfx', heq, h⟩
      cases heq
      exact h
    · exact fun h => ⟨base, pfx, rfl, h⟩
  rw [hin, ipInCidr, hsplit]
  simp only [ha, hc, hp]
  by_cases hzero : Ipv4.value pfx = 0
  · have ha32 : a.toNat / 2 ^ 32 = 0 := Nat.div_eq_of_lt a.toNat_lt
    have hc32 : c.toNat / 2 ^ 32 = 0 := Nat.div_eq_of_lt c.toNat_lt
    rw [if_pos hzero, hzero, Nat.sub_zero, ha32, hc32]
    exact ⟨fun _ => rfl, fun _ => rfl⟩
  · have hmask := toNat_and_mask a (s := 32 - Ipv4.value pfx) (by omega)
    have hmask' := toNat_and_mask c (s := 32 - Ipv4.value pfx) (by omega)
    rw [if_neg hzero, if_neg (by omega), beq_iff_eq, ← UInt32.toNat_inj, hmask, hmask']
    exact Nat.mul_left_inj (by positivity)

end Cidr

section Sound

variable {config : ClusterConfig} {plan : NicPlan} {macs : PrimaryMacs}
  {extra : Option (Net2 × List Net2)}

end Sound

section Sample

/-- A second interface on `lan`, MACs of the first one derived for the workers. -/
def sampleConfig : ClusterConfig where
  cpName := "hbird-cp1"
  sshPubkeyFile := "/root/.ssh/id_ed25519.pub"
  kvmHost := none
  imageSource := "ghcr"
  ghcrTag := "stable"
  enableCloudInit := 1
  autoUpdateCp := false
  switchToGhcr := true
  cpMemory := 4096
  cpVcpus := 2
  workerMemory := 4096
  workerVcpus := 2
  poolDir := "/var/lib/libvirt/images"
  runVerify := false
  bootcUpdateSchedule := none
  bootcUpdateRepoK8s := none
  bootcUpdateRepoWorker := none
  workerNames := some ["hbird-w1", "hbird-w2"]
  cpIp := none
  podCidr := some "10.244.0.0/16"
  serviceCidr := none
  workerIps := none
  cpMac := some "52:54:00:AA:00:01"
  workerMacs := some ["", "52:54:00:aa:00:02"]
  extraNetwork := some "lan"
  extraNetCpMac := some "52:54:01:00:00:01"
  extraNetCpIp := some "10.0.0.241/24"
  extraNetWorkerMacs := some ["52:54:01:00:00:02", "52:54:01:00:00:03"]
  extraNetWorkerIps := some ["10.0.0.242/24", "10.0.0.243/24"]
  warnings := []

end Sample

section Digest

open Hbird.Sha256Hex

/-- The MAC of a name, from the digest that the loops compute. -/
theorem derivePrimaryMac_eq (name : String) : derivePrimaryMac name =
    "52:54:00:" ++ String.ofList ((sha256Hex name.toUTF8.data.toList).take 2) ++ ":" ++
      String.ofList (((sha256Hex name.toUTF8.data.toList).drop 2).take 2) ++ ":" ++
      String.ofList (((sha256Hex name.toUTF8.data.toList).drop 4).take 2) := by
  rw [← functional_eq, derivePrimaryMac]

/-- The digest is the standard's, for every length of the data: the blocks are the whole padded
message, and the MAC of every name is cut from the name's digest and well formed. -/
theorem sha256Hex_standard (data : List UInt8) (name : String) :
    sha256Hex data = Fips180.hexOfBits (Fips180.sha256 (Fips180.bitsOf data)) ∧
      (padded data).length % 64 = 0 ∧ (chunksExact 64 (padded data)).flatten = padded data ∧
      isValidMac (derivePrimaryMac name) = true ∧
      derivePrimaryMac name =
        "52:54:00:" ++ String.ofList ((sha256Hex name.toUTF8.data.toList).take 2) ++ ":" ++
          String.ofList (((sha256Hex name.toUTF8.data.toList).drop 2).take 2) ++ ":" ++
          String.ofList (((sha256Hex name.toUTF8.data.toList).drop 4).take 2) :=
  ⟨sha256Hex_spec data, length_padded data, flatten_chunksExact (by decide) _ (length_padded data),
    isValidMac_derivePrimaryMac name, derivePrimaryMac_eq name⟩

end Digest

end Hbird.Virt.DeployCluster
