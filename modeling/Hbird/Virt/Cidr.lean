import Hbird.Virt.ExtraNetwork

namespace Hbird.Virt.DeployCluster

open Hbird.Text

/-- Four octets. -/
structure Quad where
  a : Fin 256
  b : Fin 256
  c : Fin 256
  d : Fin 256
  deriving DecidableEq, Repr

def Quad.octets (q : Quad) : List Nat := [q.a, q.b, q.c, q.d]

/-- The octets in decimal, with dots between them. -/
def Quad.text (q : Quad) : List Char := ['.'].intercalate (q.octets.map (Nat.toDigits 10))

def Quad.number (q : Quad) : Nat := ((q.a * 256 + q.b) * 256 + q.c) * 256 + q.d

structure Cidr where
  base : Quad
  pfx : Fin 33
  deriving DecidableEq, Repr

def Cidr.text (cidr : Cidr) : String :=
  String.ofList (cidr.base.text ++ '/' :: Nat.toDigits 10 cidr.pfx)

/-- How many addresses the block has. -/
def Cidr.size (cidr : Cidr) : Nat := 2 ^ (32 - cidr.pfx.val)

def Cidr.first (cidr : Cidr) : Nat := cidr.base.number / cidr.size * cidr.size

/-- The addresses of the block, an interval that begins at a multiple of its size. -/
def Cidr.addresses (cidr : Cidr) : Set Nat := Set.Ico cidr.first (cidr.first + cidr.size)

/-- A shift as the machine checks it: by the width or more it has no value. -/
def checkedShl (x : UInt32) (k : Nat) : Option UInt32 :=
  if k < 32 then some (x <<< UInt32.ofNat k) else none

/-- `ip_in_cidr` with its shift checked. -/
def ipInCidrChecked (addr : List Char) (cidr : String) : Option Bool :=
  match splitSlash cidr.toList with
  | none => some false
  | some (base, pfx) =>
    match toU32 addr, toU32 base, parseBelow (2 ^ 32) pfx with
    | some a, some c, some p =>
      if p = 0 then some true
      else if 32 < p then some false
      else (checkedShl 0xffffffff (32 - p)).map fun mask => a &&& mask == c &&& mask
    | _, _, _ => some false

theorem ipInCidrChecked_eq (addr : List Char) (cidr : String) :
    ipInCidrChecked addr cidr = some (ipInCidr addr cidr) := by
  rw [ipInCidrChecked, ipInCidr]
  cases splitSlash cidr.toList with
  | none => rfl
  | some split =>
    obtain ⟨base, pfx⟩ := split
    dsimp only
    cases toU32 addr with
    | none => rfl
    | some a =>
      cases toU32 base with
      | none => rfl
      | some c =>
        cases parseBelow (2 ^ 32) pfx with
        | none => rfl
        | some p =>
          dsimp only
          by_cases hzero : p = 0
          · rw [if_pos hzero, if_pos hzero]
          · rw [if_neg hzero, if_neg hzero]
            by_cases hlarge : 32 < p
            · rw [if_pos hlarge, if_pos hlarge]
            · rw [if_neg hlarge, if_neg hlarge, checkedShl, if_pos (by omega)]
              rfl

section Texts

variable {q : Quad} {s t : List Char}

theorem digits_not_mem {c : Char} (hc : c.isDigit = false) (n : Nat) : c ∉ Nat.toDigits 10 n := by
  intro h
  have hdigit := Nat.isDigit_of_mem_toDigits (by decide) (by decide) h
  rw [hc] at hdigit
  cases hdigit

theorem splitOn_text (q : Quad) : q.text.splitOn '.' = q.octets.map (Nat.toDigits 10) := by
  refine List.splitOn_intercalate '.' ?_ (List.cons_ne_nil _ _)
  intro l hl
  obtain ⟨n, -, rfl⟩ := List.mem_map.mp hl
  exact digits_not_mem (by decide) n

theorem slash_not_mem (q : Quad) : '/' ∉ q.text := by
  have hslash : ∀ n, '/' ∉ Nat.toDigits 10 n := digits_not_mem (by decide)
  simp only [Quad.text, Quad.octets, List.map_cons, List.map_nil, List.intercalate_cons_cons,
    List.intercalate_singleton, List.mem_append, List.mem_singleton, not_or]
  exact ⟨⟨hslash q.a, by decide⟩, ⟨hslash q.b, by decide⟩, ⟨hslash q.c, by decide⟩, hslash q.d⟩

theorem isDecimalInRange_octet :
    Ipv4.isDecimalInRange s 255 = true ↔ ∃ n : Fin 256, s = Nat.toDigits 10 n := by
  rw [Ipv4.isDecimalInRange_iff_toDigits (by decide)]
  constructor
  · rintro ⟨n, hn, rfl⟩
    exact ⟨⟨n, by omega⟩, rfl⟩
  · rintro ⟨n, rfl⟩
    exact ⟨n, by omega, rfl⟩

theorem isAddress_iff_quad : Ipv4.isAddress s = true ↔ ∃ q : Quad, s = q.text := by
  rw [Ipv4.isAddress_iff]
  constructor
  · rintro ⟨a, b, c, d, hsplit, hall⟩
    obtain ⟨i, hi⟩ := isDecimalInRange_octet.mp (hall a (by simp))
    obtain ⟨j, hj⟩ := isDecimalInRange_octet.mp (hall b (by simp))
    obtain ⟨k, hk⟩ := isDecimalInRange_octet.mp (hall c (by simp))
    obtain ⟨l, hl⟩ := isDecimalInRange_octet.mp (hall d (by simp))
    have hjoin : ['.'].intercalate (s.splitOn '.') = s := List.intercalate_splitOn '.'
    refine ⟨⟨i, j, k, l⟩, ?_⟩
    rw [← hjoin, hsplit, hi, hj, hk, hl]
    rfl
  · rintro ⟨q, rfl⟩
    refine ⟨_, _, _, _, splitOn_text q, fun p hp => ?_⟩
    obtain ⟨n, hn, rfl⟩ := List.mem_map.mp (show p ∈ q.octets.map (Nat.toDigits 10) from hp)
    have hlt : n < 256 := by
      simp only [Quad.octets, List.mem_cons, List.not_mem_nil, or_false] at hn
      omega
    exact isDecimalInRange_octet.mpr ⟨⟨n, hlt⟩, rfl⟩

theorem toNat_text (q : Quad) : Ipv4.toNat q.text = q.number := by
  rw [Ipv4.toNat, splitOn_text, List.map_map]
  have hvalue : (Ipv4.value ∘ Nat.toDigits 10 : Nat → Nat) = id := funext Ipv4.value_toDigits
  rw [hvalue, List.map_id, Quad.octets, Ipv4.fromOctets_four, Quad.number]
  omega

theorem splitSlash_append (h : '/' ∉ s) : splitSlash (s ++ '/' :: t) = some (s, t) := by
  have hne : ∀ c ∈ s, decide (c ≠ '/') = true := by
    intro c hc
    rw [decide_eq_true_eq]
    rintro rfl
    exact h hc
  rw [splitSlash, List.dropWhile_append_of_pos hne, List.takeWhile_append_of_pos hne]
  simp

/-- What stands on both sides of the first slash gives the text back. -/
theorem splitSlash_eq_some {base pfx : List Char} (h : splitSlash s = some (base, pfx)) :
    s = base ++ '/' :: pfx := by
  rw [splitSlash] at h
  split at h
  · cases h
  · next c rest hdrop =>
    obtain ⟨rfl, rfl⟩ := Prod.mk.inj (Option.some.inj h)
    have hhead := List.head?_dropWhile_not (fun c => decide (c ≠ '/')) s
    rw [hdrop] at hhead
    have hc : c = '/' := by simpa using hhead
    rw [hc] at hdrop
    rw [← hdrop]
    exact List.takeWhile_append_dropWhile.symm

theorem isValidCidr_iff_text {s : String} :
    isValidCidr s = true ↔ ∃ cidr : Cidr, s = cidr.text := by
  rw [isValidCidr_iff]
  constructor
  · rintro ⟨addr, pfx, hsplit, haddr, hpfx⟩
    obtain ⟨q, rfl⟩ := isAddress_iff_quad.mp haddr
    obtain ⟨n, hn, rfl⟩ := (Ipv4.isDecimalInRange_iff_toDigits (by decide)).mp hpfx
    refine ⟨⟨q, ⟨n, by omega⟩⟩, ?_⟩
    rw [Cidr.text, ← splitSlash_eq_some hsplit, String.ofList_toList]
  · rintro ⟨cidr, rfl⟩
    refine ⟨cidr.base.text, Nat.toDigits 10 cidr.pfx, ?_, isAddress_iff_quad.mpr ⟨_, rfl⟩, ?_⟩
    · rw [Cidr.text, String.toList_ofList]
      exact splitSlash_append (slash_not_mem _)
    · exact Ipv4.isDecimalInRange_toDigits (by omega) (by decide)

end Texts

section Block

variable (cidr : Cidr)

theorem Cidr.size_pos : 0 < cidr.size := Nat.two_pow_pos _

/-- An address is in the block where the same multiple of the size is at or below it. -/
theorem Cidr.mem_addresses {n : Nat} :
    n ∈ cidr.addresses ↔ n / cidr.size = cidr.base.number / cidr.size := by
  have hpos := cidr.size_pos
  rw [addresses, Set.mem_Ico, first, Nat.div_eq_iff hpos]
  omega

theorem Cidr.base_mem : cidr.base.number ∈ cidr.addresses := cidr.mem_addresses.mpr rfl

theorem ipInCidr_text (addr : Quad) :
    ipInCidr addr.text cidr.text = true ↔ addr.number ∈ cidr.addresses := by
  have hcidr : isValidCidr cidr.text = true := isValidCidr_iff_text.mpr ⟨cidr, rfl⟩
  rw [ipInCidr_iff (isAddress_iff_quad.mpr ⟨addr, rfl⟩) hcidr, cidr.mem_addresses, InCidr, toNat_text]
  have hsplit : splitSlash cidr.text.toList = some (cidr.base.text, Nat.toDigits 10 cidr.pfx) := by
    rw [Cidr.text, String.toList_ofList]
    exact splitSlash_append (slash_not_mem _)
  rw [hsplit]
  constructor
  · rintro ⟨base, pfx, heq, h⟩
    obtain ⟨rfl, rfl⟩ := Prod.mk.inj (Option.some.inj heq)
    rwa [toNat_text, Ipv4.value_toDigits] at h
  · intro h
    exact ⟨_, _, rfl, by rwa [toNat_text, Ipv4.value_toDigits]⟩

/-- What is a CIDR, and that an address is in it where it is in the interval: the shift of the mask
stays below the width on the way. -/
theorem isValidCidr_ipInCidr :
    (∀ s, isValidCidr s = true ↔ ∃ cidr : Cidr, s = cidr.text) ∧
    (∀ (addr : Quad) (cidr : Cidr),
      ipInCidr addr.text cidr.text = true ↔ addr.number ∈ cidr.addresses) ∧
    (∀ cidr : Cidr, cidr.base.number ∈ cidr.addresses) ∧
    ∀ addr cidr, ipInCidrChecked addr cidr = some (ipInCidr addr cidr) :=
  ⟨fun _ => isValidCidr_iff_text, fun addr cidr => ipInCidr_text cidr addr, Cidr.base_mem,
    ipInCidrChecked_eq⟩

end Block

end Hbird.Virt.DeployCluster
