import Hbird.Ipv4
import Hbird.Virt.Connection

namespace Hbird.Domifaddr

open Hbird.Text Hbird.Ipv4 Hbird.Virt

/-- The fourth column of a row. -/
def addressColumn (line : String) : Option String := (splitWhitespace line)[3]?

/-- What stands before the prefix length. -/
def withoutPrefix (cidr : String) : List Char := cidr.toList.takeWhile (· ≠ '/')

/-- The text that one row yields for the parsers that read no address. -/
def addressText (line : String) : Option String :=
  (addressColumn line).bind fun cidr =>
    if withoutPrefix cidr = [] then none else some (String.ofList (withoutPrefix cidr))

/-- The loop that two commands have a copy of each. -/
def firstAddressText (raw : String) : Option String :=
  (lines raw).findSome? fun line => if contains line "ipv4" then addressText line else none

/-- `cp_resolve::parse_first_domifaddr_ipv4`. -/
def CpResolve.parseFirstDomifaddrIpv4 (raw : String) : Option String := firstAddressText raw

/-- `verify::parse_first_domifaddr_ipv4`. -/
def Verify.parseFirstDomifaddrIpv4 (raw : String) : Option String := firstAddressText raw

/-- A row of an address of version 4, in whatever case. -/
def mentionsIpv4 (line : String) : Bool := contains (toAsciiLowercase line) "ipv4"

/-- `hbird_virt::parse_domifaddr`. -/
def parseDomifaddr (stdout command : String) : Except Virt.Error (Option Address) :=
  match (lines stdout).find? mentionsIpv4 with
  | none => .ok none
  | some line =>
    match addressColumn line with
    | none => .error (.unparseableOutput command "ipv4 row had fewer than 4 whitespace-separated fields")
    | some cidr =>
      match parse (withoutPrefix cidr) with
      | none => .error (.unparseableOutput command "ipv4 row's address field did not parse as IPv4")
      | some address => .ok (some address)

/-- A row as `virsh` prints it: interface, MAC, protocol, and an address with its prefix length. -/
def rowAddress (line : String) : Option Address :=
  match splitWhitespace line with
  | [_, _, protocol, cidr] =>
    if eqIgnoreAsciiCase protocol "ipv4" then
      match splitOnce '/' cidr with
      | some (address, width) =>
        if isDecimalInRange width.toList 32 then parse address.toList else none
      | none => none
    else none
  | _ => none

/-- The address that the table gives. -/
def firstAddress (raw : String) : Option Address := (lines raw).findSome? rowAddress

/-- All three parsers find the address of the first well-formed row. -/
structure Agree (raw command : String) : Prop where
  cpResolve : CpResolve.parseFirstDomifaddrIpv4 raw =
    (firstAddress raw).map fun a => String.ofList a.text
  verify : Verify.parseFirstDomifaddrIpv4 raw =
    (firstAddress raw).map fun a => String.ofList a.text
  virt : parseDomifaddr raw command = .ok (firstAddress raw)

/-- The first of the lines of a kind shows the address. -/
def FirstShows (kind : String → Bool) (ls : List String) (text : List Char) : Prop :=
  ∃ line cidr, ls.find? kind = some line ∧ addressColumn line = some cidr ∧ withoutPrefix cidr = text

/-- A row in lower case whose address column is not empty. -/
def isUsable (line : String) : Bool := contains line "ipv4" && (addressText line).isSome

def isRow (line : String) : Bool := (rowAddress line).isSome

/-- Nothing in the table speaks of version 4; or one address stands in the first row that does, in
the first one that does so in lower case and has an address column, and in the first well-formed
one. -/
def Uniform (raw : String) : Prop :=
  (∀ line ∈ lines raw, mentionsIpv4 line = false) ∨
    ∃ address : Address, FirstShows mentionsIpv4 (lines raw) address.text ∧
      FirstShows isUsable (lines raw) address.text ∧ FirstShows isRow (lines raw) address.text

section Lines

variable {line raw command : String} {ls : List String} {address : Address}

theorem findSome?_eq_bind {α β : Type} (f : α → Option β) (as : List α) :
    as.findSome? f = (as.find? fun a => (f a).isSome).bind f := by
  induction as with
  | nil => rfl
  | cons a as ih =>
    rw [List.findSome?_cons, List.find?_cons]
    cases hf : f a with
    | none => exact ih
    | some b => exact hf.symm

theorem firstAddress_eq : firstAddress raw = ((lines raw).find? isRow).bind rowAddress :=
  findSome?_eq_bind rowAddress (lines raw)

theorem firstAddressText_eq :
    firstAddressText raw = ((lines raw).find? isUsable).bind addressText := by
  have hkind : (fun line => (if contains line "ipv4" = true then addressText line else none).isSome) =
      isUsable := by
    funext line
    rw [isUsable]
    cases contains line "ipv4" <;> rfl
  rw [firstAddressText, findSome?_eq_bind, hkind]
  cases hfind : (lines raw).find? isUsable with
  | none => rfl
  | some line =>
    have husable := List.find?_some hfind
    simp only [isUsable, Bool.and_eq_true] at husable
    rw [Option.bind_some, Option.bind_some, if_pos husable.1]

theorem addressText_eq_some {text : String} (h : addressText line = some text) :
    ∃ cidr, addressColumn line = some cidr ∧ String.ofList (withoutPrefix cidr) = text := by
  obtain ⟨cidr, hcidr, htext⟩ := Option.bind_eq_some_iff.mp h
  split_ifs at htext
  exact ⟨cidr, hcidr, Option.some.inj htext⟩

theorem rowAddress_eq_some (h : rowAddress line = some address) :
    ∃ cidr, addressColumn line = some cidr ∧ withoutPrefix cidr = address.text := by
  unfold rowAddress at h
  split at h
  · next name mac protocol cidr hfields =>
    split_ifs at h
    refine ⟨cidr, by rw [addressColumn, hfields]; rfl, ?_⟩
    split at h
    · next text width hsplit =>
      split_ifs at h
      rw [parse_eq_some.mp h]
      unfold splitOnce at hsplit
      split at hsplit
      · cases hsplit
      · cases hsplit
        rw [String.toList_ofList]
        rfl
    · cases h
  · cases h

theorem splitOnP_parts (p : Char → Bool) (cs : List Char) :
    ∃ part parts, cs.splitOnP p = part :: parts ∧ part <+: cs ∧ ∀ q ∈ parts, q <:+: cs := by
  induction cs with
  | nil => exact ⟨[], [], List.splitOnP_nil, List.prefix_rfl, by simp⟩
  | cons c cs ih =>
    obtain ⟨part, parts, hsplit, hprefixed, hparts⟩ := ih
    rw [List.splitOnP_cons_eq_if_modifyHead, hsplit]
    split_ifs
    · refine ⟨[], part :: parts, rfl, List.nil_prefix, List.forall_mem_cons.mpr ⟨?_, fun q hq => ?_⟩⟩
      · exact List.infix_cons hprefixed.isInfix
      · exact List.infix_cons (hparts q hq)
    · refine ⟨c :: part, parts, rfl, ?_, fun q hq => List.infix_cons (hparts q hq)⟩
      exact (List.prefix_cons_inj c).mpr hprefixed

theorem infix_of_mem_splitWhitespace {field : String} (h : field ∈ splitWhitespace line) :
    field.toList <:+: line.toList := by
  obtain ⟨part, hpart, rfl⟩ := List.mem_map.mp h
  rw [String.toList_ofList]
  obtain ⟨first, rest, hsplit, hfirst, hrest⟩ := splitOnP_parts isWhitespace line.toList
  have hmem := List.mem_of_mem_filter hpart
  rw [hsplit] at hmem
  obtain rfl | hmem := List.mem_cons.mp hmem
  · exact hfirst.isInfix
  · exact hrest part hmem

theorem contains_lowercase {t : String} (h : contains line t = true) :
    contains (toAsciiLowercase line) (toAsciiLowercase t) = true := by
  rw [contains, decide_eq_true_eq] at h ⊢
  rw [toAsciiLowercase, toAsciiLowercase, String.toList_ofList, String.toList_ofList]
  exact h.map _

theorem mentions_of_isUsable (h : isUsable line = true) : mentionsIpv4 line = true := by
  rw [isUsable, Bool.and_eq_true] at h
  have hlower : toAsciiLowercase "ipv4" = "ipv4" := by decide
  rw [mentionsIpv4, ← hlower]
  exact contains_lowercase h.1

theorem mentions_of_isRow (h : isRow line = true) : mentionsIpv4 line = true := by
  obtain ⟨address, hrow⟩ := Option.isSome_iff_exists.mp h
  unfold rowAddress at hrow
  split at hrow
  · next name mac protocol cidr hfields =>
    split_ifs at hrow with hprotocol
    have hmem : protocol ∈ splitWhitespace line := by
      rw [hfields]
      simp
    have hcontains : contains line protocol = true :=
      decide_eq_true (infix_of_mem_splitWhitespace hmem)
    have hlower : toAsciiLowercase protocol = "ipv4" :=
      (beq_iff_eq.mp hprotocol).trans (by decide)
    rw [mentionsIpv4, ← hlower]
    exact contains_lowercase hcontains
  · cases hrow

theorem firstAddress_iff : firstAddress raw = some address ↔
    FirstShows isRow (lines raw) address.text := by
  rw [firstAddress_eq]
  constructor
  · intro h
    obtain ⟨line, hfind, hrow⟩ := Option.bind_eq_some_iff.mp h
    obtain ⟨cidr, hcidr, htext⟩ := rowAddress_eq_some hrow
    exact ⟨line, cidr, hfind, hcidr, htext⟩
  · rintro ⟨line, cidr, hfind, hcidr, htext⟩
    rw [hfind, Option.bind_some]
    have hkind : isRow line = true := List.find?_some hfind
    obtain ⟨address', hrow⟩ := Option.isSome_iff_exists.mp hkind
    obtain ⟨cidr', hcidr', htext'⟩ := rowAddress_eq_some hrow
    obtain rfl := Option.some.inj (hcidr.symm.trans hcidr')
    have hparse : parse address.text = some address' := parse_eq_some.mpr (htext'.symm.trans htext)
    rw [hrow, ← hparse, parse_eq_some.mpr rfl]

theorem firstAddressText_iff : firstAddressText raw = some (String.ofList address.text) ↔
    FirstShows isUsable (lines raw) address.text := by
  rw [firstAddressText_eq]
  constructor
  · intro h
    obtain ⟨line, hfind, htext⟩ := Option.bind_eq_some_iff.mp h
    obtain ⟨cidr, hcidr, hcut⟩ := addressText_eq_some htext
    exact ⟨line, cidr, hfind, hcidr, String.ofList_injective hcut⟩
  · rintro ⟨line, cidr, hfind, hcidr, hcut⟩
    rw [hfind, Option.bind_some]
    have husable := List.find?_some hfind
    simp only [isUsable, Bool.and_eq_true] at husable
    obtain ⟨text, htext⟩ := Option.isSome_iff_exists.mp husable.2
    obtain ⟨cidr', hcidr', hcut'⟩ := addressText_eq_some htext
    obtain rfl := Option.some.inj (hcidr.symm.trans hcidr')
    rw [htext, ← hcut', hcut]

theorem parseDomifaddr_iff : parseDomifaddr raw command = .ok (some address) ↔
    FirstShows mentionsIpv4 (lines raw) address.text := by
  unfold parseDomifaddr
  constructor
  · intro h
    split at h
    · cases h
    · next line hfind =>
      split at h
      · cases h
      · next cidr hcidr =>
        split at h
        · cases h
        · next address' hparse =>
          obtain rfl := Option.some.inj (Except.ok.inj h)
          exact ⟨line, cidr, hfind, hcidr, (parse_eq_some.mp hparse).symm⟩
  · rintro ⟨line, cidr, hfind, hcidr, htext⟩
    simp only [hfind, hcidr, parse_eq_some.mpr htext.symm]

theorem parseDomifaddr_none : parseDomifaddr raw command = .ok none ↔
    ∀ line ∈ lines raw, mentionsIpv4 line = false := by
  unfold parseDomifaddr
  constructor
  · intro h
    split at h
    · next hfind => simpa using List.find?_eq_none.mp hfind
    · split at h
      · cases h
      · split at h <;> cases h
  · intro h
    have hfind : (lines raw).find? mentionsIpv4 = none := List.find?_eq_none.mpr (by simpa using h)
    simp only [hfind]

end Lines

/-- The parsers agree on a table exactly where one address is all that can be read of it. -/
theorem agree_iff (raw command : String) : Agree raw command ↔ Uniform raw := by
  constructor
  · rintro ⟨hcp, -, hvirt⟩
    cases hfirst : firstAddress raw with
    | none =>
      rw [hfirst] at hvirt
      exact .inl (parseDomifaddr_none.mp hvirt)
    | some address =>
      rw [hfirst] at hcp hvirt
      exact .inr ⟨address, parseDomifaddr_iff.mp hvirt, firstAddressText_iff.mp hcp,
        firstAddress_iff.mp hfirst⟩
  · rintro (hnone | ⟨address, hmention, husable, hrow⟩)
    · have hkind : ∀ kind : String → Bool, (∀ line, kind line = true → mentionsIpv4 line = true) →
          (lines raw).find? kind = none := by
        refine fun kind himp => List.find?_eq_none.mpr fun line hmem hline => ?_
        have hmention := himp line hline
        rw [hnone line hmem] at hmention
        cases hmention
      have hrow : firstAddress raw = none := by
        rw [firstAddress_eq, hkind isRow fun _ => mentions_of_isRow]
        rfl
      have htext : firstAddressText raw = none := by
        rw [firstAddressText_eq, hkind isUsable fun _ => mentions_of_isUsable]
        rfl
      exact ⟨by rw [hrow]; exact htext, by rw [hrow]; exact htext,
        by rw [hrow]; exact parseDomifaddr_none.mpr hnone⟩
    · have hfirst := firstAddress_iff.mpr hrow
      have htext := firstAddressText_iff.mpr husable
      exact ⟨by rw [hfirst]; exact htext, by rw [hfirst]; exact htext,
        by rw [hfirst]; exact parseDomifaddr_iff.mpr hmention⟩

/-- A row with a capital letter before one of another interface: two commands talk to the second
address, and `hbird-virt` to the first. -/
theorem capital_row_disagrees : ¬ Agree
    (" vnet0      52:54:00:f0:1d:bd    IPv4         192.168.122.10/24\n" ++
      " vnet1      52:54:00:aa:00:02    ipv4         10.0.0.241/24\n") "virsh domifaddr hbird-cp1" := by
  rintro ⟨hcp, -, -⟩
  revert hcp
  decide +kernel

end Hbird.Domifaddr
