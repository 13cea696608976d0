import Hbird.Virt.Connection
import Hbird.Xml

namespace Hbird.Virt

open Hbird.Text Hbird.Xml

inductive HostKey : Type
  | mac
  | id
  | name
  | ip
  deriving DecidableEq, Repr

def HostKey.label : HostKey → List Char
  | .mac => ['m', 'a', 'c']
  | .id => ['i', 'd']
  | .name => ['n', 'a', 'm', 'e']
  | .ip => ['i', 'p']

inductive LeaseKey : Type
  | expiry
  | unit
  deriving DecidableEq, Repr

def LeaseKey.label : LeaseKey → List Char
  | .expiry => ['e', 'x', 'p', 'i', 'r', 'y']
  | .unit => ['u', 'n', 'i', 't']

/-- A `<host …>` element of a network's `<dhcp>`: its attributes in their order, and those of its
`<lease …/>`, where it has one. -/
structure DhcpHost where
  attributes : List (HostKey × Value)
  distinct : (attributes.map Prod.fst).Nodup
  lease : Option (List (LeaseKey × Value))
  deriving DecidableEq

namespace DhcpHost

def has (k : HostKey) (s : String) (h : DhcpHost) : Bool :=
  h.attributes.any fun a => a.1 = k && a.2.text = s

def close (h : DhcpHost) : List Char := if h.lease.isSome then ['>'] else ['/', '>']

def opening : List Char := ['<', 'h', 'o', 's', 't']

def openTag (h : DhcpHost) : String :=
  String.ofList (opening ++ attributesText HostKey.label h.attributes ++ h.close)

/-- The lines of the element behind the first one. -/
def inner (indent : String) (h : DhcpHost) : List String :=
  match h.lease with
  | none => []
  | some as =>
    [indent ++ "  " ++ String.ofList
      (['<', 'l', 'e', 'a', 's', 'e'] ++ attributesText LeaseKey.label as ++ ['/', '>']),
      indent ++ "</host>"]

/-- The complete text of the element. -/
def element (indent : String) (h : DhcpHost) : String :=
  "\n".intercalate (h.openTag :: h.inner indent)

def lines (indent : String) (h : DhcpHost) : List String :=
  (indent ++ h.openTag) :: h.inner indent

/-- The opening tag has the text `name='<name>'` in it. -/
def Shows (name : String) (h : DhcpHost) : Prop :=
  contains h.openTag ("name='" ++ name ++ "'") = true

instance {name : String} {h : DhcpHost} : Decidable (h.Shows name) :=
  inferInstanceAs (Decidable (_ = true))

end DhcpHost

/-- The text of a network as `net-dumpxml` prints it: the DHCP hosts, with the indentation of their
lines, between other lines. None of these has the start of a host (there are hosts under `<dns>`) and
a name attribute. -/
structure Network where
  before : List String
  hosts : List DhcpHost
  after : List String
  indent : Nat
  foreign : ∀ l ∈ before ++ after,
    OneLine l ∧ ¬ (startsWith (trim l) "<host " = true ∧ contains (trim l) "name='" = true)

namespace Network

def indentation (net : Network) : String := String.ofList (List.replicate net.indent ' ')

def lines (net : Network) : List String :=
  net.before ++ net.hosts.flatMap (DhcpHost.lines net.indentation) ++ net.after

def xml (net : Network) : String := String.join (net.lines.map fun l => l ++ "\n")

/-- The complete text of the first host with this name. -/
def hostNamed (net : Network) (name : String) : Option String :=
  (net.hosts.find? (DhcpHost.has .name name)).map (DhcpHost.element net.indentation)

end Network

section Tags

variable {h g : DhcpHost} {name indent : String}

theorem HostKey.label_injective : Function.Injective HostKey.label := by
  intro k k' h
  cases k <;> cases k' <;> first | rfl | cases h

theorem HostKey.not_mem_label {c : Char} (hc : c ∉ "macidnamep".toList) (k : HostKey) :
    c ∉ k.label := by
  intro hmem
  cases k <;> simp [HostKey.label] at hmem hc <;> simp_all

theorem DhcpHost.not_mem_close {c : Char} (hc : c ∉ ['/', '>']) : c ∉ h.close := by
  rw [DhcpHost.close]
  split_ifs <;> simp_all

theorem DhcpHost.toList_openTag :
    h.openTag.toList = opening ++ attributesText HostKey.label h.attributes ++ h.close :=
  String.toList_ofList

theorem DhcpHost.openTag_injective (heq : h.openTag = g.openTag) :
    h.attributes = g.attributes ∧ h.close = g.close :=
  attributesText_injective HostKey.label_injective (HostKey.not_mem_label (by decide)) (by decide)
    (DhcpHost.not_mem_close (by decide)) (DhcpHost.not_mem_close (by decide))
    (String.ofList_injective heq)

theorem DhcpHost.has_iff {k : HostKey} {s : String} :
    h.has k s = true ↔ ∃ v, (k, v) ∈ h.attributes ∧ v.text = s := by
  simp only [DhcpHost.has, List.any_eq_true, Bool.and_eq_true, decide_eq_true_eq]
  constructor
  · rintro ⟨⟨k', v⟩, hmem, rfl, hv⟩
    exact ⟨v, hmem, hv⟩
  · rintro ⟨v, hmem, hv⟩
    exact ⟨(k, v), hmem, rfl, hv⟩

/-- An attribute can be read in the tag. -/
theorem DhcpHost.infix_openTag {k : HostKey} {v : Value} (hmem : (k, v) ∈ h.attributes) :
    k.label ++ '=' :: '\'' :: v.text.toList ++ ['\''] <:+: h.openTag.toList := by
  rw [DhcpHost.toList_openTag]
  exact (infix_attributesText hmem).trans ⟨_, _, rfl⟩

theorem DhcpHost.shows_iff_infix : h.Shows name ↔
    ['n', 'a', 'm', 'e', '='] ++ '\'' :: name.toList ++ ['\''] <:+: h.openTag.toList := by
  have hneedle : ("name='" ++ name ++ "'").toList =
      ['n', 'a', 'm', 'e', '='] ++ '\'' :: name.toList ++ ['\''] := by
    rw [String.toList_append, String.toList_append]
    rfl
  rw [DhcpHost.Shows, contains, hneedle, decide_eq_true_eq]

theorem DhcpHost.shows_of_has (hhas : h.has .name name = true) : h.Shows name := by
  obtain ⟨v, hmem, rfl⟩ := DhcpHost.has_iff.mp hhas
  exact DhcpHost.shows_iff_infix.mpr (DhcpHost.infix_openTag hmem)

/-- Behind an attribute's key stands its value; nothing else in a tag ends in `name=`, unless a value
does, and then a key follows. -/
theorem pieces_named {n close : List Char} {as : List (HostKey × Value)} {head y : List Char}
    {xs zs : List (List Char)} (hn : '=' ∉ n) (hzs : zs ≠ [])
    (hpieces : pieces HostKey.label close head as =
      xs ++ (y ++ ['n', 'a', 'm', 'e', '=']) :: n :: zs) :
    ∃ v, (HostKey.name, v) ∈ as ∧ v.text.toList = n := by
  induction as generalizing head xs with
  | nil =>
    have hlen := congrArg List.length hpieces
    simp [pieces] at hlen
    omega
  | cons a as ih =>
    obtain ⟨k, v⟩ := a
    obtain _ | ⟨x, _ | ⟨x', xs⟩⟩ := xs
    · obtain ⟨hkey, hrest⟩ := List.cons.inj hpieces
      obtain ⟨hvalue, -⟩ := List.cons.inj hrest
      have hname : k = .name := by
        have hend := congrArg List.reverse hkey
        cases k <;> simp [HostKey.label] at hend ⊢
      exact ⟨v, by rw [hname]; exact List.mem_cons_self, hvalue⟩
    · obtain ⟨-, hrest⟩ := List.cons.inj hpieces
      obtain ⟨-, hrest⟩ := List.cons.inj hrest
      cases as with
      | nil => exact absurd (List.cons.inj hrest).2.symm hzs
      | cons a as =>
        obtain ⟨hkey, -⟩ := List.cons.inj hrest
        exact absurd (by simp) (hkey ▸ hn)
    · obtain ⟨-, hrest⟩ := List.cons.inj hpieces
      obtain ⟨-, hrest⟩ := List.cons.inj hrest
      obtain ⟨v', hmem, hv'⟩ := ih hrest
      exact ⟨v', List.mem_cons_of_mem _ hmem, hv'⟩

/-- A name without quotes and without `=` is shown by its own entry only. -/
theorem DhcpHost.shows_iff (hquote : '\'' ∉ name.toList) (heq : '=' ∉ name.toList) :
    h.Shows name ↔ h.has .name name = true := by
  refine ⟨fun hshows => ?_, DhcpHost.shows_of_has⟩
  obtain ⟨xs, y, zs, hsplit, hzs⟩ := splitOn_of_infix (q := '\'') (n := name.toList) (by decide)
    (DhcpHost.shows_iff_infix.mp hshows)
  rw [DhcpHost.toList_openTag, splitOn_attributesText (HostKey.not_mem_label (by decide))
    (DhcpHost.not_mem_close (by decide)) _ (by decide), List.splitOn_eq_singleton hquote] at hsplit
  obtain ⟨v, hmem, hv⟩ := pieces_named heq hzs hsplit
  exact DhcpHost.has_iff.mpr ⟨v, hmem, String.toList_injective hv⟩

end Tags

section Lines

variable {net : Network} {h : DhcpHost} {name : String}

theorem trim_indented (n : Nat) (c d : Char) (mid : List Char) (hc : isWhitespace c = false)
    (hd : isWhitespace d = false) :
    trim (String.ofList (List.replicate n ' ') ++ String.ofList (c :: mid ++ [d])) =
      String.ofList (c :: mid ++ [d]) := by
  have hblanks : ∀ x ∈ List.replicate n ' ', isWhitespace x = true := by
    intro x hx
    rw [List.eq_of_mem_replicate hx]
    decide
  rw [trim, String.toList_append, String.toList_ofList, String.toList_ofList,
    List.dropWhile_append_of_pos hblanks, List.cons_append, List.dropWhile_cons_of_neg (by simp [hc]),
    ← List.cons_append, List.rdropWhile_concat_neg _ _ _ (by simp [hd])]

theorem DhcpHost.openTag_eq (h : DhcpHost) : ∃ mid, h.openTag = String.ofList ('<' :: mid ++ ['>']) := by
  rw [DhcpHost.openTag, DhcpHost.close]
  split_ifs
  · exact ⟨'h' :: 'o' :: 's' :: 't' :: attributesText HostKey.label h.attributes, rfl⟩
  · exact ⟨'h' :: 'o' :: 's' :: 't' :: attributesText HostKey.label h.attributes ++ ['/'], by
      simp [DhcpHost.opening]⟩

theorem oneLine_attributes {K : Type} {label : K → List Char} (as : List (K × Value))
    {head close : List Char} (hlabel : ∀ k, '\n' ∉ label k ∧ '\r' ∉ label k)
    (hhead : '\n' ∉ head ∧ '\r' ∉ head) (hclose : '\n' ∉ close ∧ '\r' ∉ close) :
    OneLine (String.ofList (head ++ attributesText label as ++ close)) := by
  have hn := not_mem_attributesText (c := '\n') (by decide) (by decide) (fun k => (hlabel k).1)
    (by decide) (by decide) as
  have hr := not_mem_attributesText (c := '\r') (by decide) (by decide) (fun k => (hlabel k).2)
    (by decide) (by decide) as
  constructor <;> rw [String.toList_ofList]
  · simp [hn, hhead.1, hclose.1]
  · simp [hr, hhead.2, hclose.2]

theorem oneLine_append {l l' : String} (hl : OneLine l) (hl' : OneLine l') : OneLine (l ++ l') := by
  constructor <;> rw [String.toList_append, List.mem_append, not_or]
  · exact ⟨hl.1, hl'.1⟩
  · exact ⟨hl.2, hl'.2⟩

theorem Network.oneLine_indentation : OneLine net.indentation := by
  constructor <;> rw [Network.indentation, String.toList_ofList] <;> intro hmem <;>
    cases List.eq_of_mem_replicate hmem

theorem DhcpHost.oneLine_openTag (h : DhcpHost) : OneLine h.openTag :=
  oneLine_attributes _ (fun _ => ⟨HostKey.not_mem_label (by decide) _,
    HostKey.not_mem_label (by decide) _⟩) (by decide)
    ⟨DhcpHost.not_mem_close (by decide), DhcpHost.not_mem_close (by decide)⟩

theorem DhcpHost.oneLine_inner {indent : String} (hindent : OneLine indent) :
    ∀ l ∈ h.inner indent, OneLine l := by
  intro l hl
  rw [DhcpHost.inner] at hl
  split at hl
  · cases hl
  · obtain rfl | hl := List.mem_cons.mp hl
    · refine oneLine_append (oneLine_append hindent ⟨by decide, by decide⟩)
        (oneLine_attributes _ (fun k => ?_) (by decide) (by decide))
      cases k <;> decide
    · obtain rfl := List.mem_singleton.mp hl
      exact oneLine_append hindent ⟨by decide, by decide⟩

theorem Network.oneLine (net : Network) : ∀ l ∈ net.lines, OneLine l := by
  intro l hl
  rw [Network.lines, List.append_assoc, List.mem_append, List.mem_append, List.mem_flatMap] at hl
  obtain hl | ⟨h, -, hl⟩ | hl := hl
  · exact (net.foreign l (List.mem_append_left _ hl)).1
  · obtain rfl | hl := List.mem_cons.mp hl
    · exact oneLine_append net.oneLine_indentation h.oneLine_openTag
    · exact DhcpHost.oneLine_inner net.oneLine_indentation l hl
  · exact (net.foreign l (List.mem_append_right _ hl)).1

/-- What the code looks for in a trimmed line. -/
def isHostLine (name l : String) : Bool :=
  startsWith l "<host " && contains l ("name='" ++ name ++ "'")

theorem isHostLine_foreign {l : String} (hl : l ∈ net.before ++ net.after) :
    isHostLine name (trim l) = false := by
  have hforeign := (net.foreign l hl).2
  by_contra hhost
  simp only [isHostLine, Bool.not_eq_false, Bool.and_eq_true] at hhost
  refine hforeign ⟨hhost.1, ?_⟩
  rw [contains, decide_eq_true_eq, String.append_assoc, String.toList_append] at hhost
  rw [contains, decide_eq_true_eq]
  exact (List.prefix_append _ _).isInfix.trans hhost.2

theorem isHostLine_openTag : isHostLine name h.openTag = decide (h.Shows name) := by
  by_cases hshows : h.Shows name
  · have hattributes : h.attributes ≠ [] := by
      intro hnil
      have hquote : '\'' ∈ h.openTag.toList :=
        (DhcpHost.shows_iff_infix.mp hshows).subset (by simp)
      rw [DhcpHost.toList_openTag, hnil] at hquote
      exact absurd hquote (by
        simp [DhcpHost.opening, attributesText, DhcpHost.not_mem_close (h := h) (c := '\'')])
    obtain ⟨a, as, has⟩ := List.exists_cons_of_ne_nil hattributes
    have hstart : startsWith h.openTag "<host " = true := by
      rw [startsWith_iff, DhcpHost.toList_openTag, has]
      exact ⟨_, by rw [attributesText]; rfl⟩
    rw [isHostLine, hstart, decide_eq_true hshows]
    exact hshows
  · rw [isHostLine, decide_eq_false hshows, Bool.eq_false_of_not_eq_true hshows, Bool.and_false]

theorem isHostLine_inner {l : String} (hl : l ∈ h.inner net.indentation) :
    isHostLine name (trim l) = false := by
  have hother : ∀ (n : Nat) (c : Char) (mid : List Char), c ≠ 'h' → isHostLine name
      (trim (String.ofList (List.replicate n ' ') ++ String.ofList ('<' :: (c :: mid) ++ ['>']))) =
        false := by
    intro n c mid hc
    rw [trim_indented n _ _ _ (by decide) (by decide), isHostLine, Bool.and_eq_false_iff]
    left
    by_contra hstart
    rw [Bool.not_eq_false, startsWith_iff] at hstart
    obtain ⟨rest, hrest⟩ := hstart
    have hline := hrest.trans (String.toList_ofList (l := '<' :: (c :: mid) ++ ['>']))
    exact hc (List.cons.inj (List.cons.inj hline).2).1.symm
  rw [DhcpHost.inner] at hl
  split at hl
  case h_1 => cases hl
  case h_2 _ as _ =>
    obtain rfl | hl := List.mem_cons.mp hl
    · have hindent : net.indentation ++ "  " = String.ofList (List.replicate (net.indent + 2) ' ') := by
        rw [Network.indentation, List.replicate_add, String.ofList_append]
        rfl
      rw [hindent]
      have h := hother (net.indent + 2) 'l' (['e', 'a', 's', 'e'] ++
        attributesText LeaseKey.label as ++ ['/']) (by decide)
      simpa using h
    · obtain rfl := List.mem_singleton.mp hl
      exact hother net.indent '/' ['h', 'o', 's', 't'] (by decide)

theorem trim_openTag (net : Network) (h : DhcpHost) : trim (net.indentation ++ h.openTag) = h.openTag := by
  obtain ⟨mid, hmid⟩ := h.openTag_eq
  rw [hmid]
  exact trim_indented _ _ _ _ (by decide) (by decide)

theorem find_lines : (net.lines.map trim).find? (isHostLine name) =
    (net.hosts.find? fun h => h.Shows name).map DhcpHost.openTag := by
  have hforeign : ∀ ls : List String, (∀ l ∈ ls, isHostLine name (trim l) = false) →
      (ls.map trim).find? (isHostLine name) = none := by
    intro ls hls
    rw [List.find?_eq_none]
    intro l hl
    obtain ⟨l', hl', rfl⟩ := List.mem_map.mp hl
    simp [hls l' hl']
  have hbefore := hforeign net.before fun l hl => isHostLine_foreign (List.mem_append_left _ hl)
  have hafter := hforeign net.after fun l hl => isHostLine_foreign (List.mem_append_right _ hl)
  have hhosts : ∀ hs : List DhcpHost,
      ((hs.flatMap (DhcpHost.lines net.indentation)).map trim).find? (isHostLine name) =
        (hs.find? fun h => h.Shows name).map DhcpHost.openTag := by
    intro hs
    induction hs with
    | nil => rfl
    | cons h hs ih =>
      have hinner := hforeign (h.inner net.indentation) fun l hl => isHostLine_inner hl
      rw [List.flatMap_cons, DhcpHost.lines, List.map_append, List.map_cons, trim_openTag,
        List.cons_append, List.find?_cons, isHostLine_openTag, List.find?_cons]
      by_cases hshows : h.Shows name
      · simp [hshows]
      · simp only [hshows, decide_false, List.find?_append, hinner, Option.none_or]
        exact ih
  rw [Network.lines, List.map_append, List.map_append, List.find?_append, List.find?_append,
    hbefore, hafter, hhosts, Option.none_or, Option.or_none]

theorem findIpDhcpHostByName_xml : findIpDhcpHostByName net.xml name =
    (net.hosts.find? fun h => h.Shows name).map DhcpHost.openTag := by
  rw [findIpDhcpHostByName, Network.xml, lines_join net.oneLine]
  exact find_lines

end Lines

section Search

variable {net : Network} {name : String}

theorem element_of_lease {h : DhcpHost} {indent : String} (hlease : h.lease = none) :
    h.element indent = h.openTag := by
  rw [DhcpHost.element, DhcpHost.inner, hlease, String.intercalate_singleton]

theorem lease_of_oneLine {h : DhcpHost} {indent : String} (hline : OneLine (h.element indent)) :
    h.lease = none := by
  cases hlease : h.lease with
  | none => rfl
  | some as =>
    rw [DhcpHost.element, DhcpHost.inner, hlease, String.intercalate_cons_cons] at hline
    exact absurd (by rw [String.toList_append, String.toList_append]; simp) hline.1

theorem find_has_of_find_shows (hfind : ∀ h, (net.hosts.find? fun h => h.Shows name) = some h →
    h.has .name name = true) :
    net.hosts.find? (DhcpHost.has .name name) = net.hosts.find? fun h => h.Shows name := by
  cases hshows : net.hosts.find? fun h => h.Shows name with
  | none =>
    rw [List.find?_eq_none] at hshows ⊢
    exact fun h hmem hhas => hshows h hmem (by simpa using DhcpHost.shows_of_has hhas)
  | some h =>
    obtain ⟨-, hs, hs', hhosts, hnot⟩ := List.find?_eq_some_iff_append.mp hshows
    refine List.find?_eq_some_iff_append.mpr ⟨hfind h hshows, hs, hs', hhosts, fun g hg => ?_⟩
    have hg' := hnot g hg
    by_contra hhas
    simp only [Bool.not_eq_true', decide_eq_false_iff_not] at hg'
    exact hg' (DhcpHost.shows_of_has (by simpa using hhas))

/-- The search finds the first host of this name, complete, exactly where the first host whose tag
has the text in it is of this name and has no lease. -/
theorem findIpDhcpHostByName_iff (net : Network) (name : String) :
    findIpDhcpHostByName net.xml name = net.hostNamed name ↔
      ∀ h, (net.hosts.find? fun h => h.Shows name) = some h →
        h.has .name name = true ∧ h.lease = none := by
  rw [findIpDhcpHostByName_xml, Network.hostNamed]
  constructor
  · intro heq h hfind
    rw [hfind, Option.map_some, eq_comm, Option.map_eq_some_iff] at heq
    obtain ⟨g, hg, helement⟩ := heq
    have hlease := lease_of_oneLine (helement ▸ h.oneLine_openTag)
    obtain ⟨hattributes, hclose⟩ := DhcpHost.openTag_injective
      ((element_of_lease hlease).symm.trans helement)
    have hhas := List.find?_some hg
    rw [DhcpHost.has, hattributes] at hhas
    refine ⟨hhas, ?_⟩
    cases hlease' : h.lease with
    | none => rfl
    | some as => simp [DhcpHost.close, hlease, hlease'] at hclose
  · intro hfind
    rw [find_has_of_find_shows fun h hh => (hfind h hh).1]
    cases hshows : net.hosts.find? fun h => h.Shows name with
    | none => rfl
    | some h => rw [Option.map_some, Option.map_some, element_of_lease (hfind h hshows).2]

/-- For a name without quotes and `=`, only a lease is in the way. -/
theorem findIpDhcpHostByName_plain (net : Network) {name : String} (hquote : '\'' ∉ name.toList)
    (heq : '=' ∉ name.toList) : findIpDhcpHostByName net.xml name = net.hostNamed name ↔
      ∀ h, net.hosts.find? (DhcpHost.has .name name) = some h → h.lease = none := by
  have hpred : (fun h : DhcpHost => decide (h.Shows name)) = DhcpHost.has .name name := by
    funext h
    rw [Bool.eq_iff_iff, decide_eq_true_eq]
    exact DhcpHost.shows_iff hquote heq
  rw [findIpDhcpHostByName_iff, hpred]
  exact ⟨fun h g hg => (h g hg).2, fun h g hg => ⟨List.find?_some hg, h g hg⟩⟩

end Search

/-- A reservation with a lease time of its own. -/
def leasedHost : DhcpHost where
  attributes := [(.mac, ⟨"52:54:00:dd:ee:ff", by decide⟩), (.name, ⟨"hbird-cp", by decide⟩),
    (.ip, ⟨"192.168.122.60", by decide⟩)]
  distinct := by decide
  lease := some [(.expiry, ⟨"30", by decide⟩)]

def leasedNetwork : Network where
  before := ["<dhcp>"]
  hosts := [leasedHost]
  after := ["</dhcp>"]
  indent := 2
  foreign := by
    intro l hl
    simp only [List.cons_append, List.nil_append, List.mem_cons, List.not_mem_nil, or_false] at hl
    rcases hl with rfl | rfl <;> exact ⟨⟨by decide, by decide⟩, by decide⟩

theorem findIpDhcpHostByName_leased : findIpDhcpHostByName leasedNetwork.xml "hbird-cp" ≠
    leasedNetwork.hostNamed "hbird-cp" := by
  decide +kernel

end Hbird.Virt
