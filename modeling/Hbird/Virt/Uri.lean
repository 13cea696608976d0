import Hbird.Config.Rendering

namespace Hbird.Virt

open Hbird.Config (find find_append find_eq_none find_eq_none_iff find_eq_some isAsciiAlphabetic
  isAsciiDigit)

inductive Instance : Type
  | system
  | session
  deriving DecidableEq, Repr

def Instance.toText : Instance → String
  | .system => "system"
  | .session => "session"

structure QemuSshUri where
  user : Option String
  host : String
  port : Option UInt16
  inst : Instance
  query : Option String
  deriving DecidableEq, Repr

/-- What `str::parse::<u16>` says of a text. -/
inductive ParseIntError : Type
  | empty
  | invalidDigit
  | posOverflow
  deriving DecidableEq, Repr

inductive UriError : Type
  | invalidUri (raw reason : String)
  | invalidPort (raw : String) (source : ParseIntError)
  deriving DecidableEq, Repr

/-- `str::rsplit_once` with a character. -/
def rfind (c : Char) (s : List Char) : Option (List Char × List Char) :=
  (find c s.reverse).map fun r => (r.2.reverse, r.1.reverse)

def readDigits : Nat → List Char → Except ParseIntError Nat
  | n, [] => .ok n
  | n, c :: cs =>
    let next := 10 * n + (c.toNat - '0'.toNat)
    if !isAsciiDigit c then .error .invalidDigit
    else if 2 ^ 16 ≤ next then .error .posOverflow
    else readDigits next cs

def parsePort (s : List Char) : Except ParseIntError UInt16 :=
  match s with
  | [] => .error .empty
  | ['+'] => .error .invalidDigit
  | '+' :: cs => (readDigits 0 cs).map UInt16.ofNat
  | cs => (readDigits 0 cs).map UInt16.ofNat

namespace QemuSshUri

def scheme : String := "qemu+ssh://"

def isTokenChar (c : Char) : Bool :=
  isAsciiAlphabetic c || isAsciiDigit c || c == '.' || c == '_' || c == '-'

/-- A user or a host that no bracket is around. -/
def validateSafeToken (s : List Char) (field raw : String) : Except UriError Unit :=
  if s = [] then .error (.invalidUri raw (field ++ " token must not be empty"))
  else if s.head? = some '-' then
    .error (.invalidUri raw (field ++ " must not start with '-' (would be parsed as an SSH option)"))
  else if s.all isTokenChar then .ok ()
  else .error (.invalidUri raw (field ++ " contains characters outside [A-Za-z0-9._-]"))

def readPort (s : List Char) (raw : String) : Except UriError UInt16 :=
  (parsePort s).mapError (.invalidPort raw)

def splitHostPort (hostPort : List Char) (raw : String) :
    Except UriError (List Char × Option UInt16) :=
  match hostPort with
  | '[' :: rest =>
    match find ']' rest with
    | none => .error (.invalidUri raw "IPv6 literal missing closing bracket")
    | some (host, ':' :: port) => (readPort port raw).map fun p => (host, some p)
    | some (host, []) => .ok (host, none)
    | some _ => .error (.invalidUri raw "garbage after IPv6 literal close bracket")
  | _ =>
    match rfind ':' hostPort with
    | some (host, port) =>
      if ':' ∈ host then
        .error (.invalidUri raw "IPv6 literal must be bracketed when paired with a port")
      else (readPort port raw).map fun p => (host, some p)
    | none => .ok (hostPort, none)

/-- The text up to the query, and the query. -/
def splitQuery (s : List Char) : List Char × Option (List Char) :=
  match find '?' s with
  | some (before, []) => (before, none)
  | some (before, query) => (before, some query)
  | none => (s, none)

def splitUser (authority : List Char) (raw : String) :
    Except UriError (Option (List Char) × List Char) :=
  match rfind '@' authority with
  | none => .ok (none, authority)
  | some ([], hostPort) => .ok (none, hostPort)
  | some (user, hostPort) =>
    if '@' ∈ user then .error (.invalidUri raw "user component must not contain '@'")
    else (validateSafeToken user "user" raw).map fun _ => (some user, hostPort)

def readHost (hostPort : List Char) (raw : String) :
    Except UriError (List Char × Option UInt16) := do
  let (host, port) ← splitHostPort hostPort raw
  if host = [] then .error (.invalidUri raw "empty host")
  else if hostPort.head? = some '[' then .ok (host, port)
  else (validateSafeToken host "host" raw).map fun _ => (host, port)

def readInstance (path : List Char) (raw : String) : Except UriError Instance :=
  if path = [] ∨ path = "system".toList then .ok .system
  else if path = "session".toList then .ok .session
  else .error (.invalidUri raw
    "unsupported libvirt instance path (expected /system or /session)")

def parse (raw : String) : Except UriError QemuSshUri := do
  if !Text.startsWith raw scheme then
    .error (.invalidUri raw "missing 'qemu+ssh://' scheme prefix")
  else
    let (authAndPath, query) := splitQuery (raw.toList.drop scheme.length)
    let (authority, path) := (find '/' authAndPath).getD (authAndPath, [])
    if authority = [] then .error (.invalidUri raw "empty authority (host) component")
    else
      let (user, hostPort) ← splitUser authority raw
      let (host, port) ← readHost hostPort raw
      let inst ← readInstance path raw
      .ok ⟨user.map String.ofList, String.ofList host, port, inst, query.map String.ofList⟩

/-- `Display`. -/
def toText (u : QemuSshUri) : String :=
  scheme ++ u.user.elim "" (· ++ "@") ++
    (if ':' ∈ u.host.toList then "[" ++ u.host ++ "]" else u.host) ++
    u.port.elim "" (fun p => ":" ++ toString p.toNat) ++ "/" ++ u.inst.toText ++
    u.query.elim "" ("?" ++ ·)

def sshTarget (u : QemuSshUri) : String :=
  match u.user with
  | some user => user ++ "@" ++ u.host
  | none => u.host

end QemuSshUri

section Split

variable {c : Char} {s t before after : List Char}

theorem rfind_append (h : c ∉ t) : rfind c (s ++ c :: t) = some (s, t) := by
  have hrev : (s ++ c :: t).reverse = t.reverse ++ c :: s.reverse := by simp
  rw [rfind, hrev, find_append (by simpa using h)]
  simp

theorem rfind_eq_none_iff : rfind c s = none ↔ c ∉ s := by
  rw [rfind, Option.map_eq_none_iff, find_eq_none_iff, List.mem_reverse]

theorem rfind_eq_some (h : rfind c s = some (before, after)) :
    s = before ++ c :: after ∧ c ∉ after := by
  rw [rfind, Option.map_eq_some_iff] at h
  obtain ⟨⟨a, b⟩, hab, heq⟩ := h
  obtain ⟨hs, ha⟩ := find_eq_some hab
  cases heq
  refine ⟨?_, by simpa using ha⟩
  rw [← List.reverse_reverse s, hs]
  simp

end Split

section Port

/-- Digits are read as the number they write, as long as it fits. -/
theorem readDigits_ok {s : List Char} {n : Nat} (hs : ∀ c ∈ s, c.isDigit = true)
    (hn : Nat.ofDigitChars 10 s n < 2 ^ 16) : readDigits n s = .ok (Nat.ofDigitChars 10 s n) := by
  induction s generalizing n with
  | nil => rw [readDigits, Nat.ofDigitChars_nil]
  | cons c s ih =>
    obtain ⟨hc, hs⟩ := List.forall_mem_cons.mp hs
    rw [Nat.ofDigitChars_cons] at hn ⊢
    have hdigit : isAsciiDigit c = true := hc
    have hle : 10 * n + (c.toNat - '0'.toNat) ≤
        Nat.ofDigitChars 10 s (10 * n + (c.toNat - '0'.toNat)) := by
      rw [Nat.ofDigitChars_eq_ofDigitChars_zero]
      exact (Nat.le_mul_of_pos_left _ (by positivity)).trans (Nat.le_add_right ..)
    rw [readDigits, hdigit, Bool.not_true, if_neg Bool.false_ne_true, if_neg (by omega), ih hs hn]

/-- A port is read back from its text. -/
theorem parsePort_toString (p : UInt16) : parsePort (toString p.toNat).toList = .ok p := by
  have hlist : (toString p.toNat).toList = Nat.toDigits 10 p.toNat := Nat.toList_repr
  have hdigits : ∀ c ∈ Nat.toDigits 10 p.toNat, c.isDigit = true := fun c hc =>
    Nat.isDigit_of_mem_toDigits (by decide) (by decide) hc
  have hread : readDigits 0 (Nat.toDigits 10 p.toNat) = .ok p.toNat := by
    rw [readDigits_ok hdigits] <;> rw [Nat.ofDigitChars_ten_toDigits]
    exact p.toNat_lt
  rw [hlist]
  obtain ⟨c, cs, hcons⟩ := List.exists_cons_of_ne_nil (Nat.toDigits_ne_nil (n := p.toNat) (b := 10))
  rw [hcons] at hread hdigits ⊢
  have hplus : c ≠ '+' := by
    rintro rfl
    exact absurd (hdigits '+' (List.mem_cons_self ..)) (by decide)
  unfold parsePort
  split
  · next h => cases h
  · next h => exact absurd (List.cons.inj h).1 hplus
  · next h => exact absurd (List.cons.inj h).1 hplus
  · rw [hread]
    simp [Except.map]

end Port

namespace QemuSshUri

variable {raw : String} {s hostPort host : List Char} {port : Option UInt16}

/-- A text that is safe in the place of an argument of `ssh`. -/
def IsSafeToken (s : List Char) : Prop :=
  s ≠ [] ∧ s.head? ≠ some '-' ∧ s.all isTokenChar = true

instance (s : List Char) : Decidable (IsSafeToken s) :=
  inferInstanceAs (Decidable (s ≠ [] ∧ s.head? ≠ some '-' ∧ s.all isTokenChar = true))

theorem validateSafeToken_ok_iff {field : String} :
    validateSafeToken s field raw = .ok () ↔ IsSafeToken s := by
  unfold validateSafeToken IsSafeToken
  split_ifs <;> simp_all

theorem IsSafeToken.not_mem (h : IsSafeToken s) {c : Char} (hc : isTokenChar c = false) : c ∉ s := by
  intro hm
  rw [List.all_eq_true.mp h.2.2 c hm] at hc
  cases hc

/-- How a user stands before the host. -/
def userText : Option (List Char) → List Char
  | none => []
  | some name => name ++ ['@']

def portText : Option UInt16 → List Char
  | none => []
  | some p => ':' :: (toString p.toNat).toList

theorem splitUser_ok {user : Option (List Char)} (h : splitUser s raw = .ok (user, hostPort)) :
    '@' ∉ hostPort ∧ (user = none ∧ (s = hostPort ∨ s = '@' :: hostPort) ∨
      ∃ name, user = some name ∧ IsSafeToken name ∧ s = name ++ '@' :: hostPort) := by
  unfold splitUser at h
  split at h
  · next hf =>
    cases h
    exact ⟨rfind_eq_none_iff.mp hf, .inl ⟨rfl, .inl rfl⟩⟩
  · next hf =>
    cases h
    obtain ⟨rfl, hat⟩ := rfind_eq_some hf
    exact ⟨hat, .inl ⟨rfl, .inr rfl⟩⟩
  · next name hp _ hf =>
    obtain ⟨rfl, hat⟩ := rfind_eq_some hf
    split at h
    · cases h
    · cases hv : validateSafeToken name "user" raw with
      | error e =>
        rw [hv] at h
        cases h
      | ok _ =>
        rw [hv] at h
        cases h
        exact ⟨hat, .inr ⟨name, rfl, validateSafeToken_ok_iff.mp hv, rfl⟩⟩

theorem splitUser_userText {user : Option (List Char)} (huser : ∀ name ∈ user, IsSafeToken name)
    (h : '@' ∉ hostPort) : splitUser (userText user ++ hostPort) raw = .ok (user, hostPort) := by
  unfold splitUser
  cases user with
  | none => rw [userText, List.nil_append, rfind_eq_none_iff.mpr h]
  | some name =>
    have hname := huser name rfl
    rw [userText, List.append_assoc, List.singleton_append, rfind_append h]
    split
    · next he => cases he
    · next he =>
      cases he
      exact absurd rfl hname.1
    · next he =>
      cases he
      rw [if_neg (hname.not_mem (by decide)), validateSafeToken_ok_iff.mpr hname]
      rfl

theorem splitHostPort_bracket {rest : List Char} (h : splitHostPort ('[' :: rest) raw = .ok (host, port)) :
    ∃ tail, rest = host ++ ']' :: tail ∧ ']' ∉ host := by
  rw [splitHostPort] at h
  cases hf : find ']' rest with
  | none =>
    rw [hf] at h
    cases h
  | some r =>
    obtain ⟨found, tail⟩ := r
    obtain ⟨hrest, hfound⟩ := find_eq_some hf
    rw [hf] at h
    refine ⟨tail, ?_⟩
    suffices found = host by
      rw [← this]
      exact ⟨hrest, hfound⟩
    split at h
    · cases h
    · next p he =>
      cases he
      cases hp : readPort p raw with
      | error e =>
        rw [hp] at h
        cases h
      | ok _ =>
        rw [hp] at h
        cases h
        rfl
    · next he =>
      cases he
      cases h
      rfl
    · cases h

theorem readHost_of_split (h : splitHostPort hostPort raw = .ok (host, port)) :
    readHost hostPort raw = if host = [] then .error (.invalidUri raw "empty host")
      else if hostPort.head? = some '[' then .ok (host, port)
      else (validateSafeToken host "host" raw).map fun _ => (host, port) := by
  rw [readHost, h]
  rfl

/-- A host that was read stood in brackets, or is a safe token. -/
theorem readHost_ok (h : readHost hostPort raw = .ok (host, port)) :
    host ≠ [] ∧ ((∃ tail, hostPort = '[' :: (host ++ ']' :: tail) ∧ ']' ∉ host) ∨
      hostPort.head? ≠ some '[' ∧ IsSafeToken host) := by
  cases hs : splitHostPort hostPort raw with
  | error e =>
    rw [readHost, hs] at h
    cases h
  | ok r =>
    obtain ⟨found, p⟩ := r
    rw [readHost_of_split hs] at h
    by_cases hnil : found = []
    · rw [if_pos hnil] at h
      cases h
    rw [if_neg hnil] at h
    by_cases hbracket : hostPort.head? = some '['
    · rw [if_pos hbracket] at h
      cases h
      obtain ⟨rest, rfl⟩ := List.head?_eq_some_iff.mp hbracket
      refine ⟨hnil, .inl ?_⟩
      obtain ⟨tail, hrest, hclose⟩ := splitHostPort_bracket hs
      exact ⟨tail, by rw [hrest], hclose⟩
    · rw [if_neg hbracket] at h
      cases hv : validateSafeToken found "host" raw with
      | error e =>
        rw [hv] at h
        cases h
      | ok _ =>
        rw [hv] at h
        cases h
        exact ⟨hnil, .inr ⟨hbracket, validateSafeToken_ok_iff.mp hv⟩⟩

theorem readPort_toString (p : UInt16) : readPort (toString p.toNat).toList raw = .ok p := by
  rw [readPort, parsePort_toString]
  rfl

theorem not_mem_port {c : Char} (hc : c.isDigit = false) (p : UInt16) :
    c ∉ (toString p.toNat).toList := by
  intro hm
  have hlist : (toString p.toNat).toList = Nat.toDigits 10 p.toNat := Nat.toList_repr
  rw [hlist] at hm
  rw [Nat.isDigit_of_mem_toDigits (by decide) (by decide) hm] at hc
  cases hc

theorem not_mem_portText {c : Char} (hc : c.isDigit = false) (hne : c ≠ ':') :
    c ∉ portText port := by
  cases port with
  | none => simp [portText]
  | some p => simpa [portText, hne] using not_mem_port hc p

theorem readHost_bracketed (hne : host ≠ []) (hclose : ']' ∉ host) :
    readHost ('[' :: (host ++ ']' :: portText port)) raw = .ok (host, port) := by
  have hsplit : splitHostPort ('[' :: (host ++ ']' :: portText port)) raw = .ok (host, port) := by
    rw [splitHostPort, find_append hclose]
    cases port with
    | none => rfl
    | some p =>
      simp only [portText, readPort_toString]
      rfl
  rw [readHost_of_split hsplit, if_neg hne, List.head?_cons, if_pos rfl]

/-- Without a bracket, the host and its port are told apart by the colon. -/
theorem splitHostPort_plain (hhead : host.head? ≠ some '[') (hcolon : ':' ∉ host)
    (hne : host ≠ []) : splitHostPort (host ++ portText port) raw = .ok (host, port) := by
  obtain ⟨c, cs, rfl⟩ := List.exists_cons_of_ne_nil hne
  have hc : c ≠ '[' := fun he => hhead (by rw [he]; rfl)
  unfold splitHostPort
  split
  · next rest he => exact absurd (List.cons.inj he).1 hc
  · cases port with
    | none => rw [portText, List.append_nil, rfind_eq_none_iff.mpr hcolon]
    | some p =>
      rw [portText, rfind_append (not_mem_port (by decide) p)]
      dsimp only
      rw [if_neg hcolon, readPort_toString]
      rfl

theorem readHost_plain (h : IsSafeToken host) :
    readHost (host ++ portText port) raw = .ok (host, port) := by
  have hhead : host.head? ≠ some '[' := by
    intro hh
    obtain ⟨t, rfl⟩ := List.head?_eq_some_iff.mp hh
    exact h.not_mem (by decide) (List.mem_cons_self ..)
  obtain ⟨c, cs, rfl⟩ := List.exists_cons_of_ne_nil h.1
  rw [readHost_of_split (splitHostPort_plain hhead (h.not_mem (by decide)) h.1), if_neg h.1,
    List.cons_append, List.head?_cons, if_neg (show some c ≠ some '[' from hhead),
    validateSafeToken_ok_iff.mpr h]
  rfl

/-- Without its brackets, a host that needs them is not read. -/
theorem readHost_unbracketed (hne : host ≠ []) (hclose : ']' ∉ host) (hcolon : ':' ∉ host)
    (h : ¬ IsSafeToken host) (r : List Char × Option UInt16) :
    readHost (host ++ portText port) raw ≠ .ok r := by
  obtain ⟨c, cs, rfl⟩ := List.exists_cons_of_ne_nil hne
  by_cases hc : c = '['
  · subst hc
    have hnone : find ']' (cs ++ portText port) = none := by
      refine find_eq_none fun hm => ?_
      obtain hm | hm := List.mem_append.mp hm
      · exact hclose (List.mem_cons_of_mem _ hm)
      · exact not_mem_portText (by decide) (by decide) hm
    rw [readHost, List.cons_append, splitHostPort, hnone]
    rintro ⟨⟩
  · have hhead : (c :: cs).head? ≠ some '[' := fun hh => hc (Option.some.inj hh)
    rw [readHost_of_split (splitHostPort_plain hhead hcolon hne), if_neg hne, List.cons_append,
      List.head?_cons, if_neg (show some c ≠ some '[' from hhead)]
    cases hv : validateSafeToken (c :: cs) "host" raw with
    | error e => rintro ⟨⟩
    | ok _ => exact absurd (validateSafeToken_ok_iff.mp hv) h

def queryText : Option (List Char) → List Char
  | none => []
  | some query => '?' :: query

theorem splitQuery_queryText {query : Option (List Char)} (hs : '?' ∉ s) (hquery : query ≠ some []) :
    splitQuery (s ++ queryText query) = (s, query) := by
  cases query with
  | none => rw [queryText, List.append_nil, splitQuery, find_eq_none hs]
  | some q =>
    rw [queryText, splitQuery, find_append hs]
    cases q with
    | nil => exact absurd rfl hquery
    | cons c q => rfl

theorem splitQuery_fst (s : List Char) :
    '?' ∉ (splitQuery s).1 ∧ (splitQuery s).2 ≠ some [] ∧
      ∃ rest, s = (splitQuery s).1 ++ rest ∧ ∀ c ∈ rest.head?, c = '?' := by
  unfold splitQuery
  split
  · next before hf =>
    obtain ⟨rfl, hb⟩ := find_eq_some hf
    exact ⟨hb, by simp, ['?'], rfl, by simp⟩
  · next before query hne hf =>
    obtain ⟨rfl, hb⟩ := find_eq_some hf
    exact ⟨hb, by simpa using hne, '?' :: query, rfl, by simp⟩
  · next hf => exact ⟨find_eq_none_iff.mp hf, by simp, [], by simp, by simp⟩

theorem not_mem_userText {user : Option (List Char)} (huser : ∀ name ∈ user, IsSafeToken name)
    {c : Char} (hc : isTokenChar c = false) (hne : c ≠ '@') : c ∉ userText user := by
  cases user with
  | none => simp [userText]
  | some name => simpa [userText, hne] using (huser name rfl).not_mem hc

/-- The parts of a text are found where they were put. -/
theorem parse_rendered {user query : Option (List Char)} {inst : Instance}
    (huser : ∀ name ∈ user, IsSafeToken name) (hslash : '/' ∉ hostPort) (hmark : '?' ∉ hostPort)
    (hat : '@' ∉ hostPort) (hne : hostPort ≠ []) (hquery : query ≠ some [])
    (hraw : raw.toList = scheme.toList ++
      (userText user ++ hostPort ++ '/' :: inst.toText.toList ++ queryText query)) :
    parse raw = (readHost hostPort raw).map fun r =>
      ⟨user.map String.ofList, String.ofList r.1, r.2, inst, query.map String.ofList⟩ := by
  have hstart : Text.startsWith raw scheme = true :=
    Text.startsWith_iff.mpr ⟨_, hraw.symm⟩
  have hdrop : raw.toList.drop scheme.length =
      userText user ++ hostPort ++ '/' :: inst.toText.toList ++ queryText query := by
    rw [hraw]
    exact List.drop_left
  have hpath : '?' ∉ userText user ++ hostPort ++ '/' :: inst.toText.toList := by
    have hinst : '?' ∉ inst.toText.toList := by cases inst <;> decide
    simp [not_mem_userText huser (c := '?') (by decide) (by decide), hmark, hinst]
  have hauthority : '/' ∉ userText user ++ hostPort := by
    simp [not_mem_userText huser (c := '/') (by decide) (by decide), hslash]
  have hinst : readInstance inst.toText.toList raw = .ok inst := by
    cases inst <;> rfl
  rw [parse, hstart, Bool.not_true, if_neg Bool.false_ne_true, hdrop,
    splitQuery_queryText hpath hquery]
  dsimp only
  rw [find_append hauthority]
  dsimp only [Option.getD_some]
  rw [if_neg (by simp [hne]), splitUser_userText huser hat]
  simp only [bind, Except.bind]
  cases readHost hostPort raw with
  | error e => rfl
  | ok r =>
    simp only [hinst]
    rfl

theorem splitPath (s : List Char) :
    '/' ∉ ((find '/' s).getD (s, [])).1 ∧
      ∃ rest, s = ((find '/' s).getD (s, [])).1 ++ rest ∧ ∀ c ∈ rest.head?, c = '/' := by
  cases hf : find '/' s with
  | none => exact ⟨find_eq_none_iff.mp hf, [], by simp, by simp⟩
  | some r =>
    have hsplit : find _ _ = some (r.1, r.2) := hf
    obtain ⟨hs, hb⟩ := find_eq_some hsplit
    exact ⟨hb, '/' :: r.2, hs, by simp⟩

/-- What the text of a URI that was read is made of. -/
structure IsRead (raw : String) (u : QemuSshUri) (authority rest hostPort : List Char) : Prop where
  text : raw.toList = scheme.toList ++ (authority ++ rest)
  noSlash : '/' ∉ authority
  noMark : '?' ∉ authority
  ends : ∀ c ∈ rest.head?, c = '/' ∨ c = '?'
  user : splitUser authority raw = .ok (u.user.map String.toList, hostPort)
  host : readHost hostPort raw = .ok (u.host.toList, u.port)
  query : u.query ≠ some ""

theorem parse_ok {u : QemuSshUri} (h : parse raw = .ok u) :
    ∃ authority rest hostPort, IsRead raw u authority rest hostPort := by
  unfold parse at h
  by_cases hstart : Text.startsWith raw scheme = true
  · rw [hstart, Bool.not_true, if_neg Bool.false_ne_true] at h
    obtain ⟨t, ht⟩ := Text.startsWith_iff.mp hstart
    have hdrop : raw.toList.drop scheme.length = t := by
      rw [← ht]
      exact List.drop_left
    rw [hdrop] at h
    obtain ⟨hmark, hquery, rest, hrest, hends⟩ := splitQuery_fst t
    rcases hq : splitQuery t with ⟨authAndPath, query⟩
    obtain ⟨hslash, rest', hrest', hends'⟩ := splitPath authAndPath
    rcases hp : (find '/' authAndPath).getD (authAndPath, []) with ⟨authority, path⟩
    rw [hq] at h hmark hquery hrest
    rw [hp] at hslash hrest'
    dsimp only at h hmark hquery hrest hslash hrest'
    rw [hp] at h
    dsimp only at h
    have htext : raw.toList = scheme.toList ++ (authority ++ (rest' ++ rest)) := by
      rw [← ht, hrest, ← List.append_assoc authority, ← hrest']
    have hmark' : '?' ∉ authority := fun hm => hmark (by
      rw [hrest']
      exact List.mem_append_left _ hm)
    have hboth : ∀ c ∈ (rest' ++ rest).head?, c = '/' ∨ c = '?' := by
      intro c hc
      cases rest' with
      | nil => exact .inr (hends c hc)
      | cons d rest' => exact .inl (hends' c hc)
    split at h
    · cases h
    · cases hu : splitUser authority raw with
      | error e =>
        rw [hu] at h
        cases h
      | ok r =>
        obtain ⟨user, hostPort⟩ := r
        rw [hu] at h
        simp only [bind, Except.bind] at h
        cases hh : readHost hostPort raw with
        | error e =>
          rw [hh] at h
          cases h
        | ok found =>
          rw [hh] at h
          simp only at h
          cases hi : readInstance path raw with
          | error e =>
            rw [hi] at h
            cases h
          | ok inst =>
            rw [hi] at h
            cases h
            refine ⟨authority, rest' ++ rest, hostPort, htext, hslash, hmark', hboth, ?_, ?_, ?_⟩
            · rw [hu]
              cases user <;> simp
            · rw [hh, String.toList_ofList]
            · cases query with
              | none => simp
              | some query => simpa using hquery
  · rw [Bool.eq_false_iff.mpr hstart, Bool.not_false, if_pos rfl] at h
    cases h

/-- The host of the text stands in brackets, behind a user or nothing. -/
structure Bracketed (raw : String) (user host : List Char) : Prop where
  text : ∃ tail, raw.toList = scheme.toList ++ (user ++ '[' :: (host ++ ']' :: tail))
  user_end : user = [] ∨ ∃ name, user = name ++ ['@']
  user_chars : '/' ∉ user ∧ '?' ∉ user
  host_chars : '/' ∉ host ∧ '?' ∉ host ∧ '@' ∉ host ∧ ']' ∉ host

section Read

variable {u : QemuSshUri} {authority rest user : List Char}

theorem IsRead.authority_of_bracketed (hr : IsRead raw u authority rest hostPort)
    (hb : Bracketed raw user host) :
    ∃ tail, authority = user ++ '[' :: (host ++ ']' :: tail) := by
  obtain ⟨tail, htext⟩ := hb.text
  obtain ⟨hslash, hmark, -, -⟩ := hb.host_chars
  have hshape : ∀ tail, user ++ '[' :: (host ++ ']' :: tail) =
      (user ++ '[' :: (host ++ [']'])) ++ tail := by simp
  have heq := List.append_cancel_left (hr.text.symm.trans htext)
  rw [hshape] at heq
  obtain ⟨a, hx, hrest⟩ | ⟨a, hx, -⟩ := List.append_eq_append_iff.mp heq
  · cases a with
    | nil => exact ⟨[], by rw [hshape, hx, List.append_nil, List.append_nil]⟩
    | cons c a =>
      have hc : c ∈ user ++ '[' :: (host ++ [']']) := by
        rw [hx]
        simp
      obtain rfl | rfl := hr.ends c (by rw [hrest]; rfl)
      · simp [hb.user_chars.1, hslash] at hc
      · simp [hb.user_chars.2, hmark] at hc
  · exact ⟨a, by rw [hshape, hx]⟩

/-- The brackets are found where they are. -/
theorem IsRead.of_bracketed (hr : IsRead raw u authority rest hostPort)
    (hb : Bracketed raw user host) :
    u.host.toList = host ∧ (u.user = none ∧ (user = [] ∨ user = ['@']) ∨
      ∃ name, u.user = some name ∧ user = name.toList ++ ['@'] ∧ IsSafeToken name.toList) := by
  obtain ⟨tail, hauthority⟩ := hr.authority_of_bracketed hb
  obtain ⟨hat, hcases⟩ := splitUser_ok hr.user
  suffices hmain : hostPort = '[' :: (host ++ ']' :: tail) ∧
      (u.user = none ∧ (user = [] ∨ user = ['@']) ∨
        ∃ name, u.user = some name ∧ user = name.toList ++ ['@'] ∧ IsSafeToken name.toList) by
    refine ⟨?_, hmain.2⟩
    obtain ⟨-, ⟨tail', hhost, hclose⟩ | ⟨hhead, -⟩⟩ := readHost_ok hr.host
    · rw [hmain.1] at hhost
      have hfind := find_append (t := tail) hb.host_chars.2.2.2
      rw [(List.cons.inj hhost).2, find_append hclose] at hfind
      cases hfind
      rfl
    · rw [hmain.1] at hhead
      exact absurd rfl hhead
  obtain ⟨hnone, h | h⟩ | ⟨name, hsome, hsafe, h⟩ := hcases
  · rw [Option.map_eq_none_iff] at hnone
    rw [hauthority] at h
    obtain rfl | ⟨name, rfl⟩ := hb.user_end
    · exact ⟨h.symm, .inl ⟨hnone, .inl rfl⟩⟩
    · rw [← h] at hat
      simp at hat
  · rw [Option.map_eq_none_iff] at hnone
    rw [hauthority] at h
    obtain rfl | ⟨name, rfl⟩ := hb.user_end
    · cases h
    · cases name with
      | nil => exact ⟨(List.cons.inj h).2.symm, .inl ⟨hnone, .inr rfl⟩⟩
      | cons c name =>
        rw [← (List.cons.inj h).2] at hat
        simp at hat
  · rw [Option.map_eq_some_iff] at hsome
    obtain ⟨name, hname, rfl⟩ := hsome
    rw [hauthority] at h
    obtain rfl | ⟨name', rfl⟩ := hb.user_end
    · obtain ⟨c, cs, hcons⟩ := List.exists_cons_of_ne_nil hsafe.1
      rw [hcons] at h hsafe
      have hc : '[' = c := (List.cons.inj h).1
      rw [← hc] at hsafe
      exact absurd (List.mem_cons_self ..) (hsafe.not_mem (by decide))
    · rw [List.append_assoc, List.singleton_append] at h
      obtain ⟨a, hname', ha⟩ | ⟨a, hname', ha⟩ := List.append_eq_append_iff.mp h
      · cases a with
        | nil =>
          rw [List.append_nil] at hname'
          exact ⟨(List.cons.inj ha).2.symm, .inr ⟨name, hname, by rw [hname'], hsafe⟩⟩
        | cons c a =>
          have hc : '@' = c := (List.cons.inj ha).1
          refine absurd ?_ (hsafe.not_mem (c := '@') (by decide))
          rw [hname', ← hc]
          simp
      · cases a with
        | nil =>
          rw [List.append_nil] at hname'
          exact ⟨(List.cons.inj ha).2, .inr ⟨name, hname, by rw [hname'], hsafe⟩⟩
        | cons c a =>
          rw [(List.cons.inj ha).2] at hat
          simp at hat

/-- A host is a safe token, or stands in brackets. -/
theorem IsRead.bracketed_or (hr : IsRead raw u authority rest hostPort) :
    u.host.toList ≠ [] ∧ (IsSafeToken u.host.toList ∨ ∃ user, Bracketed raw user u.host.toList) := by
  obtain ⟨hne, ⟨tail, hhost, hclose⟩ | ⟨-, hsafe⟩⟩ := readHost_ok hr.host
  · refine ⟨hne, .inr ?_⟩
    obtain ⟨hat, hcases⟩ := splitUser_ok hr.user
    obtain ⟨user, hauthority, hend⟩ : ∃ user, authority = user ++ hostPort ∧
        (user = [] ∨ ∃ name, user = name ++ ['@']) := by
      obtain ⟨-, h | h⟩ | ⟨name, -, -, h⟩ := hcases
      · exact ⟨[], h, .inl rfl⟩
      · exact ⟨['@'], h, .inr ⟨[], rfl⟩⟩
      · exact ⟨name ++ ['@'], by simpa using h, .inr ⟨name, rfl⟩⟩
    have hmem : ∀ {c}, c ∈ u.host.toList → c ∈ hostPort := by
      intro c hc
      rw [hhost]
      simp [hc]
    have hslash := hr.noSlash
    have hmark := hr.noMark
    rw [hauthority, List.mem_append, not_or] at hslash hmark
    refine ⟨user, ⟨tail ++ rest, ?_⟩, hend, ⟨hslash.1, hmark.1⟩, fun hc => hslash.2 (hmem hc),
      fun hc => hmark.2 (hmem hc), fun hc => hat (hmem hc), hclose⟩
    rw [hr.text, hauthority, hhost]
    simp
  · exact ⟨hne, .inl hsafe⟩

theorem IsRead.user_safe (hr : IsRead raw u authority rest hostPort) :
    ∀ name ∈ u.user, IsSafeToken name.toList := by
  intro name hname
  obtain ⟨-, ⟨hnone, -⟩ | ⟨other, hsome, hsafe, -⟩⟩ := splitUser_ok hr.user
  · rw [Option.map_eq_none_iff] at hnone
    rw [hnone] at hname
    cases hname
  · rw [Option.mem_def.mp hname] at hsome
    cases hsome
    exact hsafe

/-- The host as it is written, with its port. -/
def hostText (u : QemuSshUri) : List Char :=
  (if ':' ∈ u.host.toList then '[' :: (u.host.toList ++ [']']) else u.host.toList) ++
    portText u.port

theorem toText_toList (u : QemuSshUri) :
    u.toText.toList = scheme.toList ++ (userText (u.user.map String.toList) ++ hostText u ++
      '/' :: u.inst.toText.toList ++ queryText (u.query.map String.toList)) := by
  obtain ⟨user, host, port, inst, query⟩ := u
  rw [toText, hostText]
  simp only [String.toList_append]
  cases user <;> cases port <;> cases query <;> by_cases hc : ':' ∈ host.toList <;>
    simp [userText, portText, queryText, hc]

theorem of_parts (u : QemuSshUri) :
    (⟨(u.user.map String.toList).map String.ofList, String.ofList u.host.toList, u.port, u.inst,
      (u.query.map String.toList).map String.ofList⟩ : QemuSshUri) = u := by
  obtain ⟨user, host, port, inst, query⟩ := u
  cases user <;> cases query <;> simp

/-- No character of the host or the port ends the authority. -/
theorem IsRead.not_mem_hostText (hr : IsRead raw u authority rest hostPort) {c : Char}
    (hc : c = '/' ∨ c = '?' ∨ c = '@') : c ∉ hostText u := by
  have hdigit : c.isDigit = false := by
    obtain rfl | rfl | rfl := hc <;> decide
  have htoken : isTokenChar c = false := by
    obtain rfl | rfl | rfl := hc <;> decide
  have hother : c ≠ ':' ∧ c ≠ '[' ∧ c ≠ ']' := by
    obtain rfl | rfl | rfl := hc <;> decide
  have hhost : c ∉ u.host.toList := by
    obtain ⟨-, hsafe | ⟨user, hb⟩⟩ := hr.bracketed_or
    · exact hsafe.not_mem htoken
    · obtain rfl | rfl | rfl := hc
      · exact hb.host_chars.1
      · exact hb.host_chars.2.1
      · exact hb.host_chars.2.2.1
  have hport : c ∉ portText u.port := not_mem_portText hdigit hother.1
  rw [hostText, List.mem_append, not_or]
  refine ⟨?_, hport⟩
  split
  · simp [hother, hhost]
  · exact hhost

/-- The text of a URI that was read, and what reading it again comes to. -/
theorem IsRead.parse_toText (hr : IsRead raw u authority rest hostPort) :
    parse u.toText = .ok u ↔ ':' ∈ u.host.toList ∨ IsSafeToken u.host.toList := by
  obtain ⟨hne, hhost⟩ := hr.bracketed_or
  have huser : ∀ name ∈ u.user.map String.toList, IsSafeToken name := by
    intro name hname
    obtain ⟨other, hother, rfl⟩ := Option.map_eq_some_iff.mp (Option.mem_def.mp hname)
    exact hr.user_safe other hother
  have hquery : u.query.map String.toList ≠ some [] := by
    intro hq
    obtain ⟨query, hsome, hempty⟩ := Option.map_eq_some_iff.mp hq
    rw [String.toList_eq_nil_iff.mp hempty] at hsome
    exact hr.query hsome
  have hnil : hostText u ≠ [] := by
    rw [hostText]
    split <;> simp [hne]
  rw [parse_rendered huser (hr.not_mem_hostText (.inl rfl)) (hr.not_mem_hostText (.inr (.inl rfl)))
    (hr.not_mem_hostText (.inr (.inr rfl))) hnil hquery (toText_toList u)]
  by_cases hcolon : ':' ∈ u.host.toList
  · refine iff_of_true ?_ (.inl hcolon)
    obtain hsafe | ⟨user, hb⟩ := hhost
    · exact absurd hcolon (hsafe.not_mem (by decide))
    · have hshape : hostText u = '[' :: (u.host.toList ++ ']' :: portText u.port) := by
        rw [hostText, if_pos hcolon]
        simp
      rw [hshape, readHost_bracketed hne hb.host_chars.2.2.2]
      exact congrArg Except.ok (of_parts u)
  · rw [hostText, if_neg hcolon]
    by_cases hsafe : IsSafeToken u.host.toList
    · refine iff_of_true ?_ (.inr hsafe)
      rw [readHost_plain hsafe]
      exact congrArg Except.ok (of_parts u)
    · refine iff_of_false (fun h => ?_) (not_or.mpr ⟨hcolon, hsafe⟩)
      obtain ⟨user, hb⟩ := hhost.resolve_left hsafe
      cases hread : readHost (u.host.toList ++ portText u.port) u.toText with
      | error e =>
        rw [hread] at h
        cases h
      | ok r => exact readHost_unbracketed hne hb.host_chars.2.2.2 hcolon hsafe r hread

/-- A URI is read back from its text unless its host needs the brackets for another reason than a
colon. -/
theorem parse_toText_iff (h : parse raw = .ok u) :
    parse u.toText = .ok u ↔
      ∀ user host, Bracketed raw user host → ':' ∈ host ∨ IsSafeToken host := by
  obtain ⟨authority, rest, hostPort, hr⟩ := parse_ok h
  rw [hr.parse_toText]
  constructor
  · intro hhost user host hb
    rwa [← (hr.of_bracketed hb).1]
  · intro hall
    obtain ⟨-, hsafe | ⟨user, hb⟩⟩ := hr.bracketed_or
    · exact .inr hsafe
    · exact hall user _ hb

def sampleUri : QemuSshUri := ⟨some "root", "::1", some 22, .system, some "no_verify=1"⟩

theorem parse_sample : parse "qemu+ssh://root@[::1]:22/system?no_verify=1" = .ok sampleUri := by
  decide

theorem parse_toText_iff_sample :
    parse "qemu+ssh://root@[::1]:22/system?no_verify=1" = .ok sampleUri ∧
      (parse sampleUri.toText = .ok sampleUri ↔ ∀ user host,
        Bracketed "qemu+ssh://root@[::1]:22/system?no_verify=1" user host →
          ':' ∈ host ∨ IsSafeToken host) :=
  ⟨parse_sample, parse_toText_iff parse_sample⟩

/-- The brackets are not written again, and the host is no safe token. -/
theorem parse_toText_fails :
    ¬ ∀ u, parse "qemu+ssh://[fe80%eth0]/system" = .ok u → parse u.toText = .ok u := by
  intro h
  exact absurd (h ⟨none, "fe80%eth0", none, .system, none⟩ (by decide)) (by decide)

/-- The characters of an address between brackets, with a zone. -/
def isAddressChar (c : Char) : Bool := isTokenChar c || c == ':' || c == '%'

/-- `ssh` takes its destination for one, and finds only letters that names and addresses have. -/
structure IsSafeTarget (raw : String) (u : QemuSshUri) : Prop where
  noOption : u.sshTarget.toList.head? ≠ some '-'
  user : ∀ name ∈ u.user, ∀ c ∈ name.toList, isTokenChar c = true
  host : ∀ c ∈ u.host.toList, isTokenChar c = true ∨
    (∃ user, Bracketed raw user u.host.toList) ∧ isAddressChar c = true

/-- The destination is safe unless the brackets let something else through. -/
theorem sshTarget_safe_iff (h : parse raw = .ok u) :
    IsSafeTarget raw u ↔ ∀ user host, Bracketed raw user host →
      (∀ c ∈ host, isAddressChar c = true) ∧
        (host.head? = some '-' → user ≠ [] ∧ user ≠ ['@']) := by
  obtain ⟨authority, rest, hostPort, hr⟩ := parse_ok h
  have htarget : u.sshTarget.toList.head? = some '-' ↔
      u.user = none ∧ u.host.toList.head? = some '-' := by
    rw [sshTarget]
    cases huser : u.user with
    | none => simp
    | some name =>
      have hsafe := hr.user_safe name huser
      obtain ⟨c, cs, hcons⟩ := List.exists_cons_of_ne_nil hsafe.1
      have hdash : c ≠ '-' := fun hc => hsafe.2.1 (by rw [hcons, hc]; rfl)
      simp [hcons, hdash]
  constructor
  · intro hs user host hb
    obtain ⟨rfl, hcases⟩ := hr.of_bracketed hb
    refine ⟨fun c hc => ?_, fun hhead => ?_⟩
    · obtain ht | ⟨-, ha⟩ := hs.host c hc
      · simp [isAddressChar, ht]
      · exact ha
    · obtain ⟨hnone, -⟩ | ⟨name, -, rfl, hsafe⟩ := hcases
      · exact absurd (htarget.mpr ⟨hnone, hhead⟩) hs.noOption
      · simp [hsafe.1]
  · intro hall
    refine ⟨fun hhead => ?_, fun name hname c hc => ?_, fun c hc => ?_⟩
    · obtain ⟨hnone, hdash⟩ := htarget.mp hhead
      obtain ⟨-, hsafe | ⟨user, hb⟩⟩ := hr.bracketed_or
      · exact hsafe.2.1 hdash
      · obtain ⟨hne, hne'⟩ := (hall user _ hb).2 hdash
        obtain ⟨-, ⟨-, h | h⟩ | ⟨name, hsome, -⟩⟩ := hr.of_bracketed hb
        · exact hne h
        · exact hne' h
        · rw [hnone] at hsome
          cases hsome
    · exact List.all_eq_true.mp (hr.user_safe name hname).2.2 c hc
    · obtain ⟨-, hsafe | ⟨user, hb⟩⟩ := hr.bracketed_or
      · exact .inl (List.all_eq_true.mp hsafe.2.2 c hc)
      · exact .inr ⟨⟨user, hb⟩, (hall user _ hb).1 c hc⟩

theorem sshTarget_safe_iff_sample :
    parse "qemu+ssh://root@[::1]:22/system?no_verify=1" = .ok sampleUri ∧
      (IsSafeTarget "qemu+ssh://root@[::1]:22/system?no_verify=1" sampleUri ↔ ∀ user host,
        Bracketed "qemu+ssh://root@[::1]:22/system?no_verify=1" user host →
          (∀ c ∈ host, isAddressChar c = true) ∧
            (host.head? = some '-' → user ≠ [] ∧ user ≠ ['@'])) :=
  ⟨parse_sample, sshTarget_safe_iff parse_sample⟩

theorem sshTarget_option :
    ¬ ∀ u, parse "qemu+ssh://[-oProxyCommand=evil]/system" = .ok u →
      IsSafeTarget "qemu+ssh://[-oProxyCommand=evil]/system" u := by
  intro h
  exact (h ⟨none, "-oProxyCommand=evil", none, .system, none⟩ (by decide)).noOption (by decide)

end Read

end QemuSshUri

end Hbird.Virt
