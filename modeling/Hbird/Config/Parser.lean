import Hbird.Config.ClusterConfig

namespace Hbird.Config

open Hbird.Text

inductive Value : Type
  | scalar (text : String)
  | array (elements : List String)
  deriving DecidableEq, Repr

/-- The assignments seen so far: each key once, with the line of its last assignment. -/
abbrev Raw := List (String × Nat × Value)

def Raw.insert (raw : Raw) (key : String) (lineNo : Nat) (value : Value) : Raw :=
  (key, lineNo, value) :: raw.filter (·.1 ≠ key)

/-- `str::find` of a character: the text before it and the text after it. -/
def find (c : Char) : List Char → Option (List Char × List Char)
  | [] => none
  | x :: xs => if x = c then some ([], xs) else (find c xs).map fun r => (x :: r.1, r.2)

def maxKeyLen : Nat := 128

def isAsciiAlphabetic (c : Char) : Bool := ('a' ≤ c && c ≤ 'z') || ('A' ≤ c && c ≤ 'Z')

def isAsciiDigit (c : Char) : Bool := '0' ≤ c && c ≤ '9'

/-- A key that passes is of ASCII characters, each one byte long. -/
def isValidKey : List Char → Bool
  | [] => false
  | first :: rest =>
    decide (rest.length < maxKeyLen) && (isAsciiAlphabetic first || first == '_') &&
      rest.all fun c => isAsciiAlphabetic c || isAsciiDigit c || c == '_'

def trimStart (s : List Char) : List Char := s.dropWhile isWhitespace

/-- Blank, or a comment. -/
def isSkipped (line : List Char) : Bool :=
  match trimStart line with
  | [] => true
  | c :: _ => c == '#'

/-- `u8::is_ascii_whitespace`. -/
def isAsciiWhitespace (c : Char) : Bool :=
  c == ' ' || c == '\t' || c == '\n' || c == '\x0c' || c == '\r'

/-- `afterSpace`: at the start, or behind white space. -/
def stripTrailingComment (afterSpace : Bool) : List Char → List Char
  | [] => []
  | c :: cs =>
    if c = '#' ∧ afterSpace then [] else c :: stripTrailingComment (isAsciiWhitespace c) cs

/-- A scalar between quotes, from behind the opening one. -/
def parseQuoted (lineNo : Nat) (raw : List Char) (quote : Char) (rest : List Char) :
    Except Error String :=
  match find quote rest with
  | some (inner, tail) =>
    -- `check_trailing_after_quote`
    if isSkipped tail then .ok (String.ofList inner)
    else .error (.trailingContent lineNo (String.ofList raw))
  | none => .error (.unterminatedQuote lineNo (String.ofList raw))

def parseScalar (lineNo : Nat) (raw rhs : List Char) : Except Error String :=
  match trimStart rhs with
  | '"' :: rest => parseQuoted lineNo raw '"' rest
  | '\'' :: rest => parseQuoted lineNo raw '\'' rest
  | trimmed => .ok (String.ofList ((stripTrailingComment true trimmed).rdropWhile isWhitespace))

/-- Where the splitting of an array body is: between two elements, inside quotes, or inside a
bare element. -/
inductive Mode : Type
  | between
  | quoted (quote : Char)
  | bare
  deriving DecidableEq, Repr

/-- The elements of an array body from here on; `acc` is what was read of the current one, its
last character first. -/
def splitBody (lineNo : Nat) (body : String) : Mode → List Char → List Char →
    Except Error (List String)
  | .between, _, [] => .ok []
  | .quoted _, _, [] => .error (.unterminatedQuote lineNo body)
  | .bare, acc, [] => .ok [String.ofList acc.reverse]
  | .between, _, c :: cs =>
    if isWhitespace c then splitBody lineNo body .between [] cs
    else if c = '"' ∨ c = '\'' then splitBody lineNo body (.quoted c) [] cs
    else splitBody lineNo body .bare [c] cs
  | .quoted quote, acc, c :: cs =>
    if c = quote then
      (splitBody lineNo body .between [] cs).map (String.ofList acc.reverse :: ·)
    else splitBody lineNo body (.quoted quote) (c :: acc) cs
  | .bare, acc, c :: cs =>
    if isWhitespace c then
      (splitBody lineNo body .between [] cs).map (String.ofList acc.reverse :: ·)
    else splitBody lineNo body .bare (c :: acc) cs

def tokenizeArrayBody (body : List Char) (lineNo : Nat) : Except Error (List String) :=
  splitBody lineNo (String.ofList body) .between [] body

/-- The lines of an array behind its first one, of which `extra` have been read; `body` is their
text. -/
def parseArrayLines (key : String) (openLine : Nat) : Nat → List Char → List (List Char) →
    Except Error (List String × Nat)
  | _, _, [] => .error (.unterminatedArray key openLine)
  | extra, body, line :: lines =>
    match find ')' line with
    | some (before, _) =>
      (tokenizeArrayBody (body ++ before) (openLine + (extra + 1))).map fun elements =>
        (elements, extra + 1)
    | none =>
      if isSkipped line then parseArrayLines key openLine (extra + 1) body lines
      else parseArrayLines key openLine (extra + 1) (body ++ line ++ [' ']) lines

/-- The elements of an array, and how many lines behind its first one it takes. -/
def parseArray (key : String) (openLine : Nat) (firstLineRest : List Char)
    (restLines : List (List Char)) : Except Error (List String × Nat) :=
  match find ')' firstLineRest with
  | some (before, _) => (tokenizeArrayBody before openLine).map fun elements => (elements, 0)
  | none => parseArrayLines key openLine 0 (firstLineRest ++ [' ']) restLines

/-- The lines from the `lineNo`-th on, of which the first `skip` belong to an array before them. -/
def tokenizeLines : Nat → Nat → Raw → List (List Char) → Except Error Raw
  | _, _, out, [] => .ok out
  | skip + 1, lineNo, out, _ :: lines => tokenizeLines skip (lineNo + 1) out lines
  | 0, lineNo, out, raw :: lines =>
    if isSkipped raw then tokenizeLines 0 (lineNo + 1) out lines
    else match find '=' (trimStart raw) with
      | none => .error (.unrecognizedLine lineNo (String.ofList raw))
      | some (key, rhs) =>
        if !isValidKey key then .error (.unrecognizedLine lineNo (String.ofList raw))
        else match rhs with
          | '(' :: rest =>
            parseArray (String.ofList key) lineNo rest lines >>= fun r =>
              tokenizeLines r.2 (lineNo + 1) (out.insert (String.ofList key) lineNo (.array r.1)) lines
          | _ =>
            parseScalar lineNo raw rhs >>= fun text =>
              tokenizeLines 0 (lineNo + 1) (out.insert (String.ofList key) lineNo (.scalar text)) lines

def tokenize (input : String) : Except Error Raw :=
  tokenizeLines 0 1 [] (splitLines input.toList)

/-- Reading the fields one after the other takes their keys out of the assignments. -/
abbrev Reader := StateT Raw (Except Error)

def takeKey (key : String) : Reader (Option (Nat × Value)) := fun raw =>
  .ok ((raw.find? (·.1 = key)).map (·.2), raw.filter (·.1 ≠ key))

def shape : Value → String
  | .scalar _ => "scalar"
  | .array _ => "array"

/-- A field of type `α` that a scalar of the line `lineNo` gives, or that is not there. -/
def takeScalar {α : Type} (key : String) (absent : Except Error α)
    (read : Nat → String → Except Error α) : Reader α := do
  match ← takeKey key with
  | none => absent
  | some (lineNo, .scalar text) => read lineNo text
  | some (lineNo, value) => throw (.typeMismatch key "scalar" (shape value) lineNo)

def takeRequiredScalar (key sourcePath : String) : Reader String :=
  let missing := Except.error (Error.missingRequired key sourcePath)
  takeScalar key missing fun _ text => if text = "" then missing else .ok text

def takeOptionalScalar (key : String) : Reader (Option String) :=
  takeScalar key (.ok none) fun _ text => .ok (some text)

def takeScalarOrDefault (key default : String) : Reader String :=
  takeScalar key (.ok default) fun _ text => .ok (if text = "" then default else text)

/-- `str::parse::<u32>`. -/
def parseU32 (s : String) : Option UInt32 :=
  let digits : List Char := match s.toList with
    | '+' :: cs => cs
    | cs => cs
  let n : Nat := digits.foldl (fun n c => 10 * n + (c.toNat - 48)) 0
  if digits ≠ [] ∧ digits.all isAsciiDigit ∧ n < 2 ^ 32 then some (UInt32.ofNat n) else none

def takeU32OrDefault (key : String) (default : UInt32) : Reader UInt32 :=
  takeScalar key (.ok default) fun lineNo text =>
    if text = "" then .ok default
    else match parseU32 text with
      | some n => .ok n
      | none => .error (.invalidInteger key lineNo text)

def takeBoolOrDefault (key : String) (default : Bool) : Reader Bool :=
  takeScalar key (.ok default) fun _ text =>
    .ok (if toAsciiLowercase text ∈ ["true", "1", "yes", "on"] then true
      else if toAsciiLowercase text ∈ ["false", "0", "no", "off"] then false
      else default)

def takeBoolStrictOrDefault (key : String) (default : Bool) : Reader Bool :=
  takeScalar key (.ok default) fun lineNo text =>
    if text = "true" then .ok true
    else if text = "false" then .ok false
    else if text = "" then .ok default
    else .error (.invalidBool key lineNo text)

def takeOptionalArray (key : String) : Reader (Option (List String)) := do
  match ← takeKey key with
  | none => pure none
  | some (_, .array elements) => pure (some elements)
  | some (lineNo, value) => throw (.typeMismatch key "array" (shape value) lineNo)

/-- The keys that are left, in the order of their lines. -/
def unknownKeys (raw : Raw) : List Warning :=
  (raw.map fun entry => ⟨entry.1, entry.2.1⟩ : List Warning).mergeSort fun a b =>
    a.lineNo < b.lineNo || (a.lineNo == b.lineNo && a.key ≤ b.key)

def buildConfig (sourcePath : String) : Reader ClusterConfig := do
  let cpName ← takeRequiredScalar "CP_NAME" sourcePath
  let sshPubkeyFile ← takeRequiredScalar "SSH_PUBKEY_FILE" sourcePath
  let kvmHost ← takeOptionalScalar "KVM_HOST"
  let imageSource ← takeScalarOrDefault "IMAGE_SOURCE" "ghcr"
  let ghcrTag ← takeScalarOrDefault "GHCR_TAG" "latest"
  let enableCloudInit ← takeU32OrDefault "ENABLE_CLOUD_INIT" 0
  let autoUpdateCp ← takeBoolStrictOrDefault "AUTO_UPDATE_CP" true
  let switchToGhcr ← takeBoolStrictOrDefault "SWITCH_TO_GHCR" true
  let cpMemory ← takeU32OrDefault "CP_MEMORY" 8192
  let cpVcpus ← takeU32OrDefault "CP_VCPUS" 4
  let workerMemory ← takeU32OrDefault "WORKER_MEMORY" 4096
  let workerVcpus ← takeU32OrDefault "WORKER_VCPUS" 2
  let poolDir ← takeScalarOrDefault "POOL_DIR" "/var/lib/libvirt/images"
  let runVerify ← takeBoolOrDefault "RUN_VERIFY" false
  let bootcUpdateSchedule ← takeOptionalScalar "BOOTC_UPDATE_SCHEDULE"
  let bootcUpdateRepoK8s ← takeOptionalScalar "BOOTC_UPDATE_REPO_K8S"
  let bootcUpdateRepoWorker ← takeOptionalScalar "BOOTC_UPDATE_REPO_WORKER"
  let workerNames ← takeOptionalArray "WORKER_NAMES"
  let cpIp ← takeOptionalScalar "CP_IP"
  let workerIps ← takeOptionalArray "WORKER_IPS"
  let podCidr ← takeOptionalScalar "POD_CIDR"
  let serviceCidr ← takeOptionalScalar "SERVICE_CIDR"
  let cpMac ← takeOptionalScalar "CP_MAC"
  let workerMacs ← takeOptionalArray "WORKER_MACS"
  let extraNetwork ← takeOptionalScalar "EXTRA_NETWORK"
  let extraNetCpMac ← takeOptionalScalar "EXTRA_NET_CP_MAC"
  let extraNetCpIp ← takeOptionalScalar "EXTRA_NET_CP_IP"
  let extraNetWorkerMacs ← takeOptionalArray "EXTRA_NET_WORKER_MACS"
  let extraNetWorkerIps ← takeOptionalArray "EXTRA_NET_WORKER_IPS"
  let warnings := unknownKeys (← get)
  pure {
    cpName := cpName, sshPubkeyFile, kvmHost, imageSource, ghcrTag, enableCloudInit, autoUpdateCp,
    switchToGhcr, cpMemory, cpVcpus, workerMemory, workerVcpus, poolDir, runVerify,
    bootcUpdateSchedule, bootcUpdateRepoK8s, bootcUpdateRepoWorker, workerNames, cpIp, podCidr,
    serviceCidr, workerIps, cpMac, workerMacs, extraNetwork, extraNetCpMac, extraNetCpIp,
    extraNetWorkerMacs, extraNetWorkerIps, warnings }

def parseWithSource (input sourcePath : String) : Except Error ClusterConfig :=
  tokenize input >>= fun raw => (buildConfig sourcePath raw).map (·.1)

def parseStr (input : String) : Except Error ClusterConfig := parseWithSource input "<inline>"

end Hbird.Config
