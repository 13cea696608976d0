import Hbird.Text

namespace Hbird.StagedCheck

open Hbird.Text

/-- What comes back from a node: `ssh` ends with a status of its own, or `bootc status` has ended
and printed what it had. -/
inductive Answer : Type
  | unreachable (status : Nat)
  | reachable (bootcStatus : Nat) (json : String)
  deriving DecidableEq, Repr

/-- A domain of the cluster, with what `virsh domifaddr` prints for it. -/
structure Node where
  name : String
  leases : String
  answer : Answer
  deriving DecidableEq, Repr

/-- How `jq` ends: with a status, or well and with an output. -/
abbrev Jq := String → Except Nat String

/-- `awk '{print $4}'` on one line. -/
def awkFourth (line : List Char) : List Char :=
  ((line.splitOnP fun c => c == ' ' || c == '\t').filter (· ≠ [])).getD 3 []

/-- `grep -E '^[0-9]+\.'`. -/
def beginsAddress (field : List Char) : Bool :=
  match field.dropWhile Char.isDigit with
  | '.' :: _ => field.head?.any Char.isDigit
  | _ => false

def resolveIp (leases : String) : String :=
  let fields := (splitTerminator '\n' leases.toList).map fun line => (awkFourth line).takeWhile (· ≠ '/')
  String.ofList ((fields.find? beginsAddress).getD [])

/-- The output of a command substitution: without line feeds at its end. -/
def substituted (output : String) : String := String.ofList (output.toList.rdropWhile (· == '\n'))

/-- The remote pipeline ends as `jq` does, whatever `bootc status` did. -/
def pipeline (jq : Jq) : Answer → Except Nat String
  | .unreachable status => .error status
  | .reachable _ json => jq json

/-- The image that the probe of a node brings home, or `none` if the probe is seen to fail. -/
def probe (jq : Jq) (node : Node) : Option String :=
  if resolveIp node.leases = "" then none
  else match pipeline jq node.answer with
    | .ok output => some (substituted output)
    | .error _ => none

/-- The scan loop, and the exit status of the script. -/
def scan (jq : Jq) : Bool → List Node → Nat
  | probeFailed, [] => if probeFailed then 3 else 1
  | probeFailed, node :: nodes =>
    match probe jq node with
    | none => scan jq true nodes
    | some staged => if staged ≠ "" then 0 else scan jq probeFailed nodes

def stagedCheck (jq : Jq) (nodes : List Node) : Nat := scan jq false nodes

/-- The node was reached, and every command of the pipeline ended well. -/
def Node.Probed (jq : Jq) (node : Node) : Prop :=
  resolveIp node.leases ≠ "" ∧ ∃ json output, node.answer = .reachable 0 json ∧ jq json = .ok output

/-- The node has said that an image is staged. -/
def Node.Staged (jq : Jq) (node : Node) : Prop := ∃ image, probe jq node = some image ∧ image ≠ ""

/-- What an exit status of 0 or 1 is to mean. -/
structure Truthful (jq : Jq) (nodes : List Node) : Prop where
  roll : stagedCheck jq nodes = 0 →
    (∀ node ∈ nodes, node.Probed jq) ∧ ∃ node ∈ nodes, node.Staged jq
  nothing : stagedCheck jq nodes = 1 →
    (∀ node ∈ nodes, node.Probed jq) ∧ ∀ node ∈ nodes, ¬ node.Staged jq

section Scan

variable {jq : Jq} {nodes : List Node} {failed : Bool}

theorem scan_eq_zero : scan jq failed nodes = 0 ↔ ∃ node ∈ nodes, node.Staged jq := by
  induction nodes generalizing failed with
  | nil =>
    rw [scan]
    split_ifs <;> simp
  | cons node nodes ih =>
    rw [scan, List.exists_mem_cons_iff]
    cases hp : probe jq node with
    | none => simp [ih, Node.Staged, hp]
    | some staged =>
      by_cases hs : staged = "" <;> simp [ih, Node.Staged, hp, hs]

/-- Without an image anywhere, the scan tells of a failure it has seen. -/
theorem scan_of_not_staged (h : ∀ node ∈ nodes, ¬ node.Staged jq) : scan jq failed nodes =
    if failed = true ∨ ∃ node ∈ nodes, probe jq node = none then 3 else 1 := by
  induction nodes generalizing failed with
  | nil => simp [scan]
  | cons node nodes ih =>
    obtain ⟨hnode, hnodes⟩ := List.forall_mem_cons.mp h
    rw [scan]
    cases hp : probe jq node with
    | none => simp [ih hnodes, hp]
    | some staged =>
      have hempty : staged = "" := by
        by_contra hne
        exact hnode ⟨staged, hp, hne⟩
      simp [ih hnodes, hp, hempty]

/-- The status can be trusted exactly where all probes succeed, or some probe is seen to fail and no
node says that an image is staged. -/
theorem truthful_iff (jq : Jq) (nodes : List Node) : Truthful jq nodes ↔
    (∀ node ∈ nodes, node.Probed jq) ∨
      (∃ node ∈ nodes, probe jq node = none) ∧ ∀ node ∈ nodes, ¬ node.Staged jq := by
  constructor
  · rintro ⟨hroll, hnothing⟩
    by_cases hstaged : ∃ node ∈ nodes, node.Staged jq
    · exact .inl (hroll (scan_eq_zero.mpr hstaged)).1
    · have hnone : ∀ node ∈ nodes, ¬ node.Staged jq := fun node hn hs => hstaged ⟨node, hn, hs⟩
      by_cases hfailed : ∃ node ∈ nodes, probe jq node = none
      · exact .inr ⟨hfailed, hnone⟩
      · refine .inl (hnothing ?_).1
        rw [stagedCheck, scan_of_not_staged hnone, if_neg (by simpa using hfailed)]
  · rintro (hall | ⟨hfailed, hnone⟩)
    · refine ⟨fun h => ⟨hall, scan_eq_zero.mp h⟩, fun h => ⟨hall, fun node hn hs => ?_⟩⟩
      have hzero : stagedCheck jq nodes = 0 := scan_eq_zero.mpr ⟨node, hn, hs⟩
      rw [hzero] at h
      cases h
    · have hthree : stagedCheck jq nodes = 3 := by
        rw [stagedCheck, scan_of_not_staged hnone, if_pos (.inr hfailed)]
      constructor <;> intro h <;> rw [hthree] at h <;> cases h

end Scan

section Sample

def lease (ip : String) : String :=
  " vnet0      52:54:00:f0:1d:bd    ipv4         " ++ ip ++ "/24\n"

def stagedJson : String :=
  "\x7b\"status\":\x7b\"staged\":\x7b\"image\":\x7b\"image\":\x7b\"image\":\"ghcr.io/k8s\"\x7d\x7d\x7d\x7d\x7d"

/-- `jq -r '.status.staged.image.image.image // empty'` on these two texts. -/
def sampleJq : Jq := fun json => if json = stagedJson then .ok "ghcr.io/k8s\n" else .ok ""

/-- The first worker does not answer, the second one has an image staged. -/
def sampleNodes : List Node :=
  [⟨"hbird-cp1", lease "192.168.122.10", .reachable 0 "\x7b\"status\":\x7b\x7d\x7d"⟩,
    ⟨"hbird-w1", lease "192.168.122.11", .unreachable 255⟩,
    ⟨"hbird-w2", lease "192.168.122.12", .reachable 0 stagedJson⟩]

theorem roll_on_partial_scan : ¬ Truthful sampleJq sampleNodes := by
  rintro ⟨hroll, -⟩
  have hzero : stagedCheck sampleJq sampleNodes = 0 := by decide +kernel
  obtain ⟨-, json, output, hanswer, -⟩ := (hroll hzero).1
    ⟨"hbird-w1", lease "192.168.122.11", .unreachable 255⟩ (by simp [sampleNodes])
  cases hanswer

/-- A node whose `bootc status` fails counts as one without a staged image. -/
example : stagedCheck sampleJq
    [⟨"hbird-cp1", lease "192.168.122.10", .reachable 1 ""⟩] = 1 := by
  decide +kernel

end Sample

end Hbird.StagedCheck
