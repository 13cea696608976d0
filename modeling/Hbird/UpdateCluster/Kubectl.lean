import Hbird.Text
import Hbird.UpdateCluster.Plan

namespace Hbird.UpdateCluster

open Hbird.Interaction Hbird.Ssh Hbird.Text

variable {α β : Type} {plan : Plan} {command node : String} {t : Trace Reply}

def shellMetacharacter (c : Char) : Bool :=
  c == ';' || c == '&' || c == '|' || c.toNat == 0x60 || c == '\n' || c == '\r'

/-- Why `cp_kubectl` will not send the command, when it will not. -/
def refusal (command : String) : Option String :=
  match command.toList.find? shellMetacharacter with
  | some bad => some ("cp_kubectl: refusing command with shell metacharacter '" ++
      String.singleton bad ++ "' (commands are forwarded to remote /bin/sh -c; metachars would " ++
      "execute as root on the CP). command=" ++ quoted command)
  | none =>
    if contains command "$(" then
      some ("cp_kubectl: refusing command with " ++ tick ++ "$(" ++ tick ++
        " substitution (executes as root on the CP). command=" ++ quoted command)
    else none

def adminKubectl : String := "kubectl --kubeconfig=/etc/kubernetes/admin.conf "

def remoteKubectl (command : String) : String := adminKubectl ++ command

def kubectlContext (plan : Plan) (command : String) : String :=
  "cp_kubectl: ssh-run failed for " ++ tick ++ "kubectl ... " ++ command ++ tick ++ " against " ++
    plan.cpIp

def cpKubectlLive (plan : Plan) (command : String) : Remote Failure String :=
  match refusal command with
  | some text => bail text
  | none => do
    let output ← (Client.run (cpSshOpts plan) (remoteKubectl command)).context
      (fun e => .context (kubectlContext plan command) (.source e))
    pure output.stdout

def cpKubectl (plan : Plan) (command : String) : Remote Failure String :=
  if plan.dryRun then pure "" else cpKubectlLive plan command

/-- What `cp_kubectl` returns when the `ssh` child of its command ends as `e`. -/
def kubectlResult (plan : Plan) (command : String) (e : ProcessEnd) : Except Failure String :=
  match endResult (cpSshOpts plan) e with
  | .ok output => .ok output.stdout
  | .error e => .error (.context (kubectlContext plan command) (.source e))

def kubectlQuery (plan : Plan) (command : String) : Query :=
  .ssh (cpSshOpts plan) (remoteKubectl command) none

theorem finishes_cpKubectl (hd : plan.dryRun = false) (hr : refusal command = none)
    {o : Except Failure String} :
    Finishes (cpKubectl plan command) t o ↔
      ∃ e : ProcessEnd, t = [⟨kubectlQuery plan command, e⟩] ∧ o = kubectlResult plan command e := by
  rw [cpKubectl, hd, if_neg Bool.false_ne_true, cpKubectlLive, hr]
  have hi := cpSshOpts_identityFile plan
  constructor
  · intro h
    obtain ⟨e, rfl, he⟩ | ⟨out, t₁, t₂, rfl, h₁, h₂⟩ := finishes_bind.mp h
    · obtain ⟨r, hr, hrun⟩ := finishes_context.mp he
      obtain ⟨end', ht, rfl⟩ := (finishes_runInner hi).mp hrun
      refine ⟨end', ht, ?_⟩
      cases hend : endResult (cpSshOpts plan) end' with
      | ok out => rw [hend] at hr; cases hr
      | error e =>
        rw [hend] at hr
        rw [kubectlResult, hend, Except.error.inj hr]
    · obtain ⟨end', ht, hend⟩ := (finishes_runInner hi).mp (finishes_context_ok.mp h₁)
      obtain ⟨rfl, rfl⟩ := finishes_pure.mp h₂
      refine ⟨end', by rw [ht, List.append_nil]; rfl, ?_⟩
      rw [kubectlResult, ← hend]
  · rintro ⟨e, rfl, rfl⟩
    have hrun : Finishes (Client.runInner (cpSshOpts plan) (remoteKubectl command) none) _ _ :=
      (finishes_runInner hi).mpr ⟨e, rfl, rfl⟩
    refine finishes_bind.mpr ?_
    cases hend : endResult (cpSshOpts plan) e with
    | ok out =>
      rw [hend] at hrun
      refine .inr ⟨out, _, [], (List.append_nil _).symm, finishes_context_ok.mpr hrun, ?_⟩
      rw [kubectlResult, hend]
      exact finishes_pure.mpr ⟨rfl, rfl⟩
    | error err =>
      rw [hend] at hrun
      refine .inl ⟨_, ?_, finishes_context.mpr ⟨_, rfl, hrun⟩⟩
      rw [kubectlResult, hend]

theorem finishes_cpKubectl_refused (hd : plan.dryRun = false) {text : String}
    (hr : refusal command = some text) {o : Except Failure String} :
    Finishes (cpKubectl plan command) t o ↔ t = [] ∧ o = .error (.msg text) := by
  rw [cpKubectl, hd, if_neg Bool.false_ne_true, cpKubectlLive, hr]
  exact finishes_throw

theorem finishes_cpKubectl_dryRun (hd : plan.dryRun = true) {o : Except Failure String} :
    Finishes (cpKubectl plan command) t o ↔ t = [] ∧ o = .ok "" := by
  rw [cpKubectl, hd, if_pos rfl]
  exact finishes_pure

theorem remoteKubectl_injective {c c' : String} (h : remoteKubectl c = remoteKubectl c') : c = c' :=
  append_left_cancel _ h

/-- The result of a read of `command`, when the exchange is one. -/
def readOf (plan : Plan) (command : String) : Exchange Reply → Option (Except Failure String)
  | ⟨.ssh options remote none, e⟩ =>
    if options = cpSshOpts plan ∧ remote = remoteKubectl command then
      some (kubectlResult plan command e)
    else none
  | _ => none

/-- What the reads of `command` in a trace returned, in order. -/
def kubectlReads (plan : Plan) (command : String) (t : Trace Reply) : List (Except Failure String) :=
  t.filterMap (readOf plan command)

theorem kubectlReads_append (plan : Plan) (command : String) (s t : Trace Reply) :
    kubectlReads plan command (s ++ t) = kubectlReads plan command s ++ kubectlReads plan command t :=
  List.filterMap_append

theorem kubectlReads_cpKubectl (hd : plan.dryRun = false) {r : Except Failure String}
    (h : Finishes (cpKubectl plan command) t r) :
    kubectlReads plan command t = [r] ∨ t = [] ∧ ∃ e, r = .error e ∧ refusal command ≠ none := by
  cases hr : refusal command with
  | none =>
    obtain ⟨e, rfl, rfl⟩ := (finishes_cpKubectl hd hr).mp h
    left
    simp [kubectlReads, readOf, kubectlQuery]
  | some text =>
    obtain ⟨rfl, rfl⟩ := (finishes_cpKubectl_refused hd hr).mp h
    exact .inr ⟨rfl, _, rfl, by simp⟩

theorem kubectlReads_other {other : String} (ho : other ≠ command) (hd : plan.dryRun = false)
    {r : Except Failure String} (h : Finishes (cpKubectl plan other) t r) :
    kubectlReads plan command t = [] := by
  cases hr : refusal other with
  | none =>
    obtain ⟨e, rfl, -⟩ := (finishes_cpKubectl hd hr).mp h
    have hne : remoteKubectl other ≠ remoteKubectl command := fun hc => ho (remoteKubectl_injective hc)
    simp [kubectlReads, readOf, kubectlQuery, hne]
  | some text =>
    obtain ⟨rfl, -⟩ := (finishes_cpKubectl_refused hd hr).mp h
    rfl

theorem refusal_of_ok (hd : plan.dryRun = false) {out : String}
    (h : Finishes (cpKubectl plan command) t (.ok out)) : refusal command = none := by
  cases hr : refusal command with
  | none => rfl
  | some text =>
    obtain ⟨-, ho⟩ := (finishes_cpKubectl_refused hd hr).mp h
    cases ho

theorem kubectlReads_eq (hd : plan.dryRun = false) (hr : refusal command = none)
    {r : Except Failure String} (h : Finishes (cpKubectl plan command) t r) :
    kubectlReads plan command t = [r] := by
  obtain hk | ⟨-, -, -, hn⟩ := kubectlReads_cpKubectl hd h
  · exact hk
  · exact absurd hr hn

/-- No `$` stands right before a `(`. -/
def NoSubstitution (cs : List Char) : Prop := cs.IsChain fun x y => ¬ (x = '$' ∧ y = '(')

theorem contains_substitution {s : String} : contains s "$(" = false ↔ NoSubstitution s.toList := by
  have hp : "$(".toList = ['$', '('] := by decide
  rw [contains, hp, decide_eq_false_iff_not, NoSubstitution,
    List.isChain_iff_forall_rel_of_append_cons_cons]
  constructor
  · rintro h a b l₁ l₂ hl ⟨rfl, rfl⟩
    exact h ⟨l₁, l₂, by rw [hl, List.append_assoc]; rfl⟩
  · rintro h ⟨l₁, l₂, hl⟩
    exact @h _ _ l₁ l₂ (by rw [← hl, List.append_assoc]; rfl) ⟨rfl, rfl⟩

theorem refusal_eq_none {command : String} :
    refusal command = none ↔
      (∀ c ∈ command.toList, shellMetacharacter c = false) ∧ NoSubstitution command.toList := by
  rw [← contains_substitution, refusal]
  cases hf : command.toList.find? shellMetacharacter with
  | none =>
    have hm : ∀ c ∈ command.toList, shellMetacharacter c = false := by
      intro c hc
      simpa using List.find?_eq_none.mp hf c hc
    by_cases hc : contains command "$(" = true
    · simp [hc]
    · have hc' : contains command "$(" = false := by simpa using hc
      simp only [hc', Bool.false_eq_true, if_false, true_iff]
      exact ⟨hm, trivial⟩
  | some bad =>
    have hb := List.find?_some hf
    have hin := List.mem_of_find?_eq_some hf
    simp only [reduceCtorEq, false_iff, not_and]
    intro hm
    rw [hm bad hin] at hb
    cases hb

theorem refusal_append {a b : String} :
    refusal (a ++ b) = none ↔ refusal a = none ∧ refusal b = none ∧
      ∀ x ∈ a.toList.getLast?, ∀ y ∈ b.toList.head?, ¬ (x = '$' ∧ y = '(') := by
  simp only [refusal_eq_none, NoSubstitution, String.toList_append, List.isChain_append,
    List.mem_append, or_imp, forall_and]
  tauto

end Hbird.UpdateCluster
