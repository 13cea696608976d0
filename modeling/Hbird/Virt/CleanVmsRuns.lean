import Hbird.Config.Composition
import Hbird.Virt.CleanVms
import Hbird.Virt.Quoting

namespace Hbird.Virt.CleanVms

open Hbird.Interaction Hbird.Shell Hbird.Text Hbird.Utf8

section Listing

/-- A name on a line of its own, for each name. -/
def listing (names : List (List UInt8)) : List UInt8 := names.flatMap (· ++ [0x0a])

/-- What the readers of a listing take a name in it for. -/
def shown (name : List UInt8) : List String := listed (textOf (name ++ [0x0a]))

theorem lines_textOf (b c : List UInt8) :
    lines (textOf (b ++ 0x0a :: c)) = lines (textOf (b ++ [0x0a])) ++ lines (textOf c) := by
  have hb : fromUtf8Lossy (b ++ [0x0a]) = fromUtf8Lossy b ++ ['\n'] := fromUtf8Lossy_append b []
  rw [textOf, textOf, textOf, fromUtf8Lossy_append, hb]
  simp only [lines, String.toList_ofList]
  rw [Config.splitLines_append_newline, List.map_append]

theorem listed_textOf (b c : List UInt8) :
    listed (textOf (b ++ 0x0a :: c)) = shown b ++ listed (textOf c) := by
  rw [listed, lines_textOf, List.map_append, List.filter_append]
  rfl

theorem listed_listing (names : List (List UInt8)) (rest : List UInt8) :
    listed (textOf (listing names ++ rest)) = names.flatMap shown ++ listed (textOf rest) := by
  induction names with
  | nil => rfl
  | cons name names ih =>
    have hcons : listing (name :: names) ++ rest = name ++ 0x0a :: (listing names ++ rest) := by
      simp [listing]
    rw [hcons, listed_textOf, ih, List.flatMap_cons, List.append_assoc]

theorem mem_listed_listing {names : List (List UInt8)} {name : String} :
    name ∈ listed (textOf (listing names)) ↔ ∃ b ∈ names, name ∈ shown b := by
  have h := listed_listing names []
  rw [List.append_nil] at h
  have hnil : listed (textOf []) = [] := rfl
  rw [h, hnil, List.append_nil, List.mem_flatMap]

/-- The blank line that `virsh list` ends with says nothing. -/
theorem mem_listed_blank {names : List (List UInt8)} {name : String} :
    name ∈ listed (textOf (listing names ++ [0x0a])) ↔ ∃ b ∈ names, name ∈ shown b := by
  have hnil : listed (textOf [0x0a]) = [] := by decide
  rw [listed_listing, hnil, List.append_nil, List.mem_flatMap]

end Listing

section Loops

variable {f : String → Sweep Nat} {names : List String} {t : Trace Answer} {n : Nat}

theorem mem_eachOf (h : Runs (eachOf f names) t n) {x : Exchange Answer} (hx : x ∈ t) :
    ∃ name ∈ names, ∃ u m, Runs (f name) u m ∧ x ∈ u := by
  induction names generalizing t n with
  | nil =>
    obtain ⟨rfl, -⟩ := runs_done.mp h
    cases hx
  | cons name names ih =>
    obtain ⟨m, t₁, t₂, rfl, h₁, h₂⟩ := runs_bind.mp h
    obtain ⟨k, t₃, t₄, rfl, h₃, h₄⟩ := runs_bind.mp h₂
    obtain ⟨rfl, -⟩ := runs_done.mp h₄
    rw [List.append_nil] at hx
    obtain hx | hx := List.mem_append.mp hx
    · exact ⟨name, List.mem_cons_self .., t₁, m, h₁, hx⟩
    · obtain ⟨name', hname', hrest⟩ := ih h₃ hx
      exact ⟨name', List.mem_cons_of_mem _ hname', hrest⟩

theorem eachOf_covers (h : Runs (eachOf f names) t n) {name : String} (hn : name ∈ names) :
    ∃ u m, Runs (f name) u m ∧ u ⊆ t := by
  induction names generalizing t n with
  | nil => cases hn
  | cons name' names ih =>
    obtain ⟨m, t₁, t₂, rfl, h₁, h₂⟩ := runs_bind.mp h
    obtain ⟨k, t₃, t₄, rfl, h₃, -⟩ := runs_bind.mp h₂
    obtain rfl | hn := List.mem_cons.mp hn
    · exact ⟨t₁, m, h₁, List.subset_append_left ..⟩
    · obtain ⟨u, k', hu, hsub⟩ := ih h₃ hn
      refine ⟨u, k', hu, fun x hx => ?_⟩
      exact List.mem_append_right _ (List.mem_append_left _ (hsub hx))

theorem puts_log {φ : Ask → Prop} (hφ : ∀ line, φ (.log line)) (line : String) :
    Puts φ (log line) := puts_ask (hφ _) fun _ => puts_done φ _

theorem puts_verb {φ : Ask → Prop} {command : String} (hφ : φ (.run command)) :
    Puts φ (verb command) := puts_ask hφ fun _ => puts_done φ _

theorem puts_warned {φ : Ask → Prop} {command : String} {text : Error → String}
    (hlog : ∀ line, φ (.log line)) (hφ : φ (.run command)) : Puts φ (warned (verb command) text) := by
  refine puts_bind (puts_verb hφ) fun r => ?_
  cases r with
  | ok u => exact puts_done φ _
  | error e => exact puts_bind (puts_log hlog _) fun _ => puts_done φ _

end Loops

section Steps

variable {plan : Plan} {name : String} {t : Trace Answer}

/-- What a live sweep asks for one domain. -/
inductive AsksDomain (name : String) : Ask → Prop
  | log (line : String) : AsksDomain name (.log line)
  | destroy : AsksDomain name (.run (destroyCommand name))
  | undefine : AsksDomain name (.run (undefineAllCommand name))

inductive AsksStraggler (plan : Plan) (name : String) : Ask → Prop
  | log (line : String) : AsksStraggler plan name (.log line)
  | remove : AsksStraggler plan name (.run (rmCommand (plan.poolPath name)))

/-- What a run asks once the sweeps are over. -/
inductive AsksLast (plan : Plan) : Ask → Prop
  | log (line : String) : AsksLast plan (.log line)
  | refresh (hd : plan.dryRun = false) : AsksLast plan (.run (refreshCommand plan.poolName))

theorem puts_sweepDomain : Puts (AsksDomain name) (sweepDomain plan name) := by
  rw [sweepDomain]
  split_ifs
  · exact puts_bind (puts_log .log _) fun _ => puts_done _ _
  · refine puts_bind (puts_log .log _) fun _ => puts_bind (puts_warned .log .destroy) fun _ => ?_
    exact puts_bind (puts_warned .log .undefine) fun _ => puts_done _ _

theorem puts_sweepStraggler : Puts (AsksStraggler plan name) (sweepStraggler plan name) := by
  rw [sweepStraggler]
  split_ifs
  · exact puts_bind (puts_log .log _) fun _ => puts_done _ _
  · exact puts_bind (puts_log .log _) fun _ => puts_warned .log .remove

theorem runs_sweepDomain_dry (hd : plan.dryRun = true) {n : Nat} :
    Runs (sweepDomain plan name) t n ↔
      t = [⟨.log ("[clean-vms] " ++ wouldDestroy name), ()⟩] ∧ n = 0 := by
  rw [sweepDomain, if_pos hd]
  constructor
  · intro h
    obtain ⟨u, t₁, t₂, rfl, h₁, h₂⟩ := runs_bind.mp h
    obtain ⟨rfl, rfl⟩ := runs_done.mp h₂
    rw [runs_perform.mp h₁]
    exact ⟨rfl, rfl⟩
  · rintro ⟨rfl, rfl⟩
    exact Runs.bind (runs_perform.mpr rfl) (.done 0)

theorem runs_sweepStraggler_dry (hd : plan.dryRun = true) {n : Nat} :
    Runs (sweepStraggler plan name) t n ↔
      t = [⟨.log ("[clean-vms] " ++ wouldRemove (plan.poolPath name)), ()⟩] ∧ n = 0 := by
  rw [sweepStraggler, if_pos hd]
  constructor
  · intro h
    obtain ⟨u, t₁, t₂, rfl, h₁, h₂⟩ := runs_bind.mp h
    obtain ⟨rfl, rfl⟩ := runs_done.mp h₂
    rw [runs_perform.mp h₁]
    exact ⟨rfl, rfl⟩
  · rintro ⟨rfl, rfl⟩
    exact Runs.bind (runs_perform.mpr rfl) (.done 0)

/-- A live sweep does remove what it was called for. -/
theorem mem_sweepStraggler_live (hd : plan.dryRun = false) {n : Nat}
    (h : Runs (sweepStraggler plan name) t n) :
    ∃ r, (⟨.run (rmCommand (plan.poolPath name)), r⟩ : Exchange Answer) ∈ t := by
  rw [sweepStraggler, hd, if_neg Bool.false_ne_true] at h
  obtain ⟨u, t₁, t₂, rfl, -, h₂⟩ := runs_bind.mp h
  obtain ⟨r, t₃, t₄, rfl, h₃, -⟩ := runs_bind.mp h₂
  obtain ⟨r₀, t₅, t₆, rfl, h₅, -⟩ := runs_bind.mp h₃
  obtain ⟨r₁, t₇, t₈, rfl, h₇, -⟩ := runs_bind.mp h₅
  refine ⟨r₁, ?_⟩
  rw [runs_perform.mp h₇]
  simp

theorem puts_refreshPool : Puts (AsksLast plan) (refreshPool plan) := by
  rw [refreshPool]
  split_ifs with hd
  · exact puts_bind (puts_log .log _) fun _ => puts_done _ _
  · exact puts_warned .log (.refresh (by simpa using hd))

theorem puts_farewell {warnings : Nat} : Puts (AsksLast plan) (farewell warnings) := by
  rw [farewell]
  refine puts_bind ?_ fun _ => puts_log .log _
  split_ifs
  · exact puts_log .log _
  · exact puts_done _ _

/-- A run of the domain sweep: the listing, and the loop over what it said. -/
theorem finishes_sweepDomains {o : Except Failure Nat} (h : Finishes (sweepDomains plan) t o) :
    ∃ r u, t = ⟨.run domainsCommand, r⟩ :: u ∧ (∀ e, r = .error e → u = []) ∧
      ∀ out, r = .ok out → ∃ n, o = .ok n ∧
        Runs (eachOf (sweepDomain plan) ((listed (textOf out)).filter isHummingbirdDomain)) u n := by
  have hdomains : ∀ {u : Trace Answer} {q : Except Error (List String)}, Runs domains u q →
      ∃ r, u = [⟨.run domainsCommand, r⟩] ∧ q = r.map fun out => listed (textOf out) := by
    intro u q hq
    obtain ⟨a, t₁, t₂, rfl, h₁, h₂⟩ := runs_bind.mp hq
    obtain ⟨b, t₃, t₄, rfl, h₃, h₄⟩ := runs_bind.mp h₁
    obtain ⟨rfl, rfl⟩ := runs_done.mp h₂
    obtain ⟨rfl, rfl⟩ := runs_done.mp h₄
    refine ⟨b, by rw [runs_perform.mp h₃]; rfl, ?_⟩
    cases b <;> rfl
  obtain ⟨e, rfl, he⟩ | ⟨all, t₁, t₂, rfl, h₁, h₂⟩ := finishes_bind.mp h
  · obtain ⟨q, hq, hrun⟩ := finishes_context.mp he
    obtain ⟨r, rfl, rfl⟩ := hdomains hrun
    cases r with
    | ok out => cases hq
    | error e => exact ⟨.error e, [], rfl, fun _ _ => rfl, fun out ho => by cases ho⟩
  · obtain ⟨r, rfl, hr⟩ := hdomains (finishes_context_ok.mp h₁)
    cases r with
    | error e => cases hr
    | ok out =>
      obtain rfl := Except.ok.inj hr
      obtain ⟨n, rfl, hloop⟩ := finishes_observe.mp h₂
      refine ⟨.ok out, t₂, rfl, by simp, fun out' ho => ?_⟩
      obtain rfl := Except.ok.inj ho
      exact ⟨n, rfl, hloop⟩

theorem finishes_sweepStragglers {o : Except Failure Nat} (h : Finishes (sweepStragglers plan) t o) :
    ∃ r u, t = ⟨.run (lsCommand plan.poolDir), r⟩ :: u ∧
      (∀ e, r = .error e → ∀ x ∈ u, ∃ line, x.1 = .log line) ∧
      ∀ out, r = .ok out → ∃ n, o = .ok n ∧
        Runs (eachOf (sweepStraggler plan) (stragglers (listed (textOf out)))) u n := by
  obtain ⟨q, t₁, t₂, rfl, h₁, h₂⟩ := finishes_observe_bind.mp h
  obtain ⟨a, t₃, t₄, rfl, h₃, h₄⟩ := runs_bind.mp h₁
  obtain ⟨r, t₅, t₆, rfl, h₅, h₆⟩ := runs_bind.mp h₃
  obtain ⟨rfl, rfl⟩ := runs_done.mp h₄
  obtain ⟨rfl, rfl⟩ := runs_done.mp h₆
  refine ⟨r, t₂, by rw [runs_perform.mp h₅]; rfl, ?_, ?_⟩
  · rintro e rfl x hx
    cases e with
    | virshFailed command stderr =>
      obtain ⟨u, t₇, t₈, rfl, h₇, h₈⟩ := finishes_observe_bind.mp h₂
      obtain ⟨rfl, -⟩ := finishes_pure.mp h₈
      obtain rfl := runs_perform.mp h₇
      rw [List.append_nil] at hx
      obtain rfl := List.mem_singleton.mp hx
      exact ⟨_, rfl⟩
    | ssh source =>
      obtain ⟨rfl, -⟩ := finishes_throw.mp h₂
      cases hx
    | unparseableOutput command reason =>
      obtain ⟨rfl, -⟩ := finishes_throw.mp h₂
      cases hx
  · rintro out rfl
    obtain ⟨n, rfl, hloop⟩ := finishes_observe.mp h₂
    exact ⟨n, rfl, hloop⟩

/-- A run is the domain sweep and, if that came to an end, the straggler sweep and the rest. -/
theorem finishes_run {o : Except Failure Unit} (h : Finishes (run plan) t o) :
    ∃ t₁ o₁ t', Finishes (sweepDomains plan) t₁ o₁ ∧ t = t₁ ++ t' ∧ (∀ e, o₁ = .error e → t' = []) ∧
      ∀ n, o₁ = .ok n → ∃ t₂ o₂ t₃, Finishes (sweepStragglers plan) t₂ o₂ ∧ t' = t₂ ++ t₃ ∧
        ∀ x ∈ t₃, AsksLast plan x.1 := by
  obtain ⟨e, rfl, he⟩ | ⟨a, t₁, t', rfl, h₁, h₂⟩ := finishes_bind.mp h
  · exact ⟨t, _, [], he, (List.append_nil t).symm, fun _ _ => rfl, fun n hn => by cases hn⟩
  · refine ⟨t₁, _, t', h₁, rfl, (fun e he => by cases he), fun n _ => ?_⟩
    obtain ⟨e, rfl, he⟩ | ⟨b, t₂, t₃, rfl, h₃, h₄⟩ := finishes_bind.mp h₂
    · exact ⟨t', _, [], he, (List.append_nil t').symm, by simp⟩
    · refine ⟨t₂, _, t₃, h₃, rfl, fun x hx => ?_⟩
      obtain ⟨c, t₄, t₅, rfl, h₅, h₆⟩ := finishes_observe_bind.mp h₄
      obtain hx | hx := List.mem_append.mp hx
      · exact puts_refreshPool _ _ h₅ x hx
      · obtain ⟨u, -, h₇⟩ := finishes_observe.mp h₆
        exact puts_farewell _ _ h₇ x hx

end Steps

end Hbird.Virt.CleanVms
