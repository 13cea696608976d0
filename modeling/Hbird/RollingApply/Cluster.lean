import Hbird.RollingApply.VisitRuns

namespace Hbird.RollingApply

open Hbird.Interaction Hbird.StagedCheck

/-- What the apiserver knows of the nodes: those that take no new pods, and those with pods that a
drain has to evict. -/
structure Cluster where
  cordoned : Set String
  busy : Set String

/-- The cordons after a command. One that fails may have had its effect or not. -/
def Recordoned (c : Cluster) (q : Query) (r : Reply q) (c' : Cluster) : Prop :=
  match q, r with
  | .cordon n, ok => (ok = true → n ∈ c'.cordoned) ∧ ∀ m ≠ n, m ∈ c'.cordoned ↔ m ∈ c.cordoned
  | .drain n, ok => (ok = true → n ∈ c'.cordoned ∧ n ∉ c'.busy) ∧
      ∀ m ≠ n, m ∈ c'.cordoned ↔ m ∈ c.cordoned
  | .uncordon n, ok => (ok = true → n ∉ c'.cordoned) ∧ ∀ m ≠ n, m ∈ c'.cordoned ↔ m ∈ c.cordoned
  | _, _ => c'.cordoned = c.cordoned

/-- The scheduler gives pods only to a node that is not cordoned, all the while. -/
def Schedules (c c' : Cluster) : Prop :=
  ∀ n ∈ c'.busy, n ∈ c.busy ∨ n ∉ c.cordoned ∨ n ∉ c'.cordoned

def Serves : World Cluster Reply := fun c q r c' => Recordoned c q r c' ∧ Schedules c c'

/-- The cordons of the beginning, less those that the script has taken back. -/
def cleared (c : Cluster) (tr : Trace Reply) : Set String :=
  {n | n ∈ c.cordoned ∧ ⟨.uncordon n, true⟩ ∉ tr}

section Cordons

variable {cfg : Config} {c₀ c c' : Cluster} {tr : Trace Reply} {s : State} {t : Target} {p : Point}
  {n : String} {q : Query} {r : Reply q}

/-- The script has left the cordons as they are to be. -/
def Even (c₀ : Cluster) (tr : Trace Reply) (c : Cluster) : Prop := c.cordoned = cleared c₀ tr

/-- So it has, but for one node. -/
def Beside (n : String) (c₀ : Cluster) (tr : Trace Reply) (c : Cluster) : Prop :=
  ∀ m ≠ n, m ∈ c.cordoned ↔ m ∈ cleared c₀ tr

theorem Even.beside (h : Even c₀ tr c) (n : String) : Beside n c₀ tr c := fun m _ => by rw [h]

/-- Commands that have no say in the cordons. -/
def Query.quiet : Query → Bool
  | .cordon _ => false
  | .drain _ => false
  | .uncordon _ => false
  | _ => true

theorem recordoned_quiet (hq : q.quiet = true) (h : Recordoned c q r c') :
    c'.cordoned = c.cordoned := by
  cases q with
  | cordon | drain | uncordon => cases hq
  | _ => exact h

theorem mem_cleared_append {x : Exchange Reply} (hx : x ≠ ⟨.uncordon n, true⟩) :
    n ∈ cleared c₀ (tr ++ [x]) ↔ n ∈ cleared c₀ tr := by
  simp only [cleared, Set.mem_ofPred_eq, List.mem_append, List.mem_singleton, hx.symm, or_false]

theorem Even.quiet (h : Even c₀ tr c) (hq : q.quiet = true) (hw : Recordoned c q r c') :
    Even c₀ (tr ++ [⟨q, r⟩]) c' := by
  refine (recordoned_quiet hq hw).trans (h.trans ?_)
  ext n
  refine (mem_cleared_append ?_).symm
  intro hx
  cases hx
  cases hq

/-- A command about one node leaves the others as they are. -/
theorem Beside.about (h : Beside n c₀ tr c) (hq : q = .cordon n ∨ q = .drain n ∨ q = .uncordon n)
    (hw : Recordoned c q r c') : Beside n c₀ (tr ++ [⟨q, r⟩]) c' := by
  intro m hm
  have hother : m ∈ c'.cordoned ↔ m ∈ c.cordoned := by
    obtain rfl | rfl | rfl := hq <;> exact hw.2 m hm
  rw [hother, h m hm]
  refine (mem_cleared_append ?_).symm
  rintro hx
  cases hx
  obtain hq | hq | hq := hq <;> cases hq
  exact hm rfl

theorem Beside.quiet (h : Beside n c₀ tr c) (hq : q.quiet = true) (hw : Recordoned c q r c') :
    Beside n c₀ (tr ++ [⟨q, r⟩]) c' := by
  intro m hm
  rw [recordoned_quiet hq hw, h m hm]
  refine (mem_cleared_append ?_).symm
  rintro hx
  cases hx
  cases hq

/-- What has been taken back is free. -/
theorem Beside.even (h : Beside n c₀ tr c) (hw : Recordoned c (.uncordon n) true c') :
    Even c₀ (tr ++ [⟨.uncordon n, true⟩]) c' := by
  ext m
  by_cases hm : m = n
  · subst hm
    simp [cleared, hw.1 rfl]
  · exact h.about (.inr (.inr rfl)) hw m hm

/-- A worker takes no pods and has none that it may not lose. -/
def Held (t : Target) (c : Cluster) : Prop :=
  t.isCp = false → t.node ∈ c.cordoned ∧ t.node ∉ c.busy

theorem Held.quiet (h : Held t c) (hq : q.quiet = true) (hw : Serves c q r c') : Held t c' := by
  intro hworker
  obtain ⟨hcordoned, hidle⟩ := h hworker
  have hcordoned' : t.node ∈ c'.cordoned := by
    rw [recordoned_quiet hq hw.1]
    exact hcordoned
  refine ⟨hcordoned', fun hbusy => ?_⟩
  obtain h | h | h := hw.2 t.node hbusy
  · exact hidle h
  · exact h hcordoned
  · exact h hcordoned'

/-- The node is on its way, from the drain to the uncordon. -/
structure Away (t : Target) (c₀ : Cluster) (tr : Trace Reply) (c : Cluster) : Prop where
  even : t.isCp = true → Even c₀ tr c
  beside : Beside t.node c₀ tr c
  held : Held t c

theorem Away.quiet (h : Away t c₀ tr c) (hq : q.quiet = true) (hw : Serves c q r c') :
    Away t c₀ (tr ++ [⟨q, r⟩]) c' :=
  ⟨fun hcp => (h.even hcp).quiet hq hw.1, h.beside.quiet hq hw.1, h.held.quiet hq hw⟩

/-- How the cordons stand when `apply_node` is at a point. -/
def Around (t : Target) (c₀ : Cluster) (tr : Trace Reply) (c : Cluster) : Point → Prop
  | .probe | .readBootId _ => Even c₀ tr c
  | .cordon _ _ => t.isCp = false ∧ Even c₀ tr c
  | .drain _ _ => t.isCp = false ∧ Beside t.node c₀ tr c
  | .giveBack => Beside t.node c₀ tr c
  | .uncordon => t.isCp = false ∧ Away t c₀ tr c
  | _ => Away t c₀ tr c

/-- What a failed roll leaves: the cordons as they are to be but for one node, which is held for
inspection, or whose cordon could not be set or taken back. -/
inductive Left (c₀ : Cluster) (tr : Trace Reply) (c : Cluster) : Prop
  | even (h : Even c₀ tr c)
  | held (n : String) (h : Beside n c₀ tr c) (hcordoned : n ∈ c.cordoned) (hidle : n ∉ c.busy)
  | unset (n : String) (h : Beside n c₀ tr c) (hlast : tr.getLast? = some ⟨.cordon n, false⟩)
  | untaken (n : String) (h : Beside n c₀ tr c) (hlast : tr.getLast? = some ⟨.uncordon n, false⟩)

theorem Left.beside (h : Left c₀ tr c) : ∃ n, Beside n c₀ tr c := by
  cases h with
  | even h => exact ⟨"", h.beside _⟩
  | held n h | unset n h | untaken n h => exact ⟨n, h⟩

theorem beside_of_around (h : Around t c₀ tr c p) : Beside t.node c₀ tr c := by
  cases p with
  | probe | readBootId => exact Even.beside h _
  | cordon => exact h.2.beside _
  | drain => exact h.2
  | giveBack => exact h
  | uncordon => exact h.2.beside
  | _ => exact h.beside

theorem Away.left (h : Away t c₀ tr c) : Left c₀ tr c := by
  cases hcp : t.isCp with
  | true => exact .even (h.even hcp)
  | false => exact .held t.node h.beside (h.held hcp).1 (h.held hcp).2

/-- How the cordons stand in a phase of the script. -/
def Stands (c₀ : Cluster) (tr : Trace Reply) (c : Cluster) : Phase → Prop
  | .resolveCp | .pick | .ended true => Even c₀ tr c
  | .within t p => Around t c₀ tr c p
  | .ended false => Left c₀ tr c

structure Standing (c₀ : Cluster) (tr : Trace Reply) (s : State) (c : Cluster) : Prop where
  stands : Stands c₀ tr c s.phase

theorem standing_next (h : Even c₀ tr c) : Standing c₀ tr s.next c := by
  unfold State.next
  obtain ⟨todo, phase⟩ := s
  cases todo <;> exact ⟨h⟩

theorem standing_goTo (h : Around t c₀ tr c p) : Standing c₀ tr (s.goTo t p) c := ⟨h⟩

theorem standing_fail (h : Left c₀ tr c) : Standing c₀ tr s.fail c := ⟨h⟩

theorem standing_choice {P : Prop} [Decidable P] {p' : Point} (h : Around t c₀ tr c p)
    (h' : Around t c₀ tr c p') : Standing c₀ tr (s.goTo t (if P then p else p')) c := by
  split_ifs
  · exact standing_goTo h
  · exact standing_goTo h'

theorem getLast?_append_singleton {α : Type} (l : List α) (x : α) : (l ++ [x]).getLast? = some x := by
  simp

theorem around_probe {r : Shot} (h : Even c₀ tr c) (hw : Serves c (.stagedImage t.ip) r c') :
    Standing c₀ (tr ++ [⟨.stagedImage t.ip, r⟩])
      (applyNode cfg s t .probe (.stagedImage t.ip) r) c' := by
  have heven := h.quiet rfl hw.1
  unfold applyNode
  dsimp only
  split_ifs
  · exact standing_next heven
  · exact standing_goTo heven
  · exact standing_fail (.even heven)

theorem around_readBootId {staged : String} {r : Shot} (h : Even c₀ tr c)
    (hw : Serves c (.bootId t.ip) r c') : Standing c₀ (tr ++ [⟨.bootId t.ip, r⟩])
      (applyNode cfg s t (.readBootId staged) (.bootId t.ip) r) c' := by
  have heven := h.quiet rfl hw.1
  unfold applyNode
  dsimp only
  by_cases hr : r.ok = true
  · rw [if_pos hr]
    cases hcp : t.isCp with
    | true =>
      refine standing_goTo (p := .reboot staged r.text) ⟨fun _ => heven, heven.beside _, ?_⟩
      exact fun hworker => absurd (hcp.symm.trans hworker) (by decide)
    | false => exact standing_goTo (p := .cordon staged r.text) ⟨hcp, heven⟩
  · rw [if_neg hr]
    exact standing_fail (.even heven)

theorem around_cordon {staged bootId : String} {ok : Bool} (hworker : t.isCp = false)
    (h : Even c₀ tr c) (hw : Serves c (.cordon t.node) ok c') :
    Standing c₀ (tr ++ [⟨.cordon t.node, ok⟩])
      (applyNode cfg s t (.cordon staged bootId) (.cordon t.node) ok) c' := by
  have hbeside := (h.beside t.node).about (.inl rfl) hw.1
  cases ok with
  | true => exact standing_goTo (p := .drain staged bootId) ⟨hworker, hbeside⟩
  | false => exact standing_fail (.unset t.node hbeside (getLast?_append_singleton _ _))

theorem around_drain {staged bootId : String} {ok : Bool} (hworker : t.isCp = false)
    (h : Beside t.node c₀ tr c) (hw : Serves c (.drain t.node) ok c') :
    Standing c₀ (tr ++ [⟨.drain t.node, ok⟩])
      (applyNode cfg s t (.drain staged bootId) (.drain t.node) ok) c' := by
  have hbeside := h.about (.inr (.inl rfl)) hw.1
  cases ok with
  | true =>
    refine standing_goTo (p := .reboot staged bootId) ⟨fun hcp => ?_, hbeside, fun _ => hw.1.1 rfl⟩
    exact absurd (hcp.symm.trans hworker) (by decide)
  | false => exact standing_goTo (p := .giveBack) hbeside

theorem around_giveBack {ok : Bool} (h : Beside t.node c₀ tr c)
    (hw : Serves c (.uncordon t.node) ok c') : Standing c₀ (tr ++ [⟨.uncordon t.node, ok⟩])
      (applyNode cfg s t .giveBack (.uncordon t.node) ok) c' := by
  cases ok with
  | true => exact standing_fail (.even (h.even hw.1))
  | false =>
    exact standing_fail (.untaken t.node (h.about (.inr (.inr rfl)) hw.1)
      (getLast?_append_singleton _ _))

theorem around_uncordon {ok : Bool} (h : Beside t.node c₀ tr c)
    (hw : Serves c (.uncordon t.node) ok c') : Standing c₀ (tr ++ [⟨.uncordon t.node, ok⟩])
      (applyNode cfg s t .uncordon (.uncordon t.node) ok) c' := by
  cases ok with
  | true => exact standing_next (h.even hw.1)
  | false =>
    exact standing_fail (.untaken t.node (h.about (.inr (.inr rfl)) hw.1)
      (getLast?_append_singleton _ _))

section Waits

variable {staged bootId newId : String} {deadline : Nat}

theorem around_bootClock {now : Nat} (h : Away t c₀ tr c) :
    Standing c₀ tr (applyNode cfg s t (.bootClock staged bootId deadline) .seconds now) c := by
  unfold applyNode
  dsimp only
  split_ifs
  · exact standing_goTo h
  · exact standing_fail h.left

theorem around_readyClock {now : Nat} (h : Away t c₀ tr c) :
    Standing c₀ tr (applyNode cfg s t (.readyClock staged newId deadline) .seconds now) c := by
  unfold applyNode
  dsimp only
  split_ifs
  · exact standing_fail h.left
  · exact standing_goTo h

theorem around_readBooted {r : Shot} (h : Away t c₀ tr c) :
    Standing c₀ tr (applyNode cfg s t (.readBooted staged) (.bootedImage t.ip) r) c := by
  unfold applyNode
  dsimp only
  by_cases hr : r.ok = true ∧ r.text = staged
  · rw [if_pos hr]
    cases hcp : t.isCp with
    | true => exact standing_next (h.even hcp)
    | false => exact standing_goTo (p := .uncordon) ⟨hcp, h⟩
  · rw [if_neg hr]
    exact standing_fail h.left

end Waits

theorem around_step (h : Around t c₀ tr c p) (r : Reply (p.query t))
    (hw : Serves c (p.query t) r c') :
    Standing c₀ (tr ++ [⟨p.query t, r⟩]) (applyNode cfg s t p (p.query t) r) c' := by
  cases p with
  | probe => exact around_probe h hw
  | readBootId staged => exact around_readBootId h hw
  | cordon staged bootId => exact around_cordon h.1 h.2 hw
  | drain staged bootId => exact around_drain h.1 h.2 hw
  | giveBack => exact around_giveBack h hw
  | uncordon => exact around_uncordon h.2.beside hw
  | reboot staged bootId | bootDeadline staged bootId | bootSleep staged bootId deadline
  | readyDeadline staged newId | readySleep staged newId deadline =>
    exact standing_goTo (Away.quiet h rfl hw)
  | bootClock staged bootId deadline => exact around_bootClock (Away.quiet h rfl hw)
  | bootPoll staged bootId deadline | askKubelet staged newId deadline
  | askReady staged newId deadline =>
    have haway := Away.quiet h rfl hw
    exact standing_choice haway haway
  | readyClock staged newId deadline => exact around_readyClock (Away.quiet h rfl hw)
  | readBooted staged => exact around_readBooted (Away.quiet h rfl hw)

theorem standing_step (x : Exchange Reply) (h : Standing c₀ tr s c) (hask : ask cfg s = some x.1)
    (hw : Serves c x.1 x.2 c') : Standing c₀ (tr ++ [x]) (resume cfg s x.1 x.2) c' := by
  obtain ⟨hphase⟩ := h
  obtain ⟨todo, phase⟩ := s
  obtain ⟨q, r⟩ := x
  cases phase with
  | resolveCp =>
    cases hask
    have heven := Even.quiet hphase rfl hw.1
    unfold resume
    dsimp only
    split_ifs
    · exact standing_fail (.even heven)
    · exact standing_goTo heven
  | pick =>
    cases todo with
    | nil => cases hask
    | cons name todo =>
      cases hask
      have heven := Even.quiet hphase rfl hw.1
      unfold resume
      dsimp only
      split_ifs
      · exact standing_fail (.even heven)
      · exact standing_goTo heven
  | within t p =>
    cases hask
    exact around_step hphase r hw
  | ended success => cases hask

theorem standing_run (h : exec (script cfg).step (start cfg) tr = some s)
    (hw : Leads Serves c₀ tr c) : Standing c₀ tr s c := by
  have hstart : Standing c₀ [] (start cfg) c₀ := ⟨Set.ext fun n => by simp [cleared]⟩
  exact Machine.keeps (I := fun tr s c => Standing c₀ tr s c)
    (fun tr s c x c' hI hask hw => standing_step x hI hask hw) hstart h hw

/-- From the reboot of a node to its uncordon. -/
def Point.away : Point → Bool
  | .probe | .readBootId _ | .cordon _ _ | .drain _ _ | .giveBack => false
  | _ => true

theorem held_of_around (h : Around t c₀ tr c p) (hp : p.away = true) : Held t c := by
  cases p with
  | probe | readBootId | cordon | drain | giveBack => cases hp
  | uncordon => exact h.2.held
  | _ => exact h.held

/-- At no time has the script more than one node cordoned, and a worker takes no pods from its
reboot to its uncordon. A roll that ends well leaves behind no cordon of its own; one that fails
may leave one. -/
theorem cordons_kept (h : exec (script cfg).step (start cfg) tr = some s)
    (hw : Leads Serves c₀ tr c) : (∃ n, Beside n c₀ tr c) ∧
      (∀ t p, s.phase = .within t p → p.away = true → Held t c) ∧
      (s.phase = .ended true → Even c₀ tr c) ∧ (s.phase = .ended false → Left c₀ tr c) := by
  obtain ⟨hstands⟩ := standing_run h hw
  obtain ⟨todo, phase⟩ := s
  refine ⟨?_, ?_, ?_, ?_⟩
  · cases phase with
    | resolveCp | pick => exact ⟨"", hstands.beside _⟩
    | within t p => exact ⟨t.node, beside_of_around hstands⟩
    | ended success =>
      cases success with
      | true => exact ⟨"", hstands.beside _⟩
      | false => exact hstands.beside
  · rintro t p rfl hp
    exact held_of_around hstands hp
  · rintro rfl
    exact hstands
  · rintro rfl
    exact hstands

section Sample

theorem serves_quiet (hq : q.quiet = true) : Serves c q r c := by
  refine ⟨?_, fun n hn => .inl hn⟩
  cases q with
  | cordon | drain | uncordon => cases hq
  | _ => rfl

theorem smallTrace_leads : Leads Serves ⟨∅, {"w"}⟩ smallTrace ⟨∅, ∅⟩ := by
  have hcordon : Serves ⟨∅, {"w"}⟩ (.cordon "w") true ⟨{"w"}, {"w"}⟩ :=
    ⟨by simp [Recordoned], fun n hn => .inl hn⟩
  have hdrain : Serves ⟨{"w"}, {"w"}⟩ (.drain "w") true ⟨{"w"}, ∅⟩ :=
    ⟨by simp [Recordoned], fun n hn => hn.elim⟩
  have huncordon : Serves ⟨{"w"}, ∅⟩ (.uncordon "w") true ⟨∅, ∅⟩ :=
    ⟨by simp [Recordoned], fun n hn => hn.elim⟩
  refine .cons (serves_quiet rfl) (.cons (serves_quiet rfl) (.cons (serves_quiet rfl) ?_))
  refine .cons (serves_quiet rfl) (.cons (serves_quiet rfl) (.cons hcordon (.cons hdrain ?_)))
  refine .cons (serves_quiet rfl) (.cons (serves_quiet rfl) (.cons (serves_quiet rfl) ?_))
  refine .cons (serves_quiet rfl) (.cons (serves_quiet rfl) (.cons (serves_quiet rfl) ?_))
  refine .cons (serves_quiet rfl) (.cons (serves_quiet rfl) (.cons (serves_quiet rfl) ?_))
  exact .cons huncordon (.nil _)

theorem cordons_kept_sample : Even ⟨∅, {"w"}⟩ smallTrace ⟨∅, ∅⟩ :=
  (cordons_kept smallTrace_run smallTrace_leads).2.2.1 rfl

end Sample

end Cordons

end Hbird.RollingApply
