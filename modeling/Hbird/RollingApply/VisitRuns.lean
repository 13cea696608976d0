import Hbird.RollingApply.Visits

namespace Hbird.RollingApply

open Hbird.Interaction Hbird.StagedCheck

variable {cfg : Config} {t : Target} {l : Trace Reply} {s s' : State} {p : Point}

/-- Where a command of `apply_node` can lead: through with the node, out of the script, or on. -/
inductive After (s : State) (t : Target) (l : Trace Reply) : State → Prop
  | next (h : Visit.Done ⟨t, l⟩) : After s t l s.next
  | fail (h : Visit.Cautious ⟨t, l⟩) : After s t l s.fail
  | goTo (p : Point) (h : Upto t l p) : After s t l (s.goTo t p)

theorem after_probe {r : Shot} (h : Upto t l .probe) :
    After s t (l ++ [⟨.stagedImage t.ip, r⟩]) (applyNode cfg s t .probe (.stagedImage t.ip) r) := by
  obtain ⟨leases, hip, rfl⟩ := h
  unfold applyNode
  dsimp only
  split_ifs with hok hempty
  · exact .next (.inl ⟨leases, r, hip, rfl, hok, hempty⟩)
  · exact .goTo _ ⟨⟨leases, r, r, "", "", r, r⟩, hip, hok, hempty, rfl, rfl⟩
  · exact .fail (.untouched rfl)

theorem after_readBootId {staged : String} {r : Shot} (h : Upto t l (.readBootId staged)) :
    After s t (l ++ [⟨.bootId t.ip, r⟩])
      (applyNode cfg s t (.readBootId staged) (.bootId t.ip) r) := by
  obtain ⟨o, hip, hok, hne, rfl, rfl⟩ := h
  unfold applyNode
  dsimp only
  by_cases hr : r.ok = true
  · rw [if_pos hr]
    have hprobed : Sights.Probed { o with boot := r } t := ⟨hip, hok, hne, hr⟩
    cases hcp : t.isCp with
    | true =>
      refine .goTo (.reboot o.staged.text r.text) ⟨{ o with boot := r }, hprobed, rfl, rfl, ?_⟩
      rw [Target.empties, if_pos hcp]
      exact ⟨List.Sublist.refl _, rfl⟩
    | false =>
      exact .goTo (.cordon o.staged.text r.text)
        ⟨hcp, { o with boot := r }, hprobed, rfl, rfl, List.Sublist.refl _, rfl⟩
  · rw [if_neg hr]
    exact .fail (.untouched rfl)

theorem empties_of_worker (hworker : t.isCp = false) :
    t.empties = [⟨.cordon t.node, true⟩, ⟨.drain t.node, true⟩] := by
  rw [Target.empties, hworker]
  rfl

theorem after_cordon {staged bootId : String} {ok : Bool} (h : Upto t l (.cordon staged bootId)) :
    After s t (l ++ [⟨.cordon t.node, ok⟩])
      (applyNode cfg s t (.cordon staged bootId) (.cordon t.node) ok) := by
  obtain ⟨hworker, o, ho, hs, hb, hl⟩ := h
  cases ok with
  | true => exact .goTo (.drain staged bootId) ⟨hworker, o, ho, hs, hb, hl.add _⟩
  | false => exact .fail (.refused o ho hworker (hl.add _))

theorem after_drain {staged bootId : String} {ok : Bool} (h : Upto t l (.drain staged bootId)) :
    After s t (l ++ [⟨.drain t.node, ok⟩])
      (applyNode cfg s t (.drain staged bootId) (.drain t.node) ok) := by
  obtain ⟨hworker, o, ho, hs, hb, hl⟩ := h
  have hl' := hl.add ⟨.drain t.node, ok⟩
  rw [List.append_assoc, List.singleton_append] at hl'
  cases ok with
  | true =>
    refine .goTo (.reboot staged bootId) ⟨o, ho, hs, hb, ?_⟩
    rwa [empties_of_worker hworker]
  | false => exact .goTo .giveBack ⟨hworker, o, ho, hl'⟩

theorem after_giveBack {ok : Bool} (h : Upto t l .giveBack) :
    After s t (l ++ [⟨.uncordon t.node, ok⟩]) (applyNode cfg s t .giveBack (.uncordon t.node) ok) := by
  obtain ⟨hworker, o, ho, hl⟩ := h
  exact .fail (.undrained o [⟨.uncordon t.node, ok⟩] ho hworker (.inr ⟨ok, rfl⟩) (hl.add _))

section Waits

variable {staged bootId newId : String} {deadline : Nat}

theorem after_reboot (h : Upto t l (.reboot staged bootId)) :
    After s t (l ++ [⟨.reboot t.ip, ()⟩])
      (applyNode cfg s t (.reboot staged bootId) (.reboot t.ip) ()) := by
  obtain ⟨o, ho, hs, hb, hl⟩ := h
  exact .goTo (.bootDeadline staged bootId) ⟨o, ho, hs, hb, hl.add _⟩

theorem after_bootClock {now : Nat} (h : Upto t l (.bootClock staged bootId deadline)) :
    After s t (l ++ [⟨.seconds, now⟩])
      (applyNode cfg s t (.bootClock staged bootId deadline) .seconds now) := by
  obtain ⟨o, ho, hs, hb, hl⟩ := h
  have hl' := hl.wait (x := ⟨.seconds, now⟩) rfl
  unfold applyNode
  dsimp only
  split_ifs
  · exact .goTo (.bootSleep staged bootId deadline) ⟨o, ho, hs, hb, hl'⟩
  · exact .fail (.rebooted o ho hl')

theorem after_bootPoll {out : String} (h : Upto t l (.bootPoll staged bootId deadline)) :
    After s t (l ++ [⟨.pollBootId t.ip, out⟩])
      (applyNode cfg s t (.bootPoll staged bootId deadline) (.pollBootId t.ip) out) := by
  obtain ⟨o, ho, hs, hb, hl⟩ := h
  unfold applyNode
  dsimp only
  split_ifs with hnew
  · have hreturned : Sights.Returned { o with poll := out } t :=
      ⟨⟨ho.1, ho.2, ho.3, ho.4⟩, hnew.1, hb ▸ hnew.2⟩
    exact .goTo (.readyDeadline staged (substituted out))
      ⟨{ o with poll := out }, hreturned, hs, rfl, hl.add _⟩
  · exact .goTo (.bootClock staged bootId deadline) ⟨o, ho, hs, hb, hl.wait rfl⟩

theorem after_askKubelet {out : String} (h : Upto t l (.askKubelet staged newId deadline)) :
    After s t (l ++ [⟨.kubeletBootId t.node, out⟩])
      (applyNode cfg s t (.askKubelet staged newId deadline) (.kubeletBootId t.node) out) := by
  obtain ⟨o, ho, hs, hn, hl⟩ := h
  unfold applyNode
  dsimp only
  split_ifs with hnew
  · have hreturned : Sights.Returned { o with kubelet := out } t :=
      ⟨⟨ho.1.1, ho.1.2, ho.1.3, ho.1.4⟩, ho.2, ho.3⟩
    exact .goTo (.askReady staged newId deadline)
      ⟨{ o with kubelet := out }, hreturned, hs, hn, hnew, hl.add _⟩
  · exact .goTo (.readyClock staged newId deadline) ⟨o, ho, hs, hn, hl.wait rfl⟩

theorem after_askReady {r : Shot} (h : Upto t l (.askReady staged newId deadline)) :
    After s t (l ++ [⟨.getNode t.node, r⟩])
      (applyNode cfg s t (.askReady staged newId deadline) (.getNode t.node) r) := by
  obtain ⟨o, ho, hs, hn, hk, hl⟩ := h
  unfold applyNode
  dsimp only
  split_ifs with hready
  · have hreturned : Sights.Returned { o with ready := r } t :=
      ⟨⟨ho.1.1, ho.1.2, ho.1.3, ho.1.4⟩, ho.2, ho.3⟩
    exact .goTo (.readBooted staged)
      ⟨{ o with ready := r }, hreturned, hs, hk.trans hn.symm, hready, hl.add _⟩
  · exact .goTo (.readyClock staged newId deadline) ⟨o, ho, hs, hn, (hl.drop rfl).wait rfl⟩

theorem after_readyClock {now : Nat} (h : Upto t l (.readyClock staged newId deadline)) :
    After s t (l ++ [⟨.seconds, now⟩])
      (applyNode cfg s t (.readyClock staged newId deadline) .seconds now) := by
  obtain ⟨o, ho, hs, hn, hl⟩ := h
  have hl' := hl.wait (x := ⟨.seconds, now⟩) rfl
  unfold applyNode
  dsimp only
  split_ifs
  · exact .fail (.rebooted o ho.toProbed (hl'.drop rfl))
  · exact .goTo (.readySleep staged newId deadline) ⟨o, ho, hs, hn, hl'⟩

theorem after_readBooted {r : Shot} (h : Upto t l (.readBooted staged)) :
    After s t (l ++ [⟨.bootedImage t.ip, r⟩])
      (applyNode cfg s t (.readBooted staged) (.bootedImage t.ip) r) := by
  obtain ⟨o, ho, hs, hk, hready, hl⟩ := h
  unfold applyNode
  dsimp only
  by_cases hr : r.ok = true ∧ r.text = staged
  · rw [if_pos hr]
    have hverified : Sights.Verified { o with booted := r } t :=
      ⟨⟨⟨ho.1.1, ho.1.2, ho.1.3, ho.1.4⟩, ho.2, ho.3⟩, hk, hready, hr.1, hr.2.trans hs.symm⟩
    cases hcp : t.isCp with
    | true =>
      refine .next (.inr ⟨{ o with booted := r }, hverified, ?_⟩)
      rw [Target.readmits, if_pos hcp, List.append_nil]
      exact hl.add _
    | false => exact .goTo .uncordon ⟨hcp, { o with booted := r }, hverified, hl.add _⟩
  · rw [if_neg hr]
    exact .fail (.rebooted o ho.toProbed ((((hl.wait rfl).drop rfl).drop rfl).drop rfl))

end Waits

theorem after_uncordon {ok : Bool} (h : Upto t l .uncordon) :
    After s t (l ++ [⟨.uncordon t.node, ok⟩])
      (applyNode cfg s t .uncordon (.uncordon t.node) ok) := by
  obtain ⟨hworker, o, ho, hl⟩ := h
  cases ok with
  | true =>
    refine .next (.inr ⟨o, ho, ?_⟩)
    rw [Target.readmits, hworker]
    exact hl.add _
  | false => exact .fail (.kept o ho hworker (hl.add _))

theorem applyNode_after (h : Upto t l p) (r : Reply (p.query t)) :
    After s t (l ++ [⟨p.query t, r⟩]) (applyNode cfg s t p (p.query t) r) := by
  cases p with
  | probe => exact after_probe h
  | readBootId staged => exact after_readBootId h
  | cordon staged bootId => exact after_cordon h
  | drain staged bootId => exact after_drain h
  | giveBack => exact after_giveBack h
  | reboot staged bootId => exact after_reboot h
  | bootDeadline staged bootId =>
    obtain ⟨o, ho, hs, hb, hl⟩ := h
    exact .goTo _ ⟨o, ho, hs, hb, hl.wait rfl⟩
  | bootClock staged bootId deadline => exact after_bootClock h
  | bootSleep staged bootId deadline =>
    obtain ⟨o, ho, hs, hb, hl⟩ := h
    exact .goTo _ ⟨o, ho, hs, hb, hl.wait rfl⟩
  | bootPoll staged bootId deadline => exact after_bootPoll h
  | readyDeadline staged newId =>
    obtain ⟨o, ho, hs, hn, hl⟩ := h
    exact .goTo _ ⟨o, ho, hs, hn, hl.wait rfl⟩
  | askKubelet staged newId deadline => exact after_askKubelet h
  | askReady staged newId deadline => exact after_askReady h
  | readyClock staged newId deadline => exact after_readyClock h
  | readySleep staged newId deadline =>
    obtain ⟨o, ho, hs, hn, hl⟩ := h
    exact .goTo _ ⟨o, ho, hs, hn, hl.wait rfl⟩
  | readBooted staged => exact after_readBooted h
  | uncordon => exact after_uncordon h

theorem cautious_of_upto (h : Upto t l p) : Visit.Cautious ⟨t, l⟩ := by
  cases p with
  | probe =>
    obtain ⟨leases, -, rfl⟩ := h
    exact .untouched rfl
  | readBootId staged =>
    obtain ⟨o, -, -, -, -, rfl⟩ := h
    exact .untouched rfl
  | cordon staged bootId =>
    obtain ⟨-, o, -, -, -, hl⟩ := h
    exact .untouched hl.2
  | drain staged bootId =>
    obtain ⟨hworker, o, ho, -, -, hl⟩ := h
    exact .cordoned o ho hworker hl
  | giveBack =>
    obtain ⟨hworker, o, ho, hl⟩ := h
    exact .undrained o [] ho hworker (.inl rfl) hl
  | reboot staged bootId =>
    obtain ⟨o, ho, -, -, hl⟩ := h
    exact .emptied o ho hl
  | bootDeadline staged bootId | bootClock staged bootId deadline | bootSleep staged bootId deadline
  | bootPoll staged bootId deadline =>
    obtain ⟨o, ho, -, -, hl⟩ := h
    exact .rebooted o ho hl
  | readyDeadline staged newId | askKubelet staged newId deadline | readyClock staged newId deadline
  | readySleep staged newId deadline =>
    obtain ⟨o, ho, -, -, hl⟩ := h
    exact .rebooted o ho.toProbed (hl.drop rfl)
  | askReady staged newId deadline =>
    obtain ⟨o, ho, -, -, -, hl⟩ := h
    exact .rebooted o ho.toProbed ((hl.drop rfl).drop rfl)
  | readBooted staged =>
    obtain ⟨o, ho, -, -, -, hl⟩ := h
    exact .rebooted o ho.toProbed (((hl.drop rfl).drop rfl).drop rfl)
  | uncordon =>
    obtain ⟨-, o, ho, hl⟩ := h
    exact .rebooted o ho.toProbed ((((hl.drop rfl).drop rfl).drop rfl).drop rfl)

section Shows

/-- What is open behind a command of `apply_node`. -/
structure Shows (t : Target) (l : Trace Reply) (s' : State) : Prop where
  fail : s'.phase = .ended false → Visit.Unfinished ⟨t, l⟩
  goTo : ∀ p, s'.phase = .within t p → Looked t l p

theorem shows_next : Shows t l s.next := by
  obtain ⟨todo, phase⟩ := s
  cases todo with
  | nil => exact ⟨fun h => (nomatch h), fun _ h => (nomatch h)⟩
  | cons name todo => exact ⟨fun h => (nomatch h), fun _ h => (nomatch h)⟩

theorem shows_fail (h : Visit.Unfinished ⟨t, l⟩) : Shows t l s.fail := ⟨fun _ => h, fun _ h => (nomatch h)⟩

theorem shows_goTo (h : Looked t l p) : Shows t l (s.goTo t p) := by
  refine ⟨fun h => (nomatch h), fun p' hp => ?_⟩
  cases hp
  exact h

theorem Shows.ite {c : Prop} [Decidable c] {s₁ s₂ : State} (h₁ : Shows t l s₁) (h₂ : Shows t l s₂) :
    Shows t l (if c then s₁ else s₂) := by
  split_ifs
  · exact h₁
  · exact h₂

theorem Looked.ite {c : Prop} [Decidable c] {p₁ p₂ : Point} (h₁ : Looked t l p₁) (h₂ : Looked t l p₂) :
    Looked t l (if c then p₁ else p₂) := by
  split_ifs
  · exact h₁
  · exact h₂

theorem shows_probe {r : Shot} (hl : Looked t l .probe) :
    Shows t (l ++ [⟨.stagedImage t.ip, r⟩]) (applyNode cfg s t .probe (.stagedImage t.ip) r) := by
  have hlooks : looks (l ++ [⟨.stagedImage t.ip, r⟩]) = [⟨.stagedImage t.ip, r⟩] := by
    rw [looks_append, hl]
    rfl
  unfold applyNode
  dsimp only
  split_ifs with hok hempty
  · exact shows_next
  · exact shows_goTo ⟨r, fun h => hempty h.2, hlooks⟩
  · exact shows_fail (.unproven r (fun h => hok h.1) hlooks)

theorem shows_readBooted {staged : String} {r : Shot} (h : Upto t l (.readBooted staged))
    (hl : Looked t l (.readBooted staged)) :
    Shows t (l ++ [⟨.bootedImage t.ip, r⟩])
      (applyNode cfg s t (.readBooted staged) (.bootedImage t.ip) r) := by
  obtain ⟨o, -, hs, -, -, hsub, -⟩ := h
  obtain ⟨r', -, hlooks⟩ := hl
  have hseen : [(⟨.stagedImage t.ip, o.staged⟩ : Exchange Reply)].Sublist (looks l) := by
    have hfirst : looks (t.isReady o) = [⟨.stagedImage t.ip, o.staged⟩] := by
      unfold Target.isReady Target.registers Target.returns Target.leaves Target.empties
      cases t.isCp <;> rfl
    exact hfirst ▸ hsub.filter _
  rw [hlooks] at hseen
  cases hseen.eq_of_length rfl
  have hboth : looks (l ++ [⟨.bootedImage t.ip, r⟩]) =
      [⟨.stagedImage t.ip, o.staged⟩, ⟨.bootedImage t.ip, r⟩] := by
    rw [looks_append, hlooks]
    rfl
  unfold applyNode
  dsimp only
  by_cases hr : r.ok = true ∧ r.text = staged
  · rw [if_pos hr]
    cases t.isCp with
    | true => exact shows_next
    | false => exact shows_goTo ⟨o.staged, r, hboth⟩
  · rw [if_neg hr]
    exact shows_fail (.wrong o.staged r (hs ▸ hr) hboth)

theorem not_readmitted (h : Upto t l .uncordon) :
    (⟨.uncordon t.node, true⟩ : Exchange Reply) ∉ l := by
  obtain ⟨hworker, o, -, -, hchanges⟩ := h
  intro hmem
  have hchange : (⟨.uncordon t.node, true⟩ : Exchange Reply) ∈ changes l :=
    List.mem_filter.mpr ⟨hmem, rfl⟩
  have hthree : changes (t.runsStaged o) =
      [⟨.cordon t.node, true⟩, ⟨.drain t.node, true⟩, ⟨.reboot t.ip, ()⟩] := by
    unfold Target.runsStaged Target.isReady Target.registers Target.returns Target.leaves
    rw [empties_of_worker hworker]
    rfl
  rw [hchanges, hthree] at hchange
  simp at hchange

theorem shows_uncordon {ok : Bool} (h : Upto t l .uncordon) (hl : Looked t l .uncordon) :
    Shows t (l ++ [⟨.uncordon t.node, ok⟩])
      (applyNode cfg s t .uncordon (.uncordon t.node) ok) := by
  obtain ⟨r, b, hlooks⟩ := hl
  cases ok with
  | true => exact shows_next
  | false =>
    have hheld : (⟨.uncordon t.node, true⟩ : Exchange Reply) ∉
        l ++ [⟨.uncordon t.node, false⟩] := by simp [not_readmitted h]
    exact shows_fail (.held r b h.1 hheld ((looks_concat rfl).trans hlooks))

theorem unfinished_of_looked (h : Upto t l p) (hl : Looked t l p) : Visit.Unfinished ⟨t, l⟩ := by
  cases p with
  | probe => exact .unprobed hl
  | uncordon =>
    obtain ⟨r, b, hlooks⟩ := hl
    exact .held r b h.1 (not_readmitted h) hlooks
  | _ => exact Staged.unfinished hl

theorem shows_readBootId {staged : String} {r : Shot} (hl : Staged t l) :
    Shows t (l ++ [⟨.bootId t.ip, r⟩])
      (applyNode cfg s t (.readBootId staged) (.bootId t.ip) r) := by
  have hs := hl.wait (x := ⟨.bootId t.ip, r⟩) rfl
  unfold applyNode
  exact .ite (shows_goTo (.ite hs hs)) (shows_fail hs.unfinished)

theorem shows_cordon {staged bootId : String} {ok : Bool} (hl : Staged t l) :
    Shows t (l ++ [⟨.cordon t.node, ok⟩])
      (applyNode cfg s t (.cordon staged bootId) (.cordon t.node) ok) := by
  have hs := hl.wait (x := ⟨.cordon t.node, ok⟩) rfl
  cases ok with
  | true => exact shows_goTo hs
  | false => exact shows_fail hs.unfinished

theorem shows_drain {staged bootId : String} {ok : Bool} (hl : Staged t l) :
    Shows t (l ++ [⟨.drain t.node, ok⟩])
      (applyNode cfg s t (.drain staged bootId) (.drain t.node) ok) := by
  have hs := hl.wait (x := ⟨.drain t.node, ok⟩) rfl
  unfold applyNode
  exact shows_goTo (.ite hs hs)

section Waits

variable {staged bootId newId : String} {deadline : Nat}

theorem shows_bootClock {now : Nat} (hl : Staged t l) :
    Shows t (l ++ [⟨.seconds, now⟩])
      (applyNode cfg s t (.bootClock staged bootId deadline) .seconds now) := by
  have hs := hl.wait (x := ⟨.seconds, now⟩) rfl
  unfold applyNode
  exact .ite (shows_goTo hs) (shows_fail hs.unfinished)

theorem shows_bootPoll {out : String} (hl : Staged t l) :
    Shows t (l ++ [⟨.pollBootId t.ip, out⟩])
      (applyNode cfg s t (.bootPoll staged bootId deadline) (.pollBootId t.ip) out) := by
  have hs := hl.wait (x := ⟨.pollBootId t.ip, out⟩) rfl
  unfold applyNode
  dsimp only
  split_ifs
  · exact shows_goTo hs
  · exact shows_goTo hs

theorem shows_askKubelet {out : String} (hl : Staged t l) :
    Shows t (l ++ [⟨.kubeletBootId t.node, out⟩])
      (applyNode cfg s t (.askKubelet staged newId deadline) (.kubeletBootId t.node) out) := by
  have hs := hl.wait (x := ⟨.kubeletBootId t.node, out⟩) rfl
  unfold applyNode
  dsimp only
  split_ifs
  · exact shows_goTo hs
  · exact shows_goTo hs

theorem shows_askReady {r : Shot} (hl : Staged t l) :
    Shows t (l ++ [⟨.getNode t.node, r⟩])
      (applyNode cfg s t (.askReady staged newId deadline) (.getNode t.node) r) := by
  have hs := hl.wait (x := ⟨.getNode t.node, r⟩) rfl
  unfold applyNode
  dsimp only
  split_ifs
  · exact shows_goTo hs
  · exact shows_goTo hs

theorem shows_readyClock {now : Nat} (hl : Staged t l) :
    Shows t (l ++ [⟨.seconds, now⟩])
      (applyNode cfg s t (.readyClock staged newId deadline) .seconds now) := by
  have hs := hl.wait (x := ⟨.seconds, now⟩) rfl
  unfold applyNode
  exact .ite (shows_fail hs.unfinished) (shows_goTo hs)

end Waits

theorem applyNode_shows (h : Upto t l p) (hl : Looked t l p) (r : Reply (p.query t)) :
    Shows t (l ++ [⟨p.query t, r⟩]) (applyNode cfg s t p (p.query t) r) := by
  cases p with
  | probe => exact shows_probe hl
  | readBootId staged => exact shows_readBootId hl
  | cordon staged bootId => exact shows_cordon hl
  | drain staged bootId => exact shows_drain hl
  | giveBack => exact shows_fail (Staged.wait hl rfl).unfinished
  | bootClock staged bootId deadline => exact shows_bootClock hl
  | bootPoll staged bootId deadline => exact shows_bootPoll hl
  | askKubelet staged newId deadline => exact shows_askKubelet hl
  | askReady staged newId deadline => exact shows_askReady hl
  | readyClock staged newId deadline => exact shows_readyClock hl
  | readBooted staged => exact shows_readBooted h hl
  | uncordon => exact shows_uncordon h hl
  | reboot staged bootId => exact shows_goTo (Staged.wait hl rfl)
  | bootDeadline staged bootId => exact shows_goTo (Staged.wait hl rfl)
  | bootSleep staged bootId deadline => exact shows_goTo (Staged.wait hl rfl)
  | readyDeadline staged newId => exact shows_goTo (Staged.wait hl rfl)
  | readySleep staged newId deadline => exact shows_goTo (Staged.wait hl rfl)

end Shows

section Runs

variable {visits : List Visit} {tr : Trace Reply}

theorem joined_append (v : Visit) : joined (visits ++ [v]) = joined visits ++ v.log := by
  simp [joined]

theorem keeps_after (hdone : ∀ v ∈ visits, v.Done)
    (hkeys : visits.map Visit.key ++ (t.node, t.isCp) :: s.todo.map (·, false) = cfg.nodes)
    (h : After s t l s') (hshows : Shows t l s') : Keeps cfg (joined visits ++ l) s' := by
  cases h with
  | next hnext =>
    refine ⟨visits ++ [⟨t, l⟩], [], by rw [joined_append, List.append_nil], ?_, ?_⟩
    · exact List.forall_mem_append.mpr ⟨hdone, List.forall_mem_singleton.mpr hnext⟩
    · have hkeys' : (visits ++ [(⟨t, l⟩ : Visit)]).map Visit.key ++ s.todo.map (·, false) =
          cfg.nodes := by
        rw [List.map_append, List.append_assoc]
        exact hkeys
      obtain ⟨todo, phase⟩ := s
      cases todo with
      | nil => exact ⟨rfl, by rwa [List.map_nil, List.append_nil] at hkeys'⟩
      | cons name todo => exact ⟨rfl, List.cons_ne_nil name todo, hkeys'⟩
  | fail hfail => exact ⟨visits, l, rfl, hdone, t, _, hkeys, hfail, hshows.fail rfl⟩
  | goTo p hp => exact ⟨visits, l, rfl, hdone, hkeys, hp, hshows.goTo p rfl⟩

theorem keeps_step (x : Exchange Reply) (h : Keeps cfg tr s) (hask : ask cfg s = some x.1) :
    Keeps cfg (tr ++ [x]) (resume cfg s x.1 x.2) := by
  obtain ⟨visits, l, rfl, hdone, hacc⟩ := h
  obtain ⟨todo, phase⟩ := s
  obtain ⟨q, r⟩ := x
  cases phase with
  | resolveCp =>
    obtain ⟨rfl, rfl, rfl⟩ := hacc
    cases hask
    unfold resume
    dsimp only
    split_ifs with hip
    · exact ⟨[], [⟨.resolveIp cfg.cpName, r⟩], rfl, hdone, ⟨cfg.cpName, "", true⟩, _, rfl,
        .untouched rfl, .unprobed rfl⟩
    · exact ⟨[], [⟨.resolveIp cfg.cpName, r⟩], rfl, hdone, rfl, ⟨r, rfl, rfl⟩, rfl⟩
  | pick =>
    obtain ⟨rfl, -, hkeys⟩ := hacc
    cases todo with
    | nil => cases hask
    | cons name todo =>
      cases hask
      unfold resume
      dsimp only
      split_ifs with hip
      · exact ⟨visits, [⟨.resolveIp name, r⟩], by rw [List.append_nil], hdone, ⟨name, "", false⟩, _,
          hkeys, .untouched rfl, .unprobed rfl⟩
      · exact ⟨visits, [⟨.resolveIp name, r⟩], by rw [List.append_nil], hdone, hkeys, ⟨r, rfl, rfl⟩, rfl⟩
  | within t p =>
    obtain ⟨hkeys, hp, hlooked⟩ := hacc
    cases hask
    rw [List.append_assoc]
    exact keeps_after hdone hkeys (applyNode_after hp r) (applyNode_shows hp hlooked r)
  | ended success => cases hask

theorem keeps_run (h : exec (script cfg).step (start cfg) tr = some s) : Keeps cfg tr s := by
  have hstart : Keeps cfg [] (start cfg) := ⟨[], [], rfl, by simp, rfl, rfl, rfl⟩
  exact Machine.records (I := Keeps cfg) (fun _ _ x hI hask => keeps_step x hI hask) hstart h

/-- Wherever the script is, every node behind it was left alone or seen to run its staged image, in
the order of the configuration, and the node in hand has been changed with the same care, but is not
done. It ends well exactly when no node is left. -/
theorem rolls_in_order (h : exec (script cfg).step (start cfg) tr = some s) :
    s.phase = .ended true ∧ (∃ visits : List Visit, tr = joined visits ∧ visits.map Visit.key = cfg.nodes ∧
        ∀ v ∈ visits, v.Done) ∨
      s.phase ≠ .ended true ∧ ∃ (visits : List Visit) (v : Visit) (rest : List (String × Bool)),
        tr = joined visits ++ v.log ∧
        visits.map Visit.key ++ v.key :: rest = cfg.nodes ∧ (∀ v ∈ visits, v.Done) ∧ v.Cautious ∧
        ¬ v.Done := by
  obtain ⟨visits, l, rfl, hdone, hacc⟩ := keeps_run h
  obtain ⟨todo, phase⟩ := s
  have hfresh : ∀ t : Target, ¬ Visit.Done ⟨t, []⟩ := fun t =>
    Visit.Unfinished.not_done (v := ⟨t, []⟩) (.unprobed rfl)
  cases phase with
  | resolveCp =>
    obtain ⟨rfl, rfl, rfl⟩ := hacc
    exact .inr ⟨nofun, [], ⟨⟨cfg.cpName, "", true⟩, []⟩, _, rfl, rfl, hdone, .untouched rfl, hfresh _⟩
  | pick =>
    obtain ⟨rfl, hne, hkeys⟩ := hacc
    cases todo with
    | nil => exact absurd rfl hne
    | cons name todo =>
      exact .inr ⟨nofun, visits, ⟨⟨name, "", false⟩, []⟩, _, rfl, hkeys, hdone, .untouched rfl, hfresh _⟩
  | within t p =>
    obtain ⟨hkeys, hp, hlooked⟩ := hacc
    exact .inr ⟨nofun, visits, ⟨t, l⟩, _, rfl, hkeys, hdone, cautious_of_upto hp,
      (unfinished_of_looked hp hlooked).not_done⟩
  | ended success =>
    cases success with
    | true =>
      obtain ⟨rfl, hkeys⟩ := hacc
      exact .inl ⟨rfl, visits, List.append_nil _, hkeys, hdone⟩
    | false =>
      obtain ⟨t, rest, hkeys, hl, hunfinished⟩ := hacc
      exact .inr ⟨nofun, visits, ⟨t, l⟩, rest, rfl, hkeys, hdone, hl, hunfinished.not_done⟩

/-- One worker has an image staged, and the control plane has none. -/
def smallConfig : Config := ⟨"cp", ["w"], 600, 600⟩

def smallTrace : Trace Reply :=
  [⟨.resolveIp "cp", " vnet0 52:54:00:00:00:01 ipv4 192.0.2.1/24\n"⟩,
    ⟨.stagedImage "192.0.2.1", ⟨true, ""⟩⟩,
    ⟨.resolveIp "w", " vnet1 52:54:00:00:00:02 ipv4 192.0.2.2/24\n"⟩,
    ⟨.stagedImage "192.0.2.2", ⟨true, "new\n"⟩⟩, ⟨.bootId "192.0.2.2", ⟨true, "a\n"⟩⟩,
    ⟨.cordon "w", true⟩, ⟨.drain "w", true⟩, ⟨.reboot "192.0.2.2", ()⟩, ⟨.seconds, (0 : Nat)⟩,
    ⟨.seconds, (0 : Nat)⟩, ⟨.sleep, ()⟩, ⟨.pollBootId "192.0.2.2", "b\n"⟩, ⟨.seconds, (10 : Nat)⟩,
    ⟨.kubeletBootId "w", "b"⟩, ⟨.getNode "w", ⟨true, "w Ready,SchedulingDisabled worker\n"⟩⟩,
    ⟨.bootedImage "192.0.2.2", ⟨true, "new\n"⟩⟩, ⟨.uncordon "w", true⟩]

theorem smallTrace_run : exec (script smallConfig).step (start smallConfig) smallTrace =
    some ⟨[], .ended true⟩ := by decide +kernel

theorem rolls_in_order_sample : ∃ visits : List Visit, smallTrace = joined visits ∧
    visits.map Visit.key = [("cp", true), ("w", false)] ∧ ∀ v ∈ visits, v.Done := by
  obtain ⟨-, h⟩ | ⟨hne, -⟩ := rolls_in_order smallTrace_run
  · exact h
  · exact absurd rfl hne

end Runs

end Hbird.RollingApply
