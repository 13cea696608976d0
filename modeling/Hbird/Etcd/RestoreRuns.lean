import Hbird.Etcd.Restore

namespace Hbird.Etcd.Restore

open Hbird.Interaction Hbird.Text

section Rules

variable {ε : Type} {s s' : Host} {c : Command}

theorem wpe_run {O : Except ε Output → Host → Prop}
    (h : ∀ out s', Host.world s c out s' → O (.ok out) s') : wpe Host.world (run c) O s :=
  wpe_perform.mpr h

theorem wpe_checked {O : Except Stop Unit → Host → Prop}
    (hok : ∀ out s', Host.world s c out s' → out.code = 0 → O (.ok ()) s')
    (hstop : ∀ out s', Host.world s c out s' → out.code ≠ 0 → O (.error ⟨c, out.code⟩) s') :
    wpe Host.world (checked c) O s := by
  refine wpe_bind.mpr (wpe_run fun out s' hw => ?_)
  show wpe Host.world (if out.code = 0 then pure () else throw ⟨c, out.code⟩) O s'
  split
  · next hc => exact hok out s' hw hc
  · next hc => exact hstop out s' hw hc

end Rules

namespace Host

variable {s s' : Host} {path path' : String} {content : Option Content}

@[simp] theorem set_tree_self : (s.set path content).tree path = content := Function.update_self ..

theorem set_tree_ne (h : path' ≠ path) : (s.set path content).tree path' = s.tree path' :=
  Function.update_of_ne h ..

theorem move_tree_ne {src dst : String} {content : Content} (hs : path ≠ src) (hd : path ≠ dst) :
    (s.move src dst content).tree path = s.tree path := by
  rw [move, set_tree_ne hd, set_tree_ne hs]

theorem move_tree_src {src dst : String} {content : Content} (h : src ≠ dst) :
    (s.move src dst content).tree src = none := by
  rw [move, set_tree_ne h, set_tree_self]

theorem move_tree_dst {src dst : String} {content : Content} (h : s.tree dst = none) :
    (s.move src dst content).tree dst = some content := by
  rw [move, set_tree_self, h]

end Host

theorem manifestsDisabled_ne : manifestsDisabled ≠ manifests := by decide

theorem dataDir_ne : dataDir ≠ manifests ∧ dataDir ≠ manifestsDisabled := by decide

theorem remoteRestoreSnapshot_ne : manifests ≠ remoteRestoreSnapshot ∧
    manifestsDisabled ≠ remoteRestoreSnapshot ∧ dataDir ≠ remoteRestoreSnapshot := by decide

theorem beforeRestore_ne (ts : String) : beforeRestore ts ≠ manifests ∧
    beforeRestore ts ≠ manifestsDisabled ∧ beforeRestore ts ≠ dataDir ∧
    beforeRestore ts ≠ remoteRestoreSnapshot := by
  have hlist : (beforeRestore ts).toList = "/var/lib/etcd.before-restore.".toList ++ ts.toList :=
    String.toList_append
  have hne : ∀ path : String, ¬ "/var/lib/etcd.".toList <+: path.toList → beforeRestore ts ≠ path := by
    rintro path hp rfl
    refine hp ?_
    rw [hlist]
    exact List.IsPrefix.trans (by decide) (List.prefix_append _ _)
  exact ⟨hne _ (by decide), hne _ (by decide), hne _ (by decide), hne _ (by decide)⟩

/-- The manifests are where they belong or where the script puts them. -/
def Host.HasManifests (s : Host) : Prop :=
  s.tree manifests = some .manifests ∨
    s.tree manifests = none ∧ s.tree manifestsDisabled = some .manifests

/-- A rollback whose commands succeed puts the manifests back, starts kubelet, and touches nothing
else. -/
theorem wp_rollback {s : Host} (hs : s.HasManifests) :
    wp Host.world restoreRollbackScript (fun undone s' => undone = true →
      s'.tree manifests = some .manifests ∧ s'.kubelet = true ∧
      ∀ path, path ≠ manifests → path ≠ manifestsDisabled → s'.tree path = s.tree path) s := by
  have hstart : ∀ (moved : Bool) (s₁ : Host),
      (moved = true → s₁.tree manifests = some .manifests ∧
        ∀ path, path ≠ manifests → path ≠ manifestsDisabled → s₁.tree path = s.tree path) →
      wp Host.world (Program.perform (.systemctl "start" "kubelet") >>= fun out =>
        pure (moved && decide (out.code = 0)) : Program Command Reply Bool)
        (fun undone s' => undone = true → s'.tree manifests = some .manifests ∧ s'.kubelet = true ∧
          ∀ path, path ≠ manifests → path ≠ manifestsDisabled → s'.tree path = s.tree path) s₁ := by
    intro moved s₁ hm out s' hw hundone
    obtain ⟨htree, hkubelet⟩ := hw
    rw [Bool.and_eq_true, decide_eq_true_eq] at hundone
    obtain ⟨h₁, h₂⟩ := hm hundone.1
    rw [htree]
    exact ⟨h₁, hkubelet hundone.2, h₂⟩
  -- The manifests are moved back when the test has found them missing.
  have hback : ∀ missing : Bool, (missing = true ↔ s.tree manifests = none) →
      wp Host.world ((if missing then
          Program.perform (.mv manifestsDisabled manifests) >>= fun out =>
            pure (decide (out.code = 0))
        else pure true : Program Command Reply Bool)) (fun moved s₁ => moved = true →
          s₁.tree manifests = some .manifests ∧
          ∀ path, path ≠ manifests → path ≠ manifestsDisabled → s₁.tree path = s.tree path) s := by
    intro missing hmissing
    cases missing with
    | true =>
      have hnone := hmissing.mp rfl
      obtain hm | ⟨-, hm⟩ := hs
      · rw [hnone] at hm
        cases hm
      · intro out s₁ hw hmoved
        obtain ⟨-, content, hc, rfl⟩ | ⟨hc, -⟩ := hw
        · rw [hm] at hc
          obtain rfl := Option.some.inj hc
          exact ⟨Host.move_tree_dst hnone, fun path h₁ h₂ => Host.move_tree_ne h₂ h₁⟩
        · exact absurd (of_decide_eq_true hmoved) hc
    | false =>
      intro _
      obtain hm | ⟨hnone, -⟩ := hs
      · exact ⟨hm, fun _ _ _ => rfl⟩
      · cases hmissing.mpr hnone
  have hrest : ∀ missing : Bool, (missing = true ↔ s.tree manifests = none) →
      wp Host.world ((if missing then
          Program.perform (.mv manifestsDisabled manifests) >>= fun out =>
            pure (decide (out.code = 0))
        else pure true : Program Command Reply Bool) >>= fun moved =>
        Program.perform (.systemctl "start" "kubelet") >>= fun out =>
          pure (moved && decide (out.code = 0)))
        (fun undone s' => undone = true → s'.tree manifests = some .manifests ∧ s'.kubelet = true ∧
          ∀ path, path ≠ manifests → path ≠ manifestsDisabled → s'.tree path = s.tree path) s :=
    fun missing hmissing => wp_bind.mpr (wp_mono (hback missing hmissing) fun moved s₁ hm =>
      hstart moved s₁ hm)
  refine wp_bind.mpr (wp_mono (P := fun missing s₁ => s₁ = s ∧
    (missing = true ↔ s.tree manifests = none)) ?_ fun missing s₁ h => ?_)
  · refine wp_bind.mpr ?_
    rintro dir s₁ ⟨rfl, hdir⟩
    show wp Host.world (if dir.code = 0 then _ else _) _ s₁
    split
    · rintro out s₂ ⟨rfl, hout⟩
      refine ⟨rfl, ?_⟩
      rw [decide_eq_true_eq, ne_eq, hout]
      simp
    · next hd =>
      refine ⟨rfl, ?_⟩
      rw [hdir] at hd
      obtain hm | ⟨-, hm⟩ := hs
      · simp [hm]
      · simp [hm] at hd
  · obtain ⟨rfl, hmissing⟩ := h
    exact hrest missing hmissing

/-- The commands up to the one that moves the data directory. -/
def UpToMove (timestamp : String) (c : Command) : Prop :=
  c ∈ [.mv manifests manifestsDisabled, .sleep 10, .mv dataDir (beforeRestore timestamp)]

instance (timestamp : String) (c : Command) : Decidable (UpToMove timestamp c) :=
  inferInstanceAs (Decidable (_ ∈ _))

/-- Where the data directory of `s` is when a script that began there has stopped at `c`. -/
structure StoppedAt (s : Host) (timestamp : String) (c : Command) (s' : Host) : Prop where
  original : s'.tree dataDir = some .data ↔ UpToMove timestamp c
  kept : s.tree (beforeRestore timestamp) = none → ¬ UpToMove timestamp c →
    s'.tree (beforeRestore timestamp) = some .data

theorem not_upToMove {ts : String} {c : Command}
    (h : ∀ src dst, c = .mv src dst → src = manifestsDisabled) (hs : ∀ n, c ≠ .sleep n) :
    ¬ UpToMove ts c := by
  intro hc
  simp only [UpToMove, List.mem_cons, List.not_mem_nil, or_false] at hc
  obtain hc | hc | hc := hc
  · exact absurd (h _ _ hc) manifestsDisabled_ne.symm
  · exact hs _ hc
  · exact absurd (h _ _ hc) dataDir_ne.2

/-- Without the data directory the script stops with the manifests somewhere, no original data in
its place, and the kept directory untouched. -/
structure Replaced (before : String) (s s' : Host) : Prop where
  manifests : s'.HasManifests
  data : s'.tree dataDir ≠ some .data
  kept : s'.tree before = s.tree before

theorem wpe_restoreMoved {p : Params} {s : Host} (hm : s.tree manifests = none)
    (hx : s.tree manifestsDisabled = some .manifests) (hd : s.tree dataDir = none) :
    wpe Host.world (restoreMoved p) (fun o s' => ∀ stop, o = .error stop →
      ¬ UpToMove p.timestamp stop.command ∧ Replaced (beforeRestore p.timestamp) s s') s := by
  obtain ⟨hdm, hdx⟩ := dataDir_ne
  obtain ⟨hbm, hbx, hbd, hbs⟩ := beforeRestore_ne p.timestamp
  -- The snapshot is restored, wholly or in part.
  have hset : ∀ content, content ≠ .data →
      (s.set dataDir (some content)).tree manifests = none ∧
      (s.set dataDir (some content)).tree manifestsDisabled = some .manifests ∧
      Replaced (beforeRestore p.timestamp) s (s.set dataDir (some content)) := by
    intro content hc
    have hm' : (s.set dataDir (some content)).tree manifests = none :=
      (Host.set_tree_ne hdm.symm).trans hm
    have hx' : (s.set dataDir (some content)).tree manifestsDisabled = some .manifests :=
      (Host.set_tree_ne hdx.symm).trans hx
    refine ⟨hm', hx', .inr ⟨hm', hx'⟩, ?_, Host.set_tree_ne hbd⟩
    rw [Host.set_tree_self]
    exact fun h => hc (Option.some.inj h)
  refine wpe_bind.mpr (wpe_checked (fun out s₁ hw hc => ?_) fun out s₁ hw hc => ?_)
  rotate_left
  · rintro stop ⟨⟩
    refine ⟨not_upToMove (by simp) (by simp), ?_⟩
    have hsame : Replaced (beforeRestore p.timestamp) s s :=
      ⟨.inr ⟨hm, hx⟩, by rw [hd]; simp, rfl⟩
    obtain ⟨-, ⟨h, -⟩ | ⟨-, rfl | rfl⟩⟩ | ⟨-, rfl⟩ := hw
    · exact absurd h hc
    · exact hsame
    · exact (hset .incomplete (by simp)).2.2
    · exact hsame
  have hs₁ : s₁.tree manifests = none ∧ s₁.tree manifestsDisabled = some .manifests ∧
      Replaced (beforeRestore p.timestamp) s s₁ := by
    obtain ⟨-, ⟨-, rfl⟩ | ⟨h, -⟩⟩ | ⟨h, -⟩ := hw
    · exact hset .restored (by simp)
    · exact absurd hc h
    · exact absurd hc h
  obtain ⟨hm₁, hx₁, hr₁⟩ := hs₁
  -- The manifests go back.
  refine wpe_bind.mpr (wpe_checked (fun out s₂ hw hc => ?_) fun out s₂ hw hc => ?_)
  rotate_left
  · rintro stop ⟨⟩
    refine ⟨not_upToMove (by simp) (by simp), ?_⟩
    obtain ⟨h, -⟩ | ⟨-, rfl⟩ := hw
    · exact absurd h hc
    · exact hr₁
  have hr₂ : s₂.tree manifests = some .manifests ∧ Replaced (beforeRestore p.timestamp) s s₂ := by
    obtain ⟨-, content, hcontent, rfl⟩ | ⟨h, -⟩ := hw
    · obtain rfl := Option.some.inj (hx₁.symm.trans hcontent)
      have hback : (s₁.move manifestsDisabled manifests .manifests).tree manifests = some .manifests :=
        Host.move_tree_dst hm₁
      refine ⟨hback, .inl hback, ?_, ?_⟩
      · rw [Host.move_tree_ne hdx hdm]
        exact hr₁.data
      · rw [Host.move_tree_ne hbx hbm]
        exact hr₁.kept
    · exact absurd hc h
  obtain ⟨hm₂, hr₂⟩ := hr₂
  -- The rest does not touch them.
  have hframe : ∀ {s'' s' : Host}, (∀ path, path ≠ remoteRestoreSnapshot →
      s'.tree path = s''.tree path) → Replaced (beforeRestore p.timestamp) s s'' →
      Replaced (beforeRestore p.timestamp) s s' := by
    intro s'' s' h hr
    obtain ⟨hsm, hsx, hsd⟩ := remoteRestoreSnapshot_ne
    refine ⟨?_, ?_, (h _ hbs).trans hr.kept⟩
    · rw [Host.HasManifests, h _ hsm, h _ hsx]
      exact hr.manifests
    · rw [h _ hsd]
      exact hr.data
  refine wpe_bind.mpr (wpe_checked (fun out s₃ hw _ => ?_) fun out s₃ hw _ => ?_)
  rotate_left
  · rintro stop ⟨⟩
    exact ⟨not_upToMove (by simp) (by simp), hframe (fun path _ => by rw [hw.1]) hr₂⟩
  have hr₃ : Replaced (beforeRestore p.timestamp) s s₃ := hframe (fun path _ => by rw [hw.1]) hr₂
  refine wpe_bind.mpr (wpe_checked (fun out s₄ hw _ => ?_) fun out s₄ hw hc => ?_)
  rotate_left
  · rintro stop ⟨⟩
    obtain ⟨h, -⟩ | ⟨-, rfl⟩ := hw
    · exact absurd h hc
    · exact ⟨not_upToMove (by simp) (by simp), hr₃⟩
  refine wpe_bind.mpr (wpe_checked (fun out s₅ _ _ stop ho => ?_) fun out s₅ hw' _ => ?_)
  · cases ho
  · rintro stop ⟨⟩
    have hr₄ : Replaced (beforeRestore p.timestamp) s s₄ := by
      obtain ⟨-, rfl⟩ | ⟨-, rfl⟩ := hw
      · exact hframe (fun path hp => Host.set_tree_ne hp) hr₃
      · exact hr₃
    obtain rfl : s₅ = s₄ := hw'
    exact ⟨not_upToMove (by simp) (by simp), hr₄⟩

theorem wpe_restoreScript {p : Params} {s : Host} (hm : s.tree manifests = some .manifests)
    (hx : s.tree manifestsDisabled = none) (hd : s.tree dataDir = some .data) :
    wpe Host.world (restoreScript p) (fun o s' => ∀ stop, o = .error stop →
      s'.HasManifests ∧ StoppedAt s p.timestamp stop.command s') s := by
  obtain ⟨hdm, hdx⟩ := dataDir_ne
  obtain ⟨hbm, hbx, hbd, -⟩ := beforeRestore_ne p.timestamp
  have hearly : ∀ {c : Command} {s' : Host}, UpToMove p.timestamp c →
      s'.tree dataDir = some .data → StoppedAt s p.timestamp c s' :=
    fun hc hs' => ⟨iff_of_true hs' hc, fun _ hn => absurd hc hn⟩
  -- The manifests go aside.
  refine wpe_bind.mpr (wpe_checked (fun out s₁ hw hc => ?_) fun out s₁ hw hc => ?_)
  rotate_left
  · rintro stop ⟨⟩
    obtain ⟨h, -⟩ | ⟨-, rfl⟩ := hw
    · exact absurd h hc
    · exact ⟨.inl hm, hearly (by simp [UpToMove]) hd⟩
  have hs₁ : s₁.tree manifests = none ∧ s₁.tree manifestsDisabled = some .manifests ∧
      s₁.tree dataDir = some .data ∧
      s₁.tree (beforeRestore p.timestamp) = s.tree (beforeRestore p.timestamp) := by
    obtain ⟨-, content, hcontent, rfl⟩ | ⟨h, -⟩ := hw
    · obtain rfl := Option.some.inj (hm.symm.trans hcontent)
      exact ⟨Host.move_tree_src manifestsDisabled_ne.symm, Host.move_tree_dst hx,
        (Host.move_tree_ne hdm hdx).trans hd, Host.move_tree_ne hbm hbx⟩
    · exact absurd hc h
  obtain ⟨hm₁, hx₁, hd₁, hb₁⟩ := hs₁
  have hhas₁ : s₁.HasManifests := .inr ⟨hm₁, hx₁⟩
  refine wpe_bind.mpr (wpe_checked (fun out s₂ hw _ => ?_) fun out s₂ hw _ => ?_)
  rotate_left
  · obtain rfl : s₂ = s₁ := hw
    rintro stop ⟨⟩
    exact ⟨hhas₁, hearly (by simp [UpToMove]) hd₁⟩
  obtain rfl : s₂ = s₁ := hw
  refine wpe_bind.mpr (wpe_run fun out s₃ hw => ?_)
  have htree : s₃.tree = s₂.tree := hw.1
  rw [← htree] at hm₁ hx₁ hd₁ hb₁
  -- The data directory is kept aside.
  refine wpe_bind.mpr (wpe_checked (fun out s₄ hw hc => ?_) fun out s₄ hw hc => ?_)
  rotate_left
  · rintro stop ⟨⟩
    obtain ⟨h, -⟩ | ⟨-, rfl⟩ := hw
    · exact absurd h hc
    · exact ⟨.inr ⟨hm₁, hx₁⟩, hearly (by simp [UpToMove]) hd₁⟩
  obtain ⟨-, content, hcontent, rfl⟩ | ⟨h, -⟩ := hw
  rotate_left
  · exact absurd hc h
  obtain rfl := Option.some.inj (hd₁.symm.trans hcontent)
  refine wpe_mono (wpe_restoreMoved ((Host.move_tree_ne hdm.symm hbm.symm).trans hm₁)
    ((Host.move_tree_ne hdx.symm hbx.symm).trans hx₁) (Host.move_tree_src hbd.symm))
    fun o s' h stop ho => ?_
  obtain ⟨hstop, hr⟩ := h stop ho
  refine ⟨hr.manifests, iff_of_false hr.data hstop, fun hfree _ => ?_⟩
  rw [hr.kept]
  exact Host.move_tree_dst (hb₁.trans hfree)

/-- What is so before a restore: the manifests and the data directory are in place. -/
structure Host.InPlace (s : Host) : Prop where
  manifests : s.tree manifests = some .manifests
  data : s.tree dataDir = some .data

theorem wpe_applyAndRollBack {p : Params} {s : Host} (hs : s.InPlace)
    (hx : s.tree manifestsDisabled = none) :
    wpe Host.world (applyAndRollBack p) (fun o s' => ∀ stop, o = .ok (.error (stop, true)) →
      s'.tree manifests = some .manifests ∧ s'.kubelet = true ∧
      StoppedAt s p.timestamp stop.command s') s := by
  refine wpe_bind.mpr (wpe_outcome.mpr (wpe_mono (wpe_restoreScript hs.manifests hx hs.data)
    fun o s₁ h => ?_))
  cases o with
  | ok out =>
    rintro stop ⟨⟩
  | error stop =>
    obtain ⟨hhas, hstop⟩ := h stop rfl
    refine wpe_bind.mpr (wpe_observe.mpr (wp_mono (wp_rollback hhas) fun undone s₂ h => ?_))
    rintro stop' ⟨⟩
    obtain ⟨hm, hk, hframe⟩ := h rfl
    obtain ⟨hbm, hbx, -, -⟩ := beforeRestore_ne p.timestamp
    refine ⟨hm, hk, ?_, ?_⟩
    · rw [hframe _ dataDir_ne.1 dataDir_ne.2]
      exact hstop.original
    · rw [hframe _ hbm hbx]
      exact hstop.kept

/-- A script that stopped is reported with the place of the previous data directory. -/
theorem runRestore_fails {timestamp : String} {t : Trace Reply} {stop : Stop} {undone : Bool}
    (h : Finishes (restoreSteps timestamp) t (.ok (.error (stop, undone)))) :
    Finishes (runRestore timestamp) t (.error (restoreFailed ⟨timestamp, ""⟩ stop)) :=
  finishes_bind.mpr (.inr ⟨_, t, [], (List.append_nil t).symm, h, finishes_throw.mpr ⟨rfl, rfl⟩⟩)

theorem restore_rolled_back {timestamp : String} {s s' : Host} {t : Trace Reply} {stop : Stop}
    (hs : s.InPlace)
    (hf : Finishes (restoreSteps timestamp) t (.ok (.error (stop, true))))
    (hl : Leads Host.world s t s') :
    s'.tree manifests = some .manifests ∧ s'.kubelet = true ∧
    (s'.tree dataDir = some .data ↔ UpToMove timestamp stop.command) ∧
    (s.tree (beforeRestore timestamp) = none → ¬ UpToMove timestamp stop.command →
      s'.tree (beforeRestore timestamp) = some .data) ∧
    Finishes (runRestore timestamp) t (.error (restoreFailed ⟨timestamp, ""⟩ stop)) := by
  obtain ⟨hsm, hsx, hsd⟩ := remoteRestoreSnapshot_ne
  obtain ⟨-, -, -, hbs⟩ := beforeRestore_ne timestamp
  suffices h : wpe Host.world (restoreSteps timestamp) (fun o s' => ∀ stop,
      o = .ok (.error (stop, true)) → s'.tree manifests = some .manifests ∧ s'.kubelet = true ∧
      StoppedAt s timestamp stop.command s') s by
    obtain ⟨hm, hk, hstop⟩ := wpe_iff.mp h t _ s' hf hl stop rfl
    exact ⟨hm, hk, hstop.original, hstop.kept, runRestore_fails hf⟩
  refine wpe_bind.mpr (wpe_bind.mpr (wpe_run fun out s₁ hw => ?_))
  obtain ⟨rfl, hexists⟩ := hw
  show wpe Host.world (if out.code ≠ 0 then pure () else throw _) _ s₁
  split
  rotate_left
  · rintro stop ⟨⟩
  next hc =>
  have hx : s₁.tree manifestsDisabled = none := by
    rw [ne_eq, hexists] at hc
    simpa using hc
  refine wpe_bind.mpr (wpe_bind.mpr (wpe_run fun out s₂ hw => ?_))
  show wpe Host.world (if out.code = 0 then pure () else throw _) _ s₂
  split
  rotate_left
  · rintro stop ⟨⟩
  obtain ⟨content, rfl⟩ := hw
  refine wpe_bind.mpr (wpe_bind.mpr (wpe_run fun out s₃ hw => ?_))
  obtain rfl := hw
  refine wpe_bind.mpr ?_
  rw [validateImageRef]
  split
  rotate_left
  · rintro stop ⟨⟩
  refine wpe_pure.mpr ?_
  refine wpe_mono (wpe_applyAndRollBack (s := s₁.set remoteRestoreSnapshot content) ⟨?_, ?_⟩ ?_)
    fun o s' h stop ho => ?_
  · rw [Host.set_tree_ne hsm, hs.manifests]
  · rw [Host.set_tree_ne hsd, hs.data]
  · rw [Host.set_tree_ne hsx, hx]
  · obtain ⟨hm, hk, hstop⟩ := h stop ho
    refine ⟨hm, hk, hstop.original, fun hfree => hstop.kept ?_⟩
    rw [Host.set_tree_ne hbs, hfree]

/-- A control plane that is up. -/
def sampleHost : Host where
  tree path :=
    if path = manifests then some .manifests else if path = dataDir then some .data else none
  kubelet := true

theorem sampleHost_inPlace : sampleHost.InPlace := ⟨by decide, by decide⟩

def succeeded : Output := ⟨0, ""⟩

def failed : Output := ⟨1, ""⟩

/-- A restore, up to its script. -/
def sampleFront : Trace Reply :=
  [⟨.exists manifestsDisabled, failed⟩, ⟨.upload remoteRestoreSnapshot, succeeded⟩,
    ⟨.crictlImages, succeeded⟩]

def sampleUploaded : Host := sampleHost.set remoteRestoreSnapshot (some .snapshot)

theorem leads_sampleFront {t : Trace Reply} {s : Host} (h : Leads Host.world sampleUploaded t s) :
    Leads Host.world sampleHost (sampleFront ++ t) s :=
  .cons ⟨rfl, by decide⟩ (.cons ⟨_, rfl⟩ (.cons rfl h))

/-- The first `mv` fails. -/
def unmovedRun : Trace Reply :=
  sampleFront ++ [⟨.mv manifests manifestsDisabled, failed⟩, ⟨.isDir manifestsDisabled, failed⟩,
    ⟨.systemctl "start" "kubelet", succeeded⟩]

theorem restore_rolled_back_unmoved :
    sampleUploaded.tree manifests = some .manifests ∧ sampleUploaded.kubelet = true ∧
    (sampleUploaded.tree dataDir = some .data ↔
      UpToMove "20260101T000000Z" (.mv manifests manifestsDisabled)) ∧
    (sampleHost.tree (beforeRestore "20260101T000000Z") = none →
      ¬ UpToMove "20260101T000000Z" (.mv manifests manifestsDisabled) →
      sampleUploaded.tree (beforeRestore "20260101T000000Z") = some .data) ∧
    Finishes (runRestore "20260101T000000Z") unmovedRun
      (.error (restoreFailed ⟨"20260101T000000Z", ""⟩ ⟨.mv manifests manifestsDisabled, 1⟩)) :=
  restore_rolled_back sampleHost_inPlace
    (show Finishes (restoreSteps "20260101T000000Z") unmovedRun
      (.ok (.error (⟨.mv manifests manifestsDisabled, 1⟩, true))) from .ask (.ask (.ask (.ask (.ask (.ask (.done _)))))))
    (leads_sampleFront (.cons (.inr ⟨by decide, rfl⟩) (.cons ⟨rfl, by decide⟩
      (.cons ⟨rfl, fun _ => rfl⟩ (.nil _)))))

def restoreCommand : Command := .snapshotRestore etcdImageFallback remoteRestoreSnapshot dataDir

/-- The snapshot does not restore, and the rollback goes well. -/
def unrestoredRun : Trace Reply :=
  sampleFront ++ [⟨.mv manifests manifestsDisabled, succeeded⟩, ⟨.sleep 10, succeeded⟩,
    ⟨.systemctl "stop" "kubelet", succeeded⟩,
    ⟨.mv dataDir (beforeRestore "20260101T000000Z"), succeeded⟩, ⟨restoreCommand, failed⟩,
    ⟨.isDir manifestsDisabled, succeeded⟩, ⟨.exists manifests, failed⟩,
    ⟨.mv manifestsDisabled manifests, succeeded⟩, ⟨.systemctl "start" "kubelet", succeeded⟩]

def stoppedHost : Host :=
  { sampleUploaded.move manifests manifestsDisabled .manifests with kubelet := false }

def rolledBackHost : Host :=
  { (stoppedHost.move dataDir (beforeRestore "20260101T000000Z") .data).move manifestsDisabled
      manifests .manifests with kubelet := true }

/-- The host is left without a data directory, and kubelet is started. -/
theorem restore_without_data :
    Finishes (restoreSteps "20260101T000000Z") unrestoredRun
      (.ok (.error (⟨restoreCommand, 1⟩, true))) ∧
    Leads Host.world sampleHost unrestoredRun rolledBackHost ∧
    rolledBackHost.kubelet = true ∧ rolledBackHost.tree manifests = some .manifests ∧
    rolledBackHost.tree dataDir = none := by
  refine ⟨?_, ?_, rfl, by decide +kernel, by decide +kernel⟩
  · exact .ask (.ask (.ask (.ask (.ask (.ask (.ask (.ask (.ask (.ask (.ask (.ask (.done _))))))))))))
  · have hstop : Host.world (sampleUploaded.move manifests manifestsDisabled .manifests)
        (.systemctl "stop" "kubelet") succeeded stoppedHost := ⟨rfl, fun _ => rfl⟩
    have hstart : Host.world ((stoppedHost.move dataDir (beforeRestore "20260101T000000Z") .data).move
        manifestsDisabled manifests .manifests) (.systemctl "start" "kubelet") succeeded
        rolledBackHost := ⟨rfl, fun _ => rfl⟩
    have hback : Leads Host.world
        (stoppedHost.move dataDir (beforeRestore "20260101T000000Z") .data)
        [⟨.isDir manifestsDisabled, succeeded⟩, ⟨.exists manifests, failed⟩,
          ⟨.mv manifestsDisabled manifests, succeeded⟩, ⟨.systemctl "start" "kubelet", succeeded⟩]
        rolledBackHost :=
      .cons ⟨rfl, by decide +kernel⟩ (.cons ⟨rfl, by decide +kernel⟩
        (.cons (.inl ⟨rfl, .manifests, by decide +kernel, rfl⟩)
        (.cons hstart (.nil rolledBackHost))))
    exact leads_sampleFront (.cons (.inl ⟨rfl, .manifests, by decide +kernel, rfl⟩) (.cons rfl
      (.cons hstop (.cons (.inl ⟨rfl, .data, by decide +kernel, rfl⟩)
      (.cons (.inr ⟨by decide, rfl⟩) hback)))))

end Hbird.Etcd.Restore
