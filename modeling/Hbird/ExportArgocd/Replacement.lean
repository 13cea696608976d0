import Hbird.ExportArgocd.WriteAtomic

namespace Hbird.ExportArgocd

open Hbird.Interaction Hbird.Ssh

section Law

variable (force : Bool) (contents : List UInt8) (umask : Mode)

/-- What no step of a run may do otherwise: the destination stays as it is, or becomes a file with the
whole of the new contents; what it replaces with `--force` is in the backup; without, it replaces
nothing. -/
structure Keeps (m : Moment FileSystem Reply) : Prop where
  whole : m.after.standing .output = m.before.standing .output ∨
    ∃ i mode, m.after.standing .output = some (.file i, some ⟨contents, mode⟩)
  backedUp : force = true → m.exchange = ⟨.rename, .ok ()⟩ → ∀ i f,
    m.before.standing .output = some (.file i, some f) →
      ∃ j mode, m.after.standing .backup = some (.file j, some ⟨f.contents, mode⟩)
  fresh : force = false → m.exchange.1 = .rename → m.before.entry .output ≠ none →
    m.after.standing .output = m.before.standing .output

/-- The law of a run. -/
structure Replaces (ms : List (Moment FileSystem Reply)) (o : Except Failure Unit) (fs : FileSystem) :
    Prop where
  steps : ∀ m ∈ ms, Keeps force contents m
  installed : o = .ok () → ∃ i, fs.standing .output = some (.file i, some ⟨contents, 0o600⟩)

/-- No other path names what the temporary path names. -/
def IsAlone (fs : FileSystem) : Prop := ∀ i, fs.entry .temporary = some (.file i) →
  ∀ place, place ≠ .temporary → fs.entry place ≠ some (.file i)

/-- The steps behind the backup. -/
def IsLate : Query → Prop
  | .metadata => True
  | .setPermissions _ => True
  | .openTemporary _ => True
  | .writeAll _ _ => True
  | .syncAll _ => True
  | .rename => True
  | _ => False

/-- The steps with the temporary file open, and the rename. -/
def IsOpen : Query → Prop
  | .writeAll _ _ => True
  | .syncAll _ => True
  | .rename => True
  | _ => False

/-- Where a step starts, and what the others did ahead of it: nothing stands at the temporary path, or
a private file with mode 0600, and the others leave it alone; with `--force` no failing test of
existence and nothing at the backup's name, and behind the backup the others leave it and the
destination alone; without, nothing stands at the destination when it is replaced. -/
structure IsOrderly (m : Moment FileSystem Reply) : Prop where
  opening : ∀ mode, m.exchange.1 = .openTemporary mode → IsAlone m.before ∧
    (m.before.entry .temporary = none ∧ 0o600 &&& ~~~umask = 0o600 ∨
      ∃ i, m.before.entry .temporary = some (.file i) ∧ (m.before.inode i).mode = 0o600)
  working : IsOpen m.exchange.1 → IsAlone m.before ∧
    m.before.standing .temporary = m.start.standing .temporary
  testing : force = true → m.exchange = ⟨.pathExists .output, false⟩ →
    ∀ i, m.before.entry .output ≠ some (.file i)
  copying : m.exchange.1 = .copy → m.before.entry .backup = none
  unraced : force = true → IsLate m.exchange.1 →
    m.before.standing .output = m.start.standing .output ∧
      m.before.standing .backup = m.start.standing .backup
  unclaimed : force = false → m.exchange.1 = .rename → m.before.entry .output = none

end Law

section Standing

variable {fs : FileSystem} {p q : Place} {i j : Nat} {f : File} {e : Entry}

theorem standing_file : fs.standing p = some (.file i, some f) ↔
    fs.entry p = some (.file i) ∧ fs.inode i = f := by
  rw [FileSystem.standing]
  cases h : fs.entry p with
  | none => simp
  | some e =>
    cases e with
    | file k =>
      simp only [Option.map_some, Option.some.injEq, Prod.mk.injEq, Entry.file.injEq]
      constructor
      · rintro ⟨rfl, rfl⟩
        exact ⟨rfl, rfl⟩
      · rintro ⟨rfl, rfl⟩
        exact ⟨rfl, rfl⟩
    | symlink target | directory => simp

/-- What stands at a path fixes its entry. -/
theorem entry_of_standing {fs' : FileSystem} (h : fs'.standing p = fs.standing p) :
    fs'.entry p = fs.entry p := by
  have hentry : ∀ fs : FileSystem, fs.entry p = (fs.standing p).map Prod.fst := by
    intro fs
    rw [FileSystem.standing, Option.map_map]
    cases fs.entry p <;> rfl
  rw [hentry, hentry, h]

theorem standing_link (h : p ≠ q) {entry : Option Entry} :
    (fs.link q entry).standing p = fs.standing p := by
  simp only [FileSystem.standing, FileSystem.link, Function.update_of_ne h]

theorem standing_store (h : fs.entry p ≠ some (.file i)) :
    (fs.store i f).standing p = fs.standing p := by
  simp only [FileSystem.standing, FileSystem.store]
  cases he : fs.entry p with
  | none => rfl
  | some e =>
    cases e with
    | file k =>
      have hk : k ≠ i := by
        rintro rfl
        exact h he
      simp only [Option.map_some, Function.update_of_ne hk]
    | symlink target | directory => rfl

/-- A path that is no link leads to itself. -/
theorem leadsTo_self (h : ∀ target, fs.entry p ≠ some (.symlink target)) : fs.leadsTo p = some p := by
  rw [FileSystem.leadsTo, FileSystem.follow]
  split
  · rename_i target he
    exact absurd he (h target)
  · rfl

theorem standing_overwrite (h : fs.entry p ≠ some (.file i)) {bytes : List UInt8} :
    (fs.overwrite i bytes).standing p = fs.standing p := standing_store h

end Standing

section Steps

variable {force : Bool} {contents : List UInt8} {umask : Mode} {output : Output}
  {fs start before after : FileSystem} {i : Nat} {q : Query} {r : Reply q}

theorem keeps_of_standing (hq : q ≠ .rename) (h : after.standing .output = before.standing .output) :
    Keeps force contents ⟨⟨q, r⟩, start, before, after⟩ where
  whole := .inl h
  backedUp := fun _ hx => absurd (congrArg Sigma.fst hx) hq
  fresh := fun _ hx => absurd hx hq

/-- The backup holds what the destination does, in a file of its own. -/
def Copied (fs : FileSystem) : Prop := ∃ j g, fs.standing .backup = some (.file j, some g) ∧
  fs.entry .output ≠ some (.file j) ∧
    ∀ i f, fs.standing .output = some (.file i, some f) → g.contents = f.contents

/-- With `--force`, a regular file at the destination is in the backup. -/
def BackedUp (force : Bool) (fs : FileSystem) : Prop := force = true → ∀ i f,
  fs.standing .output = some (.file i, some f) →
    ∃ j mode, fs.standing .backup = some (.file j, some ⟨f.contents, mode⟩)

theorem Copied.backedUp (h : Copied fs) : BackedUp force fs := by
  obtain ⟨j, g, hg, -, hsame⟩ := h
  intro _ i f hf
  refine ⟨j, g.mode, ?_⟩
  rw [hg, ← hsame i f hf]

theorem Copied.of_standing (h : Copied start) (ho : before.standing .output = start.standing .output)
    (hb : before.standing .backup = start.standing .backup) : Copied before := by
  obtain ⟨j, g, hg, hne, hsame⟩ := h
  refine ⟨j, g, hb.trans hg, ?_, fun i f hf => hsame i f (ho ▸ hf)⟩
  rwa [entry_of_standing ho]

theorem BackedUp.of_standing (h : BackedUp force start)
    (hs : force = true → before.standing .output = start.standing .output ∧
      before.standing .backup = start.standing .backup) : BackedUp force before := by
  intro hforce
  rw [(hs hforce).1, (hs hforce).2]
  exact h hforce

theorem copied_of_copy (hbackup : before.entry .backup = none)
    (h : Serves umask before .copy (.ok ()) after) :
    after.standing .output = before.standing .output ∧ Copied after := by
  cases h with
  | @copied p q i j mode hp hi hq hj =>
    have hself : before.leadsTo .backup = some .backup :=
      leadsTo_self fun target ht => by rw [hbackup] at ht; cases ht
    obtain rfl := Option.some.inj (hq.symm.trans hself)
    rw [hbackup] at hj
    obtain ⟨-, hfree⟩ := hj.resolve_left nofun
    have hne : j ≠ i := by
      rintro rfl
      exact hfree p hi
    have hout : (before.link .backup (some (.file j))).entry .output ≠ some (.file j) := by
      simpa [FileSystem.link] using hfree .output
    have hstanding : ((before.link .backup (some (.file j))).store j
        ⟨if j = i then [] else (before.inode i).contents, mode⟩).standing .output =
          before.standing .output := by
      rw [standing_store hout, standing_link (by decide)]
    refine ⟨hstanding, j, _, standing_file.mpr ⟨?_, rfl⟩, ?_, ?_⟩
    · simp [FileSystem.store, FileSystem.link]
    · simpa [FileSystem.store, FileSystem.link] using hfree .output
    · intro k f hf
      rw [hstanding] at hf
      obtain ⟨hk, rfl⟩ := standing_file.mp hf
      have hself : before.leadsTo .output = some .output :=
        leadsTo_self fun target ht => by rw [hk] at ht; cases ht
      obtain rfl := Option.some.inj (hp.symm.trans hself)
      rw [hk] at hi
      obtain rfl := Entry.file.inj (Option.some.inj hi)
      simp [FileSystem.store, Function.update_self, hne]

/-- A copy that breaks off spoils a file of its own. -/
theorem standing_of_copyBreaks {e : IoError} (hbackup : before.entry .backup = none)
    (h : Serves umask before .copy (.error e) after) :
    after.standing .output = before.standing .output := by
  cases h with
  | copyFails => rfl
  | @copyBreaks q j file _ hq hj =>
    have hself : before.leadsTo .backup = some .backup :=
      leadsTo_self fun target ht => by rw [hbackup] at ht; cases ht
    obtain rfl := Option.some.inj (hq.symm.trans hself)
    rw [hbackup] at hj
    obtain ⟨-, hfree⟩ := hj.resolve_left nofun
    have hout : (before.link .backup (some (.file j))).entry .output ≠ some (.file j) := by
      simpa [FileSystem.link] using hfree .output
    rw [standing_store hout, standing_link (by decide)]

theorem copied_of_permissions {mode : Mode} {r : Except IoError Unit} (hcopied : Copied before)
    (h : Serves umask before (.setPermissions mode) r after) :
    after.standing .output = before.standing .output ∧ Copied after := by
  cases h with
  | permissionsFail => exact ⟨rfl, hcopied⟩
  | @permissions q j _ hq hj =>
    obtain ⟨k, g, hg, hne, hsame⟩ := hcopied
    obtain ⟨hk, rfl⟩ := standing_file.mp hg
    have hself : before.leadsTo .backup = some .backup :=
      leadsTo_self fun target ht => by rw [hk] at ht; cases ht
    obtain rfl := Option.some.inj (hq.symm.trans hself)
    rw [hk] at hj
    obtain rfl := Entry.file.inj (Option.some.inj hj)
    refine ⟨standing_store hne, k, _, standing_file.mpr ⟨hk, rfl⟩, hne, fun i f hf => ?_⟩
    rw [standing_store hne] at hf
    simp only [FileSystem.store, Function.update_self]
    exact hsame i f hf

/-- The temporary file, open for writing, private, and with what is written so far. -/
def Written (i : Nat) (bytes : List UInt8) (fs : FileSystem) : Prop :=
  fs.standing .temporary = some (.file i, some ⟨bytes, 0o600⟩)

theorem written_of_open {i : Nat} (halone : IsAlone before)
    (ht : before.entry .temporary = none ∧ 0o600 &&& ~~~umask = 0o600 ∨
      ∃ i, before.entry .temporary = some (.file i) ∧ (before.inode i).mode = 0o600)
    (h : Serves umask before (.openTemporary 0o600) (.ok i) after) :
    Written i [] after ∧ ∀ place, place ≠ .temporary → after.standing place = before.standing place := by
  have hself : before.leadsTo .temporary = some .temporary := by
    refine leadsTo_self fun target htarget => ?_
    obtain ⟨hnone, -⟩ | ⟨k, hk, -⟩ := ht
    · rw [hnone] at htarget
      cases htarget
    · rw [hk] at htarget
      cases htarget
  cases h with
  | @truncated p _ _ hp hi =>
    obtain rfl := Option.some.inj (hp.symm.trans hself)
    obtain ⟨hnone, -⟩ | ⟨k, hk, hmode⟩ := ht
    · rw [hnone] at hi
      cases hi
    rw [hk] at hi
    obtain rfl := Entry.file.inj (Option.some.inj hi)
    refine ⟨standing_file.mpr ⟨hk, ?_⟩, fun place hplace => standing_store (halone k hk place hplace)⟩
    simp [FileSystem.store, hmode]
  | @created p _ _ hp hn hi =>
    obtain rfl := Option.some.inj (hp.symm.trans hself)
    obtain ⟨-, hmask⟩ | ⟨k, hk, -⟩ := ht
    · refine ⟨standing_file.mpr ⟨by simp [FileSystem.store, FileSystem.link], ?_⟩,
        fun place hplace => ?_⟩
      · simpa [FileSystem.store] using hmask
      · have hfree : (before.link .temporary (some (.file i))).entry place ≠ some (.file i) := by
          simpa [FileSystem.link, hplace] using hi place
        rw [standing_store hfree, standing_link hplace]
    · rw [hn] at hk
      cases hk

theorem written_of_write {i : Nat} {bytes : List UInt8} (halone : IsAlone before)
    (hwritten : Written i [] before) :
    Written i bytes (before.overwrite i bytes) ∧
      ∀ place, place ≠ .temporary → (before.overwrite i bytes).standing place = before.standing place := by
  obtain ⟨hi, hfile⟩ := standing_file.mp hwritten
  refine ⟨standing_file.mpr ⟨hi, ?_⟩, fun place hplace => standing_overwrite (halone i hi place hplace)⟩
  simp [FileSystem.overwrite, FileSystem.store, hfile]

theorem keeps_rename {i : Nat} {r : Except IoError Unit} (halone : IsAlone before)
    (hwritten : Written i contents before) (hbacked : BackedUp force before)
    (hclaim : force = false → before.entry .output = none)
    (h : Serves umask before .rename r after) :
    Keeps force contents ⟨⟨.rename, r⟩, start, before, after⟩ ∧
      (r = .ok () → after.standing .output = some (.file i, some ⟨contents, 0o600⟩)) := by
  obtain ⟨hi, hfile⟩ := standing_file.mp hwritten
  cases h with
  | @renamed e ht _ _ _ =>
    rw [hi] at ht
    obtain rfl := Option.some.inj ht
    have hout : ((before.link .output (some (.file i))).link .temporary none).standing .output =
        some (.file i, some ⟨contents, 0o600⟩) := by
      rw [standing_link (by decide)]
      exact standing_file.mpr ⟨by simp [FileSystem.link], hfile⟩
    have hback : ((before.link .output (some (.file i))).link .temporary none).standing .backup =
        before.standing .backup := by
      rw [standing_link (by decide), standing_link (by decide)]
    refine ⟨⟨.inr ⟨i, _, hout⟩, fun hforce _ k f hf => ?_, fun hforce _ hne => ?_⟩, fun _ => hout⟩
    · rw [hback]
      exact hbacked hforce k f hf
    · exact absurd (hclaim hforce) hne
  | @renamedSame k ht ho =>
    exact absurd ho (halone k ht .output (by decide))
  | renameFails e =>
    refine ⟨⟨.inl rfl, fun _ hx => ?_, fun _ _ _ => rfl⟩, nofun⟩
    have hreply := eq_of_heq (Sigma.mk.inj hx).2
    cases hreply

end Steps

section Run

variable {force : Bool} {contents : List UInt8} {umask : Mode} {output : Output} {s : FileSystem}

/-- A run so far: nothing is promised of one that failed. -/
abbrev Ends (P : FileSystem → Prop) : Except Failure Unit → FileSystem → Prop := fun o fs =>
  o = .ok () → P fs

abbrev Assures (force : Bool) (contents : List UInt8) (umask : Mode) (x : Steps Unit)
    (P : FileSystem → Prop) (s : FileSystem) : Prop :=
  assures (Serves umask) (IsOrderly force umask) (Keeps force contents) x.run (Ends P) s

theorem assures_ask {q : Query} {f : Reply q → Steps Unit} {P : FileSystem → Prop}
    (h : ∀ r before after, IsOrderly force umask ⟨⟨q, r⟩, s, before, after⟩ → Serves umask before q r after →
      Keeps force contents ⟨⟨q, r⟩, s, before, after⟩ ∧ Assures force contents umask (f r) P after) :
    Assures force contents umask (ask q >>= f) P s := h

theorem assures_pure {P : FileSystem → Prop} (h : P s) : Assures force contents umask (pure ()) P s :=
  fun _ => h

theorem assures_error {e : Failure} {P : FileSystem → Prop} :
    Assures force contents umask (throw e) P s := nofun

theorem assures_preCheckOutput :
    Assures force contents umask (preCheckOutput output force) (fun _ => True) s := by
  refine assures_ask fun r before after hC hw => ?_
  have hsame : after = before := by cases hw <;> rfl
  refine ⟨keeps_of_standing nofun (by rw [hsame]), ?_⟩
  cases r with
  | error e =>
    dsimp only
    split
    · exact assures_pure trivial
    · exact assures_error
  | ok isLink =>
    cases isLink with
    | true =>
      refine assures_ask fun r before after hC hw => ?_
      have hsame : after = before := by cases hw; rfl
      exact ⟨keeps_of_standing nofun (by rw [hsame]), assures_error⟩
    | false =>
      dsimp only
      split
      · exact assures_pure trivial
      · exact assures_error

theorem assures_backUp (hforce : force = true) :
    Assures force contents umask (backUp output) Copied s := by
  refine assures_ask fun present before₁ after₁ _ hw₁ => ?_
  have hsame₁ : after₁ = before₁ := by cases hw₁ <;> rfl
  refine ⟨keeps_of_standing nofun (by rw [hsame₁]), ?_⟩
  cases present with
  | true => exact assures_error
  | false =>
    refine assures_ask fun r before₂ after₂ hC₂ hw₂ => ?_
    cases r with
    | error e => exact ⟨keeps_of_standing nofun (standing_of_copyBreaks (hC₂.copying rfl) hw₂), assures_error⟩
    | ok _ =>
      obtain ⟨hstanding, hcopied⟩ := copied_of_copy (hC₂.copying rfl) hw₂
      refine ⟨keeps_of_standing nofun hstanding, ?_⟩
      refine assures_ask fun r before₃ after₃ hC₃ hw₃ => ?_
      have hsame₃ : after₃ = before₃ := by cases hw₃; rfl
      obtain ⟨ho₃, hb₃⟩ := hC₃.unraced hforce trivial
      refine ⟨keeps_of_standing nofun (by rw [hsame₃]), ?_⟩
      cases r with
      | error e => exact assures_error
      | ok _ =>
        refine assures_ask fun r before₄ after₄ hC₄ hw₄ => ?_
        obtain ⟨ho₄, hb₄⟩ := hC₄.unraced hforce trivial
        have hcopied₄ : Copied before₄ :=
          (hsame₃ ▸ hcopied.of_standing ho₃ hb₃ : Copied after₃).of_standing ho₄ hb₄
        obtain ⟨hstanding₄, hcopied'⟩ := copied_of_permissions hcopied₄ hw₄
        refine ⟨keeps_of_standing nofun hstanding₄, ?_⟩
        cases r with
        | error e => exact assures_error
        | ok _ => exact assures_pure hcopied'

theorem BackedUp.of_others {start before after : FileSystem} {q : Query} {r : Reply q}
    (h : BackedUp force start) (hC : IsOrderly force umask ⟨⟨q, r⟩, start, before, after⟩)
    (hq : IsLate q) : BackedUp force before :=
  h.of_standing fun hforce => hC.unraced hforce hq

theorem assures_install (hbacked : BackedUp force s) : Assures force contents umask
    (install output contents)
    (fun fs => ∃ i, fs.standing .output = some (.file i, some ⟨contents, 0o600⟩)) s := by
  refine assures_ask fun r before₁ after₁ hC₁ hw₁ => ?_
  obtain ⟨halone₁, htemp⟩ := hC₁.opening _ rfl
  have hbacked₁ := hbacked.of_others hC₁ trivial
  cases r with
  | error e =>
    have hsame : after₁ = before₁ := by cases hw₁; rfl
    exact ⟨keeps_of_standing nofun (by rw [hsame]), assures_error⟩
  | ok i =>
    obtain ⟨hwritten, hothers⟩ := written_of_open halone₁ htemp hw₁
    refine ⟨keeps_of_standing nofun (hothers .output (by decide)), ?_⟩
    have hbacked₁' : BackedUp force after₁ := hbacked₁.of_standing fun _ =>
      ⟨hothers .output (by decide), hothers .backup (by decide)⟩
    refine assures_ask fun r before₂ after₂ hC₂ hw₂ => ?_
    obtain ⟨halone₂, hkept₂⟩ := hC₂.working trivial
    have hbacked₂ := hbacked₁'.of_others hC₂ trivial
    cases r with
    | error e =>
      refine ⟨keeps_of_standing nofun ?_, assures_error⟩
      cases hw₂ with
      | writeBreaks => exact (written_of_write halone₂ (hkept₂.trans hwritten)).2 .output (by decide)
    | ok _ =>
      cases hw₂ with
      | written =>
        obtain ⟨hwhole, hothers₂⟩ :=
          @written_of_write before₂ _ contents halone₂ (hkept₂.trans hwritten)
        refine ⟨keeps_of_standing nofun (hothers₂ .output (by decide)), ?_⟩
        have hbacked₂' := hbacked₂.of_standing fun _ =>
          ⟨hothers₂ .output (by decide), hothers₂ .backup (by decide)⟩
        refine assures_ask fun r before₃ after₃ hC₃ hw₃ => ?_
        have hsame₃ : after₃ = before₃ := by cases hw₃; rfl
        obtain ⟨halone₃, hkept₃⟩ := hC₃.working trivial
        have hbacked₃ := hbacked₂'.of_others hC₃ trivial
        refine ⟨keeps_of_standing nofun (by rw [hsame₃]), ?_⟩
        subst hsame₃
        cases r with
        | error e => exact assures_error
        | ok _ =>
          refine assures_ask fun r before₄ after₄ hC₄ hw₄ => ?_
          obtain ⟨halone₄, hkept₄⟩ := hC₄.working trivial
          have hwritten₄ : Written i contents before₄ := hkept₄.trans (hkept₃.trans hwhole)
          obtain ⟨hkeeps, hinstalled⟩ := keeps_rename halone₄ hwritten₄ (hbacked₃.of_others hC₄ trivial)
            (fun hforce => hC₄.unclaimed hforce rfl) hw₄
          refine ⟨hkeeps, ?_⟩
          cases r with
          | error e => exact assures_error
          | ok _ => exact assures_pure ⟨i, hinstalled rfl⟩

theorem assures_bind_steps {x : Steps Unit} {f : Unit → Steps Unit} {P P' : FileSystem → Prop}
    (hx : Assures force contents umask x P s)
    (hf : ∀ fs, P fs → Assures force contents umask (f ()) P' fs) :
    Assures force contents umask (x >>= f) P' s := by
  refine assures_exec_bind (assures_mono hx fun o fs hP => ?_)
  cases o with
  | error e => exact nofun
  | ok a => exact hf fs (hP rfl)

theorem assures_exportKubeconfig : Assures force contents umask (exportKubeconfig output contents force)
    (fun fs => ∃ i, fs.standing .output = some (.file i, some ⟨contents, 0o600⟩)) s := by
  refine assures_bind_steps assures_preCheckOutput fun fs _ => ?_
  cases force with
  | false =>
    change Assures false contents umask (install output contents) _ fs
    exact assures_install nofun
  | true =>
    refine assures_ask fun present before after hC hw => ?_
    have hsame : after = before := by cases hw <;> rfl
    refine ⟨keeps_of_standing nofun (by rw [hsame]), ?_⟩
    cases present with
    | true =>
      exact assures_bind_steps (assures_backUp rfl) fun fs hcopied => assures_install hcopied.backedUp
    | false =>
      change Assures true contents umask (install output contents) _ after
      refine assures_install fun _ i f hf => ?_
      rw [hsame] at hf
      exact absurd (standing_file.mp hf).1 (hC.testing rfl rfl i)

end Run

/-- A run whose steps are all orderly keeps the law, whatever else the others do and wherever it
fails. -/
theorem exportKubeconfig_replaces (output : Output) (contents : List UInt8) (force : Bool)
    (umask : Mode) {t : Trace Reply} {o : Except Failure Unit} {s s' : FileSystem}
    {ms : List (Moment FileSystem Reply)}
    (h : Finishes (exportKubeconfig output contents force) t o)
    (hu : Unfolds (Serves umask) s ms s') (ht : ms.map Moment.exchange = t)
    (horderly : ∀ m ∈ ms, IsOrderly force umask m) : Replaces force contents ms o s' := by
  obtain ⟨hkeeps, hinstalled⟩ := assures_run assures_exportKubeconfig h hu ht horderly
  exact ⟨hkeeps, hinstalled⟩

section Samples

def sampleOutput : Output := ⟨"/root/kubeconfig", "/root", "kubeconfig", 7, "20260101T000000000000000UTC"⟩

/-- A file at the temporary path only, or nothing at all. -/
def leftBehind (entry : Option Entry) (file : File) : FileSystem :=
  ⟨Function.update (fun _ => none) .temporary entry, fun _ => file⟩

theorem entry_leftBehind (file : File) (place : Place) : (leftBehind none file).entry place = none := by
  by_cases hplace : place = .temporary <;> simp [leftBehind, hplace]

/-- A step ahead of which the others did nothing. -/
def still (q : Query) (r : Reply q) (before after : FileSystem) : Moment FileSystem Reply :=
  ⟨⟨q, r⟩, before, before, after⟩

/-- The steps of a run without `--force` that is not disturbed up to the rename. -/
def installing (fs opened : FileSystem) : List (Moment FileSystem Reply) :=
  [still .symlinkMetadata (.error ⟨true, "not found"⟩) fs fs,
    still (.openTemporary 0o600) (.ok 0) fs opened,
    still (.writeAll 0 [107]) (.ok ()) opened (opened.overwrite 0 [107]),
    still (.syncAll 0) (.ok ()) (opened.overwrite 0 [107]) (opened.overwrite 0 [107])]

theorem finishes_installing (fs opened : FileSystem) (m : Moment FileSystem Reply)
    (hm : m.exchange = ⟨.rename, .ok ()⟩) :
    Finishes (exportKubeconfig sampleOutput [107] false)
      ((installing fs opened ++ [m]).map Moment.exchange) (.ok ()) := by
  rw [List.map_append, List.map_singleton, hm]
  exact .ask (.ask (.ask (.ask (.ask (.done _)))))

theorem isAlone_of_entry {fs : FileSystem} (h : ∀ place, place ≠ .temporary → fs.entry place = none) :
    IsAlone fs := by
  intro i _ place hplace
  rw [h place hplace]
  nofun

/-- Nothing at the temporary path: the run ends with the file installed. -/
theorem exportKubeconfig_replaces_sample :
    let fs := leftBehind none ⟨[], 0⟩
    let opened := (fs.link .temporary (some (.file 0))).store 0 ⟨[], 0o600 &&& ~~~0o022⟩
    let written := opened.overwrite 0 [107]
    let installed := (written.link .output (some (.file 0))).link .temporary none
    Replaces false [107] (installing fs opened ++ [still .rename (.ok ()) written installed]) (.ok ())
      installed := by
  intro fs opened written installed
  have hfree : fs.IsFree 0 := by
    intro place
    rw [entry_leftBehind]
    nofun
  have halone : IsAlone written :=
    isAlone_of_entry fun place hplace => by
      simp [written, opened, fs, leftBehind, FileSystem.overwrite, FileSystem.store, FileSystem.link, hplace]
  refine exportKubeconfig_replaces sampleOutput [107] false 0o022 (finishes_installing fs opened _ rfl)
    (s := fs) ?_ rfl ?_
  · refine .cons (.statNone rfl) (.cons (.created (p := .temporary) rfl rfl hfree) (.cons .written
      (.cons (.sync _) (.cons (.renamed (e := .file 0) rfl nofun (by decide) ?_) (.nil _)))))
    intro i _
    rw [show written.entry .output = none from rfl]
    nofun
  · simp only [installing, List.cons_append, List.nil_append, List.forall_mem_cons]
    refine ⟨⟨nofun, nofun, nofun, nofun, nofun, nofun⟩, ⟨fun _ _ => ⟨?_, .inl ⟨rfl, by decide⟩⟩, nofun,
      nofun, nofun, nofun, nofun⟩, ⟨nofun, fun _ => ⟨halone, rfl⟩, nofun, nofun, nofun, nofun⟩,
      ⟨nofun, fun _ => ⟨halone, rfl⟩, nofun, nofun, nofun, nofun⟩,
      ⟨nofun, fun _ => ⟨halone, rfl⟩, nofun, nofun, nofun, fun _ _ => rfl⟩, fun _ hm => absurd hm List.not_mem_nil⟩
    exact isAlone_of_entry fun place _ => entry_leftBehind _ place

/-- A file with mode 0644 that an earlier run left at the temporary path, and one that somebody puts at
the destination just ahead of the rename. -/
theorem exportKubeconfig_exposes :
    (let fs := leftBehind (some (.file 0)) ⟨[], 0o644⟩
     let opened := fs.store 0 ⟨[], 0o644⟩
     let written := opened.overwrite 0 [107]
     let installed := (written.link .output (some (.file 0))).link .temporary none
     let ms := installing fs opened ++ [still .rename (.ok ()) written installed]
     Finishes (exportKubeconfig sampleOutput [107] false) (ms.map Moment.exchange) (.ok ()) ∧
       Unfolds (Serves 0o022) fs ms installed ∧ ¬ Replaces false [107] ms (.ok ()) installed) ∧
    (let fs := leftBehind none ⟨[], 0⟩
     let opened := (fs.link .temporary (some (.file 0))).store 0 ⟨[], 0o600 &&& ~~~0o022⟩
     let written := opened.overwrite 0 [107]
     let raced := (written.link .output (some (.file 1))).store 1 ⟨[1, 2, 3], 0o600⟩
     let installed := (raced.link .output (some (.file 0))).link .temporary none
     let ms := installing fs opened ++ [⟨⟨.rename, .ok ()⟩, written, raced, installed⟩]
     Finishes (exportKubeconfig sampleOutput [107] false) (ms.map Moment.exchange) (.ok ()) ∧
       Unfolds (Serves 0o022) fs ms installed ∧ ¬ Replaces false [107] ms (.ok ()) installed) := by
  constructor
  · intro fs opened written installed ms
    refine ⟨finishes_installing fs opened _ rfl, ?_, fun h => ?_⟩
    · refine .cons (.statNone rfl) (.cons (.truncated (p := .temporary) rfl rfl) (.cons .written
        (.cons (.sync _) (.cons (.renamed (e := .file 0) rfl nofun (by decide) ?_) (.nil _)))))
      intro i _
      rw [show written.entry .output = none from rfl]
      nofun
    · obtain ⟨i, hi⟩ := h.installed rfl
      obtain ⟨hentry, hfile⟩ := standing_file.mp hi
      obtain rfl := Entry.file.inj (Option.some.inj hentry)
      exact absurd (congrArg File.mode hfile) (by decide)
  · intro fs opened written raced installed ms
    refine ⟨finishes_installing fs opened _ rfl, ?_, fun h => ?_⟩
    · refine .cons (.statNone rfl) (.cons (.created (p := .temporary) rfl rfl ?_) (.cons .written
        (.cons (.sync _) (.cons (.renamed (e := .file 0) rfl nofun (by decide) ?_) (.nil _)))))
      · intro place
        rw [entry_leftBehind]
        nofun
      · intro i hi
        obtain rfl := Entry.file.inj hi
        rw [show raced.entry .output = some (.file 1) from rfl]
        nofun
    · have hkeeps := h.steps _ (List.mem_append_right _ (List.mem_singleton_self _))
      have hsame := hkeeps.fresh rfl rfl (by rw [show raced.entry .output = some (.file 1) from rfl]; nofun)
      have hentry := entry_of_standing hsame
      exact absurd hentry (by decide)

end Samples

end Hbird.ExportArgocd
