import Hbird.Etcd.PairReader
import Hbird.Etcd.Rotation

namespace Hbird.Etcd.Rotation

open Hbird.Interaction Hbird.Text

variable {reader : Reader} {text : String} {L : Layout}

/-- A config file that the rotation can edit. -/
def Config (reader : Reader) (text : String) : Prop := ∃ L, reader.Reads text L

/-- `final` is `dual` without the keys that do not encrypt. -/
structure Drops (reader : Reader) (dual final : String) : Prop where
  eq : dropNonPrimaryKeys dual = .ok final
  config : Config reader final
  primary : ∀ k ∈ reader.primary dual, k ∈ reader.keysOf final

/-- `dual` has the keys of `before` and one more. -/
structure Inserts (reader : Reader) (before dual : String) : Prop where
  config : Config reader dual
  keys : ∀ k ∈ reader.keysOf before, k ∈ reader.keysOf dual
  drops : ∃ final, Drops reader dual final

theorem drops_of_reads (hr : reader.Lawful) (h : reader.Reads text L) {g : List String}
    {gs : List (List String)} (hg : L.groups = g :: gs) (hne : reader.entry g ≠ []) :
    ∃ final, Drops reader text final := by
  obtain ⟨final, g', hdrop, hfinal, hentry⟩ := h.drop hr hg
  refine ⟨final, hdrop, ⟨_, hfinal⟩, fun k hk => ?_⟩
  have hkeys := h.keysOf hr
  have hkeys' := hfinal.keysOf hr
  rw [Reader.primary, hkeys, hg, List.flatMap_cons, List.append_assoc, ← List.append_assoc,
    List.head?_append_of_ne_nil _ (by simp [hne])] at hk
  have hmem := List.mem_of_mem_head? hk
  rw [hkeys']
  simp only [Layout.withGroups, List.flatMap_cons, List.flatMap_nil, List.append_nil, hentry,
    ← List.append_assoc]
  exact List.mem_append_left _ hmem

theorem Config.inserts (hr : reader.Lawful) (h : Config reader text) (epochSecs : Nat)
    (bytes : KeyBytes) :
    ∃ dual, insertPrimaryKey text (rotationKeyName epochSecs) (base64Encode bytes.1) = .ok dual ∧
      Inserts reader text dual := by
  obtain ⟨L, h⟩ := h
  obtain ⟨dual, hdual, hreads⟩ := h.insert epochSecs bytes
  refine ⟨dual, hdual, ⟨_, hreads⟩, fun k hk => ?_, ?_⟩
  · rw [h.keysOf hr] at hk
    rw [hreads.keysOf hr]
    simp only [Layout.withGroups, List.flatMap_cons, List.mem_append] at hk ⊢
    tauto
  · refine drops_of_reads hr hreads rfl ?_
    rw [hr.written]
    simp

variable {ρ : Type}

namespace State

variable {s s' : State ρ} {k k' : Step Unit}

/-- Every row can be decrypted with the installed config. -/
def Covered (reader : Reader) (s : State ρ) : Prop :=
  ∀ row ∈ s.rows, ∀ k ∈ row.key, k ∈ reader.keysOf s.file

structure Sound (reader : Reader) (s : State ρ) : Prop where
  config : Config reader s.file
  loaded : ∀ k ∈ reader.primary s.loaded, k ∈ reader.keysOf s.file
  covered : s.Covered reader

/-- The rows, the fresh ones at least, and what the apiserver writes need no key but those of
the text. -/
structure Kept (reader : Reader) (s : State ρ) (text : String) (all : Bool) : Prop where
  rows : ∀ row ∈ s.rows, all = true ∨ row.fresh = true → ∀ k ∈ row.key, k ∈ reader.keysOf text
  loaded : ∀ k ∈ reader.primary s.loaded, k ∈ reader.keysOf text
  file : ∀ k ∈ reader.primary s.file, k ∈ reader.keysOf text

/-- What comes after the config was installed. -/
inductive Next (reader : Reader) (file : String) : Step Unit → Prop
  | first {final : String} (h : Drops reader file final) (yes : Bool) (keyName : String) :
      Next reader file (rotateHealthz 1 >>= fun _ => stage2 yes keyName file)
  | last (keyName : String) : Next reader file (rotateHealthz 3 >>= fun _ => rotateVerify keyName)

/-- What is so of the control plane when a run has the program `k` before it. -/
inductive Phase (reader : Reader) (s : State ρ) : Step Unit → Prop
  | ended (o : Except Failure Unit) : Phase reader s (ExceptT.mk (.done o))
  | confirming (prompt : String) (yes : Bool) {k : Step Unit} (h : Phase reader s k) :
      Phase reader s (confirm prompt yes >>= fun _ => k)
  | fetching (yes : Bool) : Phase reader s (rotateFetchConfig >>= newKey yes)
  | drawing (yes : Bool) : Phase reader s (newKey yes s.file)
  | naming (yes : Bool) (bytes : KeyBytes) : Phase reader s
      (Exec.observe (Program.perform .clock) >>= fun now =>
        edited (insertPrimaryKey s.file (rotationKeyName now) (base64Encode bytes.1)) >>= fun dual =>
        stage1 yes (rotationKeyName now) dual)
  | uploading {text : String} {k : Step Unit} (hc : Config reader text)
      (hk : s.Kept reader text true) (hn : Next reader text k) :
      Phase reader s (rotateInstallConfig text >>= fun _ => k)
  | installing {text : String} {k : Step Unit} (hc : Config reader text)
      (hk : s.Kept reader text true) (hs : s.staged = some text) (hn : Next reader text k) :
      Phase reader s (installScript >>= fun _ => k)
  | installed {k : Step Unit} (h : Next reader s.file k) : Phase reader s k
  | reencrypting {final : String} (h : Drops reader s.file final)
      (hk : s.listing = true → s.Kept reader final false) (yes : Bool) (keyName : String) :
      Phase reader s (reencryptAndDrop yes keyName s.file)
  | verifying (keyName : String) : Phase reader s (rotateVerify keyName)

/-- Nothing but rows and what the apiserver has loaded changed. -/
theorem Phase.frame (h : Phase reader s k) (hfile : s'.file = s.file) (hstaged : s'.staged = s.staged)
    (hall : ∀ text, s.Kept reader text true → s'.Kept reader text true)
    (hfresh : ∀ final, Drops reader s.file final → (s.listing = true → s.Kept reader final false) →
      s'.listing = true → s'.Kept reader final false) : Phase reader s' k := by
  induction h with
  | ended o => exact .ended o
  | confirming prompt yes h ih => exact .confirming prompt yes ih
  | fetching yes => exact .fetching yes
  | drawing yes =>
    rw [← hfile]
    exact .drawing yes
  | naming yes bytes =>
    rw [← hfile]
    exact .naming yes bytes
  | uploading hc hk hn => exact .uploading hc (hall _ hk) hn
  | installing hc hk hs hn => exact .installing hc (hall _ hk) (hstaged.trans hs) hn
  | installed h =>
    rw [← hfile] at h
    exact .installed h
  | reencrypting h hk yes keyName =>
    rw [← hfile]
    refine .reencrypting (hfile ▸ h) (hfresh _ h hk) yes keyName
  | verifying keyName => exact .verifying keyName

/-- After the answer the run is in a phase again. -/
def Answers (reader : Reader) (s : State ρ) (p : Program Query Reply (Except Failure Unit)) : Prop :=
  s.Sound reader ∧ ∃ k : Step Unit, p = k.run ∧ Phase reader s k

theorem answers_ended (hs : s.Sound reader) (o : Except Failure Unit) :
    s.Answers reader (.done o) := ⟨hs, _, rfl, .ended o⟩

theorem Kept.sound (hc : Config reader text) (hk : s.Kept reader text true) (hf : s'.file = text)
    (hr : s'.rows = s.rows) (hl : s'.loaded = s.loaded) : s'.Sound reader where
  config := hf ▸ hc
  loaded := by
    rw [hl, hf]
    exact hk.loaded
  covered := by
    intro row hrow k hkey
    rw [hf]
    exact hk.rows row (hr ▸ hrow) (.inl rfl) k hkey

theorem Sound.kept (hs : s.Sound reader) (h : Inserts reader s.file text) :
    s.Kept reader text true where
  rows := fun row hrow _ k hk => h.keys k (hs.covered row hrow k hk)
  loaded := fun k hk => h.keys k (hs.loaded k hk)
  file := fun k hk => h.keys k (List.mem_of_mem_head? hk)

section Answer

variable {q q' : Query} {next : Reply q → Program Query Reply (Except Failure Unit)} {r : Reply q}

/-- The answer to the query that the program puts next. -/
theorem answers_ask {f : Reply q' → Step Unit}
    (hk : (Exec.observe (Program.perform q') >>= f : Step Unit).run = .ask q next)
    (he : s.effect q r = some s')
    (h : ∀ r, s.effect q' r = some s' → s'.Answers reader (f r).run) : s'.Answers reader (next r) := by
  obtain ⟨rfl, hn⟩ := Program.ask.inj hk
  obtain rfl := eq_of_heq hn
  exact h r he

theorem answers_settled {ε α : Type} {source : ε → String} {text : String} {x : Except ε α}
    {g : α → Step Unit} (hs : s.Sound reader)
    (h : ∀ a, x = .ok a → s.Answers reader (g a).run) :
    s.Answers reader (settled source text x >>= g).run := by
  cases x with
  | error e => exact answers_ended hs _
  | ok a => exact h a rfl

theorem answer_confirming {prompt : String} {yes : Bool} (hs : s.Sound reader)
    (h : Phase reader s k) (ih : k.run = .ask q next → s'.Answers reader (next r))
    (hk : (confirm prompt yes >>= fun _ => k).run = .ask q next) (he : s.effect q r = some s') :
    s'.Answers reader (next r) := by
  cases yes with
  | true => exact ih hk
  | false =>
    have hk : ((Exec.observe (Program.perform (.confirm prompt)) >>= answered prompt) >>=
        fun _ => k : Step Unit).run = .ask q next := hk
    rw [bind_assoc] at hk
    refine answers_ask hk he fun r he => ?_
    obtain rfl := Option.some.inj he
    cases r with
    | notTerminal => exact answers_ended hs _
    | readFailed e => exact answers_ended hs _
    | line answer =>
      rw [answered]
      by_cases ha : isAffirmative answer = true
      · rw [if_pos ha]
        exact ⟨hs, k, rfl, h⟩
      · rw [if_neg ha]
        exact answers_ended hs _

theorem answer_fetching {yes : Bool} (hs : s.Sound reader)
    (hk : (rotateFetchConfig >>= newKey yes).run = .ask q next) (he : s.effect q r = some s') :
    s'.Answers reader (next r) := by
  rw [rotateFetchConfig, bind_assoc, bind_assoc] at hk
  refine answers_ask hk he fun r he => ?_
  cases r with
  | error e =>
    obtain rfl := Option.some.inj he
    exact answers_ended hs _
  | ok text =>
    obtain ⟨rfl, h⟩ := Option.ite_none_right_eq_some.mp he
    obtain rfl := Option.some.inj h
    refine answers_settled hs fun a ha => ?_
    obtain rfl := Except.ok.inj ha
    by_cases hb : isBlank s.file = true
    · rw [if_pos hb]
      exact answers_ended hs _
    · rw [if_neg hb]
      exact ⟨hs, newKey yes s.file, rfl, .drawing yes⟩

theorem answer_drawing {yes : Bool} (hs : s.Sound reader)
    (hk : (newKey yes s.file).run = .ask q next) (he : s.effect q r = some s') :
    s'.Answers reader (next r) := by
  rw [newKey, randomKeyBytes, bind_assoc] at hk
  refine answers_ask hk he fun r he => ?_
  obtain rfl := Option.some.inj he
  exact answers_settled hs fun bytes _ => ⟨hs, _, rfl, .naming yes bytes⟩

theorem answer_naming (hr : reader.Lawful) {yes : Bool} {bytes : KeyBytes} (hs : s.Sound reader)
    (hk : (Exec.observe (Program.perform .clock) >>= fun now =>
      edited (insertPrimaryKey s.file (rotationKeyName now) (base64Encode bytes.1)) >>= fun dual =>
      stage1 yes (rotationKeyName now) dual : Step Unit).run = .ask q next)
    (he : s.effect q r = some s') : s'.Answers reader (next r) := by
  refine answers_ask hk he fun now he => ?_
  obtain rfl := Option.some.inj he
  obtain ⟨dual, hdual, hins⟩ := hs.config.inserts hr now bytes
  obtain ⟨final, hdrops⟩ := hins.drops
  rw [hdual]
  exact ⟨hs, stage1 yes (rotationKeyName now) dual, rfl,
    .confirming _ _ (.uploading hins.config (hs.kept hins) (.first hdrops yes _))⟩

theorem answer_uploading (hs : s.Sound reader) (hc : Config reader text)
    (hkept : s.Kept reader text true) (hn : Next reader text k)
    (hk : (rotateInstallConfig text >>= fun _ => k).run = .ask q next)
    (he : s.effect q r = some s') : s'.Answers reader (next r) := by
  rw [rotateInstallConfig, uploadConfig, bind_assoc, bind_assoc] at hk
  refine answers_ask hk he fun r he => ?_
  cases r with
  | error e =>
    obtain rfl := Option.some.inj he
    refine answers_ended ?_ _
    exact ⟨hs.config, hs.loaded, hs.covered⟩
  | ok u =>
    obtain rfl := Option.some.inj he
    have hkept' : Kept reader { s with staged := some text } text true :=
      ⟨hkept.rows, hkept.loaded, hkept.file⟩
    exact ⟨⟨hs.config, hs.loaded, hs.covered⟩, installScript >>= fun _ => k, rfl,
      .installing hc hkept' rfl hn⟩

/-- The file is the new one or still the old one. -/
theorem sound_installed (hs : s.Sound reader) (hc : Config reader text)
    (hkept : s.Kept reader text true) (hstaged : s.staged = some text) {n : Nat}
    (h : s.installed n = some s') : s'.Sound reader := by
  unfold installed at h
  rw [hstaged] at h
  match n with
  | 0 =>
    obtain rfl := Option.some.inj h
    exact hs
  | 1 =>
    obtain rfl := Option.some.inj h
    exact hkept.sound hc rfl rfl rfl
  | n + 2 =>
    obtain rfl := Option.some.inj h
    exact hkept.sound hc rfl rfl rfl

theorem answer_installing (hs : s.Sound reader) (hc : Config reader text)
    (hkept : s.Kept reader text true) (hstaged : s.staged = some text) (hn : Next reader text k)
    (hk : (installScript >>= fun _ => k).run = .ask q next)
    (he : s.effect q r = some s') : s'.Answers reader (next r) := by
  rw [installScript, bind_assoc] at hk
  refine answers_ask hk he fun r he => ?_
  cases r with
  | error e => exact answers_ended (sound_installed hs hc hkept hstaged he) _
  | ok u =>
    have hs' := sound_installed hs hc hkept hstaged he
    refine ⟨hs', k, rfl, .installed ?_⟩
    have he : s.installed 3 = some s' := he
    unfold installed at he
    rw [hstaged] at he
    obtain rfl := Option.some.inj he
    exact hn

theorem answer_installed (hs : s.Sound reader) (h : Next reader s.file k)
    (hk : k.run = .ask q next) (he : s.effect q r = some s')
    (hl : s.listing = true → q = .reencrypt) : s'.Answers reader (next r) := by
  have hlist : q = .healthz → s.listing = false := by
    rintro rfl
    by_contra hx
    rw [Bool.not_eq_false] at hx
    cases hl hx
  have hq : q = .healthz := by
    cases h with
    | first h yes keyName => exact (Program.ask.inj hk).1.symm
    | last keyName => exact (Program.ask.inj hk).1.symm
  have hlisting := hlist hq
  cases h with
  | @first final h yes keyName =>
    rw [rotateHealthz, bind_assoc] at hk
    refine answers_ask hk he fun r he => ?_
    obtain rfl := Option.some.inj he
    cases r with
    | error e => exact answers_ended hs _
    | ok u =>
      have hphase : Phase reader s (reencryptAndDrop yes keyName s.file) :=
        .reencrypting h (fun hx => by rw [hlisting] at hx; cases hx) yes keyName
      exact ⟨hs, stage2 yes keyName s.file, rfl, .confirming _ _ hphase⟩
  | last keyName =>
    rw [rotateHealthz, bind_assoc] at hk
    refine answers_ask hk he fun r he => ?_
    obtain rfl := Option.some.inj he
    cases r with
    | error e => exact answers_ended hs _
    | ok u => exact ⟨hs, rotateVerify keyName, rfl, .verifying keyName⟩

theorem answer_reencrypting {final keyName : String} {yes : Bool} (hs : s.Sound reader)
    (h : Drops reader s.file final) (hkept : s.listing = true → s.Kept reader final false)
    (hk : (reencryptAndDrop yes keyName s.file).run = .ask q next) (he : s.effect q r = some s') :
    s'.Answers reader (next r) := by
  rw [reencryptAndDrop, rotateReencrypt, bind_assoc] at hk
  refine answers_ask hk he fun r he => ?_
  cases r with
  | error e =>
    obtain rfl := Option.some.inj he
    refine answers_ended ?_ _
    exact ⟨hs.config, hs.loaded, hs.covered⟩
  | ok u =>
    obtain ⟨⟨hlisting, hfresh⟩, he⟩ := Option.ite_none_right_eq_some.mp he
    obtain rfl := Option.some.inj he
    have hk' := hkept hlisting
    have hall : Kept reader { s with listing := false } final true :=
      ⟨fun row hrow _ => hk'.rows row hrow (.inr (List.all_eq_true.mp hfresh row hrow)),
        hk'.loaded, hk'.file⟩
    refine answers_settled ⟨hs.config, hs.loaded, hs.covered⟩ fun _ _ => ?_
    rw [h.eq]
    exact ⟨⟨hs.config, hs.loaded, hs.covered⟩, stage3 yes keyName final, rfl,
      .confirming _ _ (.uploading h.config hall (.last keyName))⟩

theorem answer_verifying {keyName : String} (hs : s.Sound reader)
    (hk : (rotateVerify keyName).run = .ask q next) (he : s.effect q r = some s') :
    s'.Answers reader (next r) := by
  rw [rotateVerify] at hk
  refine answers_ask hk he fun r he => ?_
  obtain rfl := Option.some.inj he
  cases r with
  | error e => exact answers_ended hs _
  | ok u => exact answers_ended hs _

/-- An answer takes a run from phase to phase. -/
theorem Phase.answer (hr : reader.Lawful) (hs : s.Sound reader) (h : Phase reader s k)
    (hk : k.run = .ask q next) (he : s.effect q r = some s')
    (hl : s.listing = true → q = .reencrypt) : s'.Answers reader (next r) := by
  induction h with
  | ended o => cases hk
  | confirming prompt yes h ih => exact answer_confirming hs h ih hk he
  | fetching yes => exact answer_fetching hs hk he
  | drawing yes => exact answer_drawing hs hk he
  | naming yes bytes => exact answer_naming hr hs hk he
  | uploading hc hkept hn => exact answer_uploading hs hc hkept hn hk he
  | installing hc hkept hstaged hn => exact answer_installing hs hc hkept hstaged hn hk he
  | installed h => exact answer_installed hs h hk he hl
  | reencrypting h hkept yes keyName => exact answer_reencrypting hs h hkept hk he
  | verifying keyName => exact answer_verifying hs hk he

end Answer

theorem effect_listing {q : Query} {r : Reply q} (he : s.effect q r = some s')
    (h : s'.listing = true) : s.listing = true ∧ q ≠ .reencrypt := by
  have hinstalled : ∀ n, s.installed n = some s' → s.listing = true := by
    intro n hn
    unfold installed at hn
    split at hn
    · cases hn
      exact h
    · cases hn
    · cases hn
      exact h
    · cases hn
      exact h
  cases q with
  | readConfig =>
    cases r with
    | error e =>
      cases he
      exact ⟨h, by simp⟩
    | ok text =>
      obtain ⟨-, he⟩ := Option.ite_none_right_eq_some.mp he
      cases he
      exact ⟨h, by simp⟩
  | upload yaml =>
    cases r <;> cases he <;> exact ⟨h, by simp⟩
  | install =>
    cases r with
    | error e => exact ⟨hinstalled _ he, by simp⟩
    | ok u => exact ⟨hinstalled _ he, by simp⟩
  | reencrypt =>
    cases r with
    | error e =>
      cases he
      cases h
    | ok u =>
      obtain ⟨-, he⟩ := Option.ite_none_right_eq_some.mp he
      cases he
      cases h
  | _ =>
    cases he
    exact ⟨h, by simp⟩

/-- The run of the state is in one of its phases; rows are listed only while it waits for the
re-encryption. -/
structure Inv (reader : Reader) (s : State ρ) : Prop where
  answers : s.Answers reader s.run
  listing : s.listing = true → ∃ next, s.run = .ask .reencrypt next

/-- When Stage 2 lists the rows, the apiserver already encrypts with the first key of the installed
config. -/
def Reloaded (reader : Reader) (s : State ρ) (a : Act ρ) : Prop :=
  match a with
  | .listRows => reader.primary s.loaded = reader.primary s.file
  | _ => True

variable [DecidableEq ρ] {a : Act ρ}

theorem Inv.answer (hr : reader.Lawful) (hi : s.Inv reader) {x : Exchange Reply}
    (h : step reader s (.answer x) = some s') : s'.Inv reader := by
  obtain ⟨q, r⟩ := x
  obtain ⟨hs, k, hk, hphase⟩ := hi.answers
  simp only [step] at h
  split at h
  · cases h
  · next q' next hrun =>
    split at h
    · next hq =>
      subst hq
      obtain ⟨s₁, he, rfl⟩ := Option.map_eq_some_iff.mp h
      have hl : s.listing = true → q = .reencrypt := by
        intro hl
        obtain ⟨next', hrun'⟩ := hi.listing hl
        exact (Program.ask.inj (hrun.symm.trans hrun')).1
      obtain ⟨hs₁, k', hk', hphase'⟩ := hphase.answer hr hs (hk.symm.trans hrun) he hl
      refine ⟨⟨⟨hs₁.config, hs₁.loaded, hs₁.covered⟩, k', hk', ?_⟩, fun hx => ?_⟩
      · exact hphase'.frame rfl rfl (fun _ hkept => ⟨hkept.rows, hkept.loaded, hkept.file⟩)
          fun _ _ hkept hx => ⟨(hkept hx).rows, (hkept hx).loaded, (hkept hx).file⟩
      · obtain ⟨hlisting, hne⟩ := effect_listing he hx
        exact absurd (hl hlisting) hne
    · cases h

omit [DecidableEq ρ] in
/-- A step that leaves the run, the files and the listing alone. -/
theorem Inv.frame (hi : s.Inv reader) (hrun : s'.run = s.run) (hfile : s'.file = s.file)
    (hstaged : s'.staged = s.staged) (hlisting : s'.listing = s.listing)
    (hsound : s'.Sound reader)
    (hkept : ∀ text all, s.Kept reader text all → s'.Kept reader text all) : s'.Inv reader := by
  obtain ⟨-, k, hk, hphase⟩ := hi.answers
  refine ⟨⟨hsound, k, hrun.trans hk, ?_⟩, fun hx => ?_⟩
  · exact hphase.frame hfile hstaged (fun _ hk => hkept _ _ hk)
      fun _ _ hk hx => hkept _ _ (hk (hlisting ▸ hx))
  · rw [hrun]
    exact hi.listing (hlisting ▸ hx)

theorem Inv.listRows (hi : s.Inv reader) (hc : s.Reloaded reader .listRows)
    (h : step reader s .listRows = some s') : s'.Inv reader := by
  obtain ⟨hs, k, hk, hphase⟩ := hi.answers
  simp only [step] at h
  split at h
  · next next hrun =>
    obtain rfl := Option.some.inj h
    have hrows : ∀ row ∈ s.rows.map (fun row => { row with fresh := false }),
        row.fresh = false ∧ ∃ row' ∈ s.rows, row'.key = row.key := by
      intro row hrow
      obtain ⟨row', hrow', rfl⟩ := List.mem_map.mp hrow
      exact ⟨rfl, row', hrow', rfl⟩
    refine ⟨⟨⟨hs.config, hs.loaded, fun row hrow k hkey => ?_⟩, k, hk, ?_⟩, fun _ => ⟨next, hrun⟩⟩
    · obtain ⟨-, row', hrow', hkey'⟩ := hrows row hrow
      exact hs.covered row' hrow' k (hkey' ▸ hkey)
    · refine hphase.frame rfl rfl (fun _ hkept => ⟨fun row hrow _ k hkey => ?_, hkept.loaded, hkept.file⟩)
        fun final hd _ _ => ⟨fun row hrow hx => ?_, fun k hk => ?_, hd.primary⟩
      · obtain ⟨-, row', hrow', hkey'⟩ := hrows row hrow
        exact hkept.rows row' hrow' (.inl rfl) k (hkey' ▸ hkey)
      · obtain ⟨hfresh, -⟩ := hrows row hrow
        rw [hfresh] at hx
        simp at hx
      · rw [show reader.primary s.loaded = reader.primary s.file from hc] at hk
        exact hd.primary k hk
  · cases h

theorem Inv.step (hr : reader.Lawful) (hi : s.Inv reader) (hc : s.Reloaded reader a)
    (h : State.step reader s a = some s') : s'.Inv reader := by
  obtain ⟨hs, k, hk, hphase⟩ := hi.answers
  cases a with
  | start yes =>
    simp only [State.step] at h
    split at h
    · obtain rfl := Option.some.inj h
      exact ⟨⟨⟨hs.config, hs.loaded, hs.covered⟩, runRotateKey yes, rfl,
        .confirming _ _ (.fetching yes)⟩, fun hx => by cases hx⟩
    · cases h
  | answer x => exact hi.answer hr h
  | kill =>
    obtain rfl := Option.some.inj h
    exact ⟨⟨⟨hs.config, hs.loaded, hs.covered⟩, _, rfl, .ended _⟩, fun hx => by cases hx⟩
  | listRows => exact hi.listRows hc h
  | reload =>
    obtain rfl := Option.some.inj h
    exact hi.frame rfl rfl rfl rfl ⟨hs.config, fun k hk => List.mem_of_mem_head? hk, hs.covered⟩
      fun _ _ hkept => ⟨hkept.rows, hkept.file, hkept.file⟩
  | write id =>
    obtain rfl := Option.some.inj h
    refine hi.frame rfl rfl rfl rfl ⟨hs.config, hs.loaded, ?_⟩ fun _ _ hkept =>
      ⟨?_, hkept.loaded, hkept.file⟩
    · refine List.forall_mem_cons.mpr ⟨hs.loaded, fun row hrow => ?_⟩
      exact hs.covered row (List.mem_of_mem_filter hrow)
    · refine List.forall_mem_cons.mpr ⟨fun _ => hkept.loaded, fun row hrow => ?_⟩
      exact hkept.rows row (List.mem_of_mem_filter hrow)
  | delete id =>
    obtain rfl := Option.some.inj h
    exact hi.frame rfl rfl rfl rfl
      ⟨hs.config, hs.loaded, fun row hrow => hs.covered row (List.mem_of_mem_filter hrow)⟩
      fun _ _ hkept => ⟨fun row hrow => hkept.rows row (List.mem_of_mem_filter hrow),
        hkept.loaded, hkept.file⟩

/-- No rotation is under way, the config can be edited, and what is stored and what the apiserver
writes can be read with it. -/
structure Initial (reader : Reader) (s : State ρ) : Prop where
  sound : s.Sound reader
  run : s.run = idle
  listing : s.listing = false

omit [DecidableEq ρ] in
theorem Initial.inv (h : s.Initial reader) : s.Inv reader :=
  ⟨⟨h.sound, _, h.run, .ended _⟩, fun hx => by rw [h.listing] at hx; cases hx⟩

end State

theorem rotateKey_keeps_keys {ρ : Type} [DecidableEq ρ] {reader : Reader} (hr : reader.Lawful)
    {s : State ρ} {as : List (Act ρ)} (hs : s.Initial reader)
    (hc : Meets (State.step reader) (State.Reloaded reader) s as) :
    Always (State.step reader) (State.Covered reader) s as :=
  always_of_meets (fun _ _ _ hi hc h => State.Inv.step hr hi hc h)
    (fun _ hi => hi.answers.1.covered) hs.inv hc

def sampleLayout : Layout where
  head := ["resources:", "  - resources: [secrets]", "    providers:", "      - aesgcm:",
    "          keys:"]
  groups := [keyEntry 12 "bootstrap" "b2xk"]
  tail := ["      - identity: \x7b\x7d"]
  keysIndent := 10
  entryIndent := 12

def sampleText : String := "\n".intercalate sampleLayout.lines ++ "\n"

def sampleKey : Key := ⟨"bootstrap", "b2xk"⟩

theorem sampleLayout_ok : sampleLayout.Ok where
  head := ⟨["resources:", "  - resources: [secrets]", "    providers:"], "      - aesgcm:", [],
    "          keys:", [], rfl, by decide, by decide, by simp, by decide, by decide, by decide, by simp⟩
  groups := by
    intro g hg
    obtain rfl := List.mem_singleton.mp hg
    exact Reader.isGroup_keyEntry (by decide)
  tail := ⟨by decide, by decide⟩
  columns := by decide
  plain := by decide

theorem sampleText_reads : pairReader.Reads sampleText sampleLayout where
  lines := by
    refine (lines_intercalate (fun l hl => ?_) (by simp [Layout.lines, sampleLayout])).1
    exact Layout.oneLine_of_plainLine (sampleLayout_ok.plain l hl)
  ok := sampleLayout_ok
  entries := by simp [sampleLayout]
  opens := trivial

theorem keysOf_sampleText : pairReader.keysOf sampleText = [sampleKey] := by
  rw [sampleText_reads.keysOf pairReader_lawful]
  have hhead : pairs sampleLayout.head = [] := by decide
  have htail : pairs sampleLayout.tail = [] := by decide
  show pairs sampleLayout.head ++ ([keyEntry 12 "bootstrap" "b2xk"].flatMap pairs ++
    pairs sampleLayout.tail) = _
  rw [hhead, htail, List.flatMap_singleton, pairs_keyEntry]
  rfl

/-- One Secret, under the key of the config that is installed and loaded. -/
def sampleState : State Unit :=
  ⟨sampleText, none, sampleText, [⟨(), some sampleKey, false⟩], State.idle, false⟩

theorem sampleState_initial : sampleState.Initial pairReader where
  sound := by
    refine ⟨⟨_, sampleText_reads⟩, fun k hk => List.mem_of_mem_head? hk, fun row hrow k hk => ?_⟩
    obtain rfl := List.mem_singleton.mp hrow
    obtain rfl := Option.some.inj hk
    show sampleKey ∈ pairReader.keysOf sampleText
    rw [keysOf_sampleText]
    exact List.mem_singleton_self _
  run := rfl
  listing := rfl

section Answered

variable {reader : Reader} {s s₁ : State ρ} [DecidableEq ρ]

theorem step_answer {q : Query} {r : Reply q} (s₁ : State ρ) {f : Reply q → Step Unit} {k : Step Unit}
    (hrun : s.run = (Exec.observe (Program.perform q) >>= f : Step Unit).run)
    (he : s.effect q r = some s₁) (hk : (f r).run = k.run) :
    State.step reader s (.answer ⟨q, r⟩) = some { s₁ with run := k.run } := by
  simp only [State.step]
  rw [hrun]
  simp [Exec.observe, he, hk]

theorem settled_ok {ε α : Type} {source : ε → String} {text : String} {a : α} {g : α → Step Unit} :
    (settled source text (.ok a) >>= g).run = (g a).run := rfl

theorem step_fetched {yes : Bool} (hrun : s.run = (rotateFetchConfig >>= newKey yes).run)
    (hb : isBlank s.file = false) : State.step reader s (.answer ⟨.readConfig, .ok s.file⟩) =
      some { s with run := (newKey yes s.file).run } := by
  rw [rotateFetchConfig, bind_assoc, bind_assoc] at hrun
  refine step_answer _ hrun (if_pos rfl) ?_
  rw [settled_ok, hb]
  rfl

theorem step_drawn {yes : Bool} {text : String} {bytes : KeyBytes}
    (hrun : s.run = (newKey yes text).run) :
    State.step reader s (.answer ⟨.keyBytes, .ok bytes⟩) = some { s with run :=
      (Exec.observe (Program.perform .clock) >>= fun now =>
        edited (insertPrimaryKey text (rotationKeyName now) (base64Encode bytes.1)) >>= fun dual =>
        stage1 yes (rotationKeyName now) dual : Step Unit).run } := by
  rw [newKey, randomKeyBytes, bind_assoc] at hrun
  exact step_answer _ hrun rfl rfl

theorem step_named {yes : Bool} {text dual : String} {bytes : KeyBytes} {now : Nat}
    (hrun : s.run = (Exec.observe (Program.perform .clock) >>= fun now =>
      edited (insertPrimaryKey text (rotationKeyName now) (base64Encode bytes.1)) >>= fun dual =>
      stage1 yes (rotationKeyName now) dual : Step Unit).run)
    (hdual : insertPrimaryKey text (rotationKeyName now) (base64Encode bytes.1) = .ok dual) :
    State.step reader s (.answer ⟨.clock, now⟩) =
      some { s with run := (stage1 yes (rotationKeyName now) dual).run } := by
  refine step_answer _ hrun rfl ?_
  rw [hdual]
  rfl

theorem step_uploaded {text : String} {k : Step Unit}
    (hrun : s.run = (rotateInstallConfig text >>= fun _ => k).run) :
    State.step reader s (.answer ⟨.upload text, .ok ()⟩) =
      some { s with staged := some text, run := (installScript >>= fun _ => k).run } := by
  rw [rotateInstallConfig, uploadConfig, bind_assoc, bind_assoc] at hrun
  exact step_answer { s with staged := some text } hrun rfl rfl

theorem step_installed {text : String} {k : Step Unit}
    (hrun : s.run = (installScript >>= fun _ => k).run) (hs : s.staged = some text) :
    State.step reader s (.answer ⟨.install, .ok ()⟩) =
      some { s with file := text, staged := none, run := k.run } := by
  rw [installScript, bind_assoc] at hrun
  refine step_answer { s with file := text, staged := none } hrun ?_ rfl
  show s.installed 3 = _
  unfold State.installed
  rw [hs]
  rfl

theorem step_healthy {stage : Nat} {k : Step Unit}
    (hrun : s.run = (rotateHealthz stage >>= fun _ => k).run) :
    State.step reader s (.answer ⟨.healthz, .ok ()⟩) = some { s with run := k.run } := by
  rw [rotateHealthz, bind_assoc] at hrun
  exact step_answer _ hrun rfl rfl

theorem step_listed {yes : Bool} {keyName dual : String}
    (hrun : s.run = (reencryptAndDrop yes keyName dual).run) :
    State.step reader s .listRows = some { s with
      rows := s.rows.map fun row => { row with fresh := false }, listing := true } := by
  simp only [State.step]
  rw [hrun, reencryptAndDrop, rotateReencrypt, bind_assoc]
  rfl

theorem step_reencrypted {yes : Bool} {keyName dual final : String}
    (hrun : s.run = (reencryptAndDrop yes keyName dual).run) (hl : s.listing = true)
    (hf : s.rows.all Row.fresh = true) (hfinal : dropNonPrimaryKeys dual = .ok final) :
    State.step reader s (.answer ⟨.reencrypt, .ok ()⟩) =
      some { s with listing := false, run := (stage3 yes keyName final).run } := by
  rw [reencryptAndDrop, rotateReencrypt, bind_assoc] at hrun
  refine step_answer { s with listing := false } hrun (if_pos ⟨hl, hf⟩) ?_
  rw [settled_ok, hfinal]
  rfl

end Answered

def sampleBytes : KeyBytes := ⟨List.replicate 32 0, List.length_replicate⟩

def sampleTime : Nat := 1782000000

/-- A rotation with `--yes` in which every command succeeds, up to the install of Stage 3; the
apiserver reads the Stage 1 config before Stage 2 or not at all. -/
def rotation (dual final : String) (reloads : Bool) : List (Act Unit) :=
  [.start true, .answer ⟨.readConfig, .ok sampleText⟩, .answer ⟨.keyBytes, .ok sampleBytes⟩,
    .answer ⟨.clock, sampleTime⟩, .answer ⟨.upload dual, .ok ()⟩, .answer ⟨.install, .ok ()⟩,
    .answer ⟨.healthz, .ok ()⟩] ++ (if reloads then [.reload] else []) ++
  [.listRows, .write (), .answer ⟨.reencrypt, .ok ()⟩, .answer ⟨.upload final, .ok ()⟩,
    .answer ⟨.install, .ok ()⟩]

/-- The first part of the rotation, up to Stage 2. -/
theorem exec_stage1 {dual : String}
    (hdual : insertPrimaryKey sampleText (rotationKeyName sampleTime) (base64Encode sampleBytes.1) =
      .ok dual) :
    exec (State.step pairReader) sampleState [.start true, .answer ⟨.readConfig, .ok sampleText⟩,
      .answer ⟨.keyBytes, .ok sampleBytes⟩, .answer ⟨.clock, sampleTime⟩,
      .answer ⟨.upload dual, .ok ()⟩, .answer ⟨.install, .ok ()⟩, .answer ⟨.healthz, .ok ()⟩] =
      some ⟨dual, none, sampleText, [⟨(), some sampleKey, false⟩],
        (reencryptAndDrop true (rotationKeyName sampleTime) dual).run, false⟩ := by
  have hblank : isBlank sampleText = false := by decide +kernel
  refine exec_cons.mpr ⟨_, rfl, exec_cons.mpr ⟨_, step_fetched rfl hblank, exec_cons.mpr ⟨_, step_drawn rfl,
    exec_cons.mpr ⟨_, step_named rfl hdual, exec_cons.mpr ⟨_, step_uploaded rfl,
    exec_cons.mpr ⟨_, step_installed rfl rfl, exec_cons.mpr ⟨_, step_healthy rfl, rfl⟩⟩⟩⟩⟩⟩⟩

theorem exec_rotation {dual final : String} (reloads : Bool)
    (hdual : insertPrimaryKey sampleText (rotationKeyName sampleTime) (base64Encode sampleBytes.1) =
      .ok dual) (hfinal : dropNonPrimaryKeys dual = .ok final) :
    ∃ s, exec (State.step pairReader) sampleState (rotation dual final reloads) = some s ∧
      s.file = final ∧
      s.rows = [⟨(), pairReader.primary (if reloads then dual else sampleText), true⟩] := by
  refine ⟨⟨final, none, if reloads then dual else sampleText,
    [⟨(), pairReader.primary (if reloads then dual else sampleText), true⟩],
    (rotateHealthz 3 >>= fun _ => rotateVerify (rotationKeyName sampleTime) : Step Unit).run, false⟩,
    ?_, rfl, rfl⟩
  rw [rotation, List.append_assoc]
  refine exec_append.mpr ⟨_, exec_stage1 hdual, exec_append.mpr ⟨⟨dual, none,
    if reloads then dual else sampleText, [⟨(), some sampleKey, false⟩],
    (reencryptAndDrop true (rotationKeyName sampleTime) dual).run, false⟩, ?_, ?_⟩⟩
  · cases reloads <;> rfl
  · refine exec_cons.mpr ⟨_, step_listed rfl, exec_cons.mpr ⟨_, rfl,
      exec_cons.mpr ⟨_, step_reencrypted rfl rfl rfl hfinal, exec_cons.mpr ⟨_, step_uploaded rfl,
      exec_cons.mpr ⟨_, step_installed rfl rfl, rfl⟩⟩⟩⟩⟩

theorem sample_texts : ∃ dual final,
    insertPrimaryKey sampleText (rotationKeyName sampleTime) (base64Encode sampleBytes.1) = .ok dual ∧
    dropNonPrimaryKeys dual = .ok final ∧ sampleKey ∉ pairReader.keysOf final := by
  obtain ⟨dual, hdual, hreads⟩ := sampleText_reads.insert sampleTime sampleBytes
  obtain ⟨final, g, hfinal, hreads', hentry⟩ := hreads.drop pairReader_lawful rfl
  refine ⟨dual, final, hdual, hfinal, ?_⟩
  have hkeys : pairReader.keysOf final =
      [⟨rotationKeyName sampleTime, base64Encode sampleBytes.1⟩] := by
    have hhead : pairs sampleLayout.head = [] := by decide
    have htail : pairs sampleLayout.tail = [] := by decide
    rw [hreads'.keysOf pairReader_lawful]
    show pairs sampleLayout.head ++ ([g].flatMap pairReader.entry ++ pairs sampleLayout.tail) = _
    rw [hhead, htail, List.flatMap_singleton, hentry, pairReader_lawful.written]
    rfl
  have hname : sampleKey.name ≠ rotationKeyName sampleTime := by decide +kernel
  rw [hkeys, List.mem_singleton]
  exact fun h => hname (congrArg Key.name h)

theorem meets_reloaded {reader : Reader} {as : List (Act Unit)} (h : ∀ a ∈ as, a ≠ .listRows) :
    ∀ {s}, Meets (State.step reader) (State.Reloaded reader) s as := by
  induction as with
  | nil => exact trivial
  | cons a as ih =>
    intro s
    obtain ⟨ha, has⟩ := List.forall_mem_cons.mp h
    refine ⟨?_, fun s' _ => ih has⟩
    cases a <;> first | exact absurd rfl ha | trivial

theorem rotateKey_keeps_keys_reloaded : ∃ dual final s,
    exec (State.step pairReader) sampleState (rotation dual final true) = some s ∧ s.file = final ∧
    Always (State.step pairReader) (State.Covered pairReader) sampleState (rotation dual final true) := by
  obtain ⟨dual, final, hdual, hfinal, -⟩ := sample_texts
  obtain ⟨s, hs, hfile, -⟩ := exec_rotation true hdual hfinal
  refine ⟨dual, final, s, hs, hfile, rotateKey_keeps_keys pairReader_lawful sampleState_initial ?_⟩
  rw [rotation, List.append_assoc]
  refine (meets_append (exec_stage1 hdual)).mpr ⟨meets_reloaded (by simp), trivial, ?_⟩
  intro s₁ hs₁
  obtain rfl := Option.some.inj hs₁
  exact ⟨rfl, fun s₂ _ => meets_reloaded (by simp)⟩

/-- The apiserver still runs on the old config when Stage 2 rewrites the Secret, and Stage 3 drops
the key that this was done with. -/
theorem rotateKey_loses_row : ∃ dual final s,
    exec (State.step pairReader) sampleState (rotation dual final false) = some s ∧ s.file = final ∧
    ¬ s.Covered pairReader ∧
    ¬ Always (State.step pairReader) (State.Covered pairReader) sampleState
      (rotation dual final false) := by
  obtain ⟨dual, final, hdual, hfinal, hlost⟩ := sample_texts
  obtain ⟨s, hs, hfile, hrows⟩ := exec_rotation false hdual hfinal
  have hprimary : pairReader.primary sampleText = some sampleKey := by
    rw [Reader.primary, keysOf_sampleText]
    rfl
  have hcovered : ¬ s.Covered pairReader := by
    intro hc
    have hrow : (⟨(), some sampleKey, true⟩ : Row Unit) ∈ s.rows := by
      rw [hrows, if_neg Bool.false_ne_true, hprimary, List.mem_singleton]
    have hkey := hc _ hrow sampleKey rfl
    rw [hfile] at hkey
    exact hlost hkey
  exact ⟨dual, final, s, hs, hfile, hcovered,
    fun h => hcovered (always_iff.mp h _ s List.prefix_rfl hs)⟩

end Hbird.Etcd.Rotation
