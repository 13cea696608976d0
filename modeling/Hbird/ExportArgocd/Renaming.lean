import Hbird.Cuts
import Hbird.ExportArgocd.Kubeconfig

namespace Hbird.ExportArgocd

open Hbird.Lines Hbird.Text

section Lines

variable {line indent after p p' t t' url name ws ws' s s' cs input : List Char} {c c' : Char}

theorem indent_unique (h : IsIndent ws) (h' : IsIndent ws') (hc : isWhitespace c = false)
    (hc' : isWhitespace c' = false) (hsame : ws ++ c :: s = ws' ++ c' :: s') :
    ws = ws' ∧ c = c' ∧ s = s' := by
  have hws : ws = ws' := by
    rw [← takeWhile_indent h hc, hsame, takeWhile_indent h' hc']
  subst hws
  exact ⟨rfl, List.cons.inj (List.append_cancel_left hsame)⟩

/-- The key of a place: what a line with it begins with, behind its indentation. -/
theorem slot_head (h : Slot p t) : ∃ ws c cs, IsIndent ws ∧ isWhitespace c = false ∧ c ≠ 's' ∧
    p = ws ++ c :: cs := by
  cases h with
  | @name lead gap _ hlead hgap ht =>
    obtain rfl | ⟨-, hindent⟩ := hlead
    · exact ⟨[], '-', ' ' :: ("name:".toList ++ gap), fun c hc => absurd hc List.not_mem_nil,
        by decide, by decide, rfl⟩
    · exact ⟨lead, 'n', "ame:".toList ++ gap, hindent, by decide, by decide, List.append_assoc _ _ _⟩
  | @user indent hindent => exact ⟨indent, 'u', "ser: ".toList, hindent, by decide, by decide, rfl⟩
  | @cluster indent hindent =>
    exact ⟨indent, 'c', "luster: ".toList, hindent, by decide, by decide, rfl⟩
  | current =>
    exact ⟨[], 'c', "urrent-context: ".toList, fun c hc => absurd hc List.not_mem_nil, by decide,
      by decide, rfl⟩

/-- A place ends in a white space. -/
theorem slot_last (h : Slot p t) : ∃ front c, p = front ++ [c] ∧ isWhitespace c = true := by
  cases h with
  | @name lead gap _ hlead hgap ht =>
    have hne : gap ≠ [] := by
      rintro rfl
      exact absurd hgap.1 (by decide)
    refine ⟨lead ++ "name:".toList ++ gap.dropLast, gap.getLast hne, ?_, hgap.2 _ (List.getLast_mem hne)⟩
    rw [List.append_assoc _ gap.dropLast, List.dropLast_append_getLast hne]
  | @user indent _ => exact ⟨indent ++ "user:".toList, ' ', by rw [List.append_assoc]; rfl, by decide⟩
  | @cluster indent _ =>
    exact ⟨indent ++ "cluster:".toList, ' ', by rw [List.append_assoc]; rfl, by decide⟩
  | current => exact ⟨"current-context:".toList, ' ', rfl, by decide⟩

theorem slot_target (h : Slot p t) : t ∈ defaultNames := by
  cases h with
  | name _ _ ht => exact ht
  | user _ => decide
  | cluster _ => decide
  | current => decide

/-- A text without white space. -/
def IsWord (t : List Char) : Prop := t ≠ [] ∧ ∀ c ∈ t, isWhitespace c = false

theorem isWord_default (h : t ∈ defaultNames) : IsWord t := by
  have hwords : defaultNames.all (fun t => t ≠ [] && t.all fun c => !isWhitespace c) = true := rfl
  have ht := List.all_eq_true.mp hwords t h
  rw [Bool.and_eq_true, decide_eq_true_eq, List.all_eq_true] at ht
  exact ⟨ht.1, fun c hc => by simpa using ht.2 c hc⟩

theorem isWhitespace_of_nameChar
    (h : (c.isAlphanum || c = '.' || c = '_' || c = '-') = true) : isWhitespace c = false := by
  have hrange : (48 ≤ c.toNat ∧ c.toNat ≤ 57) ∨ (65 ≤ c.toNat ∧ c.toNat ≤ 90) ∨
      (97 ≤ c.toNat ∧ c.toNat ≤ 122) ∨ c = '.' ∨ c = '_' ∨ c = '-' := by
    simp only [Char.isAlphanum, Char.isAlpha, Char.isUpper, Char.isLower, Char.isDigit,
      Bool.or_eq_true, Bool.and_eq_true, decide_eq_true_eq, ge_iff_le, UInt32.le_iff_toNat_le] at h
    have hv : c.val.toNat = c.toNat := rfl
    rw [hv] at h
    obtain ((h | h) | h) | h := h
    · simp at h
      omega
    all_goals simp [h]
  obtain h | h | h | rfl | rfl | rfl := hrange
  · simp only [isWhitespace, Bool.or_eq_false_iff, Bool.and_eq_false_iff, decide_eq_false_iff_not,
      beq_eq_false_iff_ne]
    omega
  · simp only [isWhitespace, Bool.or_eq_false_iff, Bool.and_eq_false_iff, decide_eq_false_iff_not,
      beq_eq_false_iff_ne]
    omega
  · simp only [isWhitespace, Bool.or_eq_false_iff, Bool.and_eq_false_iff, decide_eq_false_iff_not,
      beq_eq_false_iff_ne]
    omega
  · decide
  · decide
  · decide

theorem isWord_of_valid {s : String} (h : validateContextName s = .ok ()) : IsWord s.toList := by
  rw [validateContextName] at h
  split_ifs at h with hempty hall
  refine ⟨fun hs => hempty (String.toList_inj.mp hs), fun c hc => ?_⟩
  exact isWhitespace_of_nameChar (List.all_eq_true.mp hall c hc)

theorem slot_unique (h : Slot p t) (h' : Slot p' t') {w w' : List Char} (hw : IsWord w) (hw' : IsWord w')
    (hsame : p ++ w = p' ++ w') : p = p' ∧ w = w' := by
  obtain ⟨front, c, rfl, hc⟩ := slot_last h
  obtain ⟨front', c', rfl, hc'⟩ := slot_last h'
  have hsplit : ∀ {front w : List Char} {c : Char}, isWhitespace c = true → IsWord w →
      (front ++ [c] ++ w).rtakeWhile (fun c => !isWhitespace c) = w := by
    intro front w c hc hw
    rw [List.append_assoc, List.singleton_append]
    exact rtakeWhile_append (by rw [hc]; rfl) (fun x hx => by rw [hw.2 x hx]; rfl) front
  have hword : w = w' := by rw [← hsplit hc hw, hsame, hsplit hc' hw']
  subst hword
  exact ⟨List.append_cancel_right hsame, rfl⟩

/-- What a line comes to. -/
theorem rewriteLine_cases (url name line : List Char) :
    (∃ indent after, IsServerLine line indent after ∧
      rewriteLine url name line = indent ++ "server: ".toList ++ url) ∨
    (∃ p t, Slot p t ∧ line = p ++ t ∧ rewriteLine url name line = p ++ name) ∨
    rewriteLine url name line = line := by
  by_cases hserver : ∃ indent after, IsServerLine line indent after
  · obtain ⟨indent, after, h⟩ := hserver
    exact .inl ⟨indent, after, h, rewriteLine_server h⟩
  by_cases hslot : ∃ p t, Slot p t ∧ line = p ++ t
  · obtain ⟨p, t, h, rfl⟩ := hslot
    exact .inr (.inl ⟨p, t, h, rfl, rewriteLine_slot h⟩)
  · refine .inr (.inr (rewriteLine_other (fun indent after h => hserver ⟨indent, after, h⟩) ?_))
    exact fun p t h hline => hslot ⟨p, t, h, hline⟩

theorem not_serverLine_slot (h : Slot p t) (w : List Char) : ¬ IsServerLine (p ++ w) indent after := by
  obtain ⟨ws, c, cs, hws, hc, hs, rfl⟩ := slot_head h
  rintro ⟨hindent, hline⟩
  rw [List.append_assoc, List.append_assoc] at hline
  exact hs (indent_unique hws hindent hc (by decide) hline).2.1

theorem rewriteLine_idempotent (hname : IsWord name) :
    rewriteLine url name (rewriteLine url name line) = rewriteLine url name line := by
  obtain ⟨indent, after, h, hout⟩ | ⟨p, t, h, rfl, hout⟩ | hout := rewriteLine_cases url name line
  · rw [hout]
    have hagain : IsServerLine (indent ++ "server: ".toList ++ url) indent (' ' :: url) :=
      ⟨h.1, append_space _ _ _ rfl⟩
    exact rewriteLine_server hagain
  · rw [hout]
    obtain ⟨indent, after, h', -⟩ | ⟨p', t', h', hsame, hout'⟩ | hout' :=
      rewriteLine_cases url name (p ++ name)
    · exact absurd h' (not_serverLine_slot h name)
    · obtain ⟨rfl, -⟩ := slot_unique h h' hname (isWord_default (slot_target h')) hsame
      exact hout'
    · exact hout'
  · rw [hout, hout]

theorem rewriteLine_ne_nil (hname : IsWord name) (hline : line ≠ []) :
    rewriteLine url name line ≠ [] := by
  obtain ⟨indent, after, -, hout⟩ | ⟨p, t, h, rfl, hout⟩ | hout := rewriteLine_cases url name line
  · rw [hout]
    simp
  · rw [hout]
    exact fun hnil => hname.1 (List.append_eq_nil_iff.mp hnil).2
  · rwa [hout]

theorem isLineBreak_whitespace (h : isLineBreak c = true) : isWhitespace c = true := by
  simp only [isLineBreak, Bool.or_eq_true, beq_iff_eq] at h
  obtain rfl | rfl := h <;> decide

/-- A word at the end of a line ends in no line break. -/
theorem rtakeWhile_word {w : List Char} (hw : IsWord w) (s : List Char) :
    (s ++ w).rtakeWhile isLineBreak = [] := by
  obtain ⟨hne, hword⟩ := hw
  rw [← List.dropLast_append_getLast hne, ← List.append_assoc]
  refine List.rtakeWhile_concat_neg _ _ _ fun hbreak => ?_
  have hspace := isLineBreak_whitespace hbreak
  rw [hword _ (List.getLast_mem hne)] at hspace
  cases hspace

theorem rtakeWhile_server (indent url : List Char) :
    (indent ++ "server: ".toList ++ url).rtakeWhile isLineBreak = url.rtakeWhile isLineBreak := by
  induction url using List.reverseRecOn with
  | nil =>
    rw [List.append_nil, show "server: ".toList = "server:".toList ++ [' '] from rfl,
      ← List.append_assoc]
    exact List.rtakeWhile_concat_neg _ _ _ (by decide)
  | append_singleton url c ih =>
    rw [← List.append_assoc, List.rtakeWhile_concat, List.rtakeWhile_concat, ih]

theorem lineFeed_word {w : List Char} (hw : IsWord w) : '\n' ∉ w := fun h =>
  absurd (hw.2 _ h) (by decide)

/-- What the rewriting of a line without a line feed does to its end. -/
theorem rewriteLine_end (hname : IsWord name) (hline : '\n' ∉ line) :
    ('\n' ∉ rewriteLine url name line ∧
      (rewriteLine url name line).rtakeWhile isLineBreak = line.rtakeWhile isLineBreak) ↔
      ∀ indent after, IsServerLine line indent after →
        '\n' ∉ url ∧ url.rtakeWhile isLineBreak = line.rtakeWhile isLineBreak := by
  by_cases hserver : ∃ indent after, IsServerLine line indent after
  · obtain ⟨indent, after, h⟩ := hserver
    rw [rewriteLine_server h, rtakeWhile_server]
    have hfeed : '\n' ∉ indent ++ "server: ".toList ++ url ↔ '\n' ∉ url := by
      have hindent : '\n' ∉ indent := fun hmem => hline (by rw [h.2]; simp [hmem])
      have hkey : '\n' ∉ "server: ".toList := by
        decide
      simp only [List.mem_append, hindent, hkey, false_or]
    rw [hfeed]
    exact ⟨fun hkept _ _ _ => hkept, fun hall => hall indent after h⟩
  · have hnone : ∀ indent after, ¬ IsServerLine line indent after := fun indent after h =>
      hserver ⟨indent, after, h⟩
    obtain ⟨indent, after, h, -⟩ | ⟨p, t, h, rfl, hout⟩ | hout := rewriteLine_cases url name line
    · exact absurd h (hnone indent after)
    · rw [hout]
      rw [List.mem_append, not_or] at hline
      refine iff_of_true ⟨?_, ?_⟩ fun indent after h => absurd h (hnone indent after)
      · exact List.mem_append.not.mpr (not_or.mpr ⟨hline.1, lineFeed_word hname⟩)
      · rw [rtakeWhile_word hname, rtakeWhile_word (isWord_default (slot_target h))]
    · rw [hout]
      exact iff_of_true ⟨hline, rfl⟩ fun indent after h => absurd h (hnone indent after)

/-- The lines stay as they are, and the rename is made once, exactly when the URL fits in the place of
each server. -/
theorem keepsLines_iff (hname : IsWord name) : KeepsLines url name input ↔ ServersKept url input := by
  have hends : terminators '\n' isLineBreak (rewriteText url name input) =
      terminators '\n' isLineBreak input ↔ ServersKept url input := by
    rw [rewriteText, terminators_mapLines_iff rfl fun l hl => rewriteLine_ne_nil hname hl]
    exact forall₂_congr fun l hl => rewriteLine_end hname (mem_bodies hl)
  refine ⟨fun h => hends.mp h.terminators, fun h => ⟨mapLines_mapLines fun l hl => ?_, hends.mpr h⟩⟩
  exact ⟨((rewriteLine_end hname (mem_bodies hl)).mpr (h l hl)).1, rewriteLine_ne_nil hname,
    rewriteLine_idempotent hname⟩

end Lines

section Places

variable {p t url name : List Char} {k : Kind} {lead : Lead} {indent : Nat} {value : Value} {l l' : Line}

theorem isIndent_spaces (n : Nat) : IsIndent (spaces n) := fun _ hc =>
  List.eq_of_mem_replicate hc ▸ by decide

theorem isIndent_nil : IsIndent [] := fun _ hc => absurd hc List.not_mem_nil

theorem Line.lineFeed (l : Line) : '\n' ∉ l.text := by
  cases l with
  | unrelated text => exact text.2
  | definition k lead value =>
    simp only [Line.text, List.mem_append, not_or]
    exact ⟨⟨lead.lineFeed, by decide⟩, value.oneLine⟩
  | reference k indent value =>
    simp only [Line.text, List.mem_append, not_or]
    exact ⟨⟨lineFeed_spaces _, k.lineFeed_referenceKey⟩, value.oneLine⟩
  | server indent value =>
    simp only [Line.text, List.mem_append, not_or]
    refine ⟨⟨lineFeed_spaces _, by decide⟩, ?_⟩
    cases value with
    | none => exact List.not_mem_nil
    | some value => exact value.oneLine

theorem definition_head (k : Kind) (lead : Lead) (value : Value) : ∃ c cs, isWhitespace c = false ∧
    (c = 'n' ∨ c = '-') ∧ (Line.definition k lead value).text = spaces lead.indent ++ c :: cs := by
  rw [Line.text, Lead.text]
  cases lead.dash with
  | none => exact ⟨'n', "ame:".toList ++ value.text, by decide, .inl rfl, by simp⟩
  | some gap =>
    exact ⟨'-', spaces (gap + 1) ++ "name:".toList ++ value.text, by decide, .inr rfl, by simp⟩

theorem reference_head (k : Kind) : ∃ c cs, isWhitespace c = false ∧ (c = 'c' ∨ c = 'u') ∧
    k.referenceKey = c :: cs := by
  cases k with
  | cluster => exact ⟨'c', "luster:".toList, by decide, .inl rfl, rfl⟩
  | context => exact ⟨'c', "urrent-context:".toList, by decide, .inl rfl, rfl⟩
  | user => exact ⟨'u', "ser:".toList, by decide, .inr rfl, rfl⟩

theorem lead_unique {lead' a b : List Char} (hlead : IsNameLead lead')
    (h : lead.text ++ ("name:".toList ++ a) = lead' ++ ("name:".toList ++ b)) : lead.text = lead' := by
  obtain ⟨n, dash⟩ := lead
  rw [Lead.text] at h ⊢
  cases dash with
  | none =>
    rw [List.append_nil] at h ⊢
    obtain rfl | ⟨-, hindent⟩ := hlead
    · exact absurd (indent_unique (isIndent_spaces n) isIndent_nil (by decide) (by decide) h).2.1 (by decide)
    · exact (indent_unique (isIndent_spaces n) hindent (by decide) (by decide) h).1
  | some gap =>
    dsimp only at h ⊢
    rw [List.append_assoc, List.cons_append] at h
    obtain rfl | ⟨-, hindent⟩ := hlead
    · obtain ⟨hn, -, hrest⟩ := indent_unique (isIndent_spaces n) isIndent_nil (by decide) (by decide) h
      have hgap : spaces (gap + 1) = [' '] :=
        (indent_unique (isIndent_spaces _) (isIndent_spaces 1) (by decide) (by decide) hrest).1
      rw [hn, hgap]
      rfl
    · exact absurd (indent_unique (isIndent_spaces n) hindent (by decide) (by decide) h).2.1 (by decide)

/-- A default name in the place of a definition's. -/
theorem definition_slot (h : Slot p t) (htext : (Line.definition k lead value).text = p ++ t) :
    ∃ gap, value.text = gap ++ t ∧ p = lead.text ++ "name:".toList ++ gap ∧ IsNameGap gap := by
  obtain ⟨c, cs, hc, hcases, hhead⟩ := definition_head k lead value
  have hother : ∀ {ws c' s}, IsIndent ws → isWhitespace c' = false → c' ≠ 'n' → c' ≠ '-' →
      (Line.definition k lead value).text ≠ ws ++ c' :: s := by
    intro ws c' s hws hc' hn hd hsame
    rw [hhead] at hsame
    obtain ⟨-, rfl, -⟩ := indent_unique (isIndent_spaces _) hws hc hc' hsame
    exact hcases.elim hn hd
  cases h with
  | @name lead' gap _ hlead hgap ht =>
    rw [Line.text, List.append_assoc, List.append_assoc, List.append_assoc] at htext
    have hsame := lead_unique hlead htext
    rw [hsame] at htext
    exact ⟨gap, List.append_cancel_left (List.append_cancel_left htext), by rw [hsame], hgap⟩
  | user hindent =>
    rw [List.append_assoc] at htext
    exact absurd htext (hother hindent (by decide) (by decide) (by decide))
  | cluster hindent =>
    rw [List.append_assoc] at htext
    exact absurd htext (hother hindent (by decide) (by decide) (by decide))
  | current =>
    have hcurrent : (Line.definition k lead value).text = [] ++ 'c' :: ("urrent-context: ".toList ++
        kubernetesAdminAtKubernetes) := htext
    exact absurd hcurrent (hother isIndent_nil (by decide) (by decide) (by decide))

theorem reference_slot (h : Slot p t) (htext : (Line.reference k indent value).text = p ++ t) :
    value.text = ' ' :: t ∧ p = spaces indent ++ k.referenceKey ++ [' '] := by
  obtain ⟨c, cs, hc, hcases, hkey⟩ := reference_head k
  have hunique : ∀ {ws c' s}, IsIndent ws → isWhitespace c' = false →
      (Line.reference k indent value).text = ws ++ c' :: s →
        spaces indent = ws ∧ k.referenceKey ++ value.text = c' :: s := by
    intro ws c' s hws hc' hsame
    rw [Line.text, List.append_assoc, hkey, List.cons_append] at hsame
    obtain ⟨hindent, rfl, hrest⟩ := indent_unique (isIndent_spaces _) hws hc hc' hsame
    rw [hkey, List.cons_append, hrest]
    exact ⟨hindent, rfl⟩
  cases h with
  | @name lead' gap _ hlead hgap ht =>
    obtain ⟨d, ds, hdrop, hd⟩ := dropWhile_nameLead hlead (gap ++ t)
    rw [← List.append_assoc, ← List.append_assoc, ← htext, Line.text, List.append_assoc, hkey,
      List.cons_append, dropWhile_indent (isIndent_spaces _) hc] at hdrop
    obtain ⟨rfl, -⟩ := List.cons.inj hdrop
    obtain rfl | rfl := hcases
    · exact absurd hd (by decide)
    · exact absurd hd (by decide)
  | user hindent =>
    rw [List.append_assoc] at htext
    obtain ⟨rfl, hrest⟩ := hunique hindent (by decide) htext
    cases k with
    | cluster => exact absurd (List.cons.inj hrest).1 (by decide)
    | context => exact absurd (List.cons.inj hrest).1 (by decide)
    | user => exact ⟨List.append_cancel_left hrest, by rw [List.append_assoc]; rfl⟩
  | cluster hindent =>
    rw [List.append_assoc] at htext
    obtain ⟨rfl, hrest⟩ := hunique hindent (by decide) htext
    cases k with
    | cluster => exact ⟨List.append_cancel_left hrest, by rw [List.append_assoc]; rfl⟩
    | context => exact absurd (List.cons.inj (List.cons.inj hrest).2).1 (by decide)
    | user => exact absurd (List.cons.inj hrest).1 (by decide)
  | current =>
    have hcurrent : (Line.reference k indent value).text = [] ++ 'c' :: ("urrent-context: ".toList ++
        kubernetesAdminAtKubernetes) := htext
    obtain ⟨hindent, hrest⟩ := hunique isIndent_nil (by decide) hcurrent
    rw [hindent]
    cases k with
    | cluster => exact absurd (List.cons.inj (List.cons.inj hrest).2).1 (by decide)
    | context => exact ⟨List.append_cancel_left hrest, rfl⟩
    | user => exact absurd (List.cons.inj hrest).1 (by decide)

theorem definition_not_server {ws after : List Char} :
    ¬ IsServerLine (Line.definition k lead value).text ws after := by
  obtain ⟨c, cs, hc, hcases, hhead⟩ := definition_head k lead value
  rintro ⟨hindent, hline⟩
  rw [hhead, List.append_assoc] at hline
  obtain ⟨-, rfl, -⟩ := indent_unique (isIndent_spaces _) hindent hc (by decide) hline
  exact absurd hcases (by decide)

theorem reference_not_server {ws after : List Char} :
    ¬ IsServerLine (Line.reference k indent value).text ws after := by
  obtain ⟨c, cs, hc, hcases, hkey⟩ := reference_head k
  rintro ⟨hindent, hline⟩
  rw [Line.text, List.append_assoc, hkey, List.cons_append, List.append_assoc] at hline
  obtain ⟨-, rfl, -⟩ := indent_unique (isIndent_spaces _) hindent hc (by decide) hline
  exact absurd hcases (by decide)

/-- The line `l` becomes the line `l'`. -/
def Rewritten (url name : List Char) (l l' : Line) : Prop :=
  SamePlace l l' ∧ l'.text = rewriteLine url name l.text

variable {v v' : Value} {read : List Char → Option (List Char)} {gap w w' : List Char}

theorem value_eq (h : v.text = v'.text) : v = v' := by
  cases v
  cases v'
  simpa using h

theorem definition_replaced (h : (Line.definition k lead v').text =
      rewriteLine url name (Line.definition k lead v).text)
    (ht : IsReplaced name (Line.definition k lead v).text t) :
    ∃ gap, v.text = gap ++ t ∧ v'.text = gap ++ name ∧ IsNameGap gap := by
  obtain ⟨-, p, hslot, htext⟩ := ht
  obtain ⟨gap, hv, hp, hgap⟩ := definition_slot hslot htext
  rw [htext, rewriteLine_slot hslot, hp, Line.text, List.append_assoc _ gap] at h
  exact ⟨gap, hv, List.append_cancel_left h, hgap⟩

theorem definition_changed (h : (Line.definition k lead v').text =
      rewriteLine url name (Line.definition k lead v).text) (hne : v ≠ v') :
    ∃ t, IsReplaced name (Line.definition k lead v).text t := by
  obtain ⟨ws, after, hserver, -⟩ | ⟨p, t, hslot, htext, hout⟩ | hout :=
    rewriteLine_cases url name (Line.definition k lead v).text
  · exact absurd hserver definition_not_server
  · refine ⟨t, ?_, p, hslot, htext⟩
    rintro rfl
    rw [hout, ← htext] at h
    exact hne (value_eq (List.append_cancel_left h)).symm
  · rw [hout] at h
    exact absurd (value_eq (List.append_cancel_left h)).symm hne

theorem reference_replaced (h : (Line.reference k indent v').text =
      rewriteLine url name (Line.reference k indent v).text)
    (ht : IsReplaced name (Line.reference k indent v).text t) :
    v.text = ' ' :: t ∧ v'.text = ' ' :: name := by
  obtain ⟨-, p, hslot, htext⟩ := ht
  obtain ⟨hv, hp⟩ := reference_slot hslot htext
  rw [htext, rewriteLine_slot hslot, hp, Line.text, List.append_assoc _ [' ']] at h
  exact ⟨hv, List.append_cancel_left h⟩

theorem reference_changed (h : (Line.reference k indent v').text =
      rewriteLine url name (Line.reference k indent v).text) (hne : v ≠ v') :
    ∃ t, IsReplaced name (Line.reference k indent v).text t := by
  obtain ⟨ws, after, hserver, -⟩ | ⟨p, t, hslot, htext, hout⟩ | hout :=
    rewriteLine_cases url name (Line.reference k indent v).text
  · exact absurd hserver reference_not_server
  · refine ⟨t, ?_, p, hslot, htext⟩
    rintro rfl
    rw [hout, ← htext] at h
    exact hne (value_eq (List.append_cancel_left h)).symm
  · rw [hout] at h
    exact absurd (value_eq (List.append_cancel_left h)).symm hne

/-- A word that is read behind a gap has nothing but blanks in front. -/
theorem blanks_of_read (hread : ReadsNames read) (hblank : gap.head?.any isBlank = true)
    (hgap : IsIndent gap) (hw : IsWord w) (h : read (gap ++ w) = some w) :
    ∀ c ∈ gap, isBlank c = true := by
  have hsplit : gap.takeWhile isBlank ++ gap.dropWhile isBlank = gap := List.takeWhile_append_dropWhile
  have htake : gap.takeWhile isBlank ≠ [] := by
    cases gap with
    | nil => cases hblank
    | cons c gap =>
      have hc : isBlank c = true := by simpa using hblank
      rw [List.takeWhile_cons_of_pos hc]
      exact List.cons_ne_nil _ _
  cases hrest : gap.dropWhile isBlank with
  | nil =>
    rw [hrest, List.append_nil] at hsplit
    rw [← hsplit]
    exact fun c hc => List.mem_takeWhile_imp hc
  | cons c more =>
    have hc : isBlank c = false := by
      have hhead := List.head?_dropWhile_not isBlank gap
      rw [hrest] at hhead
      simpa using hhead
    have hspace : isWhitespace c = true := hgap c (by rw [← hsplit, hrest]; simp)
    rw [← hsplit, hrest, List.append_assoc,
      hread.blanks _ _ htake fun c hc => List.mem_takeWhile_imp hc] at h
    obtain ⟨hne, hword⟩ := hw
    cases w with
    | nil => exact absurd rfl hne
    | cons x w =>
      obtain rfl := hread.keeps _ _ _ _ hspace hc h
      rw [hword x List.mem_cons_self] at hspace
      cases hspace

/-- Of two words behind the same gap, one is read when the other is. -/
theorem read_gap (hread : ReadsNames read) (hv : v.text = gap ++ w) (hgap : IsNameGap gap) (hw : IsWord w)
    (h : read v.text = some w) (s : List Char) : read (gap ++ s) = read (' ' :: s) := by
  have hne : gap ≠ [] := by
    rintro rfl
    exact absurd hgap.1 (by decide)
  have hblank := v.blank
  rw [hv, List.head?_append_of_ne_nil _ hne] at hblank
  rw [hv] at h
  exact hread.blanks _ _ hne (blanks_of_read hread hblank hgap.2 hw h)

end Places

section Document

variable {read : List Char → Option (List Char)} {url name : List Char} {d : Kubeconfig} {k : Kind}
  {lead : Lead} {indent : Nat} {v v' : Value} {t : List Char} {l l' : Line} {ls' : List Line}

theorem lineFeed_text (ls : List Line) : ∀ text ∈ ls.map Line.text, '\n' ∉ text := by
  intro text h
  obtain ⟨l, -, rfl⟩ := List.mem_map.mp h
  exact l.lineFeed

theorem rewriteText_text (url name : List Char) (d : Kubeconfig) : rewriteText url name d.text =
    textOf '\n' d.final (d.lines.map fun l => rewriteLine url name l.text) := by
  rw [rewriteText, Kubeconfig.text, textOfLines, mapLines_textOf rfl (lineFeed_text _), List.map_map]
  rfl

/-- A rewritten line of the document is one line. -/
theorem lineFeed_rewritten (hname : IsWord name) (hservers : ServersKept url d.text) (hl : l ∈ d.lines) :
    '\n' ∉ rewriteLine url name l.text := by
  by_cases hempty : l.text = []
  · rw [hempty]
    exact List.not_mem_nil
  · have hbody : l.text ∈ bodies '\n' d.text :=
      mem_bodies_textOf (lineFeed_text _) (List.mem_map_of_mem hl) hempty
    exact ((rewriteLine_end hname l.lineFeed).mpr (hservers _ hbody)).1

/-- The lines of the rewritten text are the rewritten lines. -/
theorem rewritten_of_text (hname : IsWord name) (hservers : ServersKept url d.text)
    (hplaces : List.Forall₂ SamePlace d.lines ls')
    (htext : rewriteText url name d.text = textOfLines d.final ls') :
    List.Forall₂ (Rewritten url name) d.lines ls' := by
  have hlength := hplaces.length_eq
  rw [rewriteText_text, textOfLines] at htext
  have hlines : ∀ text ∈ d.lines.map (fun l => rewriteLine url name l.text), '\n' ∉ text := by
    intro text h
    obtain ⟨l, hl, rfl⟩ := List.mem_map.mp h
    exact lineFeed_rewritten hname hservers hl
  have hsame := textOf_injective hlines (lineFeed_text ls') (by simp [hlength]) htext
  rw [List.forall₂_iff_get] at hplaces ⊢
  refine ⟨hlength, fun i hi hi' => ⟨hplaces.2 i hi hi', ?_⟩⟩
  have hi₁ : i < (d.lines.map fun l => rewriteLine url name l.text).length := by simpa using hi
  have hget := List.getElem_of_eq hsame hi₁
  simpa using hget.symm

theorem not_replaced_server {value : Option Value} :
    ¬ IsReplaced name (Line.server indent value).text t := by
  rintro ⟨-, p, hslot, htext⟩
  have hserver : IsServerLine (Line.server indent value).text (spaces indent)
      ((value.map Value.text).getD []) := ⟨isIndent_spaces indent, rfl⟩
  rw [htext] at hserver
  exact not_serverLine_slot hslot t hserver

theorem append_server (indent url : List Char) :
    indent ++ "server: ".toList ++ url = indent ++ "server:".toList ++ ' ' :: url :=
  append_space _ _ _ rfl

theorem unrelated_unchanged {text : OneLine}
    (h : text.1 = rewriteLine url name text.1) : (∀ t, ¬ IsReplaced name text.1 t) ∧
      ∀ indent after, IsServerLine text.1 indent after → after = ' ' :: url := by
  constructor
  · rintro t ⟨hne, p, hslot, htext⟩
    rw [htext, rewriteLine_slot hslot] at h
    exact hne (List.append_cancel_left h)
  · intro indent after hserver
    rw [rewriteLine_server hserver, append_server, hserver.2] at h
    exact List.append_cancel_left h

theorem rewriteLine_unrelated {text : OneLine} (hslot : ∀ t, ¬ IsReplaced name text.1 t)
    (hserver : ∀ indent after, IsServerLine text.1 indent after → after = ' ' :: url) :
    rewriteLine url name text.1 = text.1 := by
  obtain ⟨indent, after, h, hout⟩ | ⟨p, t, h, htext, hout⟩ | hout := rewriteLine_cases url name text.1
  · rw [hout, append_server, ← hserver _ _ h, h.2]
  · by_cases hne : t = name
    · rw [hout, htext, hne]
    · exact absurd ⟨hne, p, h, htext⟩ (hslot t)
  · exact hout

/-- The definition that is replaced by a new name read as such was a default name read as such. -/
theorem read_replaced (hread : ReadsNames read) (hname : IsWord name)
    (h : (Line.definition k lead v').text = rewriteLine url name (Line.definition k lead v).text)
    (ht : IsReplaced name (Line.definition k lead v).text t) (hnew : read v'.text = some name) :
    read v.text = some t ∧ read (' ' :: name) = some name := by
  obtain ⟨gap, hv, hv', hgap⟩ := definition_replaced h ht
  obtain ⟨-, p, hslot, -⟩ := ht
  have hgaps := read_gap hread hv' hgap hname hnew
  rw [hv, hgaps, hread.defaults t (slot_target hslot), ← hgaps, ← hv', hnew]
  exact ⟨rfl, rfl⟩

section Whole

variable (hread : ReadsNames read) (hname : IsWord name)
  (hR : List.Forall₂ (Rewritten url name) d.lines ls') (hlines : IsRenaming read name d.lines ls')

include hread hname hR hlines in
/-- A definition that is replaced was read as the default name, and the new name is read as such. -/
theorem definition_renamed (hl : .definition k lead v ∈ d.lines)
    (ht : IsReplaced name (Line.definition k lead v).text t) : ∃ v', v ≠ v' ∧
      (Line.definition k lead v, Line.definition k lead v') ∈ d.lines.zip ls' ∧
        read v.text = some t ∧ read (' ' :: name) = some name := by
  obtain ⟨l', hmem, hplace, hl'⟩ := Cuts.exists_zip_left hR hl
  cases hplace with
  | definition _ _ _ v' =>
    have hne : v ≠ v' := by
      rintro rfl
      obtain ⟨gap, hv, hv', -⟩ := definition_replaced hl' ht
      exact ht.1 (List.append_cancel_left (hv.symm.trans hv'))
    have hnew := (hlines.definitions k lead v v' hmem hne).1
    exact ⟨v', hne, hmem, read_replaced hread hname hl' ht hnew⟩

include hR hlines in
theorem reference_renamed (hl : .reference k indent v ∈ d.lines)
    (ht : IsReplaced name (Line.reference k indent v).text t) : ∃ v',
      (Line.reference k indent v, Line.reference k indent v') ∈ d.lines.zip ls' ∧
        v'.text = ' ' :: name ∧ read (' ' :: name) = some name := by
  obtain ⟨l', hmem, hplace, hl'⟩ := Cuts.exists_zip_left hR hl
  cases hplace with
  | reference _ _ _ v' =>
    obtain ⟨hv, hv'⟩ := reference_replaced hl' ht
    have hne : v ≠ v' := by
      rintro rfl
      exact ht.1 (List.cons.inj (hv.symm.trans hv')).2
    exact ⟨v', hmem, hv', hv' ▸ hlines.references k indent v v' hmem hne⟩

include hR in
theorem unrelated_of_renaming {text : OneLine} (hl : .unrelated text ∈ d.lines) :
    (∀ t, ¬ IsReplaced name text.1 t) ∧
      ∀ indent after, IsServerLine text.1 indent after → after = ' ' :: url := by
  obtain ⟨l', -, hplace, hl'⟩ := Cuts.exists_zip_left hR hl
  cases hplace
  exact unrelated_unchanged hl'

include hread hname hR hlines in
theorem newName_of_renaming (hl : l ∈ d.lines) (ht : IsReplaced name l.text t) :
    read (' ' :: name) = some name := by
  cases l with
  | unrelated text => exact absurd ht ((unrelated_of_renaming hR hl).1 t)
  | definition k lead v =>
    obtain ⟨-, -, -, -, hnew⟩ := definition_renamed hread hname hR hlines hl ht
    exact hnew
  | reference k indent v =>
    obtain ⟨-, -, -, hnew⟩ := reference_renamed hR hlines hl ht
    exact hnew
  | server indent value => exact absurd ht not_replaced_server

include hread hname hR hlines in
/-- The references to a definition that is replaced are replaced with it. -/
theorem definitions_of_renaming (hl : .definition k lead v ∈ d.lines)
    (ht : IsReplaced name (Line.definition k lead v).text t) : read v.text = some t ∧
      ∀ indent r, .reference k indent r ∈ d.lines → read r.text = some t →
        IsReplaced name (Line.reference k indent r).text t := by
  obtain ⟨v', hne, hmem, hold, -⟩ := definition_renamed hread hname hR hlines hl ht
  refine ⟨hold, fun indent r hr hreadr => ?_⟩
  obtain ⟨l', hrmem, hplace, hl'⟩ := Cuts.exists_zip_left hR hr
  cases hplace with
  | reference _ _ _ r' =>
    have hnew := (hlines.definitions k lead v v' hmem hne).2 t hold indent r r' hrmem hreadr
    have hchanged : r ≠ r' := by
      rintro rfl
      rw [hreadr] at hnew
      exact ht.1 (Option.some.inj hnew)
    obtain ⟨t', ht'⟩ := reference_changed hl' hchanged
    obtain ⟨p, hslot, -⟩ := ht'.2
    rw [(reference_replaced hl' ht').1, hread.defaults t' (slot_target hslot)] at hreadr
    rwa [← Option.some.inj hreadr]

include hname hR hlines in
/-- A reference that is replaced refers to a definition that is too, or that has the new name. -/
theorem references_of_renaming (hclosed : Closed read d.lines) (hl : .reference k indent v ∈ d.lines)
    (ht : IsReplaced name (Line.reference k indent v).text t) : Defines read d.lines k name ∨
      ∃ lead v old, .definition k lead v ∈ d.lines ∧
        IsReplaced name (Line.definition k lead v).text old := by
  obtain ⟨v', hmem, hv', hnew⟩ := reference_renamed hR hlines hl ht
  obtain hempty | ⟨n, hn, hdefines⟩ :=
    hlines.closed hclosed k indent v' (List.of_mem_zip hmem).2
  · rw [hv', hnew] at hempty
    exact absurd (Option.some.inj hempty) hname.1
  · rw [hv', hnew] at hn
    obtain rfl := Option.some.inj hn
    obtain ⟨lead, f', hf', hreadf⟩ := hdefines
    obtain ⟨l, hlmem, hplace, hl'⟩ := Cuts.exists_zip_right hR hf'
    cases hplace with
    | definition _ _ f _ =>
      have hf : Line.definition k lead f ∈ d.lines := (List.of_mem_zip hlmem).1
      by_cases hsame : f = f'
      · exact .inl ⟨lead, f, hf, hsame ▸ hreadf⟩
      · obtain ⟨old, hold⟩ := definition_changed hl' hsame
        exact .inr ⟨lead, f, old, hf, hold⟩

end Whole

/-- A rename of the whole is made of lines of the expected forms. -/
theorem isRegular_of_renames (hread : ReadsNames read) (hname : IsWord name)
    (h : Renames read url name d) : IsRegular read url name d := by
  have hservers := (keepsLines_iff hname).mp h.keeps
  obtain ⟨ls', htext, hlines⟩ := h.consistent
  have hR := rewritten_of_text hname hservers hlines.places htext
  exact {
    servers := hservers
    unrelated := fun _ hl => unrelated_of_renaming hR hl
    newName := fun _ hl _ ht => newName_of_renaming hread hname hR hlines hl ht
    definitions := fun _ _ _ _ hl ht => definitions_of_renaming hread hname hR hlines hl ht
    references := fun hclosed _ _ _ _ hl ht =>
      references_of_renaming hname hR hlines hclosed hl ht }

theorem exists_value (hurl : '\n' ∉ url) : ∃ value : Value, value.text = ' ' :: url :=
  ⟨⟨' ' :: url, rfl, List.not_mem_cons_of_ne_of_not_mem (by decide) hurl⟩, rfl⟩

/-- Each line has a line that it becomes. -/
theorem exists_rewritten (hname : IsWord name) (h : IsRegular read url name d) (hl : l ∈ d.lines) :
    ∃ l', Rewritten url name l l' := by
  have hfeed := lineFeed_rewritten hname h.servers hl
  cases l with
  | unrelated text =>
    obtain ⟨hslot, hserver⟩ := h.unrelated text hl
    exact ⟨.unrelated text, .unrelated text, (rewriteLine_unrelated hslot hserver).symm⟩
  | definition k lead v =>
    obtain ⟨ws, after, hserver, -⟩ | ⟨p, t, hslot, htext, hout⟩ | hout :=
      rewriteLine_cases url name (Line.definition k lead v).text
    · exact absurd hserver definition_not_server
    · obtain ⟨gap, hv, hp, hgap⟩ := definition_slot hslot htext
      have hne : gap ≠ [] := by
        rintro rfl
        exact absurd hgap.1 (by decide)
      have hblank := v.blank
      rw [hv, List.head?_append_of_ne_nil _ hne] at hblank
      rw [hout, hp, List.append_assoc, List.mem_append, not_or] at hfeed
      refine ⟨.definition k lead ⟨gap ++ name, ?_, hfeed.2⟩, .definition k lead v _, ?_⟩
      · rwa [List.head?_append_of_ne_nil _ hne]
      · rw [hout, hp, List.append_assoc _ gap]
        rfl
    · exact ⟨.definition k lead v, .definition k lead v v, hout.symm⟩
  | reference k indent v =>
    obtain ⟨ws, after, hserver, -⟩ | ⟨p, t, hslot, htext, hout⟩ | hout :=
      rewriteLine_cases url name (Line.reference k indent v).text
    · exact absurd hserver reference_not_server
    · obtain ⟨hv, hp⟩ := reference_slot hslot htext
      obtain ⟨value, hvalue⟩ := exists_value (lineFeed_word hname)
      refine ⟨.reference k indent value, .reference k indent v _, ?_⟩
      rw [hout, hp, Line.text, hvalue, List.append_assoc _ [' ']]
      rfl
    · exact ⟨.reference k indent v, .reference k indent v v, hout.symm⟩
  | server indent value =>
    have hserver : IsServerLine (Line.server indent value).text (spaces indent)
        ((value.map Value.text).getD []) := ⟨isIndent_spaces indent, rfl⟩
    rw [rewriteLine_server hserver, List.mem_append, not_or] at hfeed
    obtain ⟨value', hvalue'⟩ := exists_value hfeed.2
    refine ⟨.server indent (some value'), .server indent value _, ?_⟩
    rw [rewriteLine_server hserver, append_server, ← hvalue']
    rfl

section Regular

variable (hread : ReadsNames read) (h : IsRegular read url name d)
  (hR : List.Forall₂ (Rewritten url name) d.lines ls')

include hR in
theorem text_of_rewritten : rewriteText url name d.text = textOfLines d.final ls' := by
  have hsame : List.Forall₂ Eq (d.lines.map fun l => rewriteLine url name l.text)
      (ls'.map Line.text) :=
    List.forall₂_map_left_iff.mpr (List.forall₂_map_right_iff.mpr (hR.imp fun l l' h => h.2.symm))
  rw [List.forall₂_eq_eq_eq] at hsame
  rw [rewriteText_text, textOfLines, hsame]

include hread h hR in
/-- A definition that changes was read as a default name, and is read as the new one. -/
theorem definition_read
    (hmem : (Line.definition k lead v, Line.definition k lead v') ∈ d.lines.zip ls') (hne : v ≠ v') :
    ∃ t, read v.text = some t ∧ read v'.text = some name ∧
      ∀ indent r, .reference k indent r ∈ d.lines → read r.text = some t →
        IsReplaced name (Line.reference k indent r).text t := by
  have hrewritten := (List.forall₂_zip hR hmem).2
  obtain ⟨t, ht⟩ := definition_changed hrewritten hne
  have hl : Line.definition k lead v ∈ d.lines := (List.of_mem_zip hmem).1
  obtain ⟨hold, hreferences⟩ := h.definitions k lead v t hl ht
  obtain ⟨gap, hv, hv', hgap⟩ := definition_replaced hrewritten ht
  obtain ⟨p, hslot, -⟩ := ht.2
  refine ⟨t, hold, ?_, hreferences⟩
  rw [hv', read_gap hread hv hgap (isWord_default (slot_target hslot)) hold]
  exact h.newName _ hl t ht

include hread h hR in
theorem reference_read
    (hmem : (Line.reference k indent v, Line.reference k indent v') ∈ d.lines.zip ls')
    (ht : IsReplaced name (Line.reference k indent v).text t) :
    read v.text = some t ∧ read v'.text = some name := by
  obtain ⟨hv, hv'⟩ := reference_replaced (List.forall₂_zip hR hmem).2 ht
  obtain ⟨p, hslot, -⟩ := ht.2
  rw [hv, hv', hread.defaults t (slot_target hslot)]
  exact ⟨rfl, h.newName _ (List.of_mem_zip hmem).1 t ht⟩

include hread h hR in
/-- A reference that stays is one to a definition that stays. -/
theorem closed_unchanged (hclosed : Closed read d.lines)
    (hmem : (Line.reference k indent v, Line.reference k indent v) ∈ d.lines.zip ls') :
    read v.text = some [] ∨ ∃ n, read v.text = some n ∧ Defines read ls' k n := by
  have hl : Line.reference k indent v ∈ d.lines := (List.of_mem_zip hmem).1
  obtain hempty | ⟨n, hn, lead, f, hf, hreadf⟩ := hclosed k indent v hl
  · exact .inl hempty
  · obtain ⟨m, hfmem, hfplace, -⟩ := Cuts.exists_zip_left hR hf
    cases hfplace with
    | definition _ _ _ f' =>
      by_cases hsame : f = f'
      · exact .inr ⟨n, hn, lead, f', (List.of_mem_zip hfmem).2, hsame ▸ hreadf⟩
      · -- The definition is renamed, so the reference would be too.
        obtain ⟨t, hold, -, hreferences⟩ := definition_read hread h hR hfmem hsame
        rw [hreadf] at hold
        obtain rfl := Option.some.inj hold
        have ht := hreferences indent v hl hn
        have hnew := (reference_read hread h hR hmem ht).2
        rw [hn] at hnew
        exact absurd (Option.some.inj hnew) ht.1

include hread h hR in
/-- One that changes finds the new name defined. -/
theorem closed_changed (hclosed : Closed read d.lines)
    (hmem : (Line.reference k indent v, Line.reference k indent v') ∈ d.lines.zip ls') (hne : v ≠ v') :
    read v'.text = some name ∧ Defines read ls' k name := by
  have hl : Line.reference k indent v ∈ d.lines := (List.of_mem_zip hmem).1
  obtain ⟨t, ht⟩ := reference_changed (List.forall₂_zip hR hmem).2 hne
  refine ⟨(reference_read hread h hR hmem ht).2, ?_⟩
  obtain ⟨lead, f, hf, hreadf⟩ | ⟨lead, f, old, hf, hold⟩ := h.references hclosed k indent v t hl ht
  · obtain ⟨m, hfmem, hfplace, -⟩ := Cuts.exists_zip_left hR hf
    cases hfplace with
    | definition _ _ _ f' =>
      refine ⟨lead, f', (List.of_mem_zip hfmem).2, ?_⟩
      by_cases hsame : f = f'
      · rwa [← hsame]
      · obtain ⟨-, -, hnewf, -⟩ := definition_read hread h hR hfmem hsame
        exact hnewf
  · obtain ⟨m, hfmem, hfplace, hftext⟩ := Cuts.exists_zip_left hR hf
    cases hfplace with
    | definition _ _ _ f' =>
      have hsame : f ≠ f' := by
        rintro rfl
        obtain ⟨gap, hv, hv', -⟩ := definition_replaced hftext hold
        exact hold.1 (List.append_cancel_left (hv.symm.trans hv'))
      obtain ⟨-, -, hnewf, -⟩ := definition_read hread h hR hfmem hsame
      exact ⟨lead, f', (List.of_mem_zip hfmem).2, hnewf⟩

include hread h hR in
theorem closed_of_isRegular (hclosed : Closed read d.lines) : Closed read ls' := by
  intro k indent v' hl'
  obtain ⟨l, hmem, hplace, -⟩ := Cuts.exists_zip_right hR hl'
  cases hplace with
  | reference _ _ v _ =>
    by_cases hne : v = v'
    · subst hne
      exact closed_unchanged hread h hR hclosed hmem
    · exact .inr ⟨name, closed_changed hread h hR hclosed hmem hne⟩

include hread h hR in
theorem isRenaming_of_isRegular : IsRenaming read name d.lines ls' where
  places := hR.imp fun _ _ h => h.1
  definitions k lead v v' hmem hne := by
    obtain ⟨t, hold, hnew, hreferences⟩ := definition_read hread h hR hmem hne
    refine ⟨hnew, fun old hreadv indent r r' hrmem hreadr => ?_⟩
    rw [hold] at hreadv
    obtain rfl := Option.some.inj hreadv
    exact (reference_read hread h hR hrmem
      (hreferences indent r (List.of_mem_zip hrmem).1 hreadr)).2
  references k indent v v' hmem hne := by
    obtain ⟨t, ht⟩ := reference_changed (List.forall₂_zip hR hmem).2 hne
    exact (reference_read hread h hR hmem ht).2
  closed := closed_of_isRegular hread h hR

end Regular

/-- Lines of the expected forms make a rename of the whole. -/
theorem renames_of_isRegular (hread : ReadsNames read) (hname : IsWord name)
    (h : IsRegular read url name d) : Renames read url name d := by
  obtain ⟨ls', hR⟩ := Cuts.exists_forall₂ fun l hl => exists_rewritten hname h (l := l) hl
  exact ⟨(keepsLines_iff hname).mpr h.servers, ls', text_of_rewritten hR,
    isRenaming_of_isRegular hread h hR⟩

/-- For every text and every name, the lines are kept exactly when the URL fits in the place of each
server; and the rename of a kubeconfig is one of the whole exactly when its lines have the forms that
the patterns are for. A file that passes the check is rewritten as such a text. -/
theorem rewriteKubeconfig_renames_iff (read : List Char → Option (List Char)) (hread : ReadsNames read)
    (url name : String) (hname : validateContextName name = .ok ()) :
    (∀ input, KeepsLines url.toList name.toList input ↔ ServersKept url.toList input) ∧
      (∀ d, Renames read url.toList name.toList d ↔ IsRegular read url.toList name.toList d) ∧
      ∀ raw, sanityCheckKubeconfig raw = .ok () → ∃ input : String, raw = input.toUTF8 ∧
        rewriteKubeconfig raw url name =
          .ok (String.ofList (rewriteText url.toList name.toList input.toList)).toUTF8 := by
  have hword := isWord_of_valid hname
  refine ⟨fun input => keepsLines_iff hword, fun d => ⟨?_, ?_⟩,
    fun raw hraw => rewriteKubeconfig_checked hraw url name⟩
  · exact isRegular_of_renames hread hword
  · exact renames_of_isRegular hread hword

end Document

section Sample

/-- A scalar without its comment. -/
def beforeComment : List Char → List Char
  | [] => []
  | ' ' :: '#' :: _ => []
  | c :: cs => c :: beforeComment cs

/-- The scalars that need no escapes. -/
def readScalar (rest : List Char) : Option (List Char) :=
  match rest.dropWhile isBlank with
  | [] => none
  | '\'' :: cs => some (cs.takeWhile (· ≠ '\''))
  | '"' :: cs => some (cs.takeWhile (· ≠ '"'))
  | cs => some ((beforeComment cs).rdropWhile isWhitespace)

theorem readScalar_readsNames : ReadsNames readScalar where
  blanks gap s _ hgap := by
    rw [readScalar, readScalar, List.dropWhile_append_of_pos hgap, List.dropWhile_cons_of_pos (by decide)]
  defaults := by
    have hall : defaultNames.all (fun t => readScalar (' ' :: t) = some t) = true := rfl
    exact fun t ht => by simpa using List.all_eq_true.mp hall t ht
  keeps c s x v hspace hblank h := by
    have hdrop : (' ' :: c :: s).dropWhile isBlank = c :: s := by
      rw [List.dropWhile_cons_of_pos (by decide), List.dropWhile_cons_of_neg (by simp [hblank])]
    have hcomment : ∃ r, beforeComment (c :: s) = c :: r := by
      rw [beforeComment.eq_def]
      split
      · next heq => cases heq
      · next heq =>
        obtain rfl := (List.cons.inj heq).1
        cases hblank
      · next heq =>
        obtain ⟨rfl, rfl⟩ := List.cons.inj heq
        exact ⟨_, rfl⟩
    obtain ⟨r, hr⟩ := hcomment
    rw [readScalar, hdrop] at h
    split at h
    · next heq => cases heq
    · next heq =>
      obtain ⟨rfl, -⟩ := List.cons.inj heq
      exact absurd hspace (by decide)
    · next heq =>
      obtain ⟨rfl, -⟩ := List.cons.inj heq
      exact absurd hspace (by decide)
    · have hv := Option.some.inj h
      rw [hr] at hv
      have hprefix := List.rdropWhile_prefix isWhitespace (c :: r)
      rw [hv, List.cons_prefix_cons] at hprefix
      exact hprefix.1

theorem rewriteKubeconfig_renames_sample :
    validateContextName "hummingbird-cp1" = .ok () ∧
      (∀ input, KeepsLines "https://10.0.0.9:6443".toList "hummingbird-cp1".toList input ↔
        ServersKept "https://10.0.0.9:6443".toList input) ∧
      (∀ d, Renames readScalar "https://10.0.0.9:6443".toList "hummingbird-cp1".toList d ↔
        IsRegular readScalar "https://10.0.0.9:6443".toList "hummingbird-cp1".toList d) ∧
      ∀ raw, sanityCheckKubeconfig raw = .ok () → ∃ input : String, raw = input.toUTF8 ∧
        rewriteKubeconfig raw "https://10.0.0.9:6443" "hummingbird-cp1" =
          .ok (String.ofList (rewriteText "https://10.0.0.9:6443".toList "hummingbird-cp1".toList
            input.toList)).toUTF8 :=
  ⟨by decide +kernel, rewriteKubeconfig_renames_iff readScalar readScalar_readsNames
    "https://10.0.0.9:6443" "hummingbird-cp1" (by decide +kernel)⟩

def oneLine (s : String) (h : '\n' ∉ s.toList) : OneLine := ⟨s.toList, h⟩

def plain (s : String) (h : '\n' ∉ s.toList) : Value :=
  ⟨' ' :: s.toList, rfl, List.not_mem_cons_of_ne_of_not_mem (by decide) h⟩

/-- A kubeconfig whose list items are indented. -/
def indentedKubeconfig : Kubeconfig where
  parts := [
    .other (oneLine "apiVersion: v1" (by decide)),
    .list .cluster (oneLine "" (by decide)) 2 [{
      ahead := []
      dash := .inline 0
      first := .body (oneLine "" (by decide)) 1 [.server (some (plain "https://10.0.0.5:6443" (by decide)))]
      members := [.inl (.name (plain "kubernetes" (by decide)))] }],
    .list .context (oneLine "" (by decide)) 2 [{
      ahead := []
      dash := .inline 0
      first := .body (oneLine "" (by decide)) 1 [.cluster (plain "kubernetes" (by decide)),
        .user (plain "kubernetes-admin" (by decide))]
      members := [.inl (.name (plain "kubernetes-admin@kubernetes" (by decide)))] }],
    .currentContext (plain "kubernetes-admin@kubernetes" (by decide)),
    .other (oneLine "kind: Config" (by decide)),
    .list .user (oneLine "" (by decide)) 2 [{
      ahead := []
      dash := .inline 0
      first := .name (plain "kubernetes-admin" (by decide))
      members := [.inl (.body (oneLine "" (by decide)) 1
        [.other (oneLine "      client-certificate-data: REDACTED" (by decide))])] }]]
  final := true

def definitionsOf (k : Kind) (ls : List Line) : List (Lead × List Char) :=
  ls.filterMap fun l => match l with
    | .definition k' lead v => if k' = k then some (lead, v.text) else none
    | _ => none

def referencesOf (k : Kind) (ls : List Line) : List (List Char) :=
  ls.filterMap fun l => match l with
    | .reference k' _ v => if k' = k then some v.text else none
    | _ => none

theorem mem_definitionsOf {k : Kind} {lead : Lead} {v : Value} {ls : List Line}
    (h : .definition k lead v ∈ ls) : (lead, v.text) ∈ definitionsOf k ls :=
  List.mem_filterMap.mpr ⟨_, h, by simp⟩

theorem mem_referencesOf {k : Kind} {indent : Nat} {v : Value} {ls : List Line}
    (h : .reference k indent v ∈ ls) : v.text ∈ referencesOf k ls :=
  List.mem_filterMap.mpr ⟨_, h, by simp⟩

theorem indentedKubeconfig_closed : Closed readScalar indentedKubeconfig.lines := by
  intro k indent v h
  have hv := mem_referencesOf h
  refine .inr ?_
  cases k with
  | cluster =>
    rw [show v.text = " kubernetes".toList from List.mem_singleton.mp hv]
    exact ⟨kubernetes, rfl, ⟨4, none⟩, plain "kubernetes" (by decide),
      List.mem_of_getElem? (show indentedKubeconfig.lines[4]? = _ from rfl), rfl⟩
  | context =>
    rw [show v.text = " kubernetes-admin@kubernetes".toList from List.mem_singleton.mp hv]
    exact ⟨kubernetesAdminAtKubernetes, rfl, ⟨4, none⟩, plain "kubernetes-admin@kubernetes" (by decide),
      List.mem_of_getElem? (show indentedKubeconfig.lines[9]? = _ from rfl), rfl⟩
  | user =>
    rw [show v.text = " kubernetes-admin".toList from List.mem_singleton.mp hv]
    exact ⟨kubernetesAdmin, rfl, ⟨2, some 0⟩, plain "kubernetes-admin" (by decide),
      List.mem_of_getElem? (show indentedKubeconfig.lines[13]? = _ from rfl), rfl⟩

theorem indentedKubeconfig_user {lead : Lead} {v : Value}
    (h : .definition .user lead v ∈ indentedKubeconfig.lines) :
    lead = ⟨2, some 0⟩ ∧ v.text = " kubernetes-admin".toList := by
  have hmem : (lead, v.text) ∈ [((⟨2, some 0⟩ : Lead), " kubernetes-admin".toList)] :=
    mem_definitionsOf h
  exact Prod.mk.inj (List.mem_singleton.mp hmem)

/-- With its items indented the user keeps its name, and the context's reference to it does not. -/
theorem rewriteKubeconfig_dangles :
    looksLikeKubeconfig indentedKubeconfig.text = true ∧
      validateContextName "hummingbird-cp1" = .ok () ∧
      ¬ Renames readScalar "https://10.0.0.9:6443".toList "hummingbird-cp1".toList indentedKubeconfig := by
  have hname : validateContextName "hummingbird-cp1" = .ok () := by
    decide +kernel
  refine ⟨rfl, hname, fun h => ?_⟩
  have hregular := isRegular_of_renames readScalar_readsNames (isWord_of_valid hname) h
  have huser : .reference .user 6 (plain "kubernetes-admin" (by decide)) ∈ indentedKubeconfig.lines :=
    List.mem_of_getElem? (show indentedKubeconfig.lines[8]? = _ from rfl)
  have hreplaced : IsReplaced "hummingbird-cp1".toList
      (Line.reference .user 6 (plain "kubernetes-admin" (by decide))).text kubernetesAdmin :=
    ⟨by decide, _, .user (isIndent_spaces 6), rfl⟩
  obtain ⟨lead, v, hv, hread⟩ | ⟨lead, v, old, hv, hold⟩ :=
    hregular.references indentedKubeconfig_closed .user 6 _ _ huser hreplaced
  · rw [(indentedKubeconfig_user hv).2] at hread
    exact absurd hread (by decide)
  · obtain ⟨hne, p, hslot, htext⟩ := hold
    obtain ⟨rfl, hvalue⟩ := indentedKubeconfig_user hv
    have hline : (Line.definition .user ⟨2, some 0⟩ v).text = "  - name: kubernetes-admin".toList := by
      rw [Line.text, hvalue]
      rfl
    have hsame : rewriteLine [] "hummingbird-cp1".toList "  - name: kubernetes-admin".toList =
        "  - name: kubernetes-admin".toList := rfl
    rw [← hline, htext, rewriteLine_slot hslot] at hsame
    exact hne (List.append_cancel_left hsame).symm

end Sample

end Hbird.ExportArgocd
