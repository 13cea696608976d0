import Hbird.Lines
import Hbird.Text

namespace Hbird.ExportArgocd

open Hbird.Lines Hbird.Text

/-- `validate_context_name`. -/
def validateContextName (s : String) : Except String Unit :=
  if s = "" then .error "--context-name must not be empty"
  else if s.toList.all fun c => c.isAlphanum || c = '.' || c = '_' || c = '-' then .ok ()
  else .error ("--context-name must match [A-Za-z0-9._-]+ (got: '" ++ s ++ "')")

def looksLikeKubeconfig (s : List Char) : Bool :=
  (splitLines s).any ("apiVersion:".toList.isPrefixOf ·) &&
    (splitLines s).any ("kind: Config".toList.isPrefixOf ·)

def sanityCheckKubeconfig (raw : ByteArray) : Except String Unit :=
  match String.fromUTF8? raw with
  | none => .error "fetched admin.conf was not UTF-8 (kubeconfigs are YAML, must be UTF-8)"
  | some s =>
    if looksLikeKubeconfig s.toList then .ok ()
    else .error ("fetched file does not look like a kubeconfig (no 'kind: Config'). " ++
      "Refusing to continue.")

def kubernetesAdminAtKubernetes : List Char := "kubernetes-admin@kubernetes".toList
def kubernetesAdmin : List Char := "kubernetes-admin".toList
def kubernetes : List Char := "kubernetes".toList

def stripPrefix (p line : List Char) : Option (List Char) :=
  if p.isPrefixOf line then some (line.drop p.length) else none

def stripSuffix (t line : List Char) : Option (List Char) :=
  if t.isSuffixOf line then some (line.take (line.length - t.length)) else none

/-- The blanks in front of the key, and what comes after it. -/
def stripPrefixWithIndent (key line : List Char) : Option (List Char × List Char) :=
  (stripPrefix key (line.dropWhile isWhitespace)).map fun after =>
    (line.takeWhile isWhitespace, after)

/-- `char::is_ascii_whitespace`. -/
def isAsciiWhitespace (c : Char) : Bool :=
  c == ' ' || c == '\t' || c == '\n' || c == '\x0c' || c == '\r'

/-- What stands before `name:` in a line that may hold a name. -/
def nameLead (line : List Char) : Option (List Char × List Char) :=
  match stripPrefix "- ".toList line with
  | some rest => some ("- ".toList, rest)
  | none =>
    let trimmed := line.dropWhile isWhitespace
    if !"name:".toList.isPrefixOf trimmed then none
    else if line.takeWhile isWhitespace = [] then none
    else some (line.takeWhile isWhitespace, trimmed)

def matchNameKv (line target : List Char) : Option (List Char) :=
  match nameLead line with
  | none => none
  | some lead =>
    match stripPrefix "name:".toList lead.2 with
    | none => none
    | some rest =>
      if !rest.head?.any isAsciiWhitespace then none
      else if rest.dropWhile isWhitespace ≠ target then none
      else some (lead.1 ++ "name:".toList ++ rest.takeWhile isWhitespace)

def rewriteLine (serverUrl contextName line : List Char) : List Char :=
  match stripPrefixWithIndent "server:".toList line with
  | some rest => rest.1 ++ "server: ".toList ++ serverUrl
  | none =>
    match matchNameKv line kubernetesAdminAtKubernetes with
    | some lead => lead ++ contextName
    | none =>
      if stripSuffix kubernetesAdminAtKubernetes line = some "current-context: ".toList then
        "current-context: ".toList ++ contextName
      else
        match matchNameKv line kubernetesAdmin with
        | some lead => lead ++ contextName
        | none =>
          match stripPrefixWithIndent "user:".toList line with
          | some rest =>
            if rest.2 = ' ' :: kubernetesAdmin then rest.1 ++ "user: ".toList ++ contextName
            else rewriteCluster contextName line
          | none => rewriteCluster contextName line
where
  /-- The last two patterns. -/
  rewriteCluster (contextName line : List Char) : List Char :=
    match matchNameKv line kubernetes with
    | some lead => lead ++ contextName
    | none =>
      match stripPrefixWithIndent "cluster:".toList line with
      | some rest =>
        if rest.2 = ' ' :: kubernetes then rest.1 ++ "cluster: ".toList ++ contextName else line
      | none => line

/-- The loop of `rewrite_kubeconfig`. -/
def rewriteText (serverUrl contextName input : List Char) : List Char :=
  mapLines '\n' (rewriteLine serverUrl contextName) input

def rewriteKubeconfig (raw : ByteArray) (serverUrl contextName : String) : Except String ByteArray :=
  match String.fromUTF8? raw with
  | none => .error "kubeconfig was not UTF-8 in rewrite step"
  | some input =>
    .ok (String.ofList (rewriteText serverUrl.toList contextName.toList input.toList)).toUTF8

theorem rewriteKubeconfig_text (input serverUrl contextName : String) :
    rewriteKubeconfig input.toUTF8 serverUrl contextName =
      .ok (String.ofList (rewriteText serverUrl.toList contextName.toList input.toList)).toUTF8 := by
  have hvalid : String.fromUTF8? input.toUTF8 = some input := dif_pos input.isValidUTF8
  rw [rewriteKubeconfig, hvalid]

theorem eq_toUTF8 {raw : ByteArray} {s : String} (h : String.fromUTF8? raw = some s) :
    raw = s.toUTF8 := by
  rw [String.fromUTF8?] at h
  split at h
  · rw [← Option.some.inj h]
    rfl
  · cases h

/-- What passes the check is a text, and it is rewritten as one. -/
theorem rewriteKubeconfig_checked {raw : ByteArray} (h : sanityCheckKubeconfig raw = .ok ())
    (serverUrl contextName : String) : ∃ input : String, raw = input.toUTF8 ∧
      rewriteKubeconfig raw serverUrl contextName =
        .ok (String.ofList (rewriteText serverUrl.toList contextName.toList input.toList)).toUTF8 := by
  rw [sanityCheckKubeconfig] at h
  cases hraw : String.fromUTF8? raw with
  | none =>
    rw [hraw] at h
    cases h
  | some input =>
    obtain rfl := eq_toUTF8 hraw
    exact ⟨input, rfl, rewriteKubeconfig_text input serverUrl contextName⟩

def defaultNames : List (List Char) := [kubernetesAdminAtKubernetes, kubernetesAdmin, kubernetes]

def IsIndent (ws : List Char) : Prop := ∀ c ∈ ws, isWhitespace c = true

def IsNameLead (lead : List Char) : Prop := lead = "- ".toList ∨ (lead ≠ [] ∧ IsIndent lead)

def IsNameGap (gap : List Char) : Prop := gap.head?.any isAsciiWhitespace = true ∧ IsIndent gap

/-- The line is a `server:` line, with its indentation. -/
def IsServerLine (line indent after : List Char) : Prop :=
  IsIndent indent ∧ line = indent ++ "server:".toList ++ after

/-- What a line may have in front of a default name for the name to be replaced. -/
inductive Slot : List Char → List Char → Prop
  | name {lead gap t : List Char} (hlead : IsNameLead lead) (hgap : IsNameGap gap)
      (ht : t ∈ defaultNames) : Slot (lead ++ "name:".toList ++ gap) t
  | user {indent : List Char} (hindent : IsIndent indent) :
      Slot (indent ++ "user: ".toList) kubernetesAdmin
  | cluster {indent : List Char} (hindent : IsIndent indent) :
      Slot (indent ++ "cluster: ".toList) kubernetes
  | current : Slot "current-context: ".toList kubernetesAdminAtKubernetes

section Patterns

variable {line indent after lead gap p t target ws cs key url name : List Char} {c k : Char}
  {r : List Char × List Char}

theorem dropWhile_indent (h : IsIndent ws) (hc : isWhitespace c = false) :
    (ws ++ c :: cs).dropWhile isWhitespace = c :: cs := by
  rw [List.dropWhile_append_of_pos h, List.dropWhile_cons_of_neg (by simp [hc])]

theorem takeWhile_indent (h : IsIndent ws) (hc : isWhitespace c = false) :
    (ws ++ c :: cs).takeWhile isWhitespace = ws := by
  rw [List.takeWhile_append_of_pos h, List.takeWhile_cons_of_neg (by simp [hc]), List.append_nil]

theorem isIndent_takeWhile (line : List Char) : IsIndent (line.takeWhile isWhitespace) :=
  fun _ hc => List.mem_takeWhile_imp hc

theorem stripPrefix_eq_some : stripPrefix p line = some cs ↔ line = p ++ cs := by
  rw [stripPrefix]
  constructor
  · intro h
    split_ifs at h with hp
    obtain ⟨rest, rfl⟩ := List.isPrefixOf_iff_prefix.mp hp
    rw [← Option.some.inj h, List.drop_left]
  · rintro rfl
    rw [if_pos (List.isPrefixOf_iff_prefix.mpr (List.prefix_append _ _)), List.drop_left]

theorem stripSuffix_eq_some : stripSuffix t line = some p ↔ line = p ++ t := by
  rw [stripSuffix]
  constructor
  · intro h
    split_ifs at h with ht
    obtain ⟨front, rfl⟩ := List.isSuffixOf_iff_suffix.mp ht
    rw [← Option.some.inj h, List.length_append, Nat.add_sub_cancel, List.take_left]
  · rintro rfl
    rw [if_pos (List.isSuffixOf_iff_suffix.mpr (List.suffix_append _ _)), List.length_append,
      Nat.add_sub_cancel, List.take_left]

theorem stripPrefixWithIndent_eq_some (hk : isWhitespace k = false) :
    stripPrefixWithIndent (k :: key) line = some r ↔ IsIndent r.1 ∧ line = r.1 ++ k :: (key ++ r.2) := by
  rw [stripPrefixWithIndent, Option.map_eq_some_iff]
  constructor
  · rintro ⟨after, hstrip, rfl⟩
    refine ⟨isIndent_takeWhile line, ?_⟩
    rw [← List.cons_append, ← stripPrefix_eq_some.mp hstrip]
    exact (List.takeWhile_append_dropWhile).symm
  · rintro ⟨hindent, hline⟩
    refine ⟨r.2, ?_, ?_⟩
    · rw [hline, dropWhile_indent hindent hk, stripPrefix_eq_some]
      rfl
    · rw [hline, takeWhile_indent hindent hk]

theorem stripPrefixWithIndent_key (hkey : key.head?.any (fun c => !isWhitespace c) = true) :
    stripPrefixWithIndent key line = some r ↔ IsIndent r.1 ∧ line = r.1 ++ key ++ r.2 := by
  cases key with
  | nil => cases hkey
  | cons k key =>
    rw [stripPrefixWithIndent_eq_some (by simpa using hkey), List.append_assoc, List.cons_append]

/-- A line that begins with another character than the key does. -/
theorem stripPrefixWithIndent_eq_none (hline : line.dropWhile isWhitespace = c :: cs) (hc : c ≠ k) :
    stripPrefixWithIndent (k :: key) line = none := by
  rw [stripPrefixWithIndent, Option.map_eq_none_iff, hline, stripPrefix, if_neg]
  rw [List.isPrefixOf_iff_prefix, List.cons_prefix_cons]
  exact fun h => hc h.1.symm

/-- A key with a blank behind it. -/
theorem append_space (ws t key : List Char) {p : List Char} (hp : p = key ++ [' ']) :
    ws ++ p ++ t = ws ++ key ++ ' ' :: t := by
  rw [hp, List.append_assoc, List.append_assoc, List.append_assoc, List.singleton_append]

theorem isWhitespace_of_ascii (h : isAsciiWhitespace c = true) : isWhitespace c = true := by
  simp only [isAsciiWhitespace, Bool.or_eq_true, beq_iff_eq] at h
  obtain (((rfl | rfl) | rfl) | rfl) | rfl := h <;> decide

theorem nameLead_eq_some (h : nameLead line = some r) :
    (r.1 = "- ".toList ∧ line = r.1 ++ r.2) ∨
      (r.1 ≠ [] ∧ IsIndent r.1 ∧ line = r.1 ++ r.2) := by
  rw [nameLead] at h
  cases hs : stripPrefix "- ".toList line with
  | some rest =>
    rw [hs] at h
    obtain rfl := Option.some.inj h
    exact .inl ⟨rfl, stripPrefix_eq_some.mp hs⟩
  | none =>
    rw [hs] at h
    dsimp only at h
    split_ifs at h with hname hempty
    obtain rfl := Option.some.inj h
    exact .inr ⟨hempty, isIndent_takeWhile line, List.takeWhile_append_dropWhile.symm⟩

theorem nameLead_of_lead (hlead : IsNameLead lead) :
    nameLead (lead ++ ("name:".toList ++ cs)) = some (lead, "name:".toList ++ cs) := by
  rw [nameLead]
  obtain rfl | ⟨hne, hindent⟩ := hlead
  · rw [stripPrefix_eq_some.mpr rfl]
  · have hstrip : stripPrefix "- ".toList (lead ++ ("name:".toList ++ cs)) = none := by
      rw [stripPrefix, if_neg]
      cases lead with
      | nil => exact absurd rfl hne
      | cons x lead =>
        have hx := hindent x List.mem_cons_self
        rw [List.isPrefixOf_iff_prefix, show "- ".toList = ['-', ' '] from rfl, List.cons_append,
          List.cons_prefix_cons]
        rintro ⟨rfl, -⟩
        revert hx
        decide
    have hdrop : (lead ++ ("name:".toList ++ cs)).dropWhile isWhitespace = "name:".toList ++ cs :=
      dropWhile_indent hindent (by decide)
    have htake : (lead ++ ("name:".toList ++ cs)).takeWhile isWhitespace = lead :=
      takeWhile_indent hindent (by decide)
    have hprefix : "name:".toList.isPrefixOf ("name:".toList ++ cs) = true :=
      List.isPrefixOf_iff_prefix.mpr (List.prefix_append _ _)
    rw [hstrip]
    dsimp only
    rw [hdrop, htake, hprefix, if_neg (by decide), if_neg hne]

theorem matchNameKv_lead (hlead : IsNameLead lead) (hgap : IsNameGap gap)
    (hk : isWhitespace k = false) : matchNameKv (lead ++ "name:".toList ++ gap ++ k :: t) target =
      if k :: t = target then some (lead ++ "name:".toList ++ gap) else none := by
  obtain ⟨hhead, hindent⟩ := hgap
  have hany : (gap ++ k :: t).head?.any isAsciiWhitespace = true := by
    cases gap with
    | nil => cases hhead
    | cons x gap => exact hhead
  rw [List.append_assoc, List.append_assoc, matchNameKv, nameLead_of_lead hlead]
  dsimp only
  rw [stripPrefix_eq_some.mpr rfl]
  dsimp only
  rw [hany, if_neg (by decide), dropWhile_indent hindent hk, takeWhile_indent hindent hk, ite_not,
    List.append_assoc]

theorem matchNameKv_default (hlead : IsNameLead lead) (hgap : IsNameGap gap)
    (ht : t.head?.any (fun c => !isWhitespace c) = true) :
    matchNameKv (lead ++ "name:".toList ++ gap ++ t) target =
      if t = target then some (lead ++ "name:".toList ++ gap) else none := by
  cases t with
  | nil => cases ht
  | cons k t => exact matchNameKv_lead hlead hgap (by simpa using ht)

theorem dropWhile_nameLead (hlead : IsNameLead lead) (cs : List Char) : ∃ d ds,
    (lead ++ ("name:".toList ++ cs)).dropWhile isWhitespace = d :: ds ∧ (d = 'n' ∨ d = '-') := by
  obtain rfl | ⟨-, hindent⟩ := hlead
  · exact ⟨'-', ' ' :: ("name:".toList ++ cs), rfl, .inr rfl⟩
  · exact ⟨'n', "ame:".toList ++ cs, dropWhile_indent hindent (by decide), .inl rfl⟩

theorem matchNameKv_eq_some (hk : isWhitespace k = false) :
    matchNameKv line (k :: t) = some p ↔ ∃ lead gap, IsNameLead lead ∧ IsNameGap gap ∧
      p = lead ++ "name:".toList ++ gap ∧ line = p ++ k :: t := by
  rw [matchNameKv]
  constructor
  · intro h
    cases hl : nameLead line with
    | none =>
      rw [hl] at h
      cases h
    | some r =>
      rw [hl] at h
      dsimp only at h
      cases hs : stripPrefix "name:".toList r.2 with
      | none =>
        rw [hs] at h
        cases h
      | some rest =>
        rw [hs] at h
        dsimp only at h
        split_ifs at h with hhead hvalue
        have hrest : rest = rest.takeWhile isWhitespace ++ k :: t := by
          rw [← not_not.mp hvalue]
          exact List.takeWhile_append_dropWhile.symm
        have hlead : IsNameLead r.1 ∧ line = r.1 ++ r.2 := by
          obtain ⟨hr, hline⟩ | ⟨hne, hr, hline⟩ := nameLead_eq_some hl
          · exact ⟨.inl hr, hline⟩
          · exact ⟨.inr ⟨hne, hr⟩, hline⟩
        refine ⟨r.1, rest.takeWhile isWhitespace, hlead.1, ⟨?_, isIndent_takeWhile rest⟩,
          (Option.some.inj h).symm, ?_⟩
        · cases rest with
          | nil => exact absurd rfl hhead
          | cons x rest =>
            have hx : isAsciiWhitespace x = true := by simpa using hhead
            rw [List.takeWhile_cons_of_pos (isWhitespace_of_ascii hx)]
            exact hx
        · rw [← Option.some.inj h, hlead.2, stripPrefix_eq_some.mp hs, List.append_assoc,
            List.append_assoc, ← hrest]
  · rintro ⟨lead, gap, hlead, hgap, rfl, rfl⟩
    rw [← matchNameKv, matchNameKv_lead hlead hgap hk, if_pos rfl]

/-- Only a name line has a name. -/
theorem matchNameKv_eq_none (hk : isWhitespace k = false) (hline : line.dropWhile isWhitespace = c :: cs)
    (hn : c ≠ 'n') (hd : c ≠ '-') : matchNameKv line (k :: t) = none := by
  refine Option.eq_none_iff_forall_not_mem.mpr fun p hp => ?_
  obtain ⟨lead, gap, hlead, -, rfl, rfl⟩ := (matchNameKv_eq_some hk).mp hp
  obtain ⟨d, ds, hdrop, hd'⟩ := dropWhile_nameLead hlead (gap ++ k :: t)
  rw [List.append_assoc, List.append_assoc, hdrop] at hline
  obtain ⟨rfl, -⟩ := List.cons.inj hline
  exact hd'.elim hn hd

theorem stripSuffix_current_ne (hline : line.dropWhile isWhitespace = c :: cs) (hc : c ≠ 'c') :
    stripSuffix kubernetesAdminAtKubernetes line ≠ some "current-context: ".toList := by
  intro h
  rw [stripSuffix_eq_some.mp h] at hline
  exact hc (List.cons.inj hline).1.symm

theorem rewriteLine_server (h : IsServerLine line indent after) :
    rewriteLine url name line = indent ++ "server: ".toList ++ url := by
  obtain ⟨hindent, rfl⟩ := h
  have hsplit : stripPrefixWithIndent "server:".toList (indent ++ "server:".toList ++ after) =
      some (indent, after) :=
    (stripPrefixWithIndent_key (by decide)).mpr ⟨hindent, rfl⟩
  rw [rewriteLine, hsplit]

theorem rewriteLine_name (hlead : IsNameLead lead) (hgap : IsNameGap gap) (ht : t ∈ defaultNames) :
    rewriteLine url name (lead ++ "name:".toList ++ gap ++ t) =
      lead ++ "name:".toList ++ gap ++ name := by
  obtain ⟨d, ds, hdrop, hd⟩ := dropWhile_nameLead hlead (gap ++ t)
  rw [← List.append_assoc, ← List.append_assoc] at hdrop
  have hne : ∀ {x}, x ≠ 'n' → x ≠ '-' → d ≠ x := by
    rintro x hn hx rfl
    exact hd.elim hn hx
  have hkey : ∀ {x xs}, x ≠ 'n' → x ≠ '-' → stripPrefixWithIndent (x :: xs)
      (lead ++ "name:".toList ++ gap ++ t) = none := fun hn hx =>
    stripPrefixWithIndent_eq_none hdrop (hne hn hx)
  have hserver : stripPrefixWithIndent "server:".toList (lead ++ "name:".toList ++ gap ++ t) = none :=
    hkey (by decide) (by decide)
  have huser : stripPrefixWithIndent "user:".toList (lead ++ "name:".toList ++ gap ++ t) = none :=
    hkey (by decide) (by decide)
  have hcurrent := stripSuffix_current_ne hdrop (hne (by decide) (by decide))
  simp only [defaultNames, List.mem_cons, List.not_mem_nil, or_false] at ht
  rw [rewriteLine, hserver]
  dsimp only
  obtain rfl | rfl | rfl := ht
  · rw [matchNameKv_default hlead hgap rfl, if_pos rfl]
  · rw [matchNameKv_default hlead hgap rfl, if_neg (by decide)]
    dsimp only
    rw [if_neg hcurrent, matchNameKv_default hlead hgap rfl, if_pos rfl]
  · rw [matchNameKv_default hlead hgap rfl, if_neg (by decide)]
    dsimp only
    rw [if_neg hcurrent, matchNameKv_default hlead hgap rfl, if_neg (by decide)]
    dsimp only
    rw [huser]
    dsimp only
    rw [rewriteLine.rewriteCluster, matchNameKv_default hlead hgap rfl, if_pos rfl]

theorem rewriteLine_user (hindent : IsIndent indent) :
    rewriteLine url name (indent ++ "user: ".toList ++ kubernetesAdmin) =
      indent ++ "user: ".toList ++ name := by
  have hdrop : (indent ++ "user: ".toList ++ kubernetesAdmin).dropWhile isWhitespace =
      'u' :: ("ser: ".toList ++ kubernetesAdmin) := by
    rw [List.append_assoc]
    exact dropWhile_indent hindent (by decide)
  have hserver : stripPrefixWithIndent "server:".toList
      (indent ++ "user: ".toList ++ kubernetesAdmin) = none :=
    stripPrefixWithIndent_eq_none hdrop (by decide)
  have huser : stripPrefixWithIndent "user:".toList (indent ++ "user: ".toList ++ kubernetesAdmin) =
      some (indent, ' ' :: kubernetesAdmin) :=
    (stripPrefixWithIndent_key (by decide)).mpr ⟨hindent, append_space _ _ _ rfl⟩
  have hname : ∀ {k t}, isWhitespace k = false →
      matchNameKv (indent ++ "user: ".toList ++ kubernetesAdmin) (k :: t) = none := fun hk =>
    matchNameKv_eq_none hk hdrop (by decide) (by decide)
  have hcomposite : matchNameKv (indent ++ "user: ".toList ++ kubernetesAdmin)
      kubernetesAdminAtKubernetes = none := hname (by decide)
  have hadmin : matchNameKv (indent ++ "user: ".toList ++ kubernetesAdmin) kubernetesAdmin = none :=
    hname (by decide)
  rw [rewriteLine, hserver]
  dsimp only
  rw [hcomposite]
  dsimp only
  rw [if_neg (stripSuffix_current_ne hdrop (by decide)), hadmin]
  dsimp only
  rw [huser]
  dsimp only
  rw [if_pos rfl]

theorem rewriteLine_cluster (hindent : IsIndent indent) :
    rewriteLine url name (indent ++ "cluster: ".toList ++ kubernetes) =
      indent ++ "cluster: ".toList ++ name := by
  have hdrop : (indent ++ "cluster: ".toList ++ kubernetes).dropWhile isWhitespace =
      'c' :: ("luster: ".toList ++ kubernetes) := by
    rw [List.append_assoc]
    exact dropWhile_indent hindent (by decide)
  have hkey : ∀ {k key}, 'c' ≠ k → stripPrefixWithIndent (k :: key)
      (indent ++ "cluster: ".toList ++ kubernetes) = none := fun hk =>
    stripPrefixWithIndent_eq_none hdrop hk
  have hserver : stripPrefixWithIndent "server:".toList
      (indent ++ "cluster: ".toList ++ kubernetes) = none := hkey (by decide)
  have huser : stripPrefixWithIndent "user:".toList
      (indent ++ "cluster: ".toList ++ kubernetes) = none := hkey (by decide)
  have hcluster : stripPrefixWithIndent "cluster:".toList (indent ++ "cluster: ".toList ++ kubernetes) =
      some (indent, ' ' :: kubernetes) :=
    (stripPrefixWithIndent_key (by decide)).mpr ⟨hindent, append_space _ _ _ rfl⟩
  have hname : ∀ {k t}, isWhitespace k = false →
      matchNameKv (indent ++ "cluster: ".toList ++ kubernetes) (k :: t) = none := fun hk =>
    matchNameKv_eq_none hk hdrop (by decide) (by decide)
  have hcomposite : matchNameKv (indent ++ "cluster: ".toList ++ kubernetes)
      kubernetesAdminAtKubernetes = none := hname (by decide)
  have hadmin : matchNameKv (indent ++ "cluster: ".toList ++ kubernetes) kubernetesAdmin = none :=
    hname (by decide)
  have hbare : matchNameKv (indent ++ "cluster: ".toList ++ kubernetes) kubernetes = none :=
    hname (by decide)
  have hcurrent : stripSuffix kubernetesAdminAtKubernetes (indent ++ "cluster: ".toList ++ kubernetes) ≠
      some "current-context: ".toList := by
    intro h
    rw [stripSuffix_eq_some.mp h] at hdrop
    exact absurd hdrop (by decide)
  rw [rewriteLine, hserver]
  dsimp only
  rw [hcomposite]
  dsimp only
  rw [if_neg hcurrent, hadmin]
  dsimp only
  rw [huser]
  dsimp only
  rw [rewriteLine.rewriteCluster, hbare]
  dsimp only
  rw [hcluster]
  dsimp only
  rw [if_pos rfl]

theorem rewriteLine_current (url name : List Char) :
    rewriteLine url name ("current-context: ".toList ++ kubernetesAdminAtKubernetes) =
      "current-context: ".toList ++ name := by
  have hserver : stripPrefixWithIndent "server:".toList
      ("current-context: ".toList ++ kubernetesAdminAtKubernetes) = none := by
    decide
  have hname : matchNameKv ("current-context: ".toList ++ kubernetesAdminAtKubernetes)
      kubernetesAdminAtKubernetes = none := by
    decide
  rw [rewriteLine, hserver]
  dsimp only
  rw [hname]
  dsimp only
  rw [stripSuffix_eq_some.mpr rfl, if_pos rfl]

/-- A default name in one of its places is replaced. -/
theorem rewriteLine_slot (h : Slot p t) : rewriteLine url name (p ++ t) = p ++ name := by
  cases h with
  | name hlead hgap ht => exact rewriteLine_name hlead hgap ht
  | user hindent => exact rewriteLine_user hindent
  | cluster hindent => exact rewriteLine_cluster hindent
  | current => exact rewriteLine_current url name

/-- A line that is neither a `server:` line nor one with a default name in its place stays as it is. -/
theorem rewriteLine_other (hserver : ∀ indent after, ¬ IsServerLine line indent after)
    (hslot : ∀ p t, Slot p t → line ≠ p ++ t) : rewriteLine url name line = line := by
  have hnoserver : stripPrefixWithIndent "server:".toList line = none := by
    refine Option.eq_none_iff_forall_not_mem.mpr fun r hr => ?_
    exact hserver r.1 r.2 ((stripPrefixWithIndent_key (by decide)).mp hr)
  have hnoname : ∀ {k t}, isWhitespace k = false → k :: t ∈ defaultNames →
      matchNameKv line (k :: t) = none := by
    intro k t hk ht
    refine Option.eq_none_iff_forall_not_mem.mpr fun p hp => ?_
    obtain ⟨lead, gap, hlead, hgap, rfl, hline⟩ := (matchNameKv_eq_some hk).mp hp
    exact hslot _ _ (.name hlead hgap ht) hline
  have hcomposite : matchNameKv line kubernetesAdminAtKubernetes = none :=
    hnoname (by decide) (by decide)
  have hadmin : matchNameKv line kubernetesAdmin = none := hnoname (by decide) (by decide)
  have hbare : matchNameKv line kubernetes = none := hnoname (by decide) (by decide)
  have hcurrent : stripSuffix kubernetesAdminAtKubernetes line ≠ some "current-context: ".toList :=
    fun h => hslot _ _ .current (stripSuffix_eq_some.mp h)
  have hcluster : rewriteLine.rewriteCluster name line = line := by
    rw [rewriteLine.rewriteCluster, hbare]
    dsimp only
    cases hc : stripPrefixWithIndent "cluster:".toList line with
    | none => rfl
    | some r =>
      obtain ⟨hindent, hline⟩ := (stripPrefixWithIndent_key (by decide)).mp hc
      refine if_neg fun hr => hslot _ _ (.cluster hindent) ?_
      rw [hline, hr]
      exact (append_space _ _ _ rfl).symm
  rw [rewriteLine, hnoserver]
  dsimp only
  rw [hcomposite]
  dsimp only
  rw [if_neg hcurrent, hadmin]
  dsimp only
  cases hu : stripPrefixWithIndent "user:".toList line with
  | none => exact hcluster
  | some r =>
    obtain ⟨hindent, hline⟩ := (stripPrefixWithIndent_key (by decide)).mp hu
    dsimp only
    rw [if_neg, hcluster]
    intro hr
    refine hslot _ _ (.user hindent) ?_
    rw [hline, hr]
    exact (append_space _ _ _ rfl).symm

end Patterns

end Hbird.ExportArgocd
