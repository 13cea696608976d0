import Hbird.Json.Exact

namespace Hbird.Json

/-- Where a scan of a text stands: outside strings, behind the first digit of a number, in a
string, or behind a backslash. -/
inductive Place : Type
  | outside
  | number
  | text
  | escape
  deriving DecidableEq

/-- A number of the text begins with a zero and another digit, or a plus sign stands behind `\u`. -/
def loose : Place → List Char → Bool
  | _, [] => false
  | .outside, c :: rest =>
    if c = '"' then loose .text rest
    else if c = '0' ∧ rest.head?.any Char.isDigit then true
    else if c.isDigit then loose .number rest
    else loose .outside rest
  | .number, c :: rest =>
    if c = '"' then loose .text rest
    else if inNumber c then loose .number rest
    else loose .outside rest
  | .text, c :: rest =>
    if c = '"' then loose .outside rest
    else if c = '\\' then loose .escape rest
    else loose .text rest
  | .escape, c :: rest => if c = 'u' ∧ rest.head? = some '+' then true else loose .text rest

namespace MiniJson

/-- Before what `Follows` permits, `t` is as the strict grammar has it and the scan goes on behind
it, or the grammar is the relaxed one and the scan has found a loose form. -/
def Scans (d : Dialect) (start next : Place) (Follows : List Char → Prop) (strict : Prop)
    (t : List Char) : Prop :=
  (strict ∧ ∀ rest, Follows rest → loose start (t ++ rest) = loose next rest) ∨
    (d.relaxed = true ∧ ∀ rest, Follows rest → loose start (t ++ rest) = true)

section Places

variable {d : Dialect} {start next last : Place} {Follows Follows' : List Char → Prop}
  {strict strict' whole : Prop} {t t' rest : List Char} {c : Char}

theorem Scans.imp (h : Scans d start next Follows strict t) (hwhole : strict → whole) :
    Scans d start next Follows whole t :=
  h.imp_left (And.imp_left hwhole)

theorem Scans.lead (h : Scans d next last Follows strict t')
    (ht : ∀ rest, loose start (t ++ rest) = loose next rest) :
    Scans d start last Follows strict (t ++ t') := by
  obtain ⟨hstrict, hscan⟩ | ⟨hd, hscan⟩ := h
  · exact .inl ⟨hstrict, fun rest hrest => by rw [List.append_assoc, ht, hscan rest hrest]⟩
  · exact .inr ⟨hd, fun rest hrest => by rw [List.append_assoc, ht, hscan rest hrest]⟩

theorem Scans.append (h : Scans d start next Follows strict t)
    (h' : Scans d next last Follows' strict' t')
    (hfollows : ∀ rest, Follows' rest → Follows (t' ++ rest)) :
    Scans d start last Follows' (strict ∧ strict') (t ++ t') := by
  obtain ⟨hstrict, hscan⟩ | ⟨hd, hscan⟩ := h
  · obtain ⟨hstrict', hscan'⟩ | ⟨hd, hscan'⟩ := h'
    · refine .inl ⟨⟨hstrict, hstrict'⟩, fun rest hrest => ?_⟩
      rw [List.append_assoc, hscan _ (hfollows rest hrest), hscan' rest hrest]
    · refine .inr ⟨hd, fun rest hrest => ?_⟩
      rw [List.append_assoc, hscan _ (hfollows rest hrest), hscan' rest hrest]
  · refine .inr ⟨hd, fun rest hrest => ?_⟩
    rw [List.append_assoc, hscan _ (hfollows rest hrest)]

theorem Scans.trail (h : Scans d start next Follows strict t)
    (ht' : ∀ rest, loose next (t' ++ rest) = loose last rest)
    (hfollows : ∀ rest, Follows' rest → Follows (t' ++ rest)) :
    Scans d start last Follows' strict (t ++ t') := by
  have h' : Scans d next last Follows' True t' := .inl ⟨trivial, fun rest _ => ht' rest⟩
  exact (h.append h' hfollows).imp And.left

theorem loose_outside (hquote : c ≠ '"') (hdigit : c.isDigit = false) :
    loose .outside (c :: rest) = loose .outside rest := by
  have hzero : c ≠ '0' := by
    rintro rfl
    cases hdigit
  simp [loose, hquote, hdigit, hzero]

theorem loose_blanks {w : List Char} (hw : IsWs w) : loose .outside (w ++ rest) = loose .outside rest := by
  induction w with
  | nil => rfl
  | cons c w ih =>
    have hc := hw c List.mem_cons_self
    have hplain : c ≠ '"' ∧ c.isDigit = false := by
      simp only [isWs, Bool.or_eq_true, decide_eq_true_eq, or_assoc] at hc
      rcases hc with rfl | rfl | rfl | rfl <;> decide
    rw [List.cons_append, loose_outside hplain.1 hplain.2]
    exact ih fun c hc => hw c (List.mem_cons_of_mem _ hc)

theorem loose_digits (ht : ∀ c ∈ t, inNumber c = true) :
    loose .number (t ++ rest) = loose .number rest := by
  induction t with
  | nil => rfl
  | cons c t ih =>
    have hc := ht c List.mem_cons_self
    have hquote : c ≠ '"' := by
      rintro rfl
      exact absurd hc (by decide)
    rw [List.cons_append, loose, if_neg hquote, if_pos hc]
    exact ih fun c hc => ht c (List.mem_cons_of_mem _ hc)

theorem loose_stops (hrest : Stops rest) : loose .number rest = loose .outside rest := by
  cases rest with
  | nil => rfl
  | cons c rest =>
    have hc := hrest c rfl
    by_cases hquote : c = '"'
    · simp [loose, hquote]
    · rw [loose_outside hquote (inNumber_eq_false.mp hc).1]
      simp [loose, hquote, hc]

theorem loose_text (hquote : c ≠ '"') (hslash : c ≠ '\\') :
    loose .text (c :: rest) = loose .text rest := by
  simp [loose, hquote, hslash]

theorem hexDigit_of_foldlM {ds : List Char} {m n : Nat}
    (h : ds.foldlM (fun n c => (hexDigit c).map (16 * n + ·)) m = some n) :
    ∀ c ∈ ds, hexDigit c ≠ none := by
  induction ds generalizing m with
  | nil => simp
  | cons d ds ih =>
    obtain ⟨value, hd, hrest⟩ := Option.bind_eq_some_iff.mp (List.foldlM_cons.symm.trans h)
    obtain ⟨digit, hdigit, -⟩ := Option.map_eq_some_iff.mp hd
    rw [List.forall_mem_cons]
    exact ⟨by simp [hdigit], ih hrest⟩

theorem loose_hex {ds : List Char} (hds : ∀ c ∈ ds, hexDigit c ≠ none) :
    loose .text (ds ++ rest) = loose .text rest := by
  induction ds with
  | nil => rfl
  | cons c ds ih =>
    have hc := hds c List.mem_cons_self
    have hquote : c ≠ '"' := by
      rintro rfl
      exact hc (by decide)
    have hslash : c ≠ '\\' := by
      rintro rfl
      exact hc (by decide)
    rw [List.cons_append, loose_text hquote hslash]
    exact ih fun c hc => hds c (List.mem_cons_of_mem _ hc)

theorem loose_hexValue {ds : List Char} {n : Nat} (h : hexValue ds = some n) :
    loose .text (ds ++ rest) = loose .text rest :=
  loose_hex (hexDigit_of_foldlM h)

/-- No condition on what stands behind. -/
def Anything (_ : List Char) : Prop := True

/-- The four characters behind `\u`. -/
theorem scans_hex4 {n : Nat} (h : d.Hex4 t n) :
    Scans d .text .text Anything (rfc.Hex4 t n) ('\\' :: 'u' :: t) := by
  have hescape : ∀ rest, loose .text ('\\' :: 'u' :: rest) = loose .escape ('u' :: rest) :=
    fun _ => rfl
  obtain ⟨hlen, hvalue | ⟨hd, ds, rfl, -⟩⟩ := h
  · refine .inl ⟨⟨hlen, .inl hvalue⟩, fun rest _ => ?_⟩
    have hplus : (t ++ rest).head? ≠ some '+' := by
      cases t with
      | nil => cases hlen
      | cons c t =>
        intro h
        obtain rfl : c = '+' := by simpa using h
        exact hexDigit_of_foldlM hvalue '+' List.mem_cons_self (by decide)
    rw [List.cons_append, List.cons_append, hescape, loose, if_neg (fun h => hplus h.2),
      loose_hexValue hvalue]
  · exact .inr ⟨hd, fun rest _ => rfl⟩

theorem scans_character {c : Char} (h : d.Character c t) :
    Scans d .text .text Anything (rfc.Character c t) t := by
  cases h with
  | raw hc hquote hslash => exact .inl ⟨.raw hc hquote hslash, fun rest _ => loose_text hquote hslash⟩
  | @short e h =>
    have hu : e ≠ 'u' := by
      rintro rfl
      simp [shortEscapes] at h
    exact .inl ⟨.short h, fun rest _ => by simp [loose, hu]⟩
  | unicode h => exact (scans_hex4 h).imp .unicode
  | pair hfirst hsecond hhigh hlow hc =>
    exact ((scans_hex4 hfirst).append (scans_hex4 hsecond) fun _ h => h).imp fun h =>
      .pair h.1 h.2 hhigh hlow hc

theorem scans_characters {cs : List Char} {parts : List (List Char)}
    (h : List.Forall₂ d.Character cs parts) :
    Scans d .text .text Anything (List.Forall₂ rfc.Character cs parts) parts.flatten := by
  induction h with
  | nil => exact .inl ⟨.nil, fun rest _ => rfl⟩
  | cons hc _ ih =>
    exact ((scans_character hc).append ih fun _ h => h).imp fun h => .cons h.1 h.2

theorem scans_str {text : String} (h : d.Str text t) :
    Scans d .outside .outside Stops (rfc.Str text t) t := by
  obtain ⟨parts, hparts, rfl⟩ := h
  have hopen : ∀ rest, loose .outside (['"'] ++ rest) = loose .text rest := fun _ => rfl
  have hclose : ∀ rest, loose .text (['"'] ++ rest) = loose .outside rest := fun _ => rfl
  exact ((scans_characters hparts).trail hclose fun _ _ => trivial).lead hopen |>.imp fun h =>
    ⟨parts, h, rfl⟩

theorem scans_integer {int rest : List Char} (hint : d.Integer int)
    (hbehind : ∀ c ∈ rest.head?, c.isDigit = false) :
    (rfc.Integer int ∧ loose .outside (int ++ rest) = loose .number rest) ∨
      (d.relaxed = true ∧ loose .outside (int ++ rest) = true) := by
  obtain ⟨hdigits, hzero⟩ := hint
  obtain ⟨c, ds, rfl⟩ := List.exists_cons_of_ne_nil hdigits.1
  have hc : c.isDigit = true := hdigits.2 c List.mem_cons_self
  have hquote : c ≠ '"' := by
    rintro rfl
    cases hc
  have hds : ∀ d ∈ ds, d.isDigit = true := fun d hd => hdigits.2 d (List.mem_cons_of_mem _ hd)
  have hscan : ¬(c = '0' ∧ (ds ++ rest).head?.any Char.isDigit = true) →
      loose .outside (c :: ds ++ rest) = loose .number rest := by
    intro h
    rw [List.cons_append, loose, if_neg hquote, if_neg h, if_pos hc]
    exact loose_digits fun d hd => by simp [inNumber, hds d hd]
  by_cases hlead : c = '0'
  · subst hlead
    cases ds with
    | nil =>
      refine .inl ⟨⟨hdigits, .inl rfl⟩, hscan fun h => ?_⟩
      obtain ⟨e, he, hdigit⟩ := (Option.any_eq_true _ _).mp h.2
      rw [List.nil_append] at he
      exact absurd (hbehind e he) (by simp [hdigit])
    | cons e ds =>
      have hd : d.relaxed = true := by simpa using hzero
      have he := hds e List.mem_cons_self
      exact .inr ⟨hd, by simp [loose, he]⟩
  · exact .inl ⟨⟨hdigits, .inr (.inl fun h => hlead (Option.some.inj h))⟩,
      hscan fun h => hlead h.1⟩

theorem isFraction_inNumber {frac : List Char}
    (hfrac : frac = [] ∨ ∃ ds, Digits ds ∧ frac = '.' :: ds) : ∀ c ∈ frac, inNumber c = true := by
  obtain rfl | ⟨ds, hds, rfl⟩ := hfrac
  · simp
  · exact List.forall_mem_cons.mpr ⟨by decide, fun c hc => by simp [inNumber, hds.2 c hc]⟩

theorem isExponent_inNumber {exp : List Char} (hexp : IsExponent exp) :
    ∀ c ∈ exp, inNumber c = true := by
  obtain rfl | ⟨e, sign, ds, he, hsign, hds, rfl⟩ := hexp
  · simp
  · refine List.forall_mem_cons.mpr ⟨by rcases he with rfl | rfl <;> decide, ?_⟩
    intro c hc
    obtain hc | hc := List.mem_append.mp hc
    · obtain rfl | rfl | rfl := hsign
      · cases hc
      · rw [List.mem_singleton.mp hc]
        decide
      · rw [List.mem_singleton.mp hc]
        decide
    · simp [inNumber, hds.2 c hc]

theorem scans_number (h : d.Number t) : Scans d .outside .outside Stops (rfc.Number t) t := by
  obtain ⟨sign, int, frac, exp, rfl, hsign, hint, hfrac, hexp⟩ := h
  have hbehind : ∀ rest, Stops rest → ∀ c ∈ (frac ++ (exp ++ rest)).head?, c.isDigit = false :=
    fun rest hrest c hc => head_fraction hfrac hexp hrest hc
  have hlead : ∀ rest, loose .outside (sign ++ rest) = loose .outside rest := by
    intro rest
    obtain rfl | rfl := hsign
    · rfl
    · exact loose_outside (by decide) (by decide)
  have hscan : Scans d .outside .outside Stops (rfc.Integer int) (int ++ (frac ++ exp)) := by
    by_cases hzero : rfc.Integer int
    · refine .inl ⟨hzero, fun rest hrest => ?_⟩
      rw [List.append_assoc, List.append_assoc]
      obtain ⟨-, h⟩ | ⟨hd, -⟩ := scans_integer hzero (hbehind rest hrest)
      · rw [h, loose_digits (isFraction_inNumber hfrac), loose_digits (isExponent_inNumber hexp),
          loose_stops hrest]
      · cases hd
    · have hloose : ∀ rest, Stops rest →
          d.relaxed = true ∧ loose .outside (int ++ (frac ++ exp) ++ rest) = true := by
        intro rest hrest
        rw [List.append_assoc, List.append_assoc]
        exact (scans_integer hint (hbehind rest hrest)).resolve_left fun h => hzero h.1
      have hnil : Stops [] := fun c hc => by cases hc
      exact .inr ⟨(hloose [] hnil).1, fun rest hrest => (hloose rest hrest).2⟩
  rw [List.append_assoc, List.append_assoc]
  exact (hscan.lead hlead).imp fun h => ⟨sign, int, frac, exp, by simp, hsign, h, hfrac, hexp⟩

end Places

section Texts

variable {α : Type} {d : Dialect} {P Q : α → List Char → Prop} {a : α} {t : List Char}

theorem scans_padded (hPQ : ∀ a t, P a t → Scans d .outside .outside Stops (Q a t) t)
    (h : Padded P a t) : Scans d .outside .outside Stops (Padded Q a t) t := by
  obtain ⟨w, u, w', hw, hu, hw', rfl⟩ := h
  have hscan := ((hPQ a u hu).trail (fun _ => loose_blanks hw') fun _ => Stops.blanks hw').lead
    (t := w) fun _ => loose_blanks hw
  rw [List.append_assoc]
  exact hscan.imp fun h => ⟨w, u, w', hw, h, hw', (List.append_assoc _ _ _).symm⟩

theorem scans_items (hPQ : ∀ a t, P a t → Scans d .outside .outside Stops (Q a t) t) {as : List α}
    {parts : List (List Char)} (h : List.Forall₂ P as parts) :
    Scans d .outside .outside Stops (List.Forall₂ Q as parts) ([','].intercalate parts) := by
  induction h with
  | nil => exact .inl ⟨.nil, fun _ _ => rfl⟩
  | @cons a t as parts ht hparts ih =>
    cases hparts with
    | nil =>
      rw [List.intercalate_singleton]
      exact (hPQ a t ht).imp fun h => .cons h .nil
    | @cons b u bs us hu hus =>
      have hcomma : ∀ rest, loose .outside ([','] ++ rest) = loose .outside rest := fun _ =>
        loose_outside (by decide) (by decide)
      rw [List.intercalate_cons_cons, List.append_assoc]
      exact ((hPQ a t ht).append (ih.lead hcomma) fun _ _ => stops_comma).imp fun h =>
        .cons h.1 h.2

theorem scans_list (hPQ : ∀ a t, P a t → Scans d .outside .outside Stops (Q a t) t)
    {opening closing : Char} (hopening : opening = '[' ∨ opening = '\x7b')
    (hclosing : IsClosing closing) {as : List α} (h : IsList P opening closing as t) :
    Scans d .outside .outside Stops (IsList Q opening closing as t) t := by
  have hopen : ∀ rest, loose .outside ([opening] ++ rest) = loose .outside rest := by
    intro rest
    rcases hopening with rfl | rfl <;> exact loose_outside (by decide) (by decide)
  have hclose : ∀ rest, loose .outside ([closing] ++ rest) = loose .outside rest := by
    intro rest
    rcases hclosing with rfl | rfl <;> exact loose_outside (by decide) (by decide)
  obtain ⟨rfl, w, hw, rfl⟩ | ⟨has, parts, hparts, rfl⟩ := h
  · refine .inl ⟨.inl ⟨rfl, w, hw, rfl⟩, fun rest _ => ?_⟩
    rw [List.append_assoc]
    exact (hopen _).trans ((loose_blanks hw).trans (hclose rest))
  · exact ((scans_items hPQ hparts).trail hclose fun _ _ => hclosing.stops).lead hopen |>.imp
      fun h => .inr ⟨has, parts, h, rfl⟩

theorem scans_member {P Q : Value → List Char → Prop}
    (hPQ : ∀ v t, P v t → Scans d .outside .outside Stops (Q v t) t) {entry : String × Value}
    (h : d.Member P entry t) : Scans d .outside .outside Stops (rfc.Member Q entry t) t := by
  obtain ⟨k, u, hk, hu, rfl⟩ := h
  have hcolon : ∀ rest, loose .outside ([':'] ++ rest) = loose .outside rest := fun _ =>
    loose_outside (by decide) (by decide)
  have hstops : ∀ rest, Stops ([':'] ++ rest) := fun rest c hc => by
    obtain rfl : ':' = c := by simpa using hc
    decide
  have hkey := scans_padded (fun _ _ h => scans_str h) hk
  exact (hkey.append ((scans_padded hPQ hu).lead hcolon) fun _ _ => hstops _).imp
    fun h => ⟨k, u, h.1, h.2, rfl⟩

/-- By induction on the levels: a text that has no loose form is one of the strict grammar. -/
theorem scans_text (k : Nat) {v : Value} (h : d.Text k v t) :
    Scans d .outside .outside Stops (rfc.Text k v t) t := by
  induction k generalizing v t with
  | zero => exact h.elim
  | succ k ih =>
    have hvalue : ∀ v t, Padded (d.Text k) v t →
        Scans d .outside .outside Stops (Padded (rfc.Text k) v t) t :=
      fun v t => scans_padded fun _ _ => ih
    cases v with
    | null =>
      obtain rfl : t = _ := h
      exact .inl ⟨rfl, fun _ _ => rfl⟩
    | bool b =>
      cases b with
      | false =>
        obtain rfl : t = _ := h
        exact .inl ⟨rfl, fun _ _ => rfl⟩
      | true =>
        obtain rfl : t = _ := h
        exact .inl ⟨rfl, fun _ _ => rfl⟩
    | number text =>
      obtain ⟨rfl, hnumber⟩ : t = text.toList ∧ d.Number t := h
      exact (scans_number hnumber).imp fun h => ⟨rfl, h⟩
    | str text => exact scans_str h
    | array items => exact scans_list hvalue (.inl rfl) (.inl rfl) h
    | object entries =>
      exact scans_list (fun _ _ => scans_member fun _ _ => ih) (.inr rfl) (.inr rfl) h

end Texts

section Strict

variable {α : Type} {P Q : α → List Char → Prop} {a : α} {t : List Char} {d : Dialect}

theorem padded_imp (hPQ : ∀ a t, P a t → Q a t) (h : Padded P a t) : Padded Q a t := by
  obtain ⟨w, u, w', hw, hu, hw', rfl⟩ := h
  exact ⟨w, u, w', hw, hPQ a u hu, hw', rfl⟩

theorem isList_imp (hPQ : ∀ a t, P a t → Q a t) {opening closing : Char} {as : List α}
    (h : IsList P opening closing as t) : IsList Q opening closing as t := by
  obtain h | ⟨has, parts, hparts, rfl⟩ := h
  · exact .inl h
  · exact .inr ⟨has, parts, hparts.imp fun a t => hPQ a t, rfl⟩

theorem hex4_relaxed {n : Nat} (h : d.Hex4 t n) : relaxed.Hex4 t n :=
  ⟨h.1, h.2.imp_right fun ⟨_, h⟩ => ⟨rfl, h⟩⟩

theorem character_relaxed {c : Char} (h : d.Character c t) : relaxed.Character c t := by
  cases h with
  | raw hc hquote hslash => exact .raw hc hquote hslash
  | short h => exact .short h
  | unicode h => exact .unicode (hex4_relaxed h)
  | pair hfirst hsecond hhigh hlow hc =>
    exact .pair (hex4_relaxed hfirst) (hex4_relaxed hsecond) hhigh hlow hc

theorem str_relaxed {text : String} (h : d.Str text t) : relaxed.Str text t := by
  obtain ⟨parts, hparts, rfl⟩ := h
  exact ⟨parts, hparts.imp fun _ _ => character_relaxed, rfl⟩

theorem number_relaxed (h : d.Number t) : relaxed.Number t := by
  obtain ⟨sign, int, frac, exp, rfl, hsign, ⟨hdigits, -⟩, hfrac, hexp⟩ := h
  exact ⟨sign, int, frac, exp, rfl, hsign, ⟨hdigits, .inr (.inr rfl)⟩, hfrac, hexp⟩

theorem text_relaxed (k : Nat) {v : Value} (h : d.Text k v t) : relaxed.Text k v t := by
  induction k generalizing v t with
  | zero => exact h
  | succ k ih =>
    cases v with
    | null => exact h
    | bool b => cases b <;> exact h
    | number text => exact ⟨h.1, number_relaxed h.2⟩
    | str text => exact str_relaxed h
    | array items => exact isList_imp (fun v t => padded_imp fun v t => ih) h
    | object entries =>
      refine isList_imp ?_ h
      rintro entry t ⟨k, u, hk, hu, rfl⟩
      exact ⟨k, u, padded_imp (fun _ _ => str_relaxed) hk, padded_imp (fun _ _ => ih) hu, rfl⟩

/-- The JSON texts of RFC 8259 whose values are nested no deeper than `maxDepth`; a string has no
lone surrogate, since it is made of characters. -/
def IsText (d : Dialect) (v : Value) (s : List Char) : Prop := Padded (d.Text (maxDepth + 1)) v s

variable {s : List Char} {v : Value}

theorem parse_eq_some : parse s = some v ↔ IsText relaxed v s := by
  have hreads := value_reads (maxDepth + 1) ']' (.inl rfl)
  constructor
  · intro h
    unfold parse at h
    split at h
    · rename_i u rest hread
      split_ifs at h with hblank
      obtain rfl := Option.some.inj h
      obtain ⟨t, ht, rfl⟩ := hreads.sound hread
      exact hreads.trail ht (skipWs_eq_nil.mp hblank)
    · cases h
  · intro h
    have hnil : Stops [] := fun c hc => by cases hc
    obtain ⟨w, hw, hread⟩ := hreads.complete h hnil
    simp only [List.append_nil] at hread
    rw [parse, hread]
    exact if_pos (skipWs_eq_nil.mpr hw)

theorem isText_scans (h : IsText d v s) :
    (IsText rfc v s ∧ loose .outside s = false) ∨ d.relaxed = true ∧ loose .outside s = true := by
  have hnil : Stops [] := fun c hc => by cases hc
  obtain ⟨hstrict, hscan⟩ | ⟨hd, hscan⟩ := scans_padded (fun _ _ => scans_text (maxDepth + 1)) h
  · have hs := hscan [] hnil
    rw [List.append_nil] at hs
    exact .inl ⟨hstrict, hs⟩
  · have hs := hscan [] hnil
    rw [List.append_nil] at hs
    exact .inr ⟨hd, hs⟩

/-- What is to hold of an input: `value` comes to an end and no cursor passes the end of the input,
`parse` accepts the texts of RFC 8259 and no others, and it reads the value that they are of. -/
def Exact (s : List Char) : Prop :=
  (value (maxDepth + 1) s ≠ .unfinished ∧
    ∀ k t v rest, t <:+ s → value k t = .read v rest → rest <:+ s) ∧
  ((parse s).isSome = true ↔ ∃ v, IsText rfc v s) ∧
  ∀ v, IsText rfc v s → parse s = some v

theorem exact_iff (s : List Char) :
    Exact s ↔ (loose .outside s = true → ¬∃ v, IsText relaxed v s) := by
  constructor
  · rintro ⟨-, hiff, -⟩ hloose ⟨v, hv⟩
    have hsome : (parse s).isSome = true := by rw [parse_eq_some.mpr hv]; rfl
    obtain ⟨u, hu⟩ := hiff.mp hsome
    obtain ⟨-, hclean⟩ | ⟨hd, -⟩ := isText_scans hu
    · exact absurd (hclean.symm.trans hloose) Bool.false_ne_true
    · cases hd
  · intro hloose
    have hparse : ∀ v, IsText rfc v s → parse s = some v := fun v hv =>
      parse_eq_some.mpr (padded_imp (fun _ _ => text_relaxed _) hv)
    refine ⟨⟨(value_reads _ ']' (.inl rfl)).finishes s, ?_⟩, ⟨fun hsome => ?_, ?_⟩, hparse⟩
    · intro k t v rest ht hread
      obtain ⟨u, -, rfl⟩ := (value_reads k ']' (.inl rfl)).sound hread
      exact (List.suffix_append u rest).trans ht
    · obtain ⟨v, hv⟩ := Option.isSome_iff_exists.mp hsome
      have htext := parse_eq_some.mp hv
      obtain ⟨hstrict, -⟩ | ⟨-, hbad⟩ := isText_scans htext
      · exact ⟨v, hstrict⟩
      · exact absurd ⟨v, htext⟩ (hloose hbad)
    · rintro ⟨v, hv⟩
      rw [hparse v hv]
      rfl

/-- `01` is read as a number, and the grammar has no such number. -/
theorem exact_leadingZero :
    parse ['0', '1'] = some (.number "01") ∧ ¬Exact ['0', '1'] := by
  refine ⟨rfl, ?_⟩
  rintro ⟨-, hiff, -⟩
  obtain ⟨v, hv⟩ := hiff.mp rfl
  obtain ⟨-, h⟩ | ⟨h, -⟩ := isText_scans hv <;> cases h

end Strict

end MiniJson

end Hbird.Json
