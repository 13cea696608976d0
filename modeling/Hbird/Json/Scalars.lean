import Hbird.Json.MiniJson

namespace Hbird.Json.MiniJson

section Reading

variable {α β : Type} {r : Reading α} {f : α → List Char → Reading β} {b : β} {rest : List Char}

theorem andThen_eq_read : r.andThen f = .read b rest ↔
    ∃ a s, r = .read a s ∧ f a s = .read b rest := by
  cases r <;> simp [Reading.andThen]

theorem andThen_eq_unfinished : r.andThen f = .unfinished ↔
    r = .unfinished ∨ ∃ a s, r = .read a s ∧ f a s = .unfinished := by
  cases r <;> simp [Reading.andThen]

theorem map_eq_read {g : α → β} : r.map g = .read b rest ↔ ∃ a, r = .read a rest ∧ g a = b := by
  cases r <;> simp [Reading.map, Reading.andThen, and_comm]

theorem map_eq_unfinished {g : α → β} : r.map g = .unfinished ↔ r = .unfinished := by
  cases r <;> simp [Reading.map, Reading.andThen]

end Reading

section Scanning

variable {s t w rest : List Char} {c : Char}

theorem skipWs_append (hw : IsWs w) : skipWs (w ++ t) = skipWs t := by
  rw [skipWs, List.dropWhile_append_of_pos hw]
  rfl

theorem skipWs_cons (hc : isWs c = false) : skipWs (c :: t) = c :: t :=
  List.dropWhile_cons_of_neg (by simp [hc])

theorem skipWs_split (s : List Char) : ∃ w, IsWs w ∧ s = w ++ skipWs s :=
  ⟨s.takeWhile isWs, fun _ hc => List.mem_takeWhile_imp hc, List.takeWhile_append_dropWhile.symm⟩

theorem skipWs_eq_nil : skipWs s = [] ↔ IsWs s := by
  rw [skipWs, List.dropWhile_eq_nil_iff]
  rfl

theorem isWs_append {w w' : List Char} (h : IsWs w) (h' : IsWs w') : IsWs (w ++ w') := by
  intro c hc
  obtain hc | hc := List.mem_append.mp hc
  · exact h c hc
  · exact h' c hc

theorem eat_eq_read : eat c s = .read () rest ↔ s = c :: rest := by
  cases s with
  | nil => simp [eat]
  | cons d s =>
    by_cases hd : d = c <;> simp [eat, hd]

theorem eat_ne_unfinished : eat c s ≠ .unfinished := by
  cases s with
  | nil => simp [eat]
  | cons d s => by_cases hd : d = c <;> simp [eat, hd]

theorem keyword_eq_read {word : List Char} : keyword word s = .read () rest ↔ s = word ++ rest := by
  rw [keyword]
  by_cases h : word.isPrefixOf s = true
  · obtain ⟨t, rfl⟩ := List.isPrefixOf_iff_prefix.mp h
    simp [h]
  · rw [if_neg h]
    constructor
    · intro h'
      cases h'
    · rintro rfl
      exact absurd (List.isPrefixOf_iff_prefix.mpr ⟨rest, rfl⟩) h

end Scanning

section Numbers

variable {s t rest ds : List Char}

/-- What stands behind a number does not go on with it. -/
def Stops (rest : List Char) : Prop := ∀ c ∈ rest.head?, inNumber c = false

theorem inNumber_eq_false {c : Char} :
    inNumber c = false ↔ c.isDigit = false ∧ c ∉ ['.', 'e', 'E', '+', '-'] := by
  simp [inNumber]

theorem Stops.head {c : Char} (hrest : Stops rest) (hc : c ∈ rest.head?) :
    c.isDigit = false ∧ c ≠ '.' ∧ c ≠ 'e' ∧ c ≠ 'E' := by
  have h := inNumber_eq_false.mp (hrest c hc)
  simp only [List.mem_cons, List.not_mem_nil, or_false, not_or] at h
  exact ⟨h.1, h.2.1, h.2.2.1, h.2.2.2.1⟩

theorem skipDigits_append (hds : Digits ds) (hrest : ∀ c ∈ rest.head?, c.isDigit = false) :
    skipDigits (ds ++ rest) = .read () rest := by
  have hdrop : rest.dropWhile Char.isDigit = rest := by
    cases rest with
    | nil => rfl
    | cons c rest => exact List.dropWhile_cons_of_neg (by simp [hrest c rfl])
  have htake : rest.takeWhile Char.isDigit = [] := by
    cases rest with
    | nil => rfl
    | cons c rest => exact List.takeWhile_cons_of_neg (by simp [hrest c rfl])
  rw [skipDigits, List.takeWhile_append_of_pos hds.2, List.dropWhile_append_of_pos hds.2, hdrop,
    htake, List.append_nil, if_neg hds.1]

theorem skipDigits_eq_read : skipDigits s = .read () rest → ∃ ds, Digits ds ∧ s = ds ++ rest := by
  intro h
  rw [skipDigits] at h
  split_ifs at h with hnil
  obtain rfl : s.dropWhile Char.isDigit = rest := by simpa using h
  exact ⟨s.takeWhile Char.isDigit, ⟨hnil, fun _ hc => List.mem_takeWhile_imp hc⟩,
    List.takeWhile_append_dropWhile.symm⟩

theorem Digits.head {c : Char} (hds : Digits ds) (hc : c ∈ (ds ++ rest).head?) : c.isDigit = true := by
  obtain ⟨d, ds, rfl⟩ := List.exists_cons_of_ne_nil hds.1
  obtain rfl : d = c := by simpa using hc
  exact hds.2 d List.mem_cons_self

theorem skipSign_append {signs sign : List Char} (hsign : sign = [] ∨ ∃ c ∈ signs, sign = [c])
    (hsigns : ∀ c ∈ signs, c.isDigit = false) (hds : Digits ds) :
    skipSign signs (sign ++ (ds ++ rest)) = ds ++ rest := by
  obtain rfl | ⟨c, hc, rfl⟩ := hsign
  · obtain ⟨d, ds, rfl⟩ := List.exists_cons_of_ne_nil hds.1
    have hd : d ∉ signs := fun hmem =>
      absurd ((hsigns d hmem).symm.trans (hds.2 d List.mem_cons_self)) Bool.false_ne_true
    exact if_neg hd
  · exact if_pos hc

theorem skipSign_split (signs s : List Char) :
    ∃ sign, (sign = [] ∨ ∃ c ∈ signs, sign = [c]) ∧ s = sign ++ skipSign signs s := by
  cases s with
  | nil => exact ⟨[], .inl rfl, rfl⟩
  | cons c s =>
    by_cases hc : c ∈ signs
    · exact ⟨[c], .inr ⟨c, hc, rfl⟩, by simp [skipSign, hc]⟩
    · exact ⟨[], .inl rfl, by simp [skipSign, hc]⟩

theorem skipFraction_append {frac : List Char}
    (hfrac : frac = [] ∨ ∃ ds, Digits ds ∧ frac = '.' :: ds)
    (hrest : ∀ c ∈ rest.head?, c.isDigit = false ∧ c ≠ '.') :
    skipFraction (frac ++ rest) = .read () rest := by
  obtain rfl | ⟨ds, hds, rfl⟩ := hfrac
  · cases rest with
    | nil => rfl
    | cons c rest =>
      have hc := (hrest c rfl).2
      rw [List.nil_append]
      unfold skipFraction
      split
      · rename_i heq
        exact absurd (List.cons.inj heq).1 hc
      · rfl
  · exact skipDigits_append hds fun c hc => (hrest c hc).1

theorem skipFraction_eq_read (h : skipFraction s = .read () rest) :
    ∃ frac, (frac = [] ∨ ∃ ds, Digits ds ∧ frac = '.' :: ds) ∧ s = frac ++ rest := by
  unfold skipFraction at h
  split at h
  · obtain ⟨ds, hds, rfl⟩ := skipDigits_eq_read h
    exact ⟨'.' :: ds, .inr ⟨ds, hds, rfl⟩, rfl⟩
  · cases h
    exact ⟨[], .inl rfl, rfl⟩

/-- The exponent part of a number. -/
def IsExponent (exp : List Char) : Prop :=
  exp = [] ∨ ∃ e sign ds, (e = 'e' ∨ e = 'E') ∧ (sign = [] ∨ sign = ['+'] ∨ sign = ['-']) ∧
    Digits ds ∧ exp = e :: sign ++ ds

theorem signs_iff {sign : List Char} :
    (sign = [] ∨ sign = ['+'] ∨ sign = ['-']) ↔ sign = [] ∨ ∃ c ∈ ['+', '-'], sign = [c] := by
  simp

theorem skipExponent_append {exp : List Char} (hexp : IsExponent exp) (hrest : Stops rest) :
    skipExponent (exp ++ rest) = .read () rest := by
  obtain rfl | ⟨e, sign, ds, he, hsign, hds, rfl⟩ := hexp
  · cases rest with
    | nil => rfl
    | cons c rest =>
      obtain ⟨-, -, hlower, hupper⟩ := hrest.head (c := c) rfl
      exact if_neg (not_or.mpr ⟨hlower, hupper⟩)
  · have hskip : skipSign ['+', '-'] (sign ++ (ds ++ rest)) = ds ++ rest :=
      skipSign_append (signs_iff.mp hsign) (by simp [Char.isDigit]) hds
    rw [List.cons_append, List.cons_append, List.append_assoc, skipExponent, if_pos he, hskip]
    exact skipDigits_append hds fun c hc => (hrest.head hc).1

theorem skipExponent_eq_read (h : skipExponent s = .read () rest) :
    ∃ exp, IsExponent exp ∧ s = exp ++ rest := by
  cases s with
  | nil =>
    cases h
    exact ⟨[], .inl rfl, rfl⟩
  | cons e s =>
    rw [skipExponent] at h
    split_ifs at h with he
    · obtain ⟨ds, hds, hsplit⟩ := skipDigits_eq_read h
      obtain ⟨sign, hsign, hs⟩ := skipSign_split ['+', '-'] s
      refine ⟨e :: sign ++ ds, .inr ⟨e, sign, ds, he, signs_iff.mpr hsign, hds, rfl⟩, ?_⟩
      rw [hs, hsplit]
      simp
    · cases h
      exact ⟨[], .inl rfl, rfl⟩

theorem head_exponent {exp : List Char} (hexp : IsExponent exp) (hrest : Stops rest) {c : Char}
    (hc : c ∈ (exp ++ rest).head?) : c.isDigit = false ∧ c ≠ '.' := by
  obtain rfl | ⟨e, sign, ds, he, -, -, rfl⟩ := hexp
  · exact ⟨(hrest.head hc).1, (hrest.head hc).2.1⟩
  · obtain rfl : e = c := by simpa using hc
    rcases he with rfl | rfl <;> decide

theorem head_fraction {frac exp : List Char}
    (hfrac : frac = [] ∨ ∃ ds, Digits ds ∧ frac = '.' :: ds) (hexp : IsExponent exp)
    (hrest : Stops rest) {c : Char} (hc : c ∈ (frac ++ (exp ++ rest)).head?) :
    c.isDigit = false := by
  obtain rfl | ⟨ds, -, rfl⟩ := hfrac
  · exact (head_exponent hexp hrest hc).1
  · obtain rfl : '.' = c := by simpa using hc
    decide

theorem number_append (hs : relaxed.Number s) (hrest : Stops rest) :
    number (s ++ rest) = .read (String.ofList s) rest := by
  obtain ⟨sign, int, frac, exp, rfl, hsign, ⟨hint, -⟩, hfrac, hexp⟩ := hs
  have hbehind : ∀ c ∈ (frac ++ (exp ++ rest)).head?, c.isDigit = false := fun c hc =>
    head_fraction hfrac hexp hrest hc
  have hassoc : sign ++ int ++ frac ++ exp ++ rest = sign ++ (int ++ (frac ++ (exp ++ rest))) := by
    simp only [List.append_assoc]
  have hskip : skipSign ['-'] (sign ++ (int ++ (frac ++ (exp ++ rest)))) =
      int ++ (frac ++ (exp ++ rest)) := skipSign_append
    (hsign.imp_right fun h => ⟨'-', List.mem_cons_self, h⟩) (by simp [Char.isDigit]) hint
  have htake : (sign ++ int ++ frac ++ exp ++ rest).take
      ((sign ++ int ++ frac ++ exp ++ rest).length - rest.length) =
        sign ++ int ++ frac ++ exp := by
    rw [List.length_append, Nat.add_sub_cancel, List.take_left]
  have hdigits := skipDigits_append hint hbehind
  rw [← hskip, ← hassoc] at hdigits
  have hfraction : skipFraction (frac ++ (exp ++ rest)) = .read () (exp ++ rest) :=
    skipFraction_append hfrac fun c hc => head_exponent hexp hrest hc
  have hexponent := skipExponent_append hexp hrest
  simp only [number, hdigits, hfraction, hexponent, Reading.andThen, htake]

theorem number_eq_read {n : String} (h : number s = .read n rest) :
    s = n.toList ++ rest ∧ relaxed.Number n.toList := by
  obtain ⟨_, s₁, h₁, hthen₁⟩ := andThen_eq_read.mp h
  obtain ⟨_, s₂, h₂, hthen₂⟩ := andThen_eq_read.mp hthen₁
  obtain ⟨_, s₃, h₃, hread⟩ := andThen_eq_read.mp hthen₂
  obtain ⟨sign, hsign, hs⟩ := skipSign_split ['-'] s
  obtain ⟨int, hint, hs₀⟩ := skipDigits_eq_read h₁
  obtain ⟨frac, hfrac, rfl⟩ := skipFraction_eq_read h₂
  obtain ⟨exp, hexp, rfl⟩ := skipExponent_eq_read h₃
  have hwhole : s = (sign ++ int ++ frac ++ exp) ++ s₃ := by
    rw [hs, hs₀]
    simp only [List.append_assoc]
  have htake : s.take (s.length - s₃.length) = sign ++ int ++ frac ++ exp := by
    rw [hwhole, List.length_append, Nat.add_sub_cancel, List.take_left]
  rw [htake] at hread
  injection hread with hn hrest
  subst hn hrest
  rw [String.toList_ofList]
  refine ⟨hwhole, sign, int, frac, exp, rfl, ?_, ⟨hint, .inr (.inr rfl)⟩, hfrac, hexp⟩
  obtain hnil | ⟨c, hc, hsign⟩ := hsign
  · exact .inl hnil
  · exact .inr (by rw [hsign, List.mem_singleton.mp hc])

end Numbers

section Strings

variable {s t rest : List Char} {c : Char} {n : Nat}

theorem hexValue_plus {ds : List Char} : hexValue ('+' :: ds) = none := by
  have hplus : hexDigit '+' = none := by decide
  simp [hexValue, hplus]

theorem fromStrRadix16_eq_some (ht : t.length = 4) : fromStrRadix16 t = some n ↔
    hexValue t = some n ∨ ∃ ds, t = '+' :: ds ∧ hexValue ds = some n := by
  obtain ⟨a, b, ds, rfl⟩ : ∃ a b ds, t = a :: b :: ds := by
    match t, ht with
    | [a, b, c, d], _ => exact ⟨a, b, [c, d], rfl⟩
  by_cases ha : a = '+'
  · subst ha
    simp [fromStrRadix16, hexValue_plus]
  · simp [fromStrRadix16, ha]

theorem hex4_eq_read : hex4 s = .read n rest ↔ ∃ t, relaxed.Hex4 t n ∧ s = t ++ rest := by
  constructor
  · intro h
    unfold hex4 at h
    split_ifs at h with hlen
    have htake : (s.take 4).length = 4 := List.length_take_of_le (by omega)
    split at h
    · rename_i value hvalue
      injection h with hn hrest
      subst hn hrest
      refine ⟨s.take 4, ⟨htake, ?_⟩, (List.take_append_drop 4 s).symm⟩
      exact ((fromStrRadix16_eq_some htake).mp hvalue).imp_right fun h => ⟨rfl, h⟩
    · cases h
  · rintro ⟨t, ⟨hlen, hvalue⟩, rfl⟩
    have hsome : fromStrRadix16 t = some n :=
      (fromStrRadix16_eq_some hlen).mpr (hvalue.imp_right And.right)
    have htake : (t ++ rest).take 4 = t := List.take_left' hlen
    have hdrop : (t ++ rest).drop 4 = rest := List.drop_left' hlen
    have hge : ¬(t ++ rest).length < 4 := by
      rw [List.length_append]
      omega
    rw [hex4, if_neg hge, htake, hsome, hdrop]

theorem hex4_ne_unfinished : hex4 s ≠ .unfinished := by
  unfold hex4
  split_ifs
  · simp
  · split <;> simp

theorem fromU32_eq_some : fromU32 n = some c ↔ n = c.toNat := by
  rw [fromU32]
  constructor
  · intro h
    split_ifs at h with hvalid
    obtain rfl := Option.some.inj h
    rw [Char.ofNat, dif_pos hvalid]
    rfl
  · rintro rfl
    have hvalid : c.toNat.isValidChar := c.valid
    rw [if_pos hvalid, Char.ofNat_toNat]

theorem not_surrogate (c : Char) : ¬(0xD800 ≤ c.toNat ∧ c.toNat ≤ 0xDFFF) := by
  have hvalid : c.toNat.isValidChar := c.valid
  rw [Nat.isValidChar] at hvalid
  omega

/-- The code points behind `\u`: one, or two that are a pair of surrogates. -/
def IsUnicode (c : Char) (t : List Char) : Prop :=
  relaxed.Hex4 t c.toNat ∨ ∃ first second high low, relaxed.Hex4 first high ∧
    relaxed.Hex4 second low ∧ (0xD800 ≤ high ∧ high ≤ 0xDBFF) ∧ (0xDC00 ≤ low ∧ low ≤ 0xDFFF) ∧
    c.toNat = 0x10000 + (high - 0xD800) * 1024 + (low - 0xDC00) ∧
    t = first ++ '\\' :: 'u' :: second

theorem unicodeEscape_eq_read :
    unicodeEscape s = .read c rest ↔ ∃ t, IsUnicode c t ∧ s = t ++ rest := by
  constructor
  · intro h
    obtain ⟨high, s₁, hread₁, hthen⟩ := andThen_eq_read.mp h
    obtain ⟨first, hfirst, rfl⟩ := hex4_eq_read.mp hread₁
    split_ifs at hthen with hhigh
    · obtain ⟨_, s₂, hslash, hthen₁⟩ := andThen_eq_read.mp hthen
      obtain ⟨_, s₃, hu, hthen₂⟩ := andThen_eq_read.mp hthen₁
      obtain ⟨low, s₄, hread₂, hthen₃⟩ := andThen_eq_read.mp hthen₂
      obtain rfl := eat_eq_read.mp hslash
      obtain rfl := eat_eq_read.mp hu
      obtain ⟨second, hsecond, rfl⟩ := hex4_eq_read.mp hread₂
      split_ifs at hthen₃ with hlow
      split at hthen₃
      · rename_i value hvalue
        injection hthen₃ with hc hrest
        subst hc hrest
        exact ⟨_, .inr ⟨first, second, high, low, hfirst, hsecond, hhigh, hlow,
          (fromU32_eq_some.mp hvalue).symm, rfl⟩, by simp⟩
      · cases hthen₃
    · split at hthen
      · rename_i value hvalue
        injection hthen with hc hrest
        subst hc hrest
        rw [fromU32_eq_some.mp hvalue] at hfirst
        exact ⟨first, .inl hfirst, rfl⟩
      · cases hthen
  · rintro ⟨t, hfirst | ⟨first, second, high, low, hfirst, hsecond, hhigh, hlow, hc, rfl⟩, rfl⟩
    · have hhigh : ¬(0xD800 ≤ c.toNat ∧ c.toNat ≤ 0xDBFF) := fun h =>
        not_surrogate c ⟨h.1, h.2.trans (by decide)⟩
      have hread := hex4_eq_read.mpr ⟨t, hfirst, (rfl : t ++ rest = t ++ rest)⟩
      simp only [unicodeEscape, hread, Reading.andThen, if_neg hhigh, fromU32_eq_some.mpr rfl]
    · have hread₁ : hex4 (first ++ '\\' :: 'u' :: (second ++ rest)) =
          .read high ('\\' :: 'u' :: (second ++ rest)) := hex4_eq_read.mpr ⟨first, hfirst, rfl⟩
      have hread₂ : hex4 (second ++ rest) = .read low rest := hex4_eq_read.mpr ⟨second, hsecond, rfl⟩
      simp only [List.append_assoc, List.cons_append, unicodeEscape, hread₁, hread₂, eat,
        Reading.andThen, if_pos hhigh, if_pos hlow, ↓reduceIte, fromU32_eq_some.mpr hc.symm]

theorem unicodeEscape_ne_unfinished : unicodeEscape s ≠ .unfinished := by
  intro h
  obtain hfirst | ⟨high, s₁, -, hthen⟩ := andThen_eq_unfinished.mp h
  · exact hex4_ne_unfinished hfirst
  split_ifs at hthen
  · obtain hslash | ⟨_, s₂, -, hthen⟩ := andThen_eq_unfinished.mp hthen
    · exact eat_ne_unfinished hslash
    obtain hu | ⟨_, s₃, -, hthen⟩ := andThen_eq_unfinished.mp hthen
    · exact eat_ne_unfinished hu
    obtain hsecond | ⟨low, s₄, -, hthen⟩ := andThen_eq_unfinished.mp hthen
    · exact hex4_ne_unfinished hsecond
    split_ifs at hthen
    split at hthen <;> cases hthen
  · split at hthen <;> cases hthen

theorem lookup_shortEscapes {e : Char} : shortEscapes.lookup e = some c ↔ (e, c) ∈ shortEscapes := by
  constructor
  · intro h
    obtain ⟨l₁, l₂, hsplit, -⟩ := List.lookup_eq_some_iff.mp h
    rw [hsplit]
    simp
  · intro h
    simp only [shortEscapes, List.mem_cons, Prod.mk.injEq, List.not_mem_nil, or_false] at h
    obtain ⟨rfl, rfl⟩ | ⟨rfl, rfl⟩ | ⟨rfl, rfl⟩ | ⟨rfl, rfl⟩ | ⟨rfl, rfl⟩ | ⟨rfl, rfl⟩ | ⟨rfl, rfl⟩ |
      ⟨rfl, rfl⟩ := h <;> rfl

theorem character_unicode {t : List Char} (h : IsUnicode c t) :
    relaxed.Character c ('\\' :: 'u' :: t) := by
  obtain h | ⟨first, second, high, low, hfirst, hsecond, hhigh, hlow, hc, rfl⟩ := h
  · exact .unicode h
  · exact .pair hfirst hsecond hhigh hlow hc

theorem character_escape {e : Char} : character ('\\' :: e :: s) = .read c rest ↔
    ((e, c) ∈ shortEscapes ∧ s = rest) ∨ e = 'u' ∧ unicodeEscape s = .read c rest := by
  rw [← lookup_shortEscapes]
  cases hlookup : shortEscapes.lookup e with
  | none =>
    have hchar : character ('\\' :: e :: s) =
        if e = 'u' then unicodeEscape s else .rejected := by simp only [character, hlookup]
    rw [hchar]
    by_cases hu : e = 'u' <;> simp [hu]
  | some d =>
    have hchar : character ('\\' :: e :: s) = .read d s := by simp only [character, hlookup]
    have hu : e ≠ 'u' := by
      rintro rfl
      cases hlookup
    simp [hchar, hu]

theorem character_raw {d : Char} (hslash : d ≠ '\\') :
    character (d :: s) = if d.toNat < 0x20 then .rejected else .read d s := by
  unfold character
  split
  · rename_i heq
    cases heq
  · rename_i heq
    exact absurd (List.cons.inj heq).1 hslash
  · rename_i heq
    exact absurd (List.cons.inj heq).1 hslash
  · rename_i heq
    rw [(List.cons.inj heq).1, (List.cons.inj heq).2]

theorem character_sound (hquote : s.head? ≠ some '"') (h : character s = .read c rest) :
    ∃ t, relaxed.Character c t ∧ s = t ++ rest := by
  cases s with
  | nil => cases h
  | cons d s =>
    by_cases hslash : d = '\\'
    · subst hslash
      cases s with
      | nil => cases h
      | cons e s =>
        obtain ⟨hshort, rfl⟩ | ⟨rfl, hunicode⟩ := character_escape.mp h
        · exact ⟨['\\', e], .short hshort, rfl⟩
        · obtain ⟨t, ht, rfl⟩ := unicodeEscape_eq_read.mp hunicode
          exact ⟨'\\' :: 'u' :: t, character_unicode ht, rfl⟩
    · rw [character_raw hslash] at h
      split_ifs at h with hctrl
      injection h with hc hrest
      subst hc hrest
      exact ⟨[d], .raw (Nat.le_of_not_lt hctrl) (fun hd => hquote (by rw [hd]; rfl)) hslash, rfl⟩

theorem character_complete (h : relaxed.Character c t) : character (t ++ rest) = .read c rest := by
  have hunicode : ∀ {t : List Char}, IsUnicode c t →
      character ('\\' :: 'u' :: (t ++ rest)) = .read c rest := fun ht =>
    character_escape.mpr (.inr ⟨rfl, unicodeEscape_eq_read.mpr ⟨_, ht, rfl⟩⟩)
  cases h with
  | raw hc _ hslash =>
    rw [List.singleton_append, character_raw hslash, if_neg (Nat.not_lt.mpr hc)]
  | short h => exact character_escape.mpr (.inl ⟨h, rfl⟩)
  | unicode h => exact hunicode (.inl h)
  | pair hfirst hsecond hhigh hlow hc =>
    exact hunicode (.inr ⟨_, _, _, _, hfirst, hsecond, hhigh, hlow, hc, rfl⟩)

theorem character_ne_unfinished : character s ≠ .unfinished := by
  unfold character
  split
  · simp
  · simp
  · split
    · simp
    · split_ifs
      · exact unicodeEscape_ne_unfinished
      · simp
  · split_ifs <;> simp

theorem head_character {d : Dialect} (h : d.Character c t) : ∃ e t', t = e :: t' ∧ e ≠ '"' := by
  cases h with
  | raw _ hquote _ => exact ⟨c, [], rfl, hquote⟩
  | short _ => exact ⟨'\\', _, rfl, by decide⟩
  | unicode _ => exact ⟨'\\', _, rfl, by decide⟩
  | pair _ _ _ _ _ => exact ⟨'\\', _, rfl, by decide⟩

theorem characters_step {fuel : Nat} {out : List Char} (hquote : s.head? ≠ some '"') :
    characters (fuel + 1) s out =
      (character s).andThen fun c rest => characters fuel rest (out ++ [c]) := by
  cases s with
  | nil => rfl
  | cons d s =>
    have hd : d ≠ '"' := fun hd => hquote (by rw [hd]; rfl)
    simp [characters, hd]

theorem characters_complete {cs : List Char} {parts : List (List Char)}
    (h : List.Forall₂ relaxed.Character cs parts) {fuel : Nat} (hfuel : parts.length < fuel)
    (out : List Char) : characters fuel (parts.flatten ++ '"' :: rest) out =
      .read (String.ofList (out ++ cs)) rest := by
  induction h generalizing fuel out with
  | nil =>
    obtain ⟨fuel, rfl⟩ := Nat.exists_eq_succ_of_ne_zero (Nat.ne_of_gt hfuel)
    simp [characters]
  | @cons c t cs parts hc _ ih =>
    obtain ⟨fuel, rfl⟩ := Nat.exists_eq_succ_of_ne_zero (Nat.ne_of_gt (Nat.zero_lt_of_lt hfuel))
    have hquote : ((t :: parts).flatten ++ '"' :: rest).head? ≠ some '"' := by
      obtain ⟨e, t', rfl, he⟩ := head_character hc
      simpa using he
    rw [characters_step hquote, List.flatten_cons, List.append_assoc, character_complete hc,
      Reading.andThen, ih (by simpa using hfuel), List.append_assoc, List.singleton_append]

theorem characters_sound {fuel : Nat} {out : List Char} {text : String}
    (h : characters fuel s out = .read text rest) : ∃ cs parts,
      List.Forall₂ relaxed.Character cs parts ∧ s = parts.flatten ++ '"' :: rest ∧
        text = String.ofList (out ++ cs) := by
  induction fuel generalizing s out with
  | zero => cases h
  | succ fuel ih =>
    by_cases hquote : s.head? = some '"'
    · obtain ⟨s, rfl⟩ := List.head?_eq_some_iff.mp hquote
      simp only [characters, Reading.read.injEq] at h
      obtain ⟨rfl, rfl⟩ := h
      exact ⟨[], [], .nil, rfl, by simp⟩
    · rw [characters_step hquote] at h
      obtain ⟨c, s', hc, hthen⟩ := andThen_eq_read.mp h
      obtain ⟨t, ht, rfl⟩ := character_sound hquote hc
      obtain ⟨cs, parts, hparts, rfl, rfl⟩ := ih hthen
      exact ⟨c :: cs, t :: parts, .cons ht hparts, by simp, by simp⟩

theorem characters_ne_unfinished {fuel : Nat} {out : List Char} (hfuel : s.length < fuel) :
    characters fuel s out ≠ .unfinished := by
  induction fuel generalizing s out with
  | zero => omega
  | succ fuel ih =>
    by_cases hquote : s.head? = some '"'
    · obtain ⟨s, rfl⟩ := List.head?_eq_some_iff.mp hquote
      simp [characters]
    · rw [characters_step hquote]
      intro h
      obtain h | ⟨c, s', hc, hthen⟩ := andThen_eq_unfinished.mp h
      · exact character_ne_unfinished h
      · obtain ⟨t, ht, rfl⟩ := character_sound hquote hc
        obtain ⟨e, t', rfl, -⟩ := head_character ht
        refine ih ?_ hthen
        simp only [List.cons_append, List.length_cons, List.length_append] at hfuel
        omega

theorem length_le_flatten {cs : List Char} {parts : List (List Char)}
    (h : List.Forall₂ relaxed.Character cs parts) : parts.length ≤ parts.flatten.length := by
  induction h with
  | nil => exact Nat.le_refl 0
  | cons hc _ ih =>
    obtain ⟨e, t', rfl, -⟩ := head_character hc
    simp only [List.flatten_cons, List.length_append, List.length_cons] at ih ⊢
    omega

theorem string_eq_read {text : String} :
    string s = .read text rest ↔ ∃ t, relaxed.Str text t ∧ s = t ++ rest := by
  constructor
  · intro h
    obtain ⟨_, s₁, hopen, hthen⟩ := andThen_eq_read.mp h
    obtain rfl := eat_eq_read.mp hopen
    obtain ⟨cs, parts, hparts, rfl, rfl⟩ := characters_sound hthen
    refine ⟨'"' :: parts.flatten ++ ['"'], ⟨parts, ?_, rfl⟩, by simp⟩
    rwa [List.nil_append, String.toList_ofList]
  · rintro ⟨t, ⟨parts, hparts, rfl⟩, rfl⟩
    have hopen : eat '"' ('"' :: parts.flatten ++ ['"'] ++ rest) =
        .read () (parts.flatten ++ '"' :: rest) := eat_eq_read.mpr (by simp)
    have hfuel : parts.length < (parts.flatten ++ '"' :: rest).length + 1 := by
      have hlen := length_le_flatten hparts
      rw [List.length_append]
      omega
    rw [string, hopen, Reading.andThen, characters_complete hparts hfuel, List.nil_append,
      String.ofList_toList]

theorem string_ne_unfinished : string s ≠ .unfinished := by
  intro h
  obtain hopen | ⟨_, s₁, -, hthen⟩ := andThen_eq_unfinished.mp h
  · exact eat_ne_unfinished hopen
  · exact characters_ne_unfinished (Nat.lt_succ_self _) hthen

end Strings

end Hbird.Json.MiniJson
