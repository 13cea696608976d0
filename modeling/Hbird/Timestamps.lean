import Hbird.Calendar
import Hbird.Etcd.KeyMaterial

namespace Hbird.ExportArgocd

/-- `x as u32`. -/
def asU32 (x : Int) : Nat := (x % 2 ^ 32).toNat

/-- `x as i32`. -/
def asI32 (x : Int) : Int := x.bmod (2 ^ 32)

def epochToUtcYmdhms (secs : Int) : Int × Nat × Nat × Nat × Nat × Nat :=
  let days := secs / 86400
  let secsOfDay := asU32 (secs % 86400)
  let z := days + 719468
  let era := z / 146097
  -- below 146097 whatever the second, so that nothing overflows up to the month
  let doe := asU32 (z - era * 146097)
  let yoe := (doe - doe / 1460 + doe / 36524 - doe / 146096) / 365
  let y := asI32 (asI32 yoe + asI32 (asI32 era * 400))
  let doy := doe - (365 * yoe + yoe / 4 - yoe / 100)
  let mp := (5 * doy + 2) / 153
  let d := doy - (153 * mp + 2) / 5 + 1
  let m := if mp < 10 then mp + 3 else mp - 9
  (if m ≤ 2 then asI32 (y + 1) else y, m, d, secsOfDay / 3600, secsOfDay / 60 % 60, secsOfDay % 60)

theorem asU32_natCast {n : Nat} (h : n < 2 ^ 32) : asU32 n = n := by
  unfold asU32
  omega

theorem asI32_natCast {n : Nat} (h : n < 2 ^ 31) : asI32 n = n := by
  unfold asI32
  rw [Int.bmod_eq_of_le] <;> omega

end Hbird.ExportArgocd

namespace Hbird.Etcd

open Hbird.Text Hbird.Calendar Hbird.ExportArgocd

def formatUtcTimestamp (epochSecs : Nat) : String :=
  match civilFromEpoch epochSecs with
  | (y, m, d, hh, mm, ss) => zeroPadded 4 y ++ zeroPadded 2 m ++ zeroPadded 2 d ++ "T" ++
      zeroPadded 2 hh ++ zeroPadded 2 mm ++ zeroPadded 2 ss ++ "Z"

/-- The fields as the conversions give them. -/
def civilOf (t : Moment) : Nat × Nat × Nat × Nat × Nat × Nat :=
  (t.date.year, t.date.month, t.date.day, t.hour, t.minute, t.second)

/-- The seconds from 1970 up to the year 10000. -/
def endOf9999 : Nat := (newYear 10000).number - unixEpoch.number

theorem endOf9999_eq : endOf9999 = 253402300800 := by
  rw [endOf9999, unixEpoch, number_newYear, number_newYear, daysBeforeYear_eq, daysBeforeYear_eq]

section Era

variable {c q r s doe : Nat}

/-- A day of an era by its century, the four years of it, the year of these and the day: only the
last of four years, and of four centuries, has a day more. -/
theorem exists_cycles (h : doe < 146097) : ∃ c q r s, c ≤ 3 ∧ q ≤ 24 ∧ r ≤ 3 ∧ s ≤ 365 ∧
    (s = 365 → r = 3 ∧ (q = 24 → c = 3)) ∧ doe = 36524 * c + 1461 * q + 365 * r + s := by
  obtain ⟨c, rest, hc, hrest, hlast, hdoe⟩ : ∃ c rest, c ≤ 3 ∧ rest ≤ 36524 ∧
      (rest = 36524 → c = 3) ∧ doe = 36524 * c + rest := by
    by_cases hend : doe = 146096
    · exact ⟨3, 36524, by omega⟩
    · exact ⟨doe / 36524, doe % 36524, by omega⟩
  obtain ⟨r, s, hr, hs, hfourth, hday⟩ : ∃ r s, r ≤ 3 ∧ s ≤ 365 ∧ (s = 365 → r = 3) ∧
      rest % 1461 = 365 * r + s := by
    by_cases hend : rest % 1461 = 1460
    · exact ⟨3, 365, by omega⟩
    · exact ⟨rest % 1461 / 365, rest % 1461 % 365, by omega⟩
  exact ⟨c, rest / 1461, r, s, by omega⟩

/-- The year of the era: what the divisions take away are the leap days before it. -/
theorem yearOfEra_eq (hc : c ≤ 3) (hq : q ≤ 24) (hr : r ≤ 3) (hs : s ≤ 365)
    (hleap : s = 365 → r = 3 ∧ (q = 24 → c = 3)) (hdoe : doe = 36524 * c + 1461 * q + 365 * r + s) :
    (doe - doe / 1460 + doe / 36524 - doe / 146096) / 365 = 100 * c + 4 * q + r := by
  obtain ⟨e, he, hes, hse, hfour⟩ : ∃ e ≤ 1, e ≤ s ∧ s < 365 + e ∧ doe / 1460 = 25 * c + q + e := by
    by_cases hover : 1460 ≤ 24 * c + q + 365 * r + s
    · exact ⟨1, by omega⟩
    · exact ⟨0, by omega⟩
  by_cases hend : doe = 146096
  · omega
  · have hcentury : doe / 36524 = c := by interval_cases c <;> omega
    have hera : doe / 146096 = 0 := by omega
    omega

theorem dayOfYear_eq (hq : q ≤ 24) (hr : r ≤ 3) (hdoe : doe = 36524 * c + 1461 * q + 365 * r + s) :
    doe - (365 * (100 * c + 4 * q + r) + (100 * c + 4 * q + r) / 4 - (100 * c + 4 * q + r) / 100) =
      s := by
  have hfour : (100 * c + 4 * q + r) / 4 = 25 * c + q := by omega
  have hcentury : (100 * c + 4 * q + r) / 100 = c := by omega
  omega

theorem isLeap_of_last {era : Nat} (hq : q ≤ 24) (hc : q = 24 → c = 3) :
    isLeap (400 * era + (100 * c + 4 * q + 3) + 1) = true := by
  refine isLeap_iff.mpr ⟨by omega, ?_⟩
  by_cases hend : q = 24
  · exact .inr (by omega)
  · exact .inl (by omega)

/-- The days of whole eras, and of the years of the last one. -/
theorem daysBeforeYear_era {era : Nat} (hc : c ≤ 3) (hq : q ≤ 24) (hr : r ≤ 3) :
    daysBeforeYear (400 * era + (100 * c + 4 * q + r) + 1) =
      146097 * era + 36524 * c + 1461 * q + 365 * r + 366 := by
  rw [daysBeforeYear_march]
  omega

end Era

section Civil

variable {epochSecs : Nat}

theorem civilFromEpoch_moment (epochSecs : Nat) :
    ∃ t : Moment, t.number = unixEpoch.number + epochSecs ∧ civilFromEpoch epochSecs = civilOf t := by
  generalize hz : epochSecs / 86400 + 719468 = z
  generalize hera : z / 146097 = era
  have hlt : z % 146097 < 146097 := Nat.mod_lt _ (by decide)
  obtain ⟨c, q, r, s, hc, hq, hr, hs, hleap, hdoe⟩ := exists_cycles hlt
  have hyoe := yearOfEra_eq hc hq hr hs hleap hdoe
  have hdoy := dayOfYear_eq hq hr hdoe
  have hlast : s = 365 → isLeap (400 * era + (100 * c + 4 * q + r) + 1) = true := by
    intro hday
    obtain ⟨rfl, hcentury⟩ := hleap hday
    exact isLeap_of_last hq hcentury
  obtain ⟨t, hnumber, hyear, hmonth, hday⟩ := exists_date_march hs hlast rfl
  refine ⟨⟨t, ⟨epochSecs % 86400 / 3600, by omega⟩, ⟨epochSecs % 86400 % 3600 / 60, by omega⟩,
    ⟨epochSecs % 86400 % 60, by omega⟩⟩, ?_, ?_⟩
  · have hepoch : unixEpoch.number = 719529 * 86400 := by
      rw [unixEpoch, number_newYear, daysBeforeYear_eq]
    rw [daysBeforeYear_era hc hq hr] at hnumber
    rw [Moment.number, hepoch]
    dsimp only
    omega
  · have hcomm : 100 * c + 4 * q + r + era * 400 = 400 * era + (100 * c + 4 * q + r) := by omega
    simp only [civilFromEpoch, civilOf, hz, hera, hyoe, hdoy, hyear, hmonth, hday, hcomm]

/-- What the conversion gives is the calendar's date. -/
theorem civilFromEpoch_iterate (epochSecs : Nat) :
    civilFromEpoch epochSecs = civilOf (Moment.next^[epochSecs] unixEpoch) := by
  obtain ⟨t, hnumber, hcivil⟩ := civilFromEpoch_moment epochSecs
  rw [hcivil, Moment.iterate_eq hnumber]

theorem epochToUtcYmdhms_eq (h : epochSecs < endOf9999) :
    epochToUtcYmdhms epochSecs = Prod.map Nat.cast id (civilFromEpoch epochSecs) := by
  rw [endOf9999_eq] at h
  have hdays : (epochSecs : Int) / 86400 + 719468 = ((epochSecs / 86400 + 719468 : Nat) : Int) := by
    omega
  have hrem : (epochSecs : Int) % 86400 = ((epochSecs % 86400 : Nat) : Int) := by omega
  unfold epochToUtcYmdhms civilFromEpoch
  dsimp only
  rw [hdays, hrem]
  have hbound : epochSecs / 86400 + 719468 < 2 ^ 31 := by omega
  generalize epochSecs / 86400 + 719468 = z at hbound
  have hera : (z : Int) / 146097 = ((z / 146097 : Nat) : Int) := by omega
  have hdoe : (z : Int) - ((z / 146097 : Nat) : Int) * 146097 = ((z % 146097 : Nat) : Int) := by omega
  rw [hera, hdoe, asU32_natCast (by omega), asU32_natCast (by omega)]
  have hlt : z % 146097 < 146097 := Nat.mod_lt _ (by decide)
  generalize z % 146097 = doe at hlt
  have hyoe : (doe - doe / 1460 + doe / 36524 - doe / 146096) / 365 < 400 := by omega
  generalize (doe - doe / 1460 + doe / 36524 - doe / 146096) / 365 = yoe at hyoe
  generalize (5 * (doe - (365 * yoe + yoe / 4 - yoe / 100)) + 2) / 153 = mp
  have htimes : ((z / 146097 : Nat) : Int) * 400 = ((z / 146097 * 400 : Nat) : Int) := by omega
  rw [asI32_natCast (by omega : yoe < 2 ^ 31), asI32_natCast (by omega : z / 146097 < 2 ^ 31), htimes,
    asI32_natCast (by omega : z / 146097 * 400 < 2 ^ 31), ← Nat.cast_add,
    asI32_natCast (by omega : yoe + z / 146097 * 400 < 2 ^ 31), ← Nat.cast_add_one,
    asI32_natCast (by omega : yoe + z / 146097 * 400 + 1 < 2 ^ 31)]
  have hminute : epochSecs % 86400 / 60 % 60 = epochSecs % 86400 % 3600 / 60 := by omega
  rw [hminute]
  generalize (if mp < 10 then mp + 3 else mp - 9) = m
  by_cases hm : m ≤ 2
  · rw [if_pos hm, if_pos hm, Prod.map, id]
  · rw [if_neg hm, if_neg hm, Nat.add_zero (yoe + z / 146097 * 400), Prod.map, id]

end Civil

section Padded

variable {w n n' : Nat} {s s' : List Char} {a b : Nat}

theorem ofDigitChars_lt (hs : ∀ c ∈ s, c.isDigit = true) (hlength : s.length = s'.length) (h : a < b) :
    Nat.ofDigitChars 10 s a < Nat.ofDigitChars 10 s' b := by
  induction s generalizing s' a b with
  | nil =>
    obtain rfl := List.length_eq_zero_iff.mp hlength.symm
    exact h
  | cons c s ih =>
    obtain ⟨d, s', rfl⟩ := List.exists_cons_of_length_eq_add_one hlength.symm
    obtain ⟨hc, hs⟩ := List.forall_mem_cons.mp hs
    have hnine : c.toNat - '0'.toNat ≤ 9 := by
      simp only [Char.isDigit, Bool.and_eq_true, decide_eq_true_eq, ge_iff_le,
        UInt32.le_iff_toNat_le] at hc
      exact Nat.sub_le_of_le_add hc.2
    rw [Nat.ofDigitChars_cons, Nat.ofDigitChars_cons]
    exact ih hs (Nat.succ.inj hlength) (by omega)

/-- Among digits of one length the order of the texts is that of the numbers. -/
theorem ofDigitChars_lt_of_lt (hs : ∀ c ∈ s, c.isDigit = true) (hs' : ∀ c ∈ s', c.isDigit = true)
    (hlength : s.length = s'.length) (h : s < s') :
    Nat.ofDigitChars 10 s a < Nat.ofDigitChars 10 s' a := by
  induction s generalizing s' a with
  | nil =>
    obtain rfl := List.length_eq_zero_iff.mp hlength.symm
    exact absurd h (lt_irrefl _)
  | cons c s ih =>
    obtain ⟨d, s', rfl⟩ := List.exists_cons_of_length_eq_add_one hlength.symm
    obtain ⟨hc, htail⟩ := List.forall_mem_cons.mp hs
    obtain ⟨hd, htail'⟩ := List.forall_mem_cons.mp hs'
    rw [Nat.ofDigitChars_cons, Nat.ofDigitChars_cons]
    obtain hlt | ⟨rfl, hrest⟩ := List.cons_lt_cons_iff.mp h
    · have hzero : '0'.toNat ≤ c.toNat := by
        simp only [Char.isDigit, Bool.and_eq_true, decide_eq_true_eq, ge_iff_le,
          UInt32.le_iff_toNat_le] at hc
        exact hc.1
      have hchar : c.toNat < d.toNat := hlt
      exact ofDigitChars_lt htail (Nat.succ.inj hlength) (by omega)
    · exact ih htail htail' (Nat.succ.inj hlength) hrest

theorem isDigit_zeroPadded {c : Char} (h : c ∈ (zeroPadded w n).toList) : c.isDigit = true := by
  rw [zeroPadded, String.toList_ofList] at h
  obtain h | h := List.mem_append.mp h
  · rw [List.eq_of_mem_replicate h]
    decide
  · exact Nat.isDigit_of_mem_toDigits (by decide) (by decide) h

theorem ofDigitChars_zeroPadded : Nat.ofDigitChars 10 (zeroPadded w n).toList 0 = n := by
  rw [zeroPadded, String.toList_ofList, Nat.ofDigitChars_append, Nat.ofDigitChars_replicate_zero,
    Nat.mul_zero, Nat.ofDigitChars_toDigits (by decide) (by decide)]

theorem length_zeroPadded (hw : 0 < w) (hn : n < 10 ^ w) : (zeroPadded w n).toList.length = w := by
  have hlength := (Nat.length_toDigits_le_iff (by decide) hw).mpr hn
  rw [zeroPadded, String.toList_ofList, List.length_append, List.length_replicate]
  exact Nat.sub_add_cancel hlength

theorem zeroPadded_lt (hw : 0 < w) (hn : n' < 10 ^ w) (h : n < n') :
    (zeroPadded w n).toList < (zeroPadded w n').toList := by
  have hlength : (zeroPadded w n).toList.length = (zeroPadded w n').toList.length := by
    rw [length_zeroPadded hw hn, length_zeroPadded hw (h.trans hn)]
  have hvalue : ∀ m, Nat.ofDigitChars 10 (zeroPadded w m).toList 0 = m := fun _ =>
    ofDigitChars_zeroPadded
  obtain hlt | heq | hgt := lt_trichotomy (zeroPadded w n).toList (zeroPadded w n').toList
  · exact hlt
  · have hsame := congrArg (Nat.ofDigitChars 10 · 0) heq
    simp only [hvalue] at hsame
    exact absurd hsame h.ne
  · have hless := ofDigitChars_lt_of_lt (a := 0) (fun _ => isDigit_zeroPadded)
      (fun _ => isDigit_zeroPadded) hlength.symm hgt
    rw [hvalue, hvalue] at hless
    exact absurd hless h.asymm

/-- A text before another stays so whatever follows both, where they are of one length. -/
theorem append_lt_append {u u' : List Char} (hlength : s.length = s'.length) (h : s < s') :
    s ++ u < s' ++ u' := by
  induction s generalizing s' with
  | nil =>
    obtain rfl := List.length_eq_zero_iff.mp hlength.symm
    exact absurd h (lt_irrefl _)
  | cons c s ih =>
    obtain ⟨d, s', rfl⟩ := List.exists_cons_of_length_eq_add_one hlength.symm
    rw [List.cons_append, List.cons_append, List.cons_lt_cons_iff]
    obtain hlt | ⟨rfl, hrest⟩ := List.cons_lt_cons_iff.mp h
    · exact .inl hlt
    · exact .inr ⟨rfl, ih (Nat.succ.inj hlength) hrest⟩

/-- Numbers one after another, each in its width and with what stands behind it. -/
def stamp : List (Nat × List Char) → List Nat → List Char
  | (w, sep) :: layout, n :: ns => (zeroPadded w n).toList ++ (sep ++ stamp layout ns)
  | _, _ => []

/-- A number that its width holds. -/
def Fits (field : Nat × List Char) (n : Nat) : Prop := 0 < field.1 ∧ n < 10 ^ field.1

theorem stamp_lt {layout : List (Nat × List Char)} {ns ns' : List Nat}
    (hns : List.Forall₂ Fits layout ns) (hns' : List.Forall₂ Fits layout ns') (h : ns < ns') :
    stamp layout ns < stamp layout ns' := by
  induction hns generalizing ns' with
  | nil =>
    cases hns'
    exact absurd h (lt_irrefl _)
  | @cons field n layout ns hfit hns ih =>
    obtain _ | ⟨hfit', htail⟩ := hns'
    rw [stamp, stamp]
    obtain hlt | ⟨rfl, hrest⟩ := List.cons_lt_cons_iff.mp h
    · refine append_lt_append ?_ (zeroPadded_lt hfit.1 hfit'.2 hlt)
      rw [length_zeroPadded hfit.1 hfit.2, length_zeroPadded hfit'.1 hfit'.2]
    · exact List.append_left_lt (List.append_left_lt (ih htail hrest))

end Padded

section Stamps

def timestampLayout : List (Nat × List Char) :=
  [(4, []), (2, []), (2, ['T']), (2, []), (2, []), (2, ['Z'])]

def keyNameLayout : List (Nat × List Char) :=
  [(4, []), (2, []), (2, []), (2, []), (2, []), (2, [])]

variable {epochSecs later : Nat}

/-- The fields of a second before the year 10000 fit four digits and two. -/
theorem fits_fields (a b c d e f : List Char) (h : epochSecs < endOf9999) :
    List.Forall₂ Fits [(4, a), (2, b), (2, c), (2, d), (2, e), (2, f)]
      (Moment.next^[epochSecs] unixEpoch).fields := by
  have hnumber := Moment.number_iterate unixEpoch epochSecs
  have hyear : (Moment.next^[epochSecs] unixEpoch).date.year < 10000 := by
    refine Moment.year_lt ?_
    rw [hnumber, Nat.add_comm]
    exact Nat.add_lt_of_lt_sub h
  generalize Moment.next^[epochSecs] unixEpoch = t at hyear
  have hmonth := t.date.month_le
  have hday := t.date.day_le.trans (daysInMonth_le _ _)
  simp only [Moment.fields, List.forall₂_cons, Fits, List.forall₂_nil_left_iff, and_true]
  omega

/-- The later second has the later fields. -/
theorem fields_lt (h : epochSecs < later) : (Moment.next^[epochSecs] unixEpoch).fields <
    (Moment.next^[later] unixEpoch).fields := by
  rw [← Moment.number_lt_iff, Moment.number_iterate, Moment.number_iterate]
  exact Nat.add_lt_add_left h _

theorem formatUtcTimestamp_eq : (formatUtcTimestamp epochSecs).toList =
    stamp timestampLayout (Moment.next^[epochSecs] unixEpoch).fields := by
  rw [formatUtcTimestamp, civilFromEpoch_iterate]
  simp only [civilOf, Moment.fields, stamp, timestampLayout, String.toList_append, List.nil_append,
    List.append_nil, List.append_assoc]
  rfl

theorem rotationKeyName_eq : (rotationKeyName epochSecs).toList =
    "key-".toList ++ stamp keyNameLayout (Moment.next^[epochSecs] unixEpoch).fields := by
  rw [rotationKeyName, civilFromEpoch_iterate]
  simp only [civilOf, Moment.fields, stamp, keyNameLayout, String.toList_append, List.nil_append,
    List.append_nil, List.append_assoc]

theorem formatUtcTimestamp_lt (hlater : later < endOf9999) (h : epochSecs < later) :
    (formatUtcTimestamp epochSecs).toList < (formatUtcTimestamp later).toList := by
  rw [formatUtcTimestamp_eq, formatUtcTimestamp_eq]
  exact stamp_lt (fits_fields _ _ _ _ _ _ (h.trans hlater)) (fits_fields _ _ _ _ _ _ hlater)
    (fields_lt h)

theorem rotationKeyName_lt (hlater : later < endOf9999) (h : epochSecs < later) :
    (rotationKeyName epochSecs).toList < (rotationKeyName later).toList := by
  rw [rotationKeyName_eq, rotationKeyName_eq]
  exact List.append_left_lt (stamp_lt (fits_fields _ _ _ _ _ _ (h.trans hlater))
    (fits_fields _ _ _ _ _ _ hlater) (fields_lt h))

/-- Texts that grow with their second tell the seconds apart. -/
theorem injOn_of_lt {text : Nat → String}
    (h : ∀ {n m}, m < endOf9999 → n < m → (text n).toList < (text m).toList) :
    Set.InjOn text (Set.Iio endOf9999) := by
  intro n hn m hm heq
  obtain hlt | rfl | hgt := lt_trichotomy n m
  · exact absurd (heq ▸ h hm hlt) (lt_irrefl _)
  · rfl
  · exact absurd (heq ▸ h hn hgt) (lt_irrefl _)

/-- Both conversions give the calendar's date, and the texts of the seconds up to the end of the year
9999 are in the order of time. -/
theorem civilFromEpoch_calendar :
    (∀ epochSecs, civilFromEpoch epochSecs = civilOf (Moment.next^[epochSecs] unixEpoch)) ∧
    (∀ epochSecs < endOf9999,
      epochToUtcYmdhms epochSecs = Prod.map Nat.cast id (civilFromEpoch epochSecs)) ∧
    Set.InjOn formatUtcTimestamp (Set.Iio endOf9999) ∧
    Set.InjOn rotationKeyName (Set.Iio endOf9999) ∧
    ∀ epochSecs later, later < endOf9999 → epochSecs < later →
      (formatUtcTimestamp epochSecs).toList < (formatUtcTimestamp later).toList ∧
      (rotationKeyName epochSecs).toList < (rotationKeyName later).toList :=
  ⟨civilFromEpoch_iterate, fun _ => epochToUtcYmdhms_eq, injOn_of_lt formatUtcTimestamp_lt,
    injOn_of_lt rotationKeyName_lt, fun _ _ hlater h =>
      ⟨formatUtcTimestamp_lt hlater h, rotationKeyName_lt hlater h⟩⟩

end Stamps

end Hbird.Etcd
