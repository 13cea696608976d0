import Mathlib

namespace Hbird.Calendar

/-- A leap year is one in four, at a century one in four centuries. -/
def isLeap (y : Nat) : Bool := y % 4 == 0 && (y % 100 != 0 || y % 400 == 0)

def daysInMonth (y : Nat) : Nat → Nat
  | 2 => if isLeap y then 29 else 28
  | 4 | 6 | 9 | 11 => 30
  | _ => 31

/-- A day of the proleptic Gregorian calendar. -/
@[ext]
structure Date where
  year : Nat
  month : Nat
  day : Nat
  month_pos : 1 ≤ month
  month_le : month ≤ 12
  day_pos : 1 ≤ day
  day_le : day ≤ daysInMonth year month
  deriving DecidableEq

theorem daysInMonth_pos (y m : Nat) : 1 ≤ daysInMonth y m := by
  unfold daysInMonth
  split <;> try split_ifs
  all_goals decide

theorem daysInMonth_le (y m : Nat) : daysInMonth y m ≤ 31 := by
  unfold daysInMonth
  split <;> try split_ifs
  all_goals decide

/-- The day after. -/
def Date.next (t : Date) : Date :=
  if h : t.day < daysInMonth t.year t.month then
    { t with day := t.day + 1, day_pos := by omega, day_le := h }
  else if h : t.month < 12 then
    { year := t.year
      month := t.month + 1
      day := 1
      month_pos := by omega
      month_le := h
      day_pos := le_rfl
      day_le := daysInMonth_pos _ _ }
  else
    { year := t.year + 1
      month := 1
      day := 1
      month_pos := le_rfl
      month_le := by decide
      day_pos := le_rfl
      day_le := daysInMonth_pos _ _ }

/-- A second of a day. -/
structure Moment where
  date : Date
  hour : Fin 24
  minute : Fin 60
  second : Fin 60
  deriving DecidableEq

/-- The second after. -/
def Moment.next (t : Moment) : Moment :=
  if h : t.second.val + 1 < 60 then { t with second := ⟨t.second + 1, h⟩ }
  else if h : t.minute.val + 1 < 60 then { t with minute := ⟨t.minute + 1, h⟩, second := 0 }
  else if h : t.hour.val + 1 < 24 then
    { t with hour := ⟨t.hour + 1, h⟩, minute := 0, second := 0 }
  else ⟨t.date.next, 0, 0, 0⟩

/-- The year first, the second last. -/
def Moment.fields (t : Moment) : List Nat :=
  [t.date.year, t.date.month, t.date.day, t.hour, t.minute, t.second]

/-- The first second of a year. -/
def newYear (y : Nat) : Moment :=
  ⟨⟨y, 1, 1, le_rfl, by decide, le_rfl, daysInMonth_pos _ _⟩, 0, 0, 0⟩

def unixEpoch : Moment := newYear 1970

def daysBeforeYear : Nat → Nat
  | 0 => 0
  | y + 1 => daysBeforeYear y + if isLeap y then 366 else 365

def daysBeforeMonth (y m : Nat) : Nat := ∑ i ∈ Finset.Ico 1 m, daysInMonth y i

/-- The days up to a date, it too. -/
def Date.number (t : Date) : Nat := daysBeforeYear t.year + daysBeforeMonth t.year t.month + t.day

def Moment.number (t : Moment) : Nat :=
  ((t.date.number * 24 + t.hour) * 60 + t.minute) * 60 + t.second

section Years

variable (y : Nat)

theorem isLeap_iff {y : Nat} : isLeap y = true ↔ y % 4 = 0 ∧ (y % 100 ≠ 0 ∨ y % 400 = 0) := by
  simp [isLeap]

theorem daysBeforeYear_succ : daysBeforeYear (y + 1) =
    daysBeforeYear y + if isLeap y then 366 else 365 := rfl

theorem daysBeforeYear_eq : daysBeforeYear y =
    365 * y + (y + 3) / 4 - (y + 99) / 100 + (y + 399) / 400 := by
  induction y with
  | zero => rfl
  | succ y ih =>
    rw [daysBeforeYear_succ, ih]
    by_cases hleap : isLeap y = true
    · rw [if_pos hleap]
      have hmod := isLeap_iff.mp hleap
      omega
    · rw [if_neg hleap]
      have hmod := mt isLeap_iff.mpr hleap
      omega

theorem daysBeforeYear_strictMono : StrictMono daysBeforeYear := by
  refine strictMono_nat_of_lt_succ fun y => ?_
  rw [daysBeforeYear_succ]
  split_ifs <;> omega

end Years

section Months

variable {y m : Nat}

theorem daysBeforeMonth_one : daysBeforeMonth y 1 = 0 := rfl

theorem daysBeforeMonth_succ (hm : 1 ≤ m) :
    daysBeforeMonth y (m + 1) = daysBeforeMonth y m + daysInMonth y m :=
  Finset.sum_Ico_succ_top hm _

theorem daysBeforeMonth_mono {m' : Nat} (h : m ≤ m') :
    daysBeforeMonth y m ≤ daysBeforeMonth y m' :=
  Finset.sum_le_sum_of_subset (Finset.Ico_subset_Ico_right h)

theorem daysBeforeMonth_year : daysBeforeMonth y 13 = if isLeap y then 366 else 365 := by
  simp only [daysBeforeMonth, Finset.sum_Ico_eq_sum_range, Finset.sum_range_succ,
    Finset.sum_range_zero, daysInMonth]
  split_ifs <;> rfl

end Months

section Numbers

variable {t u : Date}

/-- A date lies in its month. -/
theorem Date.number_le_month :
    t.number ≤ daysBeforeYear t.year + daysBeforeMonth t.year (t.month + 1) := by
  have hday := t.day_le
  rw [daysBeforeMonth_succ t.month_pos, number]
  omega

theorem Date.number_le_year : t.number ≤ daysBeforeYear (t.year + 1) := by
  have hmonth := t.number_le_month
  have hyear : daysBeforeMonth t.year (t.month + 1) ≤ daysBeforeMonth t.year 13 :=
    daysBeforeMonth_mono (Nat.succ_le_succ t.month_le)
  rw [daysBeforeMonth_year] at hyear
  rw [daysBeforeYear_succ]
  omega

theorem Date.number_next : t.next.number = t.number + 1 := by
  unfold Date.next
  split_ifs with hday hmonth
  · rfl
  · have hlast : t.day = daysInMonth t.year t.month := le_antisymm t.day_le (not_lt.mp hday)
    simp only [number]
    rw [daysBeforeMonth_succ t.month_pos, hlast]
    omega
  · have hlast : t.day = daysInMonth t.year t.month := le_antisymm t.day_le (not_lt.mp hday)
    have htwelve : t.month = 12 := le_antisymm t.month_le (not_lt.mp hmonth)
    have hyear : daysBeforeMonth t.year 13 = daysBeforeMonth t.year 12 + daysInMonth t.year 12 :=
      daysBeforeMonth_succ (by decide)
    rw [daysBeforeMonth_year] at hyear
    simp only [number, daysBeforeYear_succ, daysBeforeMonth_one]
    rw [hlast, htwelve]
    omega

theorem Moment.number_next {t : Moment} : t.next.number = t.number + 1 := by
  have hsecond := t.second.isLt
  have hminute := t.minute.isLt
  have hhour := t.hour.isLt
  unfold Moment.next
  split_ifs with h₁ h₂ h₃
  · rfl
  · simp only [number, Fin.val_zero]
    omega
  · simp only [number, Fin.val_zero]
    omega
  · simp only [number, Fin.val_zero, Date.number_next]
    omega

theorem number_newYear (y : Nat) : (newYear y).number = (daysBeforeYear y + 1) * 86400 := by
  simp only [newYear, Moment.number, Date.number, daysBeforeMonth_one, Fin.val_zero]
  omega

theorem Moment.year_lt {t : Moment} {y : Nat} (h : t.number < (newYear y).number) :
    t.date.year < y := by
  have hday := t.date.day_pos
  rw [number_newYear, number, Date.number] at h
  exact daysBeforeYear_strictMono.lt_iff_lt.mp (by omega)

/-- What comes first in the calendar has the smaller number. -/
theorem Date.number_lt (h : t.year < u.year ∨ t.year = u.year ∧
    (t.month < u.month ∨ t.month = u.month ∧ t.day < u.day)) : t.number < u.number := by
  have hpos := u.day_pos
  obtain hyear | ⟨hyear, hmonth | ⟨hmonth, hday⟩⟩ := h
  · have hle := t.number_le_year
    have hmono := daysBeforeYear_strictMono.monotone (show t.year + 1 ≤ u.year from hyear)
    rw [number.eq_def u]
    omega
  · have hle := t.number_le_month
    have hmono : daysBeforeMonth t.year (t.month + 1) ≤ daysBeforeMonth t.year u.month :=
      daysBeforeMonth_mono hmonth
    rw [number.eq_def u, ← hyear]
    omega
  · rw [number, number, hyear, hmonth]
    omega

theorem Moment.number_lt {t u : Moment} (h : t.fields < u.fields) : t.number < u.number := by
  have hsecond := t.second.isLt
  have hminute := t.minute.isLt
  have hhour := t.hour.isLt
  have hdate : t.date.number < u.date.number → t.number < u.number := by
    intro hlt
    rw [number, number]
    omega
  simp only [fields, List.cons_lt_cons_iff, List.lt_irrefl, and_false, or_false] at h
  obtain hyear | ⟨hyear, hmonth | ⟨hmonth, hday | ⟨hday, hrest⟩⟩⟩ := h
  · exact hdate (Date.number_lt (.inl hyear))
  · exact hdate (Date.number_lt (.inr ⟨hyear, .inl hmonth⟩))
  · exact hdate (Date.number_lt (.inr ⟨hyear, .inr ⟨hmonth, hday⟩⟩))
  · have hsame : t.date.number = u.date.number := by
      rw [Date.number, Date.number, hyear, hmonth, hday]
    have hminute' := u.minute.isLt
    rw [number, number, hsame]
    omega

theorem Moment.fields_injective : Function.Injective Moment.fields := by
  rintro ⟨d, h, m, s⟩ ⟨d', h', m', s'⟩ heq
  simp only [fields, List.cons.injEq, and_true, Fin.val_inj] at heq
  obtain ⟨hyear, hmonth, hday, rfl, rfl, rfl⟩ := heq
  rw [Date.ext hyear hmonth hday]

/-- The order of the fields is that of time. -/
theorem Moment.number_lt_iff {t u : Moment} : t.number < u.number ↔ t.fields < u.fields := by
  refine ⟨fun h => ?_, number_lt⟩
  obtain hlt | heq | hgt := lt_trichotomy t.fields u.fields
  · exact hlt
  · rw [fields_injective heq] at h
    exact absurd h (lt_irrefl _)
  · exact absurd h (number_lt hgt).asymm

theorem Moment.number_injective : Function.Injective Moment.number := by
  intro t u h
  obtain hlt | heq | hgt := lt_trichotomy t.fields u.fields
  · exact absurd h (number_lt hlt).ne
  · exact fields_injective heq
  · exact absurd h (number_lt hgt).ne'

theorem Moment.number_iterate (t : Moment) (n : Nat) : (next^[n] t).number = t.number + n := by
  induction n with
  | zero => rfl
  | succ n ih => rw [Function.iterate_succ_apply', number_next, ih, Nat.add_assoc]

/-- A moment is known by how many seconds it comes after another. -/
theorem Moment.iterate_eq {t u : Moment} {n : Nat} (h : u.number = t.number + n) :
    next^[n] t = u :=
  number_injective ((number_iterate t n).trans h.symm)

end Numbers

section March

theorem daysBeforeMonth_three (y : Nat) : daysBeforeMonth y 3 + 306 = daysBeforeMonth y 13 := by
  rw [daysBeforeMonth_year, daysBeforeMonth_succ (by decide : 1 ≤ 2),
    daysBeforeMonth_succ (by decide : 1 ≤ 1), daysBeforeMonth_one]
  simp only [daysInMonth]
  split_ifs <;> rfl

/-- From March on the months have 153 days in every five. -/
theorem daysBeforeMonth_march {y k : Nat} (hk : k ≤ 10) :
    daysBeforeMonth y (k + 3) = daysBeforeMonth y 3 + (153 * k + 2) / 5 := by
  induction k with
  | zero => rfl
  | succ k ih =>
    have hdays : daysInMonth y (k + 3) = (153 * (k + 1) + 2) / 5 - (153 * k + 2) / 5 := by
      have hlt : k < 10 := hk
      interval_cases k <;> rfl
    rw [show k + 1 + 3 = k + 3 + 1 by omega, daysBeforeMonth_succ (by omega), ih (by omega), hdays]
    omega

theorem daysBeforeYear_march (y : Nat) :
    daysBeforeYear (y + 1) = 365 * y + y / 4 - y / 100 + y / 400 + 366 := by
  rw [daysBeforeYear_eq]
  omega

/-- The day that comes `s` days after the first of March, the year counted from there. -/
theorem exists_date_march {y s k : Nat} (hs : s ≤ 365) (hleap : s = 365 → isLeap (y + 1) = true)
    (hk : k = (5 * s + 2) / 153) : ∃ t : Date, t.number + 305 = daysBeforeYear (y + 1) + s ∧
      t.year = y + (if (if k < 10 then k + 3 else k - 9) ≤ 2 then 1 else 0) ∧
      t.month = (if k < 10 then k + 3 else k - 9) ∧ t.day = s - (153 * k + 2) / 5 + 1 := by
  by_cases hmonth : k < 10
  · have hthree := daysBeforeMonth_three y
    rw [daysBeforeMonth_year] at hthree
    have hbefore : daysBeforeMonth y (k + 3) = daysBeforeMonth y 3 + (153 * k + 2) / 5 :=
      daysBeforeMonth_march (by omega)
    have hdays : daysInMonth y (k + 3) = (153 * (k + 1) + 2) / 5 - (153 * k + 2) / 5 := by
      interval_cases k <;> rfl
    refine ⟨⟨y, k + 3, s - (153 * k + 2) / 5 + 1, by omega, by omega, by omega, by omega⟩, ?_, ?_,
      ?_, rfl⟩
    · rw [Date.number, daysBeforeYear_succ]
      dsimp only
      omega
    · dsimp only
      rw [if_pos hmonth, if_neg (by omega)]
      rfl
    · rw [if_pos hmonth]
  · obtain rfl | rfl : k = 10 ∨ k = 11 := by omega
    · refine ⟨⟨y + 1, 1, s - 306 + 1, by omega, by omega, by omega, ?_⟩, ?_, rfl, rfl, rfl⟩
      · simp only [daysInMonth]
        omega
      · rw [Date.number]
        dsimp only
        rw [daysBeforeMonth_one]
        omega
    · have hfeb : daysBeforeMonth (y + 1) 2 = 31 := by
        rw [daysBeforeMonth_succ (by decide : 1 ≤ 1), daysBeforeMonth_one]
        rfl
      refine ⟨⟨y + 1, 2, s - 337 + 1, by omega, by omega, by omega, ?_⟩, ?_, rfl, rfl, rfl⟩
      · simp only [daysInMonth]
        split_ifs with h
        · omega
        · have := mt hleap h
          omega
      · rw [Date.number]
        dsimp only
        rw [hfeb]
        omega

end March

end Hbird.Calendar
