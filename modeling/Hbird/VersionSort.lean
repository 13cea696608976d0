import Mathlib

namespace Hbird.VersionSort

open Std

def digit (c : Char) : Nat := c.toNat - 48

/-- The place of a character that is no digit. The end of a text and a digit have place `0`. -/
def order (c : Char) : Int :=
  if c = '~' then -1 else if c.isAlpha then c.toNat else c.toNat + 256

/-- What version sort compares, one part after the other: the places of the characters up to
the next digit, `0` where they stop, and the number the digits write. The number that is being
read is carried along. -/
def parts : Option Nat → List Char → List Int
  | none, [] => []
  | some n, [] => [(n : Int)]
  | none, c :: s =>
    if c.isDigit then 0 :: parts (some (digit c)) s else order c :: parts none s
  | some n, c :: s =>
    if c.isDigit then parts (some (10 * n + digit c)) s else n :: order c :: parts none s

/-- The key of a text that ends in a digit, so that it has no file suffix to set apart. The
names that start with a dot come first. -/
def versionKey (s : String) : List Int :=
  (if s.toList.head? = some '.' then 0 else 1) :: parts none s.toList

def compareEnd : List Int → Ordering
  | [] => .eq
  | b :: bs => (compare 0 b).then (compareEnd bs)

/-- A part that is missing counts as `0`. -/
def compareParts : List Int → List Int → Ordering
  | [], bs => compareEnd bs
  | a :: as, bs => (compare a (bs.headD 0)).then (compareParts as bs.tail)

/-- The order in which a locale puts texts: `sort` falls back on it. -/
structure Collation where
  cmp : String → String → Ordering
  trans : TransCmp cmp
  lawful : LawfulEqCmp cmp

/-- The order of the characters' codes. -/
def Collation.codes : Collation := ⟨compare, inferInstance, inferInstance⟩

namespace Collation

attribute [instance] Collation.trans Collation.lawful

variable (c : Collation) {s t u : String}

def versionCmp (s t : String) : Ordering :=
  (compareParts (versionKey s) (versionKey t)).then (c.cmp s t)

/-- `sort -V`. -/
def sortV (l : List String) : List String := l.mergeSort fun s t => (c.versionCmp s t).isLE

end Collation

theorem compareParts_step (as bs : List Int) :
    compareParts as bs =
      (compare (as.headD 0) (bs.headD 0)).then (compareParts as.tail bs.tail) := by
  cases as with
  | nil => cases bs <;> rfl
  | cons a as => rfl

theorem compareParts_cons (a b : Int) (as bs : List Int) :
    compareParts (a :: as) (b :: bs) = (compare a b).then (compareParts as bs) := rfl

theorem compareParts_append (k as bs : List Int) :
    compareParts (k ++ as) (k ++ bs) = compareParts as bs := by
  induction k with
  | nil => rfl
  | cons a k ih => simp [compareParts_cons, ih]

theorem compareParts_swap (as bs : List Int) :
    compareParts as bs = (compareParts bs as).swap := by
  induction h : as.length + bs.length using Nat.strong_induction_on generalizing as bs with
  | _ n ih =>
    cases n with
    | zero =>
      obtain ⟨ha, hb⟩ := Nat.add_eq_zero_iff.mp h
      rw [List.length_eq_zero_iff] at ha hb
      rw [ha, hb]
      rfl
    | succ n =>
      have hlt : as.tail.length + bs.tail.length < n + 1 := by
        simp only [List.length_tail]
        omega
      rw [compareParts_step as bs, compareParts_step bs as, ih _ hlt _ _ rfl, Ordering.swap_then,
        ← @OrientedCmp.eq_swap _ compare]

theorem compareParts_trans {as bs cs : List Int} (h : (compareParts as bs).isLE)
    (h' : (compareParts bs cs).isLE) : (compareParts as cs).isLE := by
  induction hn : as.length + bs.length + cs.length using Nat.strong_induction_on
    generalizing as bs cs with
  | _ n ih =>
    cases n with
    | zero =>
      obtain ⟨hab, hc⟩ := Nat.add_eq_zero_iff.mp hn
      obtain ⟨ha, -⟩ := Nat.add_eq_zero_iff.mp hab
      rw [List.length_eq_zero_iff] at ha hc
      rw [ha, hc]
      rfl
    | succ n =>
      have hlt : as.tail.length + bs.tail.length + cs.tail.length < n + 1 := by
        simp only [List.length_tail]
        omega
      rw [compareParts_step, Ordering.isLE_then_iff_or] at h h' ⊢
      obtain h | ⟨h, hr⟩ := h
      · obtain h' | ⟨h', -⟩ := h'
        · exact .inl (TransCmp.lt_trans h h')
        · exact .inl (TransCmp.lt_of_lt_of_eq h h')
      · obtain h' | ⟨h', hr'⟩ := h'
        · exact .inl (TransCmp.lt_of_eq_of_lt h h')
        · exact .inr ⟨TransCmp.eq_trans h h', ih _ hlt hr hr' rfl⟩

namespace Collation

variable (c : Collation) {s t u : String}

instance : TransCmp (fun s t => compareParts (versionKey s) (versionKey t)) where
  eq_swap := compareParts_swap _ _
  isLE_trans := compareParts_trans

instance : TransCmp c.versionCmp :=
  inferInstanceAs (TransCmp (compareLex
    (fun s t => compareParts (versionKey s) (versionKey t)) c.cmp))

theorem versionCmp_eq : c.versionCmp s t = .eq ↔ s = t := by
  rw [versionCmp, Ordering.then_eq_eq]
  constructor
  · exact fun h => LawfulEqCmp.eq_of_compare h.2
  · rintro rfl
    exact ⟨@ReflCmp.compare_self _ (fun s t => compareParts (versionKey s) (versionKey t)) _ _,
      ReflCmp.compare_self⟩

/-- Each text stands before every other one or after it. -/
theorem versionCmp_lt_or (h : s ≠ t) : c.versionCmp s t = .lt ∨ c.versionCmp t s = .lt := by
  cases hc : c.versionCmp s t with
  | lt => exact .inl rfl
  | eq => exact absurd (c.versionCmp_eq.mp hc) h
  | gt => exact .inr (OrientedCmp.lt_of_gt hc)

theorem versionCmp_lt_asymm (h : c.versionCmp s t = .lt) : c.versionCmp t s ≠ .lt := by
  rw [OrientedCmp.gt_of_lt h]
  decide

/-- The last of the sorted texts is one of them, and stands after each other one. -/
theorem last_sortV {l : List String} :
    (c.sortV l).getLast? = some t ↔ t ∈ l ∧ ∀ s ∈ l, s ≠ t → c.versionCmp s t = .lt := by
  have hmem : ∀ {t}, (c.sortV l).getLast? = some t →
      t ∈ l ∧ ∀ s ∈ l, s ≠ t → c.versionCmp s t = .lt := by
    intro t h
    refine ⟨List.mem_mergeSort.mp (List.mem_of_getLast? h), fun s hs hne => ?_⟩
    obtain ⟨init, hinit⟩ := List.getLast?_eq_some_iff.mp h
    have hsorted : (c.sortV l).Pairwise fun s t => (c.versionCmp s t).isLE :=
      List.pairwise_mergeSort (fun _ _ _ => TransCmp.isLE_trans)
        (fun s t => by cases hst : c.versionCmp s t <;> simp [OrientedCmp.eq_swap (a := t), hst]) l
    rw [hinit] at hsorted
    have hs' : s ∈ init ++ [t] := by
      rw [← hinit]
      exact List.mem_mergeSort.mpr hs
    obtain hs' | hs' := List.mem_append.mp hs'
    · obtain ⟨-, -, hle⟩ := List.pairwise_append.mp hsorted
      obtain hlt | hgt := c.versionCmp_lt_or hne
      · exact hlt
      · have h' := hle s hs' t (List.mem_singleton_self t)
        rw [OrientedCmp.gt_of_lt hgt] at h'
        cases h'
    · exact absurd (List.mem_singleton.mp hs') hne
  refine ⟨hmem, ?_⟩
  rintro ⟨ht, hlast⟩
  cases h : (c.sortV l).getLast? with
  | none =>
    rw [List.getLast?_eq_none_iff] at h
    have ht' : t ∈ c.sortV l := List.mem_mergeSort.mpr ht
    rw [h] at ht'
    cases ht'
  | some u =>
    obtain ⟨hu, hlast'⟩ := hmem h
    by_contra hne
    have hut : u ≠ t := fun he => hne (congrArg some he)
    exact c.versionCmp_lt_asymm (hlast u hu hut) (hlast' t ht hut.symm)

end Collation

/-- The number written by `x` behind the number `n`. -/
def readNumber (n : Nat) (x : List Char) : Nat := Nat.ofDigitChars 10 x n

def number (x : List Char) : Nat := readNumber 0 x

def isNumber (x : List Char) : Bool := !x.isEmpty && x.all Char.isDigit

abbrev Version := ℕ ×ₗ ℕ ×ₗ ℕ

/-- Three numbers as they are written. -/
structure Release where
  major : List Char
  minor : List Char
  patch : List Char
  major_number : isNumber major = true
  minor_number : isNumber minor = true
  patch_number : isNumber patch = true

namespace Release

variable (r : Release)

def text : List Char := r.major ++ '.' :: (r.minor ++ '.' :: r.patch)

def version : Version := toLex (number r.major, toLex (number r.minor, number r.patch))

/-- The first number has no zero before it. -/
def Plain : Prop := r.major.head? = some '0' → r.major = ['0']

end Release

/-- The regular expression `[0-9]+\.[0-9]+\.[0-9]+` for a whole text. -/
def isRelease (s : List Char) : Bool :=
  match s.splitOn '.' with
  | [x, y, z] => isNumber x && isNumber y && isNumber z
  | _ => false

section Numbers

variable {n : Nat} {x y s : List Char}

theorem readNumber_eq (n : Nat) (x : List Char) :
    readNumber n x = n * 10 ^ x.length + number x := by
  rw [readNumber, Nat.ofDigitChars_eq_ofDigitChars_zero, Nat.mul_comm, number, readNumber]

theorem readNumber_cons (n : Nat) (c : Char) (x : List Char) :
    readNumber n (c :: x) = readNumber (10 * n + digit c) x := Nat.ofDigitChars_cons

theorem number_cons (c : Char) (x : List Char) : number (c :: x) = readNumber (digit c) x := by
  rw [number, readNumber_cons, Nat.mul_zero, Nat.zero_add]

theorem digit_lt {c : Char} (h : c.isDigit = true) : digit c < 10 := by
  rw [Char.isDigit, Bool.and_eq_true, decide_eq_true_eq, decide_eq_true_eq, ge_iff_le,
    UInt32.le_iff_toNat_le, UInt32.le_iff_toNat_le] at h
  have hc : c.val.toNat ≤ 57 := h.2
  rw [digit]
  exact (show c.toNat - 48 < 10 from by change c.val.toNat - 48 < 10; omega)

theorem number_lt (h : ∀ c ∈ x, c.isDigit = true) : number x < 10 ^ x.length := by
  induction x with
  | nil => exact Nat.one_pos
  | cons c x ih =>
    have hc := digit_lt (h c (List.mem_cons_self ..))
    have hx := ih fun d hd => h d (List.mem_cons_of_mem _ hd)
    rw [number_cons, readNumber_eq, List.length_cons, pow_succ]
    nlinarith

theorem isNumber_iff : isNumber x = true ↔ x ≠ [] ∧ ∀ c ∈ x, c.isDigit = true := by
  simp [isNumber]

/-- A number that has no zero before it is as long as its value. -/
theorem le_number {c : Char} (hc : c.isDigit = true) (hne : c ≠ '0') :
    10 ^ x.length ≤ number (c :: x) := by
  have hpos : 0 < digit c := by
    rw [Char.isDigit, Bool.and_eq_true, decide_eq_true_eq, decide_eq_true_eq, ge_iff_le,
      UInt32.le_iff_toNat_le] at hc
    have h48 : 48 ≤ c.val.toNat := hc.1
    have hval : c.val.toNat ≠ 48 := fun h => hne (Char.ext (UInt32.toNat_inj.mp h))
    rw [digit]
    change 0 < c.val.toNat - 48
    omega
  rw [number_cons, readNumber_eq]
  exact (Nat.le_mul_of_pos_left _ hpos).trans (Nat.le_add_right ..)

variable (hx : isNumber x = true) (hy : isNumber y = true)
  (hpx : x.head? = some '0' → x = ['0']) (hpy : y.head? = some '0' → y = ['0'])

include hx hy hpx in
/-- A longer number without a zero before it is greater. -/
theorem length_le_of_number_le (h : number x ≤ number y) : x.length ≤ y.length := by
  obtain ⟨hxne, hxd⟩ := isNumber_iff.mp hx
  obtain ⟨hyne, hyd⟩ := isNumber_iff.mp hy
  have hylt := number_lt hyd
  have hypos := List.length_pos_of_ne_nil hyne
  cases x with
  | nil => exact absurd rfl hxne
  | cons c x =>
    by_cases hc : c = '0'
    · rw [hpx (by rw [hc]; rfl)]
      exact hypos
    · have hle := le_number (x := x) (hxd c (List.mem_cons_self ..)) hc
      have hpow : 10 ^ x.length < 10 ^ y.length := by omega
      exact (Nat.pow_lt_pow_iff_right (by decide)).mp hpow

include hx hy hpx in
/-- Numbers without a zero before them are in order behind any other number. -/
theorem readNumber_lt (n : Nat) (h : number x < number y) : readNumber n x < readNumber n y := by
  have hlen := length_le_of_number_le hx hy hpx h.le
  rw [readNumber_eq, readNumber_eq]
  have hpow := Nat.mul_le_mul_left n (Nat.pow_le_pow_right (show 0 < 10 by decide) hlen)
  omega

include hx hy hpx hpy in
theorem readNumber_congr (n : Nat) (h : number x = number y) : readNumber n x = readNumber n y := by
  have hlen := (length_le_of_number_le hx hy hpx h.le).antisymm
    (length_le_of_number_le hy hx hpy h.ge)
  rw [readNumber_eq, readNumber_eq, h, hlen]

end Numbers

/-- The number that is being read behind `s`. -/
def numberAfter : Option Nat → List Char → Option Nat
  | m, [] => m
  | m, c :: s => numberAfter (if c.isDigit then some (10 * m.getD 0 + digit c) else none) s

/-- The parts that are complete where `s` ends. -/
def partsBefore : Option Nat → List Char → List Int
  | _, [] => []
  | none, c :: s =>
    if c.isDigit then 0 :: partsBefore (some (digit c)) s else order c :: partsBefore none s
  | some n, c :: s =>
    if c.isDigit then partsBefore (some (10 * n + digit c)) s
    else n :: order c :: partsBefore none s

theorem parts_append (m : Option Nat) (p s : List Char) :
    parts m (p ++ s) = partsBefore m p ++ parts (numberAfter m p) s := by
  induction p generalizing m with
  | nil => cases m <;> rfl
  | cons c p ih => cases m <;> by_cases hc : c.isDigit <;>
      simp [parts, partsBefore, numberAfter, hc, ih]

theorem parts_digits {x : List Char} (h : ∀ c ∈ x, c.isDigit = true) (n : Nat) (s : List Char) :
    parts (some n) (x ++ s) = parts (some (readNumber n x)) s := by
  induction x generalizing n with
  | nil => rfl
  | cons c x ih =>
    rw [List.cons_append, parts, if_pos (h c (List.mem_cons_self ..)),
      ih (fun d hd => h d (List.mem_cons_of_mem _ hd))]
    rfl

theorem parts_number {x : List Char} (h : isNumber x = true) (m : Option Nat) (s : List Char) :
    parts m (x ++ s) =
      (if m.isSome then [] else [0]) ++ parts (some (readNumber (m.getD 0) x)) s := by
  obtain ⟨hne, hd⟩ := isNumber_iff.mp h
  cases m with
  | some n => exact parts_digits hd n s
  | none =>
    cases x with
    | nil => exact absurd rfl hne
    | cons c x =>
      rw [List.cons_append, parts, if_pos (hd c (List.mem_cons_self ..)),
        parts_digits fun d hm => hd d (List.mem_cons_of_mem _ hm), ← number_cons]
      rfl

theorem parts_dot (n : Nat) (s : List Char) :
    parts (some n) ('.' :: s) = (n : Int) :: order '.' :: parts none s := rfl

theorem parts_release (m : Option Nat) (r : Release) :
    parts m r.text = (if m.isSome then [] else [0]) ++ [(readNumber (m.getD 0) r.major : Int),
      order '.', 0, number r.minor, order '.', 0, number r.patch] := by
  have hpatch := parts_number r.patch_number none []
  rw [List.append_nil] at hpatch
  rw [Release.text, parts_number r.major_number, parts_dot, parts_number r.minor_number, parts_dot,
    hpatch]
  rfl

namespace Release

variable {r q : Release}

theorem text_head (r : Release) : r.text.head? ≠ some '.' := by
  obtain ⟨hne, hd⟩ := isNumber_iff.mp r.major_number
  obtain ⟨c, x, hx⟩ := List.exists_cons_of_ne_nil hne
  rw [text, hx]
  rintro h
  cases h
  exact absurd (hd '.' (by rw [hx]; exact List.mem_cons_self ..)) (by decide)

/-- Behind one and the same text, releases are compared number by number. The first number
continues a number that the text ends in. -/
theorem compare_release (p : String) (r q : Release) :
    compareParts (versionKey (p ++ String.ofList r.text)) (versionKey (p ++ String.ofList q.text)) =
      (compare (readNumber ((numberAfter none p.toList).getD 0) r.major : Int)
        (readNumber ((numberAfter none p.toList).getD 0) q.major)).then
      ((compare (number r.minor : Int) (number q.minor)).then
        (compare (number r.patch : Int) (number q.patch))) := by
  have hhead : (p.toList ++ r.text).head? = some '.' ↔ (p.toList ++ q.text).head? = some '.' := by
    cases p.toList with
    | nil => exact iff_of_false r.text_head q.text_head
    | cons c cs => rfl
  simp only [versionKey, String.toList_append, String.toList_ofList, hhead, parts_append,
    parts_release, compareParts_cons, compareParts_append, ReflCmp.compare_self]
  simp [compareParts, compareEnd]

theorem version_lt_iff : r.version < q.version ↔ number r.major < number q.major ∨
    number r.major = number q.major ∧ (number r.minor < number q.minor ∨
      number r.minor = number q.minor ∧ number r.patch < number q.patch) := by
  rw [version, version, Prod.Lex.toLex_lt_toLex, Prod.Lex.toLex_lt_toLex]

/-- Where the first numbers are read as they are, version sort puts an older release first. -/
theorem versionCmp_release (c : Collation) (p : String)
    (h : (numberAfter none p.toList).getD 0 = 0 ∨ r.Plain ∧ q.Plain) (hlt : r.version < q.version) :
    c.versionCmp (p ++ String.ofList r.text) (p ++ String.ofList q.text) = .lt := by
  rw [Collation.versionCmp, Ordering.then_eq_lt, compare_release]
  refine .inl ?_
  rw [Ordering.then_eq_lt, Ordering.then_eq_lt, compare_lt_iff_lt, compare_lt_iff_lt,
    compare_lt_iff_lt, Std.compare_eq_iff_eq, Std.compare_eq_iff_eq, Int.ofNat_lt, Int.ofNat_lt,
    Int.ofNat_lt, Int.ofNat_inj, Int.ofNat_inj]
  obtain hm | ⟨hm, hrest⟩ := version_lt_iff.mp hlt
  · obtain h | ⟨hr, -⟩ := h
    · rw [h]
      exact .inl hm
    · exact .inl (readNumber_lt r.major_number q.major_number hr _ hm)
  · obtain h | ⟨hr, hq⟩ := h
    · rw [h]
      exact .inr ⟨hm, hrest⟩
    · exact .inr ⟨readNumber_congr r.major_number q.major_number hr hq _ hm, hrest⟩

end Release

namespace Release

theorem splitOn_text (r : Release) : r.text.splitOn '.' = [r.major, r.minor, r.patch] := by
  have hdot : ∀ {x : List Char}, isNumber x = true → '.' ∉ x := fun hx hm =>
    absurd ((isNumber_iff.mp hx).2 '.' hm) (by decide)
  have hjoin : ['.'].intercalate [r.major, r.minor, r.patch] = r.text := by simp [text]
  rw [← hjoin]
  refine List.splitOn_intercalate '.' ?_ (by simp)
  simp [hdot r.major_number, hdot r.minor_number, hdot r.patch_number]

theorem version_congr {r q : Release} (h : r.text = q.text) : r.version = q.version := by
  have hs := r.splitOn_text
  rw [h, splitOn_text] at hs
  simp only [List.cons.injEq, and_true] at hs
  rw [version, version, hs.1, hs.2.1, hs.2.2]

end Release

theorem isRelease_iff {s : List Char} : isRelease s = true ↔ ∃ r : Release, r.text = s := by
  constructor
  · intro h
    rw [isRelease] at h
    split at h
    · next x y z hs =>
      rw [Bool.and_eq_true, Bool.and_eq_true] at h
      refine ⟨⟨x, y, z, h.1.1, h.1.2, h.2⟩, ?_⟩
      have hjoin : ['.'].intercalate (s.splitOn '.') = s := List.intercalate_splitOn '.'
      rw [← hjoin, hs]
      simp [Release.text]
    · cases h
  · rintro ⟨r, rfl⟩
    rw [isRelease, r.splitOn_text]
    simp [r.major_number, r.minor_number, r.patch_number]

end Hbird.VersionSort
