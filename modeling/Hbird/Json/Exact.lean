import Hbird.Json.Scalars

namespace Hbird.Json.MiniJson

/-- What the loops of `array` and `object` ask of the reader of their items: it reads the texts of
`P` and no others, whatever blanks stand around them, and none begins with the closing bracket. -/
structure Reads {α : Type} (p : List Char → Reading α) (P : α → List Char → Prop)
    (closing : Char) : Prop where
  skips : ∀ s, p (skipWs s) = p s
  complete : ∀ {a t rest}, P a t → Stops rest → ∃ w, IsWs w ∧ p (t ++ rest) = .read a (w ++ rest)
  sound : ∀ {s a rest}, p s = .read a rest → ∃ t, P a t ∧ s = t ++ rest
  lead : ∀ {a t w}, P a t → IsWs w → P a (w ++ t)
  trail : ∀ {a t w}, P a t → IsWs w → P a (t ++ w)
  finishes : ∀ s, p s ≠ .unfinished
  rejects : ∀ rest, p (closing :: rest) = .rejected

section Lists

variable {α : Type} {p : List Char → Reading α} {P : α → List Char → Prop}
  {opening closing : Char} {s t rest : List Char} {items as : List α} {parts : List (List Char)}

/-- The brackets that close an array and an object. -/
def IsClosing (c : Char) : Prop := c = ']' ∨ c = '}'

theorem IsClosing.blank (h : IsClosing closing) : isWs closing = false := by
  rcases h with rfl | rfl <;> decide

theorem IsClosing.stops (h : IsClosing closing) : Stops (closing :: rest) := by
  intro c hc
  obtain rfl : closing = c := by simpa using hc
  rcases h with rfl | rfl <;> decide

theorem stops_comma : Stops (',' :: rest) := by
  intro c hc
  obtain rfl : ',' = c := by simpa using hc
  decide

theorem Stops.blanks {w : List Char} (hw : IsWs w) (hrest : Stops rest) : Stops (w ++ rest) := by
  cases w with
  | nil => exact hrest
  | cons d w =>
    intro c hc
    obtain rfl : d = c := by simpa using hc
    have hd := hw d List.mem_cons_self
    simp only [isWs, Bool.or_eq_true, decide_eq_true_eq, or_assoc] at hd
    rcases hd with rfl | rfl | rfl | rfl <;> decide

theorem separated_skipWs (hp : Reads p P closing) (fuel : Nat) :
    separated p closing fuel (skipWs s) items = separated p closing fuel s items := by
  cases fuel with
  | zero => rfl
  | succ fuel => rw [separated, separated, hp.skips]

theorem separated_complete (hp : Reads p P closing) (hclosing : IsClosing closing)
    (hparts : List.Forall₂ P as parts) (has : as ≠ []) {fuel : Nat}
    (hfuel : separated p closing fuel ([','].intercalate parts ++ closing :: rest) items ≠
      .unfinished) :
    separated p closing fuel ([','].intercalate parts ++ closing :: rest) items =
      .read (items ++ as) rest := by
  induction hparts generalizing fuel items with
  | nil => exact absurd rfl has
  | @cons a t as parts ht hparts ih =>
    cases fuel with
    | zero => exact absurd rfl hfuel
    | succ fuel =>
      cases hparts with
      | nil =>
        have hstops : Stops (closing :: rest) := hclosing.stops
        obtain ⟨w, hw, hread⟩ := hp.complete ht hstops
        have hne : closing ≠ ',' := by
          rcases hclosing with rfl | rfl <;> decide
        rw [List.intercalate_singleton, separated, hread, Reading.andThen, skipWs_append hw,
          skipWs_cons hclosing.blank]
        simp [hne]
      | @cons b u bs us hu hus =>
        have hsplit : [','].intercalate (t :: u :: us) ++ closing :: rest =
            t ++ ',' :: ([','].intercalate (u :: us) ++ closing :: rest) := by
          simp [List.intercalate_cons_cons]
        have hstops : Stops (',' :: ([','].intercalate (u :: us) ++ closing :: rest)) := stops_comma
        obtain ⟨w, hw, hread⟩ := hp.complete ht hstops
        have hstep : separated p closing (fuel + 1)
            (t ++ ',' :: ([','].intercalate (u :: us) ++ closing :: rest)) items =
            separated p closing fuel ([','].intercalate (u :: us) ++ closing :: rest)
              (items ++ [a]) := by
          rw [separated, hread, Reading.andThen, skipWs_append hw, skipWs_cons (by decide)]
          exact if_pos rfl
        rw [hsplit, hstep] at hfuel ⊢
        rw [ih (by simp) hfuel, List.append_assoc, List.singleton_append]

theorem separated_sound (hp : Reads p P closing) {fuel : Nat}
    (h : separated p closing fuel s items = .read as rest) : ∃ read parts, read ≠ [] ∧
      List.Forall₂ P read parts ∧ s = [','].intercalate parts ++ closing :: rest ∧
      as = items ++ read := by
  induction fuel generalizing s items with
  | zero => cases h
  | succ fuel ih =>
    obtain ⟨a, s₁, hread, hthen⟩ := andThen_eq_read.mp h
    obtain ⟨t, ht, rfl⟩ := hp.sound hread
    obtain ⟨w, hw, hs₁⟩ := skipWs_split s₁
    split at hthen
    · cases hthen
    · rename_i c s₂ hskip
      rw [hskip] at hs₁
      subst hs₁
      split_ifs at hthen with hcomma hclose
      · subst hcomma
        obtain ⟨read, parts, hne, hparts, rfl, rfl⟩ := ih hthen
        obtain ⟨part, parts, rfl⟩ : ∃ part parts', parts = part :: parts' := by
          cases hparts with
          | nil => exact absurd rfl hne
          | cons _ _ => exact ⟨_, _, rfl⟩
        exact ⟨a :: read, (t ++ w) :: part :: parts, by simp, .cons (hp.trail ht hw) hparts,
          by simp [List.intercalate_cons_cons], by simp⟩
      · injection hthen with has hrest
        subst hclose has hrest
        exact ⟨[a], [t ++ w], by simp, .cons (hp.trail ht hw) .nil, by simp, rfl⟩

theorem separated_ne_unfinished (hp : Reads p P closing) {fuel : Nat} (hfuel : s.length < fuel) :
    separated p closing fuel s items ≠ .unfinished := by
  induction fuel generalizing s items with
  | zero => omega
  | succ fuel ih =>
    intro h
    obtain hitem | ⟨a, s₁, hread, hthen⟩ := andThen_eq_unfinished.mp h
    · exact hp.finishes s hitem
    obtain ⟨t, -, rfl⟩ := hp.sound hread
    obtain ⟨w, -, hs₁⟩ := skipWs_split s₁
    split at hthen
    · cases hthen
    · rename_i c s₂ hskip
      split_ifs at hthen
      refine ih ?_ hthen
      rw [hs₁, hskip] at hfuel
      simp only [List.length_append, List.length_cons] at hfuel
      omega

theorem bracketed_eq_read (hp : Reads p P closing) (hclosing : IsClosing closing) :
    bracketed p opening closing s = .read as rest ↔
      ∃ t, IsList P opening closing as t ∧ s = t ++ rest := by
  constructor
  · intro h
    obtain ⟨_, s₁, hopen, hthen⟩ := andThen_eq_read.mp h
    obtain rfl := eat_eq_read.mp hopen
    obtain ⟨w, hw, hs₁⟩ := skipWs_split s₁
    split at hthen
    · rename_i s₂ heat
      injection hthen with has hrest
      subst has hrest
      rw [eat_eq_read.mp heat] at hs₁
      exact ⟨opening :: w ++ [closing], .inl ⟨rfl, w, hw, rfl⟩, by simp [hs₁]⟩
    · rw [separated_skipWs hp] at hthen
      obtain ⟨read, parts, hne, hparts, rfl, rfl⟩ := separated_sound hp hthen
      exact ⟨opening :: [','].intercalate parts ++ [closing],
        .inr ⟨hne, parts, hparts, rfl⟩, by simp⟩
  · rintro ⟨t, ⟨rfl, w, hw, rfl⟩ | ⟨has, parts, hparts, rfl⟩, rfl⟩
    · have hopen : eat opening (opening :: w ++ [closing] ++ rest) =
          .read () (w ++ closing :: rest) := eat_eq_read.mpr (by simp)
      rw [bracketed, hopen, Reading.andThen, skipWs_append hw, skipWs_cons hclosing.blank,
        eat_eq_read.mpr rfl]
    · have hopen : eat opening (opening :: [','].intercalate parts ++ [closing] ++ rest) =
          .read () ([','].intercalate parts ++ closing :: rest) := eat_eq_read.mpr (by simp)
      have hread : separated p closing
          ((skipWs ([','].intercalate parts ++ closing :: rest)).length + 1)
          (skipWs ([','].intercalate parts ++ closing :: rest)) [] = .read as rest := by
        have hfinished : separated p closing _ _ [] ≠ .unfinished :=
          separated_ne_unfinished hp (Nat.lt_succ_self
            (skipWs ([','].intercalate parts ++ closing :: rest)).length)
        rw [separated_skipWs hp] at hfinished ⊢
        exact separated_complete hp hclosing hparts has hfinished
      rw [bracketed, hopen, Reading.andThen]
      split
      · rename_i s₂ heat
        rw [eat_eq_read.mp heat, separated, hp.rejects] at hread
        cases hread
      · exact hread

theorem bracketed_ne_unfinished (hp : Reads p P closing) :
    bracketed p opening closing s ≠ .unfinished := by
  intro h
  obtain hopen | ⟨_, s₁, -, hthen⟩ := andThen_eq_unfinished.mp h
  · exact eat_ne_unfinished hopen
  · split at hthen
    · cases hthen
    · exact separated_ne_unfinished hp (Nat.lt_succ_self _) hthen

end Lists

section Values

variable {s t w rest : List Char} {v : Value} {k : Nat}

theorem skipWs_idem (s : List Char) : skipWs (skipWs s) = skipWs s := by
  obtain ⟨w, hw, hs⟩ := skipWs_split s
  have h := skipWs_append (t := skipWs s) hw
  rw [← hs] at h
  exact h.symm

theorem padded_lead {α : Type} {P : α → List Char → Prop} {a : α} (h : Padded P a t) (hw : IsWs w) :
    Padded P a (w ++ t) := by
  obtain ⟨w₁, u, w₂, hw₁, hu, hw₂, rfl⟩ := h
  exact ⟨w ++ w₁, u, w₂, isWs_append hw hw₁, hu, hw₂, by simp⟩

theorem padded_trail {α : Type} {P : α → List Char → Prop} {a : α} (h : Padded P a t)
    (hw : IsWs w) : Padded P a (t ++ w) := by
  obtain ⟨w₁, u, w₂, hw₁, hu, hw₂, rfl⟩ := h
  exact ⟨w₁, u, w₂ ++ w, hw₁, hu, isWs_append hw₂ hw, by simp⟩

theorem isWs_nil : IsWs [] := fun _ hc => absurd hc List.not_mem_nil

theorem member_reads (hvalue : ∀ closing, IsClosing closing →
      Reads (value k) (Padded (relaxed.Text k)) closing) {closing : Char}
    (hclosing : IsClosing closing) :
    Reads (member (value k)) (relaxed.Member (relaxed.Text k)) closing where
  skips s := by rw [member, member, skipWs_idem]
  complete := by
    rintro ⟨key, v⟩ t rest ⟨_, u, ⟨w, str, w', hw, hstr, hw', rfl⟩, hu, rfl⟩ hrest
    obtain ⟨w₂, hw₂, hread⟩ := (hvalue closing hclosing).complete hu hrest
    obtain ⟨parts, -, hparts⟩ := id hstr
    have hskip : skipWs (w ++ str ++ w' ++ ':' :: u ++ rest) = str ++ (w' ++ ':' :: (u ++ rest)) := by
      rw [List.append_assoc, List.append_assoc, List.append_assoc, skipWs_append hw, hparts]
      exact (skipWs_cons (by decide)).trans (by simp)
    have hstring := string_eq_read.mpr ⟨str, hstr, (rfl : str ++ (w' ++ ':' :: (u ++ rest)) = _)⟩
    have hcolon : eat ':' (skipWs (w' ++ ':' :: (u ++ rest))) = .read () (u ++ rest) := by
      rw [skipWs_append hw', skipWs_cons (by decide), eat_eq_read]
    refine ⟨w₂, hw₂, ?_⟩
    rw [member, hskip, hstring, Reading.andThen, hcolon, Reading.andThen, hread]
    rfl
  sound := by
    intro s entry rest h
    obtain ⟨key, s₁, hstring, hthen⟩ := andThen_eq_read.mp h
    obtain ⟨_, s₂, hcolon, hmap⟩ := andThen_eq_read.mp hthen
    obtain ⟨v, hread, rfl⟩ := map_eq_read.mp hmap
    obtain ⟨w, hw, hs⟩ := skipWs_split s
    obtain ⟨str, hstr, hskip⟩ := string_eq_read.mp hstring
    obtain ⟨w', hw', hs₁⟩ := skipWs_split s₁
    obtain ⟨u, hu, rfl⟩ := (hvalue closing hclosing).sound hread
    rw [eat_eq_read.mp hcolon] at hs₁
    refine ⟨w ++ str ++ w' ++ ':' :: u, ⟨_, u, ⟨w, str, w', hw, hstr, hw', rfl⟩, hu, rfl⟩, ?_⟩
    rw [hs, hskip, hs₁]
    simp
  lead := by
    rintro entry t w ⟨key, u, hkey, hu, rfl⟩ hw
    exact ⟨w ++ key, u, padded_lead hkey hw, hu, by simp⟩
  trail := by
    rintro entry t w ⟨key, u, hkey, hu, rfl⟩ hw
    exact ⟨key, u ++ w, hkey, padded_trail hu hw, by simp⟩
  finishes s h := by
    obtain hstring | ⟨_, s₁, -, hthen⟩ := andThen_eq_unfinished.mp h
    · exact string_ne_unfinished hstring
    obtain hcolon | ⟨_, s₂, -, hmap⟩ := andThen_eq_unfinished.mp hthen
    · exact eat_ne_unfinished hcolon
    · exact (hvalue closing hclosing).finishes s₂ (map_eq_unfinished.mp hmap)
  rejects rest := by
    have heat : eat '"' (closing :: rest) = .rejected := by
      rcases hclosing with rfl | rfl <;> rfl
    rw [member, skipWs_cons hclosing.blank, string, heat]
    rfl

theorem value_skips (k : Nat) (s : List Char) : value k (skipWs s) = value k s := by
  cases k with
  | zero => rfl
  | succ k => rw [value, value, skipWs_idem]

theorem value_keyword {c : Char} {word : List Char}
    (h : (v = .null ∧ c :: word = ['n', 'u', 'l', 'l']) ∨
      (v = .bool true ∧ c :: word = ['t', 'r', 'u', 'e']) ∨
      (v = .bool false ∧ c :: word = ['f', 'a', 'l', 's', 'e'])) :
    value (k + 1) (c :: (word ++ rest)) = .read v rest := by
  have hread : keyword (c :: word) (c :: (word ++ rest)) = .read () rest :=
    keyword_eq_read.mpr rfl
  have hskip : skipWs (c :: (word ++ rest)) = c :: (word ++ rest) := skipWs_cons (by
    obtain ⟨-, h⟩ | ⟨-, h⟩ | ⟨-, h⟩ := h <;>
    · rw [(List.cons.inj h).1]
      rfl)
  generalize word ++ rest = s at hread hskip
  unfold value
  rw [hskip]
  obtain ⟨rfl, h⟩ | ⟨rfl, h⟩ | ⟨rfl, h⟩ := h <;>
  · obtain ⟨rfl, rfl⟩ := List.cons.inj h
    simp [hread, Reading.map, Reading.andThen]

theorem value_quote : value (k + 1) ('"' :: s) = (string ('"' :: s)).map .str := by
  unfold value
  rw [skipWs_cons (by decide)]
  rfl

theorem value_bracket :
    value (k + 1) ('[' :: s) = (bracketed (value k) '[' ']' ('[' :: s)).map .array := by
  rw [value, skipWs_cons (by decide)]
  rfl

theorem value_brace : value (k + 1) ('\x7b' :: s) =
    (bracketed (member (value k)) '\x7b' '\x7d' ('\x7b' :: s)).map .object := by
  rw [value, skipWs_cons (by decide)]
  rfl

theorem value_number (ht : relaxed.Number t) (hrest : Stops rest) :
    value (k + 1) (t ++ rest) = .read (.number (String.ofList t)) rest := by
  have hread := number_append ht hrest
  obtain ⟨c, u, rfl, hc⟩ : ∃ c u, t = c :: u ∧ (c = '-' ∨ c.isDigit = true) := by
    obtain ⟨sign, int, frac, exp, rfl, hsign, hint, -, -⟩ := ht
    obtain ⟨d, ds, rfl⟩ := List.exists_cons_of_ne_nil hint.1.1
    obtain rfl | rfl := hsign
    · exact ⟨d, ds ++ frac ++ exp, by simp, .inr (hint.1.2 d List.mem_cons_self)⟩
    · exact ⟨'-', d :: ds ++ frac ++ exp, by simp, .inl rfl⟩
  have hne : ∀ d : Char, d ≠ '-' → d.isDigit = false → c ≠ d := by
    rintro d hminus hdigit rfl
    exact hc.elim hminus fun h => by simp [hdigit] at h
  have hblank : isWs c = false := by
    simp only [isWs, Bool.or_eq_false_iff, decide_eq_false_iff_not]
    exact ⟨⟨⟨hne _ (by decide) (by decide), hne _ (by decide) (by decide)⟩,
      hne _ (by decide) (by decide)⟩, hne _ (by decide) (by decide)⟩
  simp only [List.cons_append] at hread ⊢
  unfold value
  rw [skipWs_cons hblank]
  simp only [hne 'n' (by decide) (by decide), hne 't' (by decide) (by decide),
    hne 'f' (by decide) (by decide), hne '"' (by decide) (by decide),
    hne '[' (by decide) (by decide), hne '{' (by decide) (by decide), ↓reduceIte]
  rw [if_pos hc, hread]
  rfl

theorem value_rejects {closing : Char} (hclosing : IsClosing closing) (k : Nat) :
    value k (closing :: rest) = .rejected := by
  cases k with
  | zero => rfl
  | succ k =>
    unfold value
    rw [skipWs_cons hclosing.blank]
    rcases hclosing with rfl | rfl <;> rfl

theorem isList_head {α : Type} {P : α → List Char → Prop} {opening closing : Char} {as : List α}
    (h : IsList P opening closing as t) : ∃ u, t = opening :: u := by
  obtain ⟨-, w, -, rfl⟩ | ⟨-, parts, -, rfl⟩ := h
  · exact ⟨w ++ [closing], rfl⟩
  · exact ⟨[','].intercalate parts ++ [closing], rfl⟩

/-- The readers of a level, given those of the level below. -/
theorem value_complete (hvalue : ∀ closing, IsClosing closing →
      Reads (value k) (Padded (relaxed.Text k)) closing)
    (ht : relaxed.Text (k + 1) v t) (hrest : Stops rest) : value (k + 1) (t ++ rest) = .read v rest := by
  cases v with
  | null =>
    obtain rfl : t = _ := ht
    exact value_keyword (.inl ⟨rfl, rfl⟩)
  | bool b =>
    cases b with
    | false =>
      obtain rfl : t = _ := ht
      exact value_keyword (.inr (.inr ⟨rfl, rfl⟩))
    | true =>
      obtain rfl : t = _ := ht
      exact value_keyword (.inr (.inl ⟨rfl, rfl⟩))
  | number text =>
    obtain ⟨rfl, hnumber⟩ : t = text.toList ∧ relaxed.Number t := ht
    rw [value_number hnumber hrest, String.ofList_toList]
  | str text =>
    have hread := string_eq_read.mpr ⟨t, ht, (rfl : t ++ rest = t ++ rest)⟩
    obtain ⟨parts, -, rfl⟩ : relaxed.Str text t := ht
    simp only [List.cons_append] at hread ⊢
    rw [value_quote, hread]
    rfl
  | array items =>
    have hlist : IsList (Padded (relaxed.Text k)) '[' ']' items t := ht
    have hread := (bracketed_eq_read (hvalue ']' (.inl rfl)) (.inl rfl)).mpr
      ⟨t, hlist, (rfl : t ++ rest = t ++ rest)⟩
    obtain ⟨u, rfl⟩ := isList_head hlist
    simp only [List.cons_append] at hread ⊢
    rw [value_bracket, hread]
    rfl
  | object entries =>
    have hlist : IsList (relaxed.Member (relaxed.Text k)) '\x7b' '\x7d' entries t := ht
    have hread := (bracketed_eq_read (member_reads hvalue (.inr rfl)) (.inr rfl)).mpr
      ⟨t, hlist, (rfl : t ++ rest = t ++ rest)⟩
    obtain ⟨u, rfl⟩ := isList_head hlist
    simp only [List.cons_append] at hread ⊢
    rw [value_brace, hread]
    rfl

theorem value_sound (hvalue : ∀ closing, IsClosing closing →
      Reads (value k) (Padded (relaxed.Text k)) closing) (h : value (k + 1) s = .read v rest) :
    ∃ t, relaxed.Text (k + 1) v t ∧ skipWs s = t ++ rest := by
  unfold value at h
  split at h
  · cases h
  · rename_i c s' hskip
    rw [hskip]
    split_ifs at h
    · obtain ⟨_, hword, rfl⟩ := map_eq_read.mp h
      exact ⟨_, rfl, keyword_eq_read.mp hword⟩
    · obtain ⟨_, hword, rfl⟩ := map_eq_read.mp h
      exact ⟨_, rfl, keyword_eq_read.mp hword⟩
    · obtain ⟨_, hword, rfl⟩ := map_eq_read.mp h
      exact ⟨_, rfl, keyword_eq_read.mp hword⟩
    · obtain ⟨text, hstring, rfl⟩ := map_eq_read.mp h
      exact string_eq_read.mp hstring
    · obtain ⟨items, hitems, rfl⟩ := map_eq_read.mp h
      exact (bracketed_eq_read (hvalue ']' (.inl rfl)) (.inl rfl)).mp hitems
    · obtain ⟨entries, hentries, rfl⟩ := map_eq_read.mp h
      exact (bracketed_eq_read (member_reads hvalue (.inr rfl)) (.inr rfl)).mp hentries
    · obtain ⟨text, hnumber, rfl⟩ := map_eq_read.mp h
      obtain ⟨hs, htext⟩ := number_eq_read hnumber
      exact ⟨text.toList, ⟨rfl, htext⟩, hs⟩

theorem number_ne_unfinished : number s ≠ .unfinished := by
  have hdigits : ∀ s, skipDigits s ≠ .unfinished := fun s => by
    rw [skipDigits]
    split_ifs <;> simp
  intro h
  obtain h | ⟨_, s₁, -, h⟩ := andThen_eq_unfinished.mp h
  · exact hdigits _ h
  obtain h | ⟨_, s₂, -, h⟩ := andThen_eq_unfinished.mp h
  · unfold skipFraction at h
    split at h
    · exact hdigits _ h
    · cases h
  obtain h | ⟨_, s₃, -, h⟩ := andThen_eq_unfinished.mp h
  · unfold skipExponent at h
    split at h
    · cases h
    · split_ifs at h
      exact hdigits _ h
  · cases h

theorem keyword_ne_unfinished {word : List Char} : keyword word s ≠ .unfinished := by
  rw [keyword]
  split_ifs <;> simp

theorem value_finishes (hvalue : ∀ closing, IsClosing closing →
      Reads (value k) (Padded (relaxed.Text k)) closing) : value (k + 1) s ≠ .unfinished := by
  intro h
  unfold value at h
  split at h
  · cases h
  · split_ifs at h
    · exact keyword_ne_unfinished (map_eq_unfinished.mp h)
    · exact keyword_ne_unfinished (map_eq_unfinished.mp h)
    · exact keyword_ne_unfinished (map_eq_unfinished.mp h)
    · exact string_ne_unfinished (map_eq_unfinished.mp h)
    · exact bracketed_ne_unfinished (hvalue ']' (.inl rfl)) (map_eq_unfinished.mp h)
    · exact bracketed_ne_unfinished (member_reads hvalue (.inr rfl)) (map_eq_unfinished.mp h)
    · exact number_ne_unfinished (map_eq_unfinished.mp h)

/-- By induction on the levels: `value` reads the texts of the relaxed grammar and no others. -/
theorem value_reads (k : Nat) (closing : Char) (hclosing : IsClosing closing) :
    Reads (value k) (Padded (relaxed.Text k)) closing := by
  induction k generalizing closing with
  | zero =>
    exact {
      skips := fun _ => rfl
      complete := fun ⟨_, _, _, _, h, _⟩ => h.elim
      sound := fun h => by cases h
      lead := padded_lead
      trail := padded_trail
      finishes := fun _ h => by cases h
      rejects := fun _ => rfl }
  | succ k ih =>
    exact {
      skips := value_skips (k + 1)
      complete := by
        rintro v t rest ⟨w, u, w', hw, hu, hw', rfl⟩ hrest
        refine ⟨w', hw', ?_⟩
        have hread := value_complete ih hu (hrest.blanks hw')
        rw [← value_skips] at hread
        rw [← value_skips, List.append_assoc, List.append_assoc, skipWs_append hw, hread]
      sound := by
        intro s v rest h
        obtain ⟨w, hw, hs⟩ := skipWs_split s
        obtain ⟨t, ht, hskip⟩ := value_sound ih h
        exact ⟨w ++ t, ⟨w, t, [], hw, ht, isWs_nil, by simp⟩, by rw [hs, hskip, List.append_assoc]⟩
      lead := padded_lead
      trail := padded_trail
      finishes := fun _ => value_finishes ih
      rejects := fun _ => value_rejects hclosing (k + 1) }

end Values

end Hbird.Json.MiniJson
