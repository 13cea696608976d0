import Mathlib

namespace Hbird.Text

/-- `char::is_whitespace`: the Unicode property White_Space. -/
def isWhitespace (c : Char) : Bool :=
  (0x09 ≤ c.toNat && c.toNat ≤ 0x0d) || c.toNat == 0x20 || c.toNat == 0x85 || c.toNat == 0xa0 ||
    c.toNat == 0x1680 || (0x2000 ≤ c.toNat && c.toNat ≤ 0x200a) || c.toNat == 0x2028 ||
    c.toNat == 0x2029 || c.toNat == 0x202f || c.toNat == 0x205f || c.toNat == 0x3000

/-- A grave accent. -/
def tick : String := String.singleton (Char.ofNat 0x60)

/-- The lines of a text as `str::lines` has them: a line feed ends a line and takes one
carriage return before it along; a last line needs no line feed. -/
def splitLines : List Char → List (List Char)
  | [] => []
  | '\n' :: cs => [] :: splitLines cs
  | '\r' :: '\n' :: cs => [] :: splitLines cs
  | c :: cs =>
    match splitLines cs with
    | [] => [[c]]
    | l :: ls => (c :: l) :: ls

def lines (s : String) : List String := (splitLines s.toList).map String.ofList

def trimStart (s : String) : String := String.ofList (s.toList.dropWhile isWhitespace)

def trim (s : String) : String :=
  String.ofList ((s.toList.dropWhile isWhitespace).rdropWhile isWhitespace)

def splitWhitespace (s : String) : List String :=
  ((s.toList.splitOnP isWhitespace).filter (· ≠ [])).map String.ofList

def startsWith (s p : String) : Bool := p.toList.isPrefixOf s.toList

/-- `str::contains` with a text. -/
def contains (s t : String) : Bool := decide (t.toList <:+: s.toList)

/-- `str::split_once` with a character. -/
def splitOnce (c : Char) (s : String) : Option (String × String) :=
  match s.toList.dropWhile (· ≠ c) with
  | [] => none
  | _ :: rest => some (String.ofList (s.toList.takeWhile (· ≠ c)), String.ofList rest)

/-- `str::to_ascii_lowercase`. -/
def toAsciiLowercase (s : String) : String :=
  String.ofList (s.toList.map fun c =>
    if 'A' ≤ c ∧ c ≤ 'Z' then Char.ofNat (c.toNat + 32) else c)

def eqIgnoreAsciiCase (s t : String) : Bool := toAsciiLowercase s == toAsciiLowercase t

/-- The pieces of a text that the character `c` ends, as `str::split_terminator` has
them: a last piece needs no `c` after it. -/
def splitTerminator (c : Char) : List Char → List (List Char)
  | [] => []
  | x :: xs =>
    if x = c then [] :: splitTerminator c xs
    else match splitTerminator c xs with
      | [] => [[x]]
      | l :: ls => (x :: l) :: ls

/-- A text between quotes, with the escapes of `{:?}` for the characters that have one of their own.
One that does not print stands for itself here, where `{:?}` writes its code. -/
def quoted (s : String) : String :=
  "\"" ++ String.join (s.toList.map fun c =>
    match c with
    | '"' => "\\\""
    | '\\' => "\\\\"
    | '\n' => "\\n"
    | '\r' => "\\r"
    | '\t' => "\\t"
    | '\x00' => "\\0"
    | c => String.singleton c) ++ "\""

theorem startsWith_iff {s p : String} : startsWith s p = true ↔ p.toList <+: s.toList :=
  List.isPrefixOf_iff_prefix

theorem startsWith_append (p s : String) : startsWith (p ++ s) p = true := by
  rw [startsWith_iff, String.toList_append]
  exact List.prefix_append _ _

theorem startsWith_ofList (l p : List Char) :
    startsWith (String.ofList l) (String.ofList p) = p.isPrefixOf l := by
  rw [startsWith, String.toList_ofList, String.toList_ofList]

theorem startsWith_append_left {a p : String} (h : startsWith a p = true) (b : String) :
    startsWith (a ++ b) p = true := by
  rw [startsWith_iff, String.toList_append]
  exact (startsWith_iff.mp h).trans (List.prefix_append _ _)

/-- A text begins with one text of each length only. -/
theorem startsWith_unique {s : String} {p q : List Char} (hp : startsWith s (String.ofList p) = true)
    (hq : startsWith s (String.ofList q) = true) (h : p.length = q.length) : p = q := by
  rw [startsWith_iff, String.toList_ofList] at hp hq
  exact (List.prefix_of_prefix_length_le hp hq h.le).eq_of_length h

/-- Texts that begin with different characters. -/
theorem startsWith_eq_false {s p : String} (a b : Char) (u v : List Char)
    (hs : s = String.ofList (a :: u)) (hp : p = String.ofList (b :: v)) (h : (b == a) = false) :
    startsWith s p = false := by
  subst hs hp
  simp only [startsWith, String.toList_ofList, List.isPrefixOf, h, Bool.false_and]

theorem append_left_cancel (p : String) {s s' : String} (h : p ++ s = p ++ s') : s = s' := by
  have hl := congrArg String.toList h
  rw [String.toList_append, String.toList_append] at hl
  exact String.toList_inj.mp (List.append_cancel_left hl)

/-- The command begins with the character. -/
def Begins (c : Char) (command : String) : Prop := ∃ cs, command.toList = c :: cs

theorem begins_append {c : Char} {s : String} (h : Begins c s) (s' : String) : Begins c (s ++ s') := by
  obtain ⟨cs, hs⟩ := h
  exact ⟨cs ++ s'.toList, by rw [String.toList_append, hs, List.cons_append]⟩

theorem begins_ne {c c' : Char} {s s' : String} (h : Begins c s) (h' : Begins c' s') (hc : c ≠ c') :
    s ≠ s' := by
  obtain ⟨cs, hs⟩ := h
  obtain ⟨cs', hs'⟩ := h'
  rintro rfl
  exact hc (List.cons.inj (hs.symm.trans hs')).1

/-- A text that is one line, wherever it stands. -/
def OneLine (l : String) : Prop := '\n' ∉ l.toList ∧ '\r' ∉ l.toList

theorem splitLines_append {l cs : List Char} (hn : '\n' ∉ l) (hr : '\r' ∉ l) :
    splitLines (l ++ '\n' :: cs) = l :: splitLines cs := by
  induction l with
  | nil => rfl
  | cons c l ih =>
    obtain ⟨hcn, hn⟩ := not_or.mp (List.mem_cons.not.mp hn)
    obtain ⟨hcr, hr⟩ := not_or.mp (List.mem_cons.not.mp hr)
    rw [List.cons_append, splitLines, ih hn hr]
    · exact fun h => absurd h.symm hcn
    · exact fun _ h _ => absurd h.symm hcr

theorem splitLines_eq_singleton {l : List Char} (hl : l ≠ []) (hn : '\n' ∉ l) (hr : '\r' ∉ l) :
    splitLines l = [l] := by
  induction l with
  | nil => exact absurd rfl hl
  | cons c l ih =>
    obtain ⟨hcn, hn⟩ := not_or.mp (List.mem_cons.not.mp hn)
    obtain ⟨hcr, hr⟩ := not_or.mp (List.mem_cons.not.mp hr)
    rw [splitLines]
    · cases l with
      | nil => rfl
      | cons d l => rw [ih (by simp) hn hr]
    · exact fun h => absurd h.symm hcn
    · exact fun _ h _ => absurd h.symm hcr

theorem splitOnce_iff {c : Char} {s before after : String} : splitOnce c s = some (before, after) ↔
    c ∉ before.toList ∧ s.toList = before.toList ++ c :: after.toList := by
  have htext : s.toList.takeWhile (· ≠ c) ++ s.toList.dropWhile (· ≠ c) = s.toList :=
    List.takeWhile_append_dropWhile
  rw [splitOnce]
  constructor
  · intro h
    have hhead := List.head?_dropWhile_not (· ≠ c) s.toList
    split at h
    · cases h
    · next x rest hrest =>
      obtain ⟨rfl, rfl⟩ := Prod.mk.inj (Option.some.inj h)
      rw [hrest] at hhead htext
      obtain rfl : x = c := by simpa using hhead
      rw [String.toList_ofList, String.toList_ofList]
      refine ⟨fun hmem => ?_, htext.symm⟩
      simpa using List.mem_takeWhile_imp hmem
  · rintro ⟨hbefore, hs⟩
    have hpos : ∀ x ∈ before.toList, decide (x ≠ c) = true := by
      intro x hx
      simp only [ne_eq, decide_eq_true_eq]
      rintro rfl
      exact hbefore hx
    rw [hs, List.dropWhile_append_of_pos hpos, List.takeWhile_append_of_pos hpos,
      List.dropWhile_cons_of_neg (by simp), List.takeWhile_cons_of_neg (by simp), List.append_nil]
    simp only [String.ofList_toList]

theorem lines_append {l s : String} (hl : OneLine l) : lines (l ++ "\n" ++ s) = l :: lines s := by
  rw [lines, String.toList_append, String.toList_append,
    show "\n".toList = ['\n'] from String.toList_ofList, List.append_assoc, List.singleton_append,
    splitLines_append hl.1 hl.2, List.map_cons, String.ofList_toList]
  rfl

theorem lines_eq_singleton {l : String} (hl : OneLine l) (h : l ≠ "") : lines l = [l] := by
  rw [lines, splitLines_eq_singleton (by simpa using h) hl.1 hl.2, List.map_singleton,
    String.ofList_toList]

/-- Lines put together are these lines again, but for an empty one that nothing ends. -/
theorem lines_intercalate {ls : List String} (h : ∀ l ∈ ls, OneLine l) (hls : ls ≠ []) :
    lines ("\n".intercalate ls ++ "\n") = ls ∧
    (lines ("\n".intercalate ls) = ls ∨
      ∃ ls', ls = ls' ++ [""] ∧ lines ("\n".intercalate ls) = ls') := by
  induction ls with
  | nil => exact absurd rfl hls
  | cons l ls ih =>
    obtain ⟨hl, hrest⟩ := List.forall_mem_cons.mp h
    cases ls with
    | nil =>
      rw [String.intercalate_singleton]
      refine ⟨by simpa [show lines "" = [] from rfl] using lines_append (s := "") hl, ?_⟩
      by_cases he : l = ""
      · subst he
        exact .inr ⟨[], rfl, rfl⟩
      · exact .inl (lines_eq_singleton hl he)
    | cons l' ls =>
      obtain ⟨h₁, h₂⟩ := ih hrest (by simp)
      have hassoc : l ++ "\n" ++ "\n".intercalate (l' :: ls) ++ "\n" =
          l ++ "\n" ++ ("\n".intercalate (l' :: ls) ++ "\n") := String.append_assoc
      rw [String.intercalate_cons_cons, hassoc, lines_append hl, lines_append hl, h₁]
      refine ⟨rfl, ?_⟩
      obtain h₂ | ⟨ls', he, h₂⟩ := h₂
      · exact .inl (by rw [h₂])
      · exact .inr ⟨l :: ls', by rw [he, List.cons_append], by rw [h₂]⟩

theorem lines_join {ls : List String} (hls : ∀ l ∈ ls, OneLine l) :
    lines (String.join (ls.map fun l => l ++ "\n")) = ls := by
  induction ls with
  | nil => rfl
  | cons l ls ih =>
    obtain ⟨hl, hls⟩ := List.forall_mem_cons.mp hls
    rw [List.map_cons, String.join_cons, lines_append hl, ih hls]

theorem splitLines_ne_nil {cs : List Char} (h : cs ≠ []) : splitLines cs ≠ [] := by
  cases cs with
  | nil => exact absurd rfl h
  | cons c cs =>
    unfold splitLines
    split
    · simp_all
    · simp
    · simp
    · split <;> simp

/-- A last line that nothing ends has something in it. -/
theorem getLast?_lines {s : String} (h : s.toList.getLast? ≠ some '\n') :
    (lines s).getLast? ≠ some "" := by
  have hchars : ∀ cs : List Char, cs.getLast? ≠ some '\n' → (splitLines cs).getLast? ≠ some [] := by
    intro cs
    induction cs using splitLines.induct with
    | case1 => simp [splitLines]
    | case2 cs ih =>
      intro h
      have hcs : cs ≠ [] := by
        rintro rfl
        simp at h
      rw [splitLines, List.getLast?_cons_of_ne_nil (splitLines_ne_nil hcs)]
      rw [List.getLast?_cons_of_ne_nil hcs] at h
      exact ih h
    | case3 cs ih =>
      intro h
      have hcs : cs ≠ [] := by
        rintro rfl
        simp at h
      rw [splitLines, List.getLast?_cons_of_ne_nil (splitLines_ne_nil hcs)]
      rw [List.getLast?_cons_of_ne_nil (by simp), List.getLast?_cons_of_ne_nil hcs] at h
      exact ih h
    | case4 c cs hn hr hs ih =>
      intro h
      rw [splitLines, hs]
      · simp
      · exact hn
      · exact hr
    | case5 c cs hn hr l ls hs ih =>
      intro h
      have hcs : cs ≠ [] := by
        rintro rfl
        cases hs
      rw [List.getLast?_cons_of_ne_nil hcs] at h
      have hl := ih h
      rw [hs] at hl
      rw [splitLines, hs]
      · cases ls with
        | nil => simp
        | cons l' ls => simpa using hl
      · exact hn
      · exact hr
  rw [lines, List.getLast?_map]
  intro hl
  obtain ⟨l, hl, he⟩ := Option.map_eq_some_iff.mp hl
  rw [String.ofList_eq_empty_iff] at he
  exact hchars _ h (he ▸ hl)

theorem splitTerminator_eq_nil {c : Char} {xs : List Char} :
    splitTerminator c xs = [] ↔ xs = [] := by
  cases xs with
  | nil => exact ⟨fun _ => rfl, fun _ => rfl⟩
  | cons x xs =>
    rw [splitTerminator]
    by_cases hx : x = c
    · simp [hx]
    · rw [if_neg hx]
      cases splitTerminator c xs <;> simp

theorem prefix_head_splitTerminator {c : Char} (xs : List Char) {w : List Char} (hc : c ∉ w) :
    w <+: xs ↔ w <+: (splitTerminator c xs).headD [] := by
  induction xs generalizing w with
  | nil => exact Iff.rfl
  | cons x xs ih =>
    cases w with
    | nil => simp
    | cons a w =>
      obtain ⟨ha, hw⟩ := not_or.mp (List.mem_cons.not.mp hc)
      rw [splitTerminator]
      by_cases hx : x = c
      · have hne : a ≠ x := fun h => ha (by rw [h, hx])
        simp [hx, List.cons_prefix_cons, Ne.symm ha]
      · have hh : (if x = c then [] :: splitTerminator c xs
            else match splitTerminator c xs with
              | [] => [[x]]
              | l :: ls => (x :: l) :: ls).headD [] = x :: (splitTerminator c xs).headD [] := by
          rw [if_neg hx]
          cases splitTerminator c xs <;> rfl
        rw [hh, List.cons_prefix_cons, List.cons_prefix_cons, ih hw]

/-- A word without the terminator lies in a text if and only if it lies in one of the
pieces. -/
theorem infix_splitTerminator {c : Char} (xs : List Char) {w : List Char} (hw : w ≠ [])
    (hc : c ∉ w) : w <:+: xs ↔ ∃ p ∈ splitTerminator c xs, w <:+: p := by
  induction xs with
  | nil => simp [splitTerminator, hw]
  | cons x xs ih =>
    have hp := prefix_head_splitTerminator (x :: xs) hc
    rw [List.infix_cons_iff, hp, ih, splitTerminator]
    by_cases hx : x = c
    · simp [hx, hw]
    · rw [if_neg hx]
      cases splitTerminator c xs with
      | nil => simp [List.infix_cons_iff, hw]
      | cons l ls => simp [List.infix_cons_iff, or_assoc]

example : lines "a\r\n\nb" = ["a", "", "b"] := by decide

example : splitWhitespace " w1  Ready <none>" = ["w1", "Ready", "<none>"] := by decide

end Hbird.Text
