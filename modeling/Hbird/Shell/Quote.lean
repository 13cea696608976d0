import Hbird.Shell.Scan

namespace Hbird.Shell

section Quote

variable {safe : Char → Bool} {v : List Char} {s : State} {c : Char}

/-- A text in single quotes, its own quotes outside of them behind a backslash. -/
def inQuotes (v : List Char) : List Char :=
  '\'' :: v.flatMap (fun c => if c = '\'' then ['\'', '\\', '\'', '\''] else [c]) ++ ['\'']

/-- A text that needs no quotes as it is, any other one in quotes. -/
def quoteWith (safe : Char → Bool) (v : List Char) : List Char :=
  if v = [] then ['\'', '\''] else if v.all safe then v else inQuotes v

/-- What the shell reads of a text that was quoted. -/
def quoteMarks (safe : Char → Bool) (v : List Char) : Word :=
  if v.all safe then v.map .bare else v.map .quoted

/-- The state behind further marks of the word it is in, or begins. -/
def State.extend (s : State) (w : Word) : State := { s with mode := .word, word := s.word ++ w }

/-- Characters that stand for themselves wherever they stand. -/
structure SafeClass (safe : Char → Bool) : Prop where
  inert : ∀ c, safe c = true → isSpecial c = false
  dollar : safe '$' = false
  hash : safe '#' = false
  tilde : safe '~' = false
  star : safe '*' = false
  question : safe '?' = false
  bracket : safe '[' = false

/-- What a shell takes for more than a character. -/
def significant : List Char :=
  [' ', '\t', '\n', ';', '&', '|', '<', '>', '(', ')', '\'', '"', '\\', '$', '#', '~', '*', '?', '[',
    Char.ofNat 0x60]

theorem safeClass_of (hall : significant.all (fun d => !safe d) = true) : SafeClass safe := by
  have h : ∀ d ∈ significant, safe d = false := by simpa using hall
  refine ⟨fun c hc => ?_, h _ (by decide), h _ (by decide), h _ (by decide), h _ (by decide),
    h _ (by decide), h _ (by decide)⟩
  have hback : ∀ d ∈ significant, c ≠ d := by
    rintro d hd rfl
    rw [h c hd] at hc
    cases hc
  have hbackquote : isBackquote c = false := by
    by_contra hb
    have hn : c.toNat = 0x60 := by simpa [isBackquote] using hb
    refine hback (Char.ofNat 0x60) (by decide) ?_
    rw [← hn, Char.ofNat_toNat]
  simp [isSpecial, isBlank, isOperator, hbackquote, hback ' ' (by decide), hback '\t' (by decide),
    hback '\n' (by decide), hback ';' (by decide), hback '&' (by decide), hback '|' (by decide),
    hback '<' (by decide), hback '>' (by decide), hback '(' (by decide), hback ')' (by decide),
    hback '\'' (by decide), hback '"' (by decide), hback '\\' (by decide)]

def State.atWord (s : State) : Prop := s.mode = .blank ∨ s.mode = .word

theorem State.extend_atWord (s : State) (w : Word) : (s.extend w).atWord := .inr rfl

theorem State.extend_extend (s : State) (w w' : Word) :
    (s.extend w).extend w' = s.extend (w ++ w') := by
  simp [extend, List.append_assoc]

theorem char_safe (hsafe : SafeClass safe) (hc : safe c = true) (inWord : Bool) :
    s.char inWord c = some (s.extend [.bare c]) := by
  obtain ⟨-, -, h1, h2, h3, h4⟩ := isSpecial_eq_false.mp (hsafe.inert c hc)
  have hd : c ≠ '$' := by
    rintro rfl
    rw [hsafe.dollar] at hc
    cases hc
  rw [State.char, if_neg h1, if_neg h2, if_neg h3, if_neg hd, h4, if_neg Bool.false_ne_true]
  rfl

theorem step_safe (hsafe : SafeClass safe) (hc : safe c = true) (hs : s.atWord) :
    s.step c = some (s.extend [.bare c]) := by
  obtain ⟨h1, h2, -⟩ := isSpecial_eq_false.mp (hsafe.inert c hc)
  have hh : c ≠ '#' := by
    rintro rfl
    rw [hsafe.hash] at hc
    cases hc
  obtain hm | hm := hs
  · have hstep : s.step c = s.blankStep c := by rw [State.step, hm]
    rw [hstep, State.blankStep, h1, h2, if_neg Bool.false_ne_true, if_neg Bool.false_ne_true,
      if_neg hh, char_safe hsafe hc]
  · have hstep : s.step c = s.wordStep c := by rw [State.step, hm]
    rw [hstep, State.wordStep, h1, h2, if_neg Bool.false_ne_true, if_neg Bool.false_ne_true,
      char_safe hsafe hc]

theorem run_safe (hsafe : SafeClass safe) (hv : v.all safe = true) (hne : v ≠ []) (hs : s.atWord) :
    s.run v = some (s.extend (v.map .bare)) := by
  induction v generalizing s with
  | nil => exact absurd rfl hne
  | cons c v ih =>
    obtain ⟨hc, hv⟩ := (List.all_cons ▸ hv : (safe c && v.all safe) = true) |> Bool.and_eq_true_iff.mp
    rw [State.run, step_safe hsafe hc hs, Option.bind_some]
    by_cases hnil : v = []
    · subst hnil
      rfl
    · rw [ih hv hnil (State.extend_atWord ..), State.extend_extend]
      rfl

theorem step_quote (hs : s.atWord) : s.step '\'' = some { s with mode := .single } := by
  obtain hm | hm := hs <;> rw [State.step, hm] <;> rfl

theorem run_single (v : List Char) (hm : s.mode = .single) :
    s.run (v.flatMap (fun c => if c = '\'' then ['\'', '\\', '\'', '\''] else [c]) ++ ['\'']) =
      some (s.extend (v.map .quoted)) := by
  induction v generalizing s with
  | nil =>
    have hstep : s.step '\'' = some { s with mode := .word } := by
      rw [State.step, hm]
      rfl
    change (s.step '\'').bind some = _
    rw [hstep, State.extend, List.map_nil, List.append_nil]
    rfl
  | cons c v ih =>
    rw [List.flatMap_cons, List.append_assoc, State.run_append]
    have hone : s.run (if c = '\'' then ['\'', '\\', '\'', '\''] else [c]) =
        some { s with word := s.word ++ [.quoted c] } := by
      by_cases hc : c = '\''
      · subst hc
        obtain ⟨mode, word, out, here⟩ := s
        subst hm
        rfl
      · rw [if_neg hc]
        change (s.step c).bind some = _
        have hstep : s.step c = some { s with word := s.word ++ [.quoted c] } := by
          rw [State.step, hm]
          exact if_neg hc
        rw [hstep]
        rfl
    have hrest := @ih { s with word := s.word ++ [.quoted c] } hm
    rw [hone, Option.bind_some]
    refine hrest.trans ?_
    simp [State.extend]

theorem run_inQuotes (v : List Char) (hs : s.atWord) :
    s.run (inQuotes v) = some (s.extend (v.map .quoted)) := by
  rw [inQuotes, List.cons_append, State.run, step_quote hs, Option.bind_some]
  exact run_single v rfl

/-- A quoted text goes on with the word it stands in by its own characters, whatever they are. -/
theorem run_quoteWith (hsafe : SafeClass safe) (v : List Char) (hs : s.atWord) :
    s.run (quoteWith safe v) = some (s.extend (quoteMarks safe v)) := by
  rw [quoteWith, quoteMarks]
  by_cases hne : v = []
  · subst hne
    rw [if_pos rfl, List.all_nil, if_pos rfl]
    exact run_inQuotes [] hs
  · rw [if_neg hne]
    by_cases hv : v.all safe = true
    · rw [if_pos hv, if_pos hv]
      exact run_safe hsafe hv hne hs
    · rw [if_neg hv, if_neg hv]
      exact run_inQuotes v hs

end Quote

section Calm

variable {w : Word} {safe : Char → Bool}

/-- A mark that no pattern begins with. -/
def Mark.isCalm : Mark → Bool
  | .bare c => !(c == '*' || c == '?' || c == '[')
  | .quoted _ => true
  | .expansion _ _ => false

theorem foldl_glob_calm (h : ∀ m ∈ w, m.isCalm = true) : w.foldl Glob.next .outside = .outside := by
  induction w with
  | nil => rfl
  | cons m w ih =>
    obtain ⟨hm, hw⟩ := List.forall_mem_cons.mp h
    have hnext : Glob.next .outside m = .outside := by
      cases m with
      | bare c =>
        simp only [Mark.isCalm, Bool.not_eq_true', Bool.or_eq_false_iff, beq_eq_false_iff_ne] at hm
        obtain ⟨⟨h1, h2⟩, h3⟩ := hm
        simp [Glob.next, h1, h2, h3]
      | quoted c => simp [Glob.next]
      | expansion text inDouble => cases hm
    rw [List.foldl_cons, hnext, ih hw]

theorem foldl_tilde_absent (w : Word) : w.foldl Tilde.next .absent = .absent := by
  induction w with
  | nil => rfl
  | cons m w ih => exact ih

theorem fixed?_of_calm (h : ∀ m ∈ w, m.isCalm = true) (ht : w.head? ≠ some (.bare '~')) :
    w.fixed? noBraces = w.text? := by
  have hpattern : w.isPattern = false := by
    rw [Word.isPattern, foldl_glob_calm h]
    rfl
  have htilde : w.isTilde = false := by
    cases w with
    | nil => rfl
    | cons m w =>
      have hnext : Tilde.next .start m = .absent := by
        cases m with
        | bare c =>
          have hc : c ≠ '~' := fun hc => ht (by rw [hc]; rfl)
          simp [Tilde.next, hc]
        | quoted c => rfl
        | expansion text inDouble => rfl
      rw [Word.isTilde, List.foldl_cons, hnext, foldl_tilde_absent]
  rw [Word.fixed?, hpattern, htilde]
  rfl

theorem text?_quoteMarks (safe : Char → Bool) (v : List Char) :
    Word.text? (quoteMarks safe v) = some v := by
  rw [quoteMarks]
  split_ifs with hv
  · exact text?_bare v
  · rw [Word.text?, mapM_eq_some, List.forall₂_map_left_iff]
    exact List.forall₂_same.mpr fun _ _ => rfl

theorem quoteMarks_calm (hsafe : SafeClass safe) (v : List Char) :
    ∀ m ∈ quoteMarks safe v, m.isCalm = true ∧ m ≠ .bare '~' := by
  intro m hm
  rw [quoteMarks] at hm
  split_ifs at hm with hv
  · obtain ⟨c, hc, rfl⟩ := List.mem_map.mp hm
    have hs : safe c = true := List.all_eq_true.mp hv c hc
    have hother : ∀ d, safe d = false → c ≠ d := by
      rintro d hd rfl
      rw [hd] at hs
      cases hs
    refine ⟨?_, fun h => hother _ hsafe.tilde (Mark.bare.inj h)⟩
    simp [Mark.isCalm, hother _ hsafe.star, hother _ hsafe.question, hother _ hsafe.bracket]
  · obtain ⟨c, -, rfl⟩ := List.mem_map.mp hm
    exact ⟨rfl, by simp⟩

theorem fixed?_quoteMarks (hsafe : SafeClass safe) (v : List Char) :
    Word.fixed? noBraces (quoteMarks safe v) = some v := by
  rw [fixed?_of_calm (fun m hm => (quoteMarks_calm hsafe v m hm).1) ?_, text?_quoteMarks]
  intro h
  exact (quoteMarks_calm hsafe v _ (List.mem_of_mem_head? h)).2 rfl

end Calm

section Denotes

variable {text a : List Char} {texts args : List (List Char)} {safe : Char → Bool}

/-- Read between two words, the text is one word, and that says `a` on every host. -/
def Denotes (text a : List Char) : Prop :=
  ∃ w : Word, w.fixed? noBraces = some a ∧ ∀ out, ∃ s, (between out).run text = some s ∧
    s.step ' ' = some (between (out ++ [.word w])) ∧ s.finish = some (out ++ [.word w])

theorem denotes_plain (h : IsInert a) (hfixed : Word.fixed? noBraces (a.map .bare) = some a) :
    Denotes a a := by
  refine ⟨a.map .bare, hfixed, fun out => ?_⟩
  obtain ⟨b, s, hs, hreads⟩ := h.run out
  exact ⟨s, hs, hreads.step_blank rfl, hreads.finish⟩

theorem denotes_quoteWith (hsafe : SafeClass safe) (v : List Char) :
    Denotes (quoteWith safe v) v :=
  ⟨quoteMarks safe v, fixed?_quoteMarks hsafe v,
    fun _ => ⟨_, run_quoteWith hsafe v (.inl rfl), rfl, rfl⟩⟩

theorem Denotes.unique {b : List Char} (h : Denotes text a) (h' : Denotes text b) : a = b := by
  obtain ⟨w, hw, hrun⟩ := h
  obtain ⟨w', hw', hrun'⟩ := h'
  obtain ⟨s, hs, -, hfinish⟩ := hrun []
  obtain ⟨s', hs', -, hfinish'⟩ := hrun' []
  obtain rfl := Option.some.inj (hs.symm.trans hs')
  obtain rfl : w = w' := by simpa using hfinish.symm.trans hfinish'
  exact Option.some.inj (hw.symm.trans hw')

theorem run_denotes (h : List.Forall₂ Denotes texts args) (hne : texts ≠ []) :
    ∃ ws : List Word, List.Forall₂ (fun (w : Word) a => w.fixed? noBraces = some a) ws args ∧
      ∀ out, ((between out).run (spaced texts)).bind State.finish = some (out ++ ws.map .word) := by
  induction h with
  | nil => exact absurd rfl hne
  | @cons text a texts args hd hrest ih =>
    obtain ⟨w, hw, hrun⟩ := hd
    cases hrest with
    | nil =>
      refine ⟨[w], .cons hw .nil, fun out => ?_⟩
      obtain ⟨s, hs, -, hfinish⟩ := hrun out
      rw [spaced_singleton, hs]
      exact hfinish
    | cons hd' hrest =>
      obtain ⟨ws, hws, hall⟩ := ih (by simp)
      refine ⟨w :: ws, .cons hw hws, fun out => ?_⟩
      obtain ⟨s, hs, hstep, -⟩ := hrun out
      rw [spaced_cons_cons, State.run_append, hs, Option.bind_some, State.run, hstep,
        Option.bind_some, hall]
      simp

/-- A line of words, plain or quoted, is one simple command with what the words say. -/
theorem argv_denotes (h : List.Forall₂ Denotes texts args) (hne : texts ≠ []) :
    argv noBraces (spaced texts) = some args := by
  obtain ⟨ws, hws, hrun⟩ := run_denotes h hne
  have htokens : tokens (spaced texts) = some (ws.map .word) := hrun []
  rw [argv, htokens, Option.bind_some, mapM_eq_some, List.forall₂_map_left_iff]
  exact hws

/-- Words that need no quotes. -/
theorem denotes_words {words : List (List Char)}
    (h : ∀ a ∈ words, IsInert a ∧ Word.fixed? noBraces (a.map .bare) = some a) :
    List.Forall₂ Denotes words words :=
  List.forall₂_same.mpr fun a ha => denotes_plain (h a ha).1 (h a ha).2

theorem spaced_cons (a : List Char) (more : List (List Char)) :
    spaced (a :: more) = a ++ more.flatMap (' ' :: ·) := by
  induction more generalizing a with
  | nil => simp [spaced_singleton]
  | cons b more ih =>
    rw [spaced_cons_cons, ih b, List.flatMap_cons]
    rfl

theorem spaced_append {words : List (List Char)} (hne : words ≠ []) (more : List (List Char)) :
    spaced (words ++ more) = spaced words ++ more.flatMap (' ' :: ·) := by
  obtain ⟨a, words, rfl⟩ := List.exists_cons_of_ne_nil hne
  rw [List.cons_append, spaced_cons, spaced_cons, List.flatMap_append, List.append_assoc]

end Denotes

section Spells

variable {text text' a a' : List Char} {safe : Char → Bool}

/-- A part of a word that says `a`, behind other parts of the word or at its start. -/
def Spells (text a : List Char) : Prop :=
  ∃ w : Word, (∀ m ∈ w, m.isCalm = true ∧ m ≠ .bare '~') ∧ w.text? = some a ∧
    ∀ s : State, s.atWord → s.run text = some (s.extend w)

theorem spells_quoteWith (hsafe : SafeClass safe) (v : List Char) : Spells (quoteWith safe v) v :=
  ⟨quoteMarks safe v, quoteMarks_calm hsafe v, text?_quoteMarks safe v,
    fun _ hs => run_quoteWith hsafe v hs⟩

theorem spells_plain (hsafe : SafeClass safe) (ha : a.all safe = true) (hne : a ≠ []) :
    Spells a a := by
  have hspells := spells_quoteWith hsafe a
  rwa [quoteWith, if_neg hne, if_pos ha] at hspells

theorem Spells.append (h : Spells text a) (h' : Spells text' a') :
    Spells (text ++ text') (a ++ a') := by
  obtain ⟨w, hcalm, htext, hrun⟩ := h
  obtain ⟨w', hcalm', htext', hrun'⟩ := h'
  refine ⟨w ++ w', fun m hm => ?_, ?_, fun s hs => ?_⟩
  · exact (List.mem_append.mp hm).elim (hcalm m) (hcalm' m)
  · rw [Word.text?, mapM_eq_some] at htext htext' ⊢
    exact List.rel_append htext htext'
  · rw [State.run_append, hrun s hs, Option.bind_some, hrun' _ (State.extend_atWord ..),
      State.extend_extend]

theorem Spells.denotes (h : Spells text a) : Denotes text a := by
  obtain ⟨w, hcalm, htext, hrun⟩ := h
  refine ⟨w, ?_, fun out => ⟨_, hrun _ (.inl rfl), rfl, rfl⟩⟩
  rw [fixed?_of_calm (fun m hm => (hcalm m hm).1), htext]
  exact fun hm => (hcalm _ (List.mem_of_mem_head? hm)).2 rfl

end Spells

end Hbird.Shell
