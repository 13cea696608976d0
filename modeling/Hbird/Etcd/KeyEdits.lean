import Hbird.Etcd.BlockScan

namespace Hbird.Etcd

open Hbird.Text

/-- The lines of a text byte for byte: only the line feeds between them are taken away. -/
def rawLines (text : String) : List String :=
  (splitTerminator '\n' text.toList).map String.ofList

section RawLines

variable {text : String} {ls : List String}

theorem splitLines_eq_splitTerminator {cs : List Char} (h : '\r' ∉ cs) :
    splitLines cs = splitTerminator '\n' cs := by
  induction cs with
  | nil => rfl
  | cons c cs ih =>
    obtain ⟨hc, hcs⟩ := not_or.mp (List.mem_cons.not.mp h)
    by_cases hn : c = '\n'
    · rw [hn, splitLines, splitTerminator, if_pos rfl, ih hcs]
    · rw [splitTerminator, if_neg hn, ← ih hcs]
      exact splitLines.eq_4 c cs hn fun _ hr _ => hc hr.symm

theorem rawLines_eq_lines (h : '\r' ∉ text.toList) : rawLines text = lines text := by
  rw [rawLines, lines, splitLines_eq_splitTerminator h]

theorem mem_of_mem_splitTerminator {c x : Char} {cs l : List Char} (hl : l ∈ splitTerminator c cs)
    (hx : x ∈ l) : x ∈ cs := by
  induction cs generalizing l with
  | nil => cases hl
  | cons y cs ih =>
    rw [splitTerminator] at hl
    by_cases hy : y = c
    · rw [if_pos hy] at hl
      obtain rfl | hl := List.mem_cons.mp hl
      · cases hx
      · exact List.mem_cons_of_mem _ (ih hl hx)
    · rw [if_neg hy] at hl
      cases hrest : splitTerminator c cs with
      | nil =>
        rw [hrest, List.mem_singleton] at hl
        rw [hl, List.mem_singleton] at hx
        rw [hx]
        exact List.mem_cons_self
      | cons l' ls =>
        rw [hrest] at hl ih
        obtain rfl | hl := List.mem_cons.mp hl
        · obtain rfl | hx := List.mem_cons.mp hx
          · exact List.mem_cons_self
          · exact List.mem_cons_of_mem _ (ih List.mem_cons_self hx)
        · exact List.mem_cons_of_mem _ (ih (List.mem_cons_of_mem _ hl) hx)

/-- No character but the line feeds is lost between the raw lines. -/
theorem exists_rawLine {c : Char} (hc : c ≠ '\n') (h : c ∈ text.toList) :
    ∃ l ∈ rawLines text, c ∈ l.toList := by
  have hpieces : ∀ cs : List Char, c ∈ cs → ∃ l ∈ splitTerminator '\n' cs, c ∈ l := by
    intro cs
    induction cs with
    | nil => simp
    | cons y cs ih =>
      intro hmem
      rw [splitTerminator]
      by_cases hy : y = '\n'
      · rw [if_pos hy]
        obtain rfl | hmem := List.mem_cons.mp hmem
        · exact absurd hy hc
        · obtain ⟨l, hl, hcl⟩ := ih hmem
          exact ⟨l, List.mem_cons_of_mem _ hl, hcl⟩
      · rw [if_neg hy]
        cases hrest : splitTerminator '\n' cs with
        | nil =>
          obtain rfl := splitTerminator_eq_nil.mp hrest
          exact ⟨[y], List.mem_singleton_self _, hmem⟩
        | cons l' ls =>
          obtain rfl | hmem := List.mem_cons.mp hmem
          · exact ⟨_, List.mem_cons_self, List.mem_cons_self⟩
          · obtain ⟨l, hl, hcl⟩ := ih hmem
            rw [hrest] at hl
            obtain rfl | hl := List.mem_cons.mp hl
            · exact ⟨_, List.mem_cons_self, List.mem_cons_of_mem _ hcl⟩
            · exact ⟨l, List.mem_cons_of_mem _ hl, hcl⟩
  obtain ⟨l, hl, hcl⟩ := hpieces _ h
  exact ⟨String.ofList l, List.mem_map_of_mem hl, by rwa [String.toList_ofList]⟩

theorem not_mem_joined {c : Char} (hc : c ≠ '\n') (h : ∀ l ∈ ls, c ∉ l.toList) :
    c ∉ (joined ls text).toList := by
  have hbreak : c ∉ "\n".toList := by
    rw [show "\n".toList = ['\n'] from String.toList_ofList]
    simpa using hc
  have hlines : c ∉ ("\n".intercalate ls).toList := by
    induction ls with
    | nil => simp
    | cons l ls ih =>
      obtain ⟨hl, hls⟩ := List.forall_mem_cons.mp h
      cases ls with
      | nil => rwa [String.intercalate_singleton]
      | cons l' ls =>
        rw [String.intercalate_cons_cons, String.toList_append, String.toList_append]
        intro hmem
        obtain hmem | hmem := List.mem_append.mp hmem
        · obtain hmem | hmem := List.mem_append.mp hmem
          · exact hl hmem
          · exact hbreak hmem
        · exact ih hls hmem
  rw [joined, String.toList_append]
  intro hmem
  obtain hmem | hmem := List.mem_append.mp hmem
  · exact hlines hmem
  · split_ifs at hmem
    · exact hbreak hmem
    · simp at hmem

/-- Lines that end as those of the original are read back. -/
theorem lines_joined_eq (h : ∀ l ∈ ls, OneLine l) (hne : ls ≠ [])
    (hlast : ls.getLast? = (lines text).getLast? ∨ ls.getLast? ≠ some "") :
    lines (joined ls text) = ls := by
  obtain hl | ⟨hnot, ls', rfl, -⟩ := Reader.lines_joined text h hne
  · exact hl
  · obtain hlast | hlast := hlast
    · refine absurd ?_ hnot
      rw [← hlast, List.getLast?_concat]
    · exact absurd List.getLast?_concat hlast

end RawLines

section NewEntry

variable {column : Nat} {name secret : String}

def nameLine (column : Nat) (name : String) : String := pad column ++ ("- name: " ++ name)

def secretLine (column : Nat) (secret : String) : String :=
  pad (column + 2) ++ ("secret: " ++ secret)

theorem keyEntry_eq : keyEntry column name secret = [nameLine column name, secretLine column secret] :=
  Reader.keyEntry_eq

theorem length_keyEntry : (keyEntry column name secret).length = 2 := rfl

theorem indentOf_nameLine : indentOf (nameLine column name) = column :=
  Layout.indentOf_pad (Reader.toList_name name) (by decide)

theorem indentOf_secretLine : indentOf (secretLine column secret) = column + 2 :=
  Layout.indentOf_pad (Reader.toList_secret secret) (by decide)

theorem isEntry_nameLine : isEntry (nameLine column name) = true := by
  rw [isEntry, nameLine, Layout.trimStart_pad (Reader.toList_name name) (by decide), startsWith_iff,
    Reader.toList_name]
  exact ⟨_, rfl⟩

theorem isEntry_secretLine : isEntry (secretLine column secret) = false := by
  rw [isEntry, secretLine, Layout.trimStart_pad (Reader.toList_secret secret) (by decide),
    ← Bool.not_eq_true, startsWith_iff, Reader.toList_secret]
  rintro ⟨w, hw⟩
  simp at hw

theorem isContent_secretLine : isContent (secretLine column secret) = true := by
  refine isContent_of_startsWith (p := "s") ?_ 's' [] rfl (by decide) (by decide)
  rw [secretLine, Layout.trimStart_pad (Reader.toList_secret secret) (by decide), startsWith_iff,
    Reader.toList_secret]
  exact ⟨_, rfl⟩

theorem content_keyEntry : content (keyEntry column name secret) = keyEntry column name secret := by
  rw [keyEntry_eq, content_cons (isContent_of_isEntry isEntry_nameLine),
    content_cons isContent_secretLine]
  rfl

theorem oneLine_pad_append {n : Nat} {s : String} (h : OneLine s) : OneLine (pad n ++ s) := by
  have hpad : ∀ c ∈ (pad n).toList, c = ' ' := by
    intro c hc
    rw [pad, String.toList_ofList] at hc
    exact List.eq_of_mem_replicate hc
  constructor <;> rw [String.toList_append] <;> intro hmem <;>
    obtain hmem | hmem := List.mem_append.mp hmem
  · exact absurd (hpad _ hmem) (by decide)
  · exact h.1 hmem
  · exact absurd (hpad _ hmem) (by decide)
  · exact h.2 hmem

theorem oneLine_keyEntry (hn : OneLine name) (hs : OneLine secret) :
    ∀ l ∈ keyEntry column name secret, OneLine l := by
  have hname : OneLine ("- name: " ++ name) := by
    constructor <;> rw [Reader.toList_name]
    · simpa using hn.1
    · simpa using hn.2
  have hsecret : OneLine ("secret: " ++ secret) := by
    constructor <;> rw [Reader.toList_secret]
    · simpa using hs.1
    · simpa using hs.2
  intro l hl
  rw [keyEntry_eq] at hl
  simp only [List.mem_cons, List.not_mem_nil, or_false] at hl
  obtain rfl | rfl := hl
  · exact oneLine_pad_append hname
  · exact oneLine_pad_append hsecret

end NewEntry

namespace Found

variable {k column : Nat} {text name secret final : String} {l : String} {ls P u v : List String}

theorem stops_of_right {x : String} (h : k < indentOf x) : stops k x = false := by
  rw [stops, decide_eq_false (Nat.not_le.mpr h), Bool.and_false]

/-- The new entry is the first one, and the lines of the old one follow. -/
theorem inserted (h : Found ls P k u l v) :
    Found (P ++ (u ++ (keyEntry (indentOf l) name secret ++ l :: v))) P k u
      (nameLine (indentOf l) name) (secretLine (indentOf l) secret :: l :: v) where
  split := by rw [keyEntry_eq]; rfl
  located := h.located
  passed := h.passed
  entry := isEntry_nameLine
  right := by
    rw [indentOf_nameLine]
    exact h.right

/-- After the insertion everything from the old entry to the end of the block is dropped. -/
theorem drop_inserted (h : Found ls P k u l v)
    (hls : lines final = P ++ (u ++ (keyEntry (indentOf l) name secret ++ l :: v))) :
    dropNonPrimaryKeys final =
      .ok (joined (P ++ (u ++ (keyEntry (indentOf l) name secret ++ outside k v))) final) := by
  have hnew : Found (lines final) P k u (nameLine (indentOf l) name)
      (secretLine (indentOf l) secret :: l :: v) := hls ▸ h.inserted
  have hright : k < indentOf (secretLine (indentOf l) secret) := by
    rw [indentOf_secretLine]
    exact Nat.lt_add_right 2 h.right
  have hpass : ∀ x ∈ [secretLine (indentOf l) secret], Passes k (some (indentOf l)) x := by
    intro x hx
    obtain rfl := List.mem_singleton.mp hx
    refine .inr ⟨hright, fun he => ?_⟩
    rw [isEntry_secretLine] at he
    exact Bool.false_ne_true he.1
  have hothers : (others P k u (nameLine (indentOf l) name)
      (secretLine (indentOf l) secret :: l :: v)).head? = some (P.length + u.length + 2) := by
    rw [others, indentOf_nameLine, ← List.singleton_append, findEntries_passes hpass,
      findEntries_entry h.entry h.right (.inr rfl) rfl]
    rfl
  have htake : (lines final).take (P.length + u.length + 2) =
      P ++ (u ++ keyEntry (indentOf l) name secret) := by
    have hlength : P.length + u.length + 2 =
        (P ++ (u ++ keyEntry (indentOf l) name secret)).length := by
      rw [List.length_append, List.length_append, keyEntry_eq]
      exact Nat.add_assoc ..
    have hsplit : lines final = (P ++ (u ++ keyEntry (indentOf l) name secret)) ++ l :: v := by
      rw [hls, List.append_assoc, List.append_assoc]
    rw [hsplit, hlength, List.take_left]
  have houtside : outside k (secretLine (indentOf l) secret :: l :: v) = outside k v := by
    rw [outside, List.dropWhile_cons_of_pos (by rw [stops_of_right hright]; rfl),
      List.dropWhile_cons_of_pos (by rw [stops_of_right h.right]; rfl)]
    rfl
  rw [hnew.drop, hothers, houtside, Option.elim_some, htake, List.append_assoc, List.append_assoc]

theorem inside_append_outside (k : Nat) (v : List String) : inside k v ++ outside k v = v :=
  List.takeWhile_append_dropWhile

/-- What a drop leaves when there is a second entry: the lines up to it, and those behind the
block. -/
theorem drop_second (h : Found (lines text) P k u l v) (ho : others P k u l v ≠ []) :
    ∃ g, (∀ x ∈ g, Passes k (some (indentOf l)) x) ∧ g ⊆ v ∧
      dropNonPrimaryKeys text = .ok (joined (P ++ (u ++ l :: (g ++ outside k v))) text) := by
  obtain ⟨second, fs, ho⟩ := List.exists_cons_of_ne_nil ho
  obtain ⟨g, l', v', ht⟩ := takes_of_findEntries (Prod.ext rfl (Prod.ext ho rfl))
  have htake : (lines text).take second = P ++ (u ++ l :: g) := by
    have hlength : second = (P ++ (u ++ l :: g)).length := by
      rw [ht.index, List.length_append, List.length_append, List.length_cons]
      omega
    have hsplit : lines text = (P ++ (u ++ l :: g)) ++ l' :: v' := by
      rw [h.split, ht.split, List.append_assoc, List.append_assoc, List.cons_append]
    rw [hsplit, hlength, List.take_left]
  refine ⟨g, ht.passed, ?_, ?_⟩
  · rw [ht.split]
    exact List.subset_append_left _ _
  · rw [h.drop, ho, List.head?_cons, Option.elim_some, htake, List.append_assoc, List.append_assoc,
      List.cons_append]

/-- With one entry left, nothing more is dropped. -/
theorem drop_left {g : List String} (h : Found ls P k u l v)
    (hg : ∀ x ∈ g, Passes k (some (indentOf l)) x)
    (hlines : lines final = P ++ (u ++ l :: (g ++ outside k v))) :
    dropNonPrimaryKeys final = .ok final := by
  have hfound : Found (lines final) P k u l (g ++ outside k v) :=
    ⟨hlines, h.located, h.passed, h.entry, h.right⟩
  exact hfound.drop_single (others_eq_nil hg stops_outside)

/-- Behind the block a text ends as it did. -/
theorem getLast?_outside {w : List String} (h : outside k v ≠ []) :
    (w ++ outside k v).getLast? = v.getLast? := by
  rw [List.getLast?_append_of_ne_nil _ h]
  calc (outside k v).getLast?
      = (inside k v ++ outside k v).getLast? := (List.getLast?_append_of_ne_nil _ h).symm
    _ = v.getLast? := by rw [inside_append_outside]

theorem getLast?_split (h : Found ls P k u l v) (hne : v ≠ []) : ls.getLast? = v.getLast? := by
  have hsplit : ls = (P ++ (u ++ [l])) ++ v := by
    rw [h.split, List.append_assoc, List.append_assoc, List.singleton_append]
  rw [hsplit, List.getLast?_append_of_ne_nil _ hne]

theorem oneLine_inserted (h : Found ls P k u l v) (hone : ∀ x ∈ ls, OneLine x) (hn : OneLine name)
    (hs : OneLine secret) :
    ∀ x ∈ P ++ (u ++ (keyEntry (indentOf l) name secret ++ l :: v)), OneLine x := by
  intro x hx
  rw [h.split] at hone
  obtain hx | hx := List.mem_append.mp hx
  · exact hone x (List.mem_append_left _ hx)
  obtain hx | hx := List.mem_append.mp hx
  · exact hone x (List.mem_append_right _ (List.mem_append_left _ hx))
  obtain hx | hx := List.mem_append.mp hx
  · exact oneLine_keyEntry hn hs x hx
  · exact hone x (List.mem_append_right _ (List.mem_append_right _ hx))

theorem oneLine_dropped (hone : ∀ x ∈ P ++ (u ++ (keyEntry column name secret ++ l :: v)), OneLine x) :
    ∀ x ∈ P ++ (u ++ (keyEntry column name secret ++ outside k v)), OneLine x := by
  have hbehind : outside k v ⊆ v := (List.dropWhile_suffix _).subset
  intro x hx
  refine hone x ?_
  simp only [List.mem_append] at hx ⊢
  exact hx.imp_right (Or.imp_right (Or.imp_right fun hx => List.mem_cons_of_mem _ (hbehind hx)))

/-- The insertion leaves the last line as it is. -/
theorem lines_inserted (h : Found (lines text) P k u l v)
    (hone : ∀ x ∈ P ++ (u ++ (keyEntry (indentOf l) name secret ++ l :: v)), OneLine x) :
    lines (joined (P ++ (u ++ (keyEntry (indentOf l) name secret ++ l :: v))) text) =
      P ++ (u ++ (keyEntry (indentOf l) name secret ++ l :: v)) := by
  refine lines_joined_eq hone (by simp) (.inl ?_)
  rw [h.split]
  simp only [← List.append_assoc]
  rw [List.getLast?_append_of_ne_nil _ (by simp), List.getLast?_append_of_ne_nil _ (by simp)]

/-- After the drop the text ends as before, or with the new secret. -/
theorem lines_dropped (hone : ∀ x ∈ P ++ (u ++ (keyEntry column name secret ++ outside k v)), OneLine x)
    (htext : lines text = P ++ (u ++ (keyEntry column name secret ++ l :: v))) :
    lines (joined (P ++ (u ++ (keyEntry column name secret ++ outside k v))) text) =
      P ++ (u ++ (keyEntry column name secret ++ outside k v)) := by
  refine lines_joined_eq hone (by simp [keyEntry]) ?_
  by_cases hnil : outside k v = []
  · refine .inr ?_
    rw [hnil, keyEntry_eq, List.append_nil, ← List.append_assoc,
      List.getLast?_append_of_ne_nil _ (by simp)]
    intro hlast
    have hsecret : secretLine column secret = "" := Option.some.inj hlast
    have hindent : indentOf (secretLine column secret) = 0 := by rw [hsecret]; rfl
    rw [indentOf_secretLine] at hindent
    omega
  · refine .inl ?_
    have hv : v ≠ [] := by
      rintro rfl
      exact hnil rfl
    rw [htext]
    simp only [← List.append_assoc]
    rw [getLast?_outside hnil, List.append_cons, List.getLast?_append_of_ne_nil _ hv]

end Found

/-- A second drop finds one key only. -/
theorem dropNonPrimaryKeys_idem {text final : String} (hone : ∀ l ∈ lines text, OneLine l)
    (h : dropNonPrimaryKeys text = .ok final) : dropNonPrimaryKeys final = .ok final := by
  obtain ⟨b, hb⟩ : ∃ b, findAesgcmKeysBlock (lines text) = .ok b := by
    rw [dropNonPrimaryKeys] at h
    cases hfind : findAesgcmKeysBlock (lines text) with
    | ok b => exact ⟨b, rfl⟩
    | error e =>
      rw [hfind] at h
      cases h
  obtain ⟨P, k, u, l, v, hf⟩ := found_of_find hb
  by_cases hothers : Found.others P k u l v = []
  · rw [hf.drop_single hothers] at h
    cases h
    exact hf.drop_single hothers
  obtain ⟨g, hg, hgv, hdrop⟩ := hf.drop_second hothers
  rw [h] at hdrop
  have hfinal := Except.ok.inj hdrop
  have hsub : ∀ x ∈ P ++ (u ++ l :: (g ++ Found.outside k v)), OneLine x := by
    intro x hx
    refine hone x ?_
    have houtside : Found.outside k v ⊆ v := (List.dropWhile_suffix _).subset
    have hkept : g ++ Found.outside k v ⊆ v := List.append_subset.mpr ⟨hgv, houtside⟩
    rw [hf.split]
    obtain hx | hx := List.mem_append.mp hx
    · exact List.mem_append_left _ hx
    obtain hx | hx := List.mem_append.mp hx
    · exact List.mem_append_right _ (List.mem_append_left _ hx)
    · exact List.mem_append_right _ (List.mem_append_right _ (List.cons_subset_cons _ hkept hx))
  obtain hl | ⟨hlast, ls', hls, hl⟩ := Reader.lines_joined text hsub (by simp)
  · exact hf.drop_left hg (hfinal ▸ hl)
  -- The text ended with the dropped entries, and a blank line stood before them.
  have hempty : Found.outside k v = [] := by
    by_contra hne
    have hv : v ≠ [] := by
      rintro rfl
      exact hne rfl
    have hkept : P ++ (u ++ l :: (g ++ Found.outside k v)) =
        (P ++ (u ++ l :: g)) ++ Found.outside k v := by
      rw [List.append_assoc, List.append_assoc, List.cons_append]
    refine hlast ?_
    rw [hf.getLast?_split hv, ← Found.getLast?_outside hne, ← hkept, hls, List.getLast?_concat]
  obtain hnil | ⟨g', x, hx⟩ := List.eq_nil_or_concat g
  · have hl' : l = "" := by
      rw [hempty, hnil] at hls
      have hlist : (P ++ u) ++ [l] = ls' ++ [""] := by simpa using hls
      exact (List.append_singleton_inj.mp hlist).2
    have hentry := hf.entry
    rw [hl'] at hentry
    exact absurd hentry (by decide)
  · rw [List.concat_eq_append] at hx
    have hlist : (P ++ (u ++ l :: g')) ++ [x] = ls' ++ [""] := by
      rw [hempty, hx] at hls
      simpa using hls
    refine hf.drop_left (g := g') (fun y hy => hg y (hx ▸ List.mem_append_left _ hy)) ?_
    rw [hfinal, hl, ← (List.append_singleton_inj.mp hlist).1, hempty, List.append_nil]

end Hbird.Etcd
