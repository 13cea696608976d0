import Hbird.Cuts
import Hbird.Etcd.KeyEdits
import Hbird.Etcd.PairReader

namespace Hbird.Etcd

open Hbird.Text

variable {Y : Source} {entry : List String → String × String} {text name secret dual final : String}

/-- What an insertion and a drop after it are to do to a document with a list of keys. -/
structure Edits (entry : List String → String × String) (Y : Source)
    (text name secret dual final : String) : Prop where
  inserted : insertPrimaryKey text name secret = .ok dual
  keys : keyList entry (lines dual) = (keyList entry (lines text)).map ((name, secret) :: ·)
  kept : (rawLines text).Sublist (rawLines dual)
  dropped : dropNonPrimaryKeys dual = .ok final
  key : keyList entry (lines final) = some [(name, secret)]
  around : ∃ column comments, content comments = [] ∧
    rawLines final = Y.head ++ (keyEntry column name secret ++ (comments ++ Y.tail))
  again : dropNonPrimaryKeys final = .ok final
  idempotent : ∀ other, dropNonPrimaryKeys text = .ok other → dropNonPrimaryKeys other = .ok other

/-- The first key begins with a dash and a blank, no line of the list follows a comment at or left
of `keys:`, and lines end in a line feed alone. -/
structure Clear (Y : Source) (text : String) : Prop where
  entry : ∀ item ∈ Y.items.head?, ∀ l ∈ item.head?, isEntry l = true
  block : content (Y.items.flatten.dropWhile fun l => !stops (indentOf Y.keysLine) l) = []
  feeds : '\r' ∉ text.toList

namespace Source

variable {b : KeysBlock} {k : Nat} {l : String} {u v : List String} {items : List (List String)}

def opening (Y : Source) : List String := Y.before ++ Y.aesLine :: (Y.mid ++ [Y.keysLine])

def withItems (Y : Source) (items : List (List String)) : Source := { Y with items := items }

theorem head_eq : Y.head = Y.opening ++ Y.gap := by simp [head, opening]

theorem lines_eq : Y.lines = Y.opening ++ (Y.gap ++ (Y.items.flatten ++ Y.tail)) := by
  rw [lines, head_eq, List.append_assoc]

theorem trim_ne_of_isContent {line : String} (h : isContent line = false) : trim line ≠ "keys:" :=
  fun hk => Bool.false_ne_true (h.symm.trans (isContent_of_keys hk))

/-- The code finds the list where it is. -/
theorem Valid.found (h : Y.Valid) (hb : findAesgcmKeysBlock Y.lines = .ok b) :
    ∃ u l v, Found Y.lines Y.opening (indentOf Y.keysLine) (Y.gap ++ u) l v ∧
      u ++ l :: v = Y.items.flatten ++ Y.tail := by
  obtain ⟨P, k, u, l, v, hf⟩ := found_of_find hb
  obtain ⟨before, aes, mid, keys, rfl, ho⟩ := hf.located
  have hsplit := hf.split
  rw [lines_eq, opening, List.append_assoc, List.append_assoc, List.cons_append, List.cons_append,
    List.append_assoc, List.append_assoc, List.singleton_append, List.singleton_append] at hsplit
  obtain ⟨hbefore, haes, hrest⟩ := Cuts.first_unique (p := fun l => isAesgcm l = true)
    (fun l hl => by simp [h.first l hl]) h.provider (fun l hl => by simp [ho.first l hl]) ho.provider
    hsplit
  have hmid : ∀ l ∈ Y.mid, ¬ trim l = "keys:" := by
    intro l hl
    cases hc : isContent l with
    | true => exact (h.inside l hl hc).2
    | false => exact trim_ne_of_isContent hc
  have hmid' : ∀ l ∈ mid, ¬ trim l = "keys:" := by
    intro l hl hk
    obtain hblank | ⟨-, hne⟩ := ho.inside l hl
    · rw [isBlank_of_keys hk] at hblank
      cases hblank
    · exact hne hk
  obtain ⟨hmids, hkeys, hseq⟩ := Cuts.first_unique (p := fun l => trim l = "keys:") hmid h.keyword
    hmid' ho.keyword hrest
  have hopening : before ++ aes :: (mid ++ [keys]) = Y.opening := by
    rw [opening, hbefore, haes, hmids, hkeys]
  have hentry : l ∉ Y.gap := by
    intro hl
    have hc := h.gap l hl
    rw [isContent_of_isEntry hf.entry] at hc
    cases hc
  have hk : k = indentOf Y.keysLine := by rw [hkeys, ho.column]
  rw [hopening, hk] at hf
  obtain ⟨u', rfl, hu⟩ | ⟨c, hc, hu⟩ := List.append_eq_append_iff.mp hseq
  · exact ⟨u', l, v, hf, hu.symm⟩
  · cases c with
    | nil =>
      rw [List.append_nil] at hc
      refine ⟨[], l, v, ?_, hu⟩
      rw [List.append_nil, hc]
      exact hf
    | cons x c =>
      obtain ⟨rfl, -⟩ := List.cons.inj hu
      exact absurd (hc ▸ List.mem_append_right _ List.mem_cons_self) hentry

theorem Valid.dropWhile_tail (h : Y.Valid) :
    Y.tail.dropWhile (fun x => !stops (indentOf Y.keysLine) x) = Y.tail := by
  cases ht : Y.tail with
  | nil => rfl
  | cons x xs =>
    obtain ⟨hc, hle, -⟩ := h.tail x (by rw [ht]; rfl)
    have hstop : stops (indentOf Y.keysLine) x = true := by
      rw [stops, isBlank_of_isContent hc, decide_eq_true hle]
      rfl
    exact List.dropWhile_cons_of_neg (by simp [hstop])

/-- Of the list, only what follows a line that stops the scan is behind the block. -/
theorem Valid.outside (h : Y.Valid) (hf : Found Y.lines Y.opening k (Y.gap ++ u) l v)
    (hk : k = indentOf Y.keysLine) (hseq : u ++ l :: v = Y.items.flatten ++ Y.tail) :
    Found.outside k v = (Y.items.flatten.dropWhile fun x => !stops k x) ++ Y.tail := by
  have hpass : ∀ x ∈ u, (!stops k x) = true := by
    intro x hx
    obtain hb | ⟨hright, -⟩ := hf.passed x (List.mem_append_right _ hx)
    · simp [stops, hb]
    · rw [Found.stops_of_right hright]
      rfl
  have hwhole : (u ++ l :: v).dropWhile (fun x => !stops k x) = Found.outside k v := by
    rw [List.dropWhile_append_of_pos hpass,
      List.dropWhile_cons_of_pos (by rw [Found.stops_of_right hf.right]; rfl)]
    rfl
  rw [← hwhole, hseq, List.dropWhile_append]
  split_ifs with hempty
  · rw [List.isEmpty_iff.mp hempty, List.nil_append, hk, h.dropWhile_tail]
  · rfl

theorem Valid.withItems (h : Y.Valid) (hne : items ≠ []) (hi : ∀ item ∈ items, IsItem Y.column item)
    (ho : ∀ x ∈ items.flatten, OneLine x) : (Y.withItems items).Valid where
  first := h.first
  provider := h.provider
  inside := h.inside
  under := h.under
  keyword := h.keyword
  gap := h.gap
  entries := hne
  items := hi
  columns := h.columns
  tail := h.tail
  oneLine := by
    intro x hx
    obtain hx | hx := List.mem_append.mp hx
    · exact h.oneLine x (List.mem_append_left _ hx)
    obtain hx | hx := List.mem_append.mp hx
    · exact ho x hx
    · exact h.oneLine x (List.mem_append_right _ (List.mem_append_right _ hx))

theorem Valid.oneLine_items (h : Y.Valid) : ∀ x ∈ Y.items.flatten, OneLine x := fun x hx =>
  h.oneLine x (List.mem_append_right _ (List.mem_append_left _ hx))

/-- The new entry, with comments behind it. -/
theorem isItem_keyEntry {column : Nat} {comments : List String} (hc : content comments = []) :
    IsItem column (keyEntry column name secret ++ comments) := by
  refine ⟨nameLine column name, secretLine column secret :: comments, by rw [keyEntry_eq]; rfl,
    ?_, indentOf_nameLine, ?_⟩
  · have hentry : isEntry (nameLine column name) = true := isEntry_nameLine
    rw [isEntry] at hentry
    rw [isDash, hentry, Bool.or_true, Bool.true_or]
  · intro x hx hcx
    obtain rfl | hx := List.mem_cons.mp hx
    · rw [indentOf_secretLine]
      omega
    · rw [content_eq_nil.mp hc x hx] at hcx
      cases hcx

theorem isItem_newEntry {column : Nat} : IsItem column (keyEntry column name secret) := by
  have hitem : IsItem column (keyEntry column name secret ++ []) := isItem_keyEntry rfl
  rwa [List.append_nil] at hitem

end Source

/-- The two edits of a document in which the list has been found: `before` and `rest` are the lines
around the first entry that the code sees, `after` what it keeps behind the block. -/
structure Edited (Y : Source) (text name secret dual final : String) (before : List String)
    (first : String) (rest after : List String) : Prop where
  inserted : insertPrimaryKey text name secret = .ok dual
  dropped : dropNonPrimaryKeys dual = .ok final
  list : before ++ first :: rest = Y.items.flatten ++ Y.tail
  passed : ∀ x ∈ before, Passes (indentOf Y.keysLine) none x
  entry : isEntry first = true
  dualLines : lines dual =
    Y.head ++ (before ++ (keyEntry (indentOf first) name secret ++ first :: rest))
  finalLines : lines final =
    Y.head ++ (before ++ (keyEntry (indentOf first) name secret ++ (after ++ Y.tail)))
  oneLine : ∀ x ∈ lines dual, OneLine x
  feeds : '\r' ∉ dual.toList ∧ '\r' ∉ final.toList

theorem edited {b : KeysBlock} (h : Y.Valid) (hlines : lines text = Y.lines)
    (hb : findAesgcmKeysBlock (lines text) = .ok b) (hn : OneLine name) (hs : OneLine secret) :
    ∃ dual final before first rest, Edited Y text name secret dual final before first rest
      (Y.items.flatten.dropWhile fun x => !stops (indentOf Y.keysLine) x) := by
  obtain ⟨u, l, v, hf, hseq⟩ := h.found (hlines ▸ hb)
  have hf' : Found (lines text) Y.opening (indentOf Y.keysLine) (Y.gap ++ u) l v := hlines ▸ hf
  have houtside := h.outside hf rfl hseq
  have hone := hf'.oneLine_inserted (hlines ▸ h.oneLine) hn hs
  have hone' := Found.oneLine_dropped (k := indentOf Y.keysLine) hone
  have hdual := hf'.lines_inserted hone
  have hfinal := Found.lines_dropped hone' hdual
  refine ⟨_, _, u, l, v, hf'.insert, hf'.drop_inserted hdual, hseq,
    fun x hx => hf.passed x (List.mem_append_right _ hx), hf.entry, ?_, ?_, ?_,
    not_mem_joined (by decide) fun x hx => (hone x hx).2,
    not_mem_joined (by decide) fun x hx => (hone' x hx).2⟩
  · rw [hdual, Source.head_eq]
    simp only [List.append_assoc]
  · rw [hfinal, houtside, Source.head_eq]
    simp only [List.append_assoc]
  · rw [hdual]
    exact hone

namespace Edited

variable {first : String} {before rest after : List String}

/-- A first key that begins as the code expects is the first entry. -/
theorem before_eq_nil (hE : Edited Y text name secret dual final before first rest after)
    (h : Y.Valid) (hC : Clear Y text) : before = [] ∧ indentOf first = Y.column := by
  obtain ⟨item, items, hitems⟩ := List.exists_cons_of_ne_nil h.entries
  obtain ⟨d, ds, rfl, hdash, hcolumn, -⟩ := h.items item (by rw [hitems]; exact List.mem_cons_self)
  have hentry : isEntry d = true := hC.entry (d :: ds) (by rw [hitems]; rfl) d rfl
  have hlist := hE.list
  rw [hitems, List.flatten_cons, List.cons_append, List.cons_append] at hlist
  cases hbefore : before with
  | nil =>
    rw [hbefore] at hlist
    obtain ⟨rfl, -⟩ := List.cons.inj hlist
    exact ⟨rfl, hcolumn⟩
  | cons x xs =>
    rw [hbefore] at hlist
    obtain ⟨rfl, -⟩ := List.cons.inj hlist
    obtain hb | ⟨-, hne⟩ := hE.passed x (by rw [hbefore]; exact List.mem_cons_self)
    · rw [isBlank_of_isContent (isContent_of_isDash hdash)] at hb
      cases hb
    · exact absurd ⟨hentry, .inl rfl⟩ hne

theorem edits_of_clear
    (hE : Edited Y text name secret dual final before first rest
      (Y.items.flatten.dropWhile fun x => !stops (indentOf Y.keysLine) x))
    (h : Y.Valid) (hlines : lines text = Y.lines) (hC : Clear Y text) (hn : OneLine name)
    (hs : OneLine secret)
    (hentry : ∀ column, entry (keyEntry column name secret) = (name, secret)) :
    Edits entry Y text name secret dual final := by
  obtain ⟨hbefore, hcolumn⟩ := hE.before_eq_nil h hC
  set comments := Y.items.flatten.dropWhile fun x => !stops (indentOf Y.keysLine) x with hcomments
  have hone : ∀ x ∈ comments, OneLine x := fun x hx =>
    h.oneLine_items x ((List.dropWhile_suffix _).subset hx)
  have hkeys : ∀ x ∈ keyEntry Y.column name secret, OneLine x := oneLine_keyEntry hn hs
  have hlist := hE.list
  rw [hbefore, List.nil_append] at hlist
  have hdual : lines dual = (Y.withItems (keyEntry Y.column name secret :: Y.items)).lines := by
    rw [hE.dualLines, hbefore, hcolumn, List.nil_append, hlist]
    simp only [Source.lines, Source.head, Source.withItems, List.flatten_cons, List.append_assoc]
  have hfinal : lines final =
      (Y.withItems [keyEntry Y.column name secret ++ comments]).lines := by
    rw [hE.finalLines, hbefore, hcolumn, List.nil_append]
    simp only [Source.lines, Source.head, Source.withItems, List.flatten_cons, List.flatten_nil,
      List.append_assoc, List.nil_append]
  have hvalid : (Y.withItems (keyEntry Y.column name secret :: Y.items)).Valid := by
    refine h.withItems (by simp) (List.forall_mem_cons.mpr ⟨?_, h.items⟩) fun x hx => ?_
    · exact Source.isItem_newEntry
    · obtain hx | hx := List.mem_append.mp hx
      · exact hkeys x hx
      · exact h.oneLine_items x hx
  have hvalid' : (Y.withItems [keyEntry Y.column name secret ++ comments]).Valid := by
    refine h.withItems (by simp) (fun item hitem => ?_) fun x hx => ?_
    · rw [List.mem_singleton.mp hitem]
      exact Source.isItem_keyEntry hC.block
    · rw [List.flatten_cons, List.flatten_nil, List.append_nil] at hx
      obtain hx | hx := List.mem_append.mp hx
      · exact hkeys x hx
      · exact hone x hx
  have hcontent : content (keyEntry Y.column name secret ++ comments) =
      keyEntry Y.column name secret := by
    rw [content_append, content_keyEntry, hC.block, List.append_nil]
  refine ⟨hE.inserted, ?_, ?_, hE.dropped, ?_, ⟨Y.column, comments, hC.block, ?_⟩, ?_,
    fun other hother => dropNonPrimaryKeys_idem (hlines ▸ h.oneLine) hother⟩
  · rw [hdual, hlines, h.keyList_lines, hvalid.keyList_lines]
    simp only [Source.withItems, List.map_cons, content_keyEntry, hentry, Option.map_some]
  · rw [rawLines_eq_lines hC.feeds, rawLines_eq_lines hE.feeds.1, hlines, hE.dualLines, hbefore,
      List.nil_append, hlist, Source.lines]
    exact (List.Sublist.refl _).append (List.sublist_append_right _ _)
  · rw [hfinal, hvalid'.keyList_lines]
    simp only [Source.withItems, List.map_cons, List.map_nil, hcontent, hentry]
  · rw [rawLines_eq_lines hE.feeds.2, hE.finalLines, hbefore, hcolumn, List.nil_append]
  · exact dropNonPrimaryKeys_idem hE.oneLine hE.dropped

/-- A line of the list that stays beside the new entry, or a carriage return, is one too many. -/
theorem clear_of_edits {dual' final' : String}
    (hE : Edited Y text name secret dual final before first rest
      (Y.items.flatten.dropWhile fun x => !stops (indentOf Y.keysLine) x))
    (h : Y.Valid) (hX : Edits entry Y text name secret dual' final') : Clear Y text := by
  obtain rfl := Except.ok.inj (hE.inserted.symm.trans hX.inserted)
  obtain rfl := Except.ok.inj (hE.dropped.symm.trans hX.dropped)
  obtain ⟨column, comments, hcomments, hfinal⟩ := hX.around
  rw [rawLines_eq_lines hE.feeds.2, hE.finalLines] at hfinal
  have hlength := congrArg (fun ls => (content ls).length) hfinal
  simp only [content_append, content_keyEntry, hcomments, List.length_append, List.length_nil,
    length_keyEntry] at hlength
  have hbefore : content before = [] := List.eq_nil_of_length_eq_zero (by omega)
  have hafter : content (Y.items.flatten.dropWhile fun x => !stops (indentOf Y.keysLine) x) = [] :=
    List.eq_nil_of_length_eq_zero (by omega)
  refine ⟨fun item hitem d hd => ?_, hafter, fun hreturn => ?_⟩
  · obtain ⟨items, hitems⟩ : ∃ items, Y.items = item :: items := List.head?_eq_some_iff.mp hitem
    obtain ⟨ds, rfl⟩ : ∃ ds, item = d :: ds := List.head?_eq_some_iff.mp hd
    obtain ⟨d', ds', hcons, hdash, -⟩ := h.items _ (by rw [hitems]; exact List.mem_cons_self)
    obtain ⟨rfl, -⟩ := List.cons.inj hcons
    have hlist := hE.list
    rw [hitems, List.flatten_cons, List.cons_append, List.cons_append] at hlist
    cases before with
    | nil =>
      obtain ⟨rfl, -⟩ := List.cons.inj hlist
      exact hE.entry
    | cons x xs =>
      obtain ⟨rfl, -⟩ := List.cons.inj hlist
      rw [content_cons (isContent_of_isDash hdash)] at hbefore
      cases hbefore
  · obtain ⟨l, hl, hmem⟩ := exists_rawLine (by decide) hreturn
    obtain ⟨cs, hcs, rfl⟩ := List.mem_map.mp (hX.kept.subset hl)
    rw [String.toList_ofList] at hmem
    exact hE.feeds.1 (mem_of_mem_splitTerminator hcs hmem)

end Edited

section Samples

/-- The document that a new control plane is given. -/
def initial : Source where
  before := ["apiVersion: apiserver.config.k8s.io/v1", "kind: EncryptionConfiguration",
    "resources:", "  - resources:", "      - secrets", "      - configmaps", "    providers:"]
  aesLine := "      - aesgcm:"
  mid := []
  keysLine := "          keys:"
  gap := []
  items := [keyEntry 12 "bootstrap" "b2xk"]
  column := 12
  tail := ["      - identity: {}"]

/-- The same after a rotation, with a remark at the left margin on the key behind it. -/
def remarked : Source :=
  initial.withItems
    [keyEntry 12 "key-20260621000000" "bmV3" ++ ["# the first key"], keyEntry 12 "bootstrap" "b2xk"]

def textOf (Y : Source) : String := "\n".intercalate Y.lines ++ "\n"

/-- The name and the secret of an entry in two lines. -/
def pairEntry (ls : List String) : String × String :=
  match pairs ls with
  | [key] => (key.name, key.secret)
  | _ => ("", "")

theorem pairEntry_keyEntry (column : Nat) : pairEntry (keyEntry column name secret) =
    (name, secret) := by
  rw [pairEntry, pairs_keyEntry]

theorem lines_textOf (h : Y.Valid) : lines (textOf Y) = Y.lines :=
  (lines_intercalate h.oneLine (by simp [Source.lines, Source.head])).1

theorem initial_valid : initial.Valid where
  first := by decide
  provider := by decide
  inside := by decide
  under := by decide
  keyword := by decide
  gap := by decide
  entries := by decide
  items := by
    intro item hitem
    rw [List.mem_singleton.mp hitem]
    exact Source.isItem_newEntry
  columns := by decide
  tail := by decide
  oneLine := by
    have hplain : ∀ l ∈ initial.lines, PlainLine l := by decide +kernel
    exact fun l hl => Layout.oneLine_of_plainLine (hplain l hl)

theorem remarked_valid : remarked.Valid := by
  refine initial_valid.withItems (by simp) (fun item hitem => ?_) ?_
  · simp only [List.mem_cons, List.not_mem_nil, or_false] at hitem
    obtain rfl | rfl := hitem
    · exact Source.isItem_keyEntry (by decide)
    · exact Source.isItem_newEntry
  · have hplain : ∀ l ∈ remarked.items.flatten, PlainLine l := by decide +kernel
    exact fun l hl => Layout.oneLine_of_plainLine (hplain l hl)

theorem initial_accepted : findAesgcmKeysBlock initial.lines = .ok ⟨8, 12, [9], 11⟩ := by
  decide +kernel

theorem remarked_accepted : findAesgcmKeysBlock remarked.lines = .ok ⟨8, 12, [9], 11⟩ := by
  decide +kernel

end Samples

/-- An insertion and a drop keep the document around the keys, and leave the new key alone, exactly
where the code sees the list as a reader of YAML does. -/
theorem edits_iff {b : KeysBlock} (h : Y.Valid) (hlines : lines text = Y.lines)
    (hb : findAesgcmKeysBlock (lines text) = .ok b) (hn : OneLine name) (hs : OneLine secret)
    (hentry : ∀ column, entry (keyEntry column name secret) = (name, secret)) :
    (∃ dual final, Edits entry Y text name secret dual final) ↔ Clear Y text := by
  obtain ⟨dual, final, before, first, rest, hE⟩ := edited h hlines hb hn hs
  constructor
  · rintro ⟨dual', final', hX⟩
    exact hE.clear_of_edits h hX
  · exact fun hC => ⟨dual, final, hE.edits_of_clear h hlines hC hn hs hentry⟩

theorem initial_edits : ∃ dual final,
    Edits pairEntry initial (textOf initial) "key-20260621000000" "bmV3" dual final := by
  have hlines := lines_textOf initial_valid
  have hone : OneLine "key-20260621000000" ∧ OneLine "bmV3" :=
    ⟨Layout.oneLine_of_plainLine (by decide), Layout.oneLine_of_plainLine (by decide)⟩
  refine (edits_iff initial_valid hlines (hlines ▸ initial_accepted) hone.1 hone.2
    pairEntry_keyEntry).mpr ⟨by decide, by decide, ?_⟩
  have hfeeds : ∀ l ∈ initial.lines, '\r' ∉ l.toList := fun l hl => (initial_valid.oneLine l hl).2
  exact @not_mem_joined "\n" initial.lines '\r' (by decide) hfeeds

/-- A drop leaves the old secret behind the remark, as a part of no key or of the new one. -/
theorem remarked_not_edits : remarked.Valid ∧ lines (textOf remarked) = remarked.lines ∧
    (∃ b, findAesgcmKeysBlock (lines (textOf remarked)) = .ok b) ∧
    ¬ ∃ dual final,
      Edits pairEntry remarked (textOf remarked) "key-20261201000000" "bmV3ZXI=" dual final := by
  have hlines := lines_textOf remarked_valid
  have hfind : findAesgcmKeysBlock (lines (textOf remarked)) = .ok ⟨8, 12, [9], 11⟩ :=
    hlines ▸ remarked_accepted
  refine ⟨remarked_valid, hlines, ⟨_, hfind⟩, ?_⟩
  rintro ⟨dual', final', hX⟩
  have hone : OneLine "key-20261201000000" ∧ OneLine "bmV3ZXI=" :=
    ⟨Layout.oneLine_of_plainLine (by decide), Layout.oneLine_of_plainLine (by decide)⟩
  obtain ⟨dual, final, before, first, rest, hE⟩ :=
    edited remarked_valid hlines hfind hone.1 hone.2
  have hblock := (hE.clear_of_edits remarked_valid hX).block
  exact absurd hblock (by decide)

end Hbird.Etcd
