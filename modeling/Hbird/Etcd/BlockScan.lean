import Hbird.Etcd.KeyList

namespace Hbird.Etcd

open Hbird.Text

section Scan

variable {k e i d f : Nat} {c r : Option Nat} {l : String} {ls u v seq : List String} {fs : List Nat}
  {stop : Nat}

/-- A line that ends the block under a `keys:` line in column `k`. -/
def stops (k : Nat) (line : String) : Bool := !isBlank line && decide (indentOf line ≤ k)

/-- A line that the scan for entries passes over. -/
def Passes (k : Nat) (c : Option Nat) (line : String) : Prop :=
  isBlank line = true ∨
    k < indentOf line ∧ ¬ (isEntry line = true ∧ (c = none ∨ c = some (indentOf line)))

theorem findEntries_passes (h : ∀ l ∈ u, Passes k c l) :
    findEntries k i c (u ++ ls) = findEntries k (i + u.length) c ls := by
  induction u generalizing i with
  | nil => rfl
  | cons x u ih =>
    obtain ⟨hx, hu⟩ := List.forall_mem_cons.mp h
    rw [List.cons_append, findEntries, ih hu, List.length_cons, Nat.add_right_comm, Nat.add_assoc]
    obtain hb | ⟨hlt, hne⟩ := hx
    · rw [if_pos hb]
    · rw [if_neg (Nat.not_le.mpr hlt), if_neg hne, ite_self]

theorem findEntries_stop (h : ∀ l ∈ ls.head?, stops k l = true) :
    findEntries k i c ls = (c, [], i) := by
  cases ls with
  | nil => rfl
  | cons l ls =>
    have hl := h l rfl
    simp only [stops, Bool.and_eq_true, Bool.not_eq_true', decide_eq_true_eq] at hl
    rw [findEntries, hl.1, if_neg Bool.false_ne_true, if_pos hl.2]

/-- How the scan comes by its first entry: the lines before it, and what it finds behind it. -/
structure Takes (k i : Nat) (c r : Option Nat) (ls : List String) (f : Nat) (fs : List Nat)
    (stop : Nat) (u : List String) (l : String) (v : List String) : Prop where
  split : ls = u ++ l :: v
  index : f = i + u.length
  passed : ∀ x ∈ u, Passes k c x
  entry : isEntry l = true
  right : k < indentOf l
  column : c = none ∨ c = some (indentOf l)
  rest : findEntries k (f + 1) (some (indentOf l)) v = (r, fs, stop)

theorem Takes.cons {x : String} (hx : Passes k c x) (h : Takes k (i + 1) c r ls f fs stop u l v) :
    Takes k i c r (x :: ls) f fs stop (x :: u) l v where
  split := by rw [h.split, List.cons_append]
  index := by
    rw [h.index, List.length_cons]
    omega
  passed := List.forall_mem_cons.mpr ⟨hx, h.passed⟩
  entry := h.entry
  right := h.right
  column := h.column
  rest := h.rest

theorem takes_of_findEntries (h : findEntries k i c ls = (r, f :: fs, stop)) :
    ∃ u l v, Takes k i c r ls f fs stop u l v := by
  induction ls generalizing i with
  | nil => cases h
  | cons x ls ih =>
    rw [findEntries] at h
    by_cases hb : isBlank x = true
    · rw [if_pos hb] at h
      obtain ⟨u, l, v, ht⟩ := ih h
      exact ⟨x :: u, l, v, ht.cons (.inl hb)⟩
    rw [if_neg hb] at h
    by_cases hle : indentOf x ≤ k
    · rw [if_pos hle] at h
      cases h
    rw [if_neg hle] at h
    by_cases he : isEntry x = true ∧ (c = none ∨ c = some (indentOf x))
    · rw [if_pos he] at h
      generalize hrest : findEntries k (i + 1) (some (indentOf x)) ls = rest at h
      obtain ⟨r', fs', stop'⟩ := rest
      cases h
      exact ⟨[], x, ls, rfl, rfl, by simp, he.1, Nat.lt_of_not_le hle, he.2, hrest⟩
    · rw [if_neg he] at h
      obtain ⟨u, l, v, ht⟩ := ih h
      exact ⟨x :: u, l, v, ht.cons (.inr ⟨Nat.lt_of_not_le hle, he⟩)⟩

theorem findEntries_entry (he : isEntry l = true) (hk : k < indentOf l)
    (hc : c = none ∨ c = some (indentOf l))
    (hrest : findEntries k (i + 1) (some (indentOf l)) v = (r, fs, stop)) :
    findEntries k i c (l :: v) = (r, i :: fs, stop) := by
  rw [findEntries_first hc hk he rfl, hrest]

theorem Takes.findEntries (h : Takes k i c r ls f fs stop u l v) :
    findEntries k i c ls = (r, f :: fs, stop) := by
  rw [h.split, findEntries_passes h.passed, ← h.index]
  exact findEntries_entry h.entry h.right h.column h.rest

/-- The column stays once it is known, and the block ends at the first line that stops it. -/
theorem findEntries_some : (findEntries k i (some e) ls).1 = some e := by
  induction ls generalizing i with
  | nil => rfl
  | cons x ls ih =>
    rw [Etcd.findEntries]
    split_ifs with hb hle he
    · exact ih
    · rfl
    · obtain ⟨-, hc⟩ := he
      have hx : e = indentOf x := by simpa using hc
      rw [← hx]
      exact ih
    · exact ih

theorem findEntries_stopLine : (findEntries k i c ls).2.2 =
    i + (ls.takeWhile fun l => !stops k l).length := by
  induction ls generalizing i c with
  | nil => rfl
  | cons x ls ih =>
    rw [Etcd.findEntries, List.takeWhile_cons]
    by_cases hb : isBlank x = true
    · have hs : stops k x = false := by simp [stops, hb]
      rw [if_pos hb, ih, hs]
      simp
      omega
    · rw [if_neg hb]
      by_cases hle : indentOf x ≤ k
      · have hs : stops k x = true := by simp [stops, hb, hle]
        rw [if_pos hle, hs]
        rfl
      · have hs : stops k x = false := by simp [stops, hle]
        simp only [if_neg hle, hs, Bool.not_false, if_true, List.length_cons]
        split_ifs
        · refine (ih (c := some (indentOf x))).trans ?_
          omega
        · rw [ih]
          omega

theorem findEntries_ne_nil : findEntries k i none ls ≠ (some e, [], stop) := by
  induction ls generalizing i with
  | nil => simp [Etcd.findEntries]
  | cons x ls ih =>
    rw [Etcd.findEntries]
    split_ifs
    · exact ih
    · simp
    · simp
    · exact ih

theorem findKeysLine_some {a n : Nat} (h : findKeysLine a ls = some n) :
    ∃ mid keys seq, ls = mid ++ keys :: seq ∧ mid.length = n ∧
      (∀ l ∈ mid, isBlank l = true ∨ a < indentOf l ∧ trim l ≠ "keys:") ∧ trim keys = "keys:" ∧
      a < indentOf keys := by
  induction ls generalizing n with
  | nil => cases h
  | cons x ls ih =>
    have hpass : (isBlank x = true ∨ a < indentOf x ∧ trim x ≠ "keys:") →
        (findKeysLine a ls).map (· + 1) = some n → ∃ mid keys seq, x :: ls = mid ++ keys :: seq ∧
          mid.length = n ∧ (∀ l ∈ mid, isBlank l = true ∨ a < indentOf l ∧ trim l ≠ "keys:") ∧
          trim keys = "keys:" ∧ a < indentOf keys := by
      intro hx hn
      obtain ⟨m, hm, rfl⟩ := Option.map_eq_some_iff.mp hn
      obtain ⟨mid, keys, seq, rfl, hlen, hmid, hkeys⟩ := ih hm
      exact ⟨x :: mid, keys, seq, rfl, by rw [List.length_cons, hlen],
        List.forall_mem_cons.mpr ⟨hx, hmid⟩, hkeys⟩
    rw [findKeysLine] at h
    by_cases hb : isBlank x = true
    · rw [if_pos hb] at h
      exact hpass (.inl hb) h
    rw [if_neg hb] at h
    by_cases hle : indentOf x ≤ a
    · rw [if_pos hle] at h
      cases h
    rw [if_neg hle] at h
    by_cases hk : trim x = "keys:"
    · rw [if_pos hk] at h
      obtain rfl := Option.some.inj h
      exact ⟨[], x, ls, rfl, rfl, by simp, hk, Nat.lt_of_not_le hle⟩
    · rw [if_neg hk] at h
      exact hpass (.inr ⟨Nat.lt_of_not_le hle, hk⟩) h

end Scan

section Found

variable {k e : Nat} {l : String} {ls P u v : List String} {b : KeysBlock}

/-- The lines up to a `keys:` line in column `k`, of the first aesgcm provider. -/
def Located (P : List String) (k : Nat) : Prop :=
  ∃ before aes mid keys, P = before ++ aes :: (mid ++ [keys]) ∧
    Layout.Opens k before aes mid keys []

theorem find_located {seq : List String} (h : Located P k) : findAesgcmKeysBlock (P ++ seq) =
    (findEntries k P.length none seq).1.elim (.error emptyKeysList) fun entryIndent =>
      .ok ⟨P.length - 1, entryIndent, (findEntries k P.length none seq).2.1,
        (findEntries k P.length none seq).2.2⟩ := by
  obtain ⟨before, aes, mid, keys, rfl, ho⟩ := h
  have hlen : (before ++ aes :: (mid ++ [keys])).length = before.length + 1 + mid.length + 1 := by
    simp
    omega
  have hlines : before ++ aes :: (mid ++ [keys]) ++ seq = before ++ aes :: (mid ++ keys :: seq) := by
    simp
  rw [hlen, hlines, Nat.add_sub_cancel]
  exact Layout.find_opens ho

theorem located_of_find (h : findAesgcmKeysBlock ls = .ok b) :
    ∃ P k seq, ls = P ++ seq ∧ Located P k := by
  rw [findAesgcmKeysBlock] at h
  cases hidx : ls.findIdx? isAesgcm with
  | none =>
    rw [hidx] at h
    cases h
  | some aesIdx =>
    rw [hidx] at h
    obtain ⟨hlt, haes, hbefore⟩ := List.findIdx?_eq_some_iff_getElem.mp hidx
    have hsplit : ls = ls.take aesIdx ++ ls[aesIdx] :: ls.drop (aesIdx + 1) := by
      rw [List.getElem_cons_drop, List.take_append_drop]
    have hget : ls.getD aesIdx "" = ls[aesIdx] := by simp [hlt]
    simp only [hget] at h
    cases hkeys : findKeysLine (indentOf ls[aesIdx]) (ls.drop (aesIdx + 1)) with
    | none =>
      rw [hkeys] at h
      cases h
    | some n =>
      obtain ⟨mid, keys, seq, hseq, -, hmid, hword, hunder⟩ := findKeysLine_some hkeys
      refine ⟨ls.take aesIdx ++ ls[aesIdx] :: (mid ++ [keys]), indentOf keys, seq, ?_, _, _, _, _,
        rfl, ?_, haes, hmid, hunder, hword, rfl, by simp⟩
      · refine hsplit.trans ?_
        rw [hseq]
        simp
      · intro l hl
        obtain ⟨j, hj, rfl⟩ := List.mem_take_iff_getElem.mp hl
        simpa using hbefore j (by omega)

/-- What the code has found: the lines up to `keys:`, those it passes over, the first entry, the
rest. -/
structure Found (ls P : List String) (k : Nat) (u : List String) (l : String) (v : List String) :
    Prop where
  split : ls = P ++ (u ++ l :: v)
  located : Located P k
  passed : ∀ x ∈ u, Passes k none x
  entry : isEntry l = true
  right : k < indentOf l

theorem found_of_find (h : findAesgcmKeysBlock ls = .ok b) : ∃ P k u l v, Found ls P k u l v := by
  obtain ⟨P, k, seq, rfl, hP⟩ := located_of_find h
  rw [find_located hP] at h
  generalize hscan : findEntries k P.length none seq = scan at h
  obtain ⟨_ | column, _ | ⟨f, fs⟩, stop⟩ := scan
  · cases h
  · cases h
  · exact absurd hscan findEntries_ne_nil
  · obtain ⟨u, l, v, ht⟩ := takes_of_findEntries hscan
    exact ⟨P, k, u, l, v, by rw [ht.split], hP, ht.passed, ht.entry, ht.right⟩

namespace Found

variable {text : String} {name secret : String}

theorem scan (h : Found ls P k u l v) (i : Nat) : findEntries k i none (u ++ l :: v) =
    (some (indentOf l), (i + u.length) ::
      (findEntries k (i + u.length + 1) (some (indentOf l)) v).2.1,
      (findEntries k (i + u.length + 1) (some (indentOf l)) v).2.2) := by
  have hcolumn : (findEntries k (i + u.length + 1) (some (indentOf l)) v).1 = some (indentOf l) :=
    findEntries_some
  rw [findEntries_passes h.passed]
  exact findEntries_entry h.entry h.right (.inl rfl) (Prod.ext hcolumn rfl)

/-- The entries behind the first one. -/
def others (P : List String) (k : Nat) (u : List String) (l : String) (v : List String) : List Nat :=
  (findEntries k (P.length + u.length + 1) (some (indentOf l)) v).2.1

def inside (k : Nat) (v : List String) : List String := v.takeWhile fun x => !stops k x

def outside (k : Nat) (v : List String) : List String := v.dropWhile fun x => !stops k x

theorem find (h : Found ls P k u l v) : findAesgcmKeysBlock ls = .ok ⟨P.length - 1, indentOf l,
    (P.length + u.length) :: others P k u l v,
    P.length + u.length + 1 + (inside k v).length⟩ := by
  rw [h.split, find_located h.located, h.scan, findEntries_stopLine]
  rfl

theorem take_first (h : Found ls P k u l v) : ls.take (P.length + u.length) = P ++ u := by
  rw [h.split, ← List.append_assoc, ← List.length_append, List.take_left]

theorem drop_first (h : Found ls P k u l v) : ls.drop (P.length + u.length) = l :: v := by
  rw [h.split, ← List.append_assoc, ← List.length_append, List.drop_left]

theorem drop_outside (h : Found ls P k u l v) :
    ls.drop (P.length + u.length + 1 + (inside k v).length) = outside k v := by
  have hv : inside k v ++ outside k v = v := List.takeWhile_append_dropWhile
  rw [Nat.add_assoc, ← List.drop_drop, h.drop_first, Nat.add_comm 1, List.drop_succ_cons]
  calc v.drop (inside k v).length
      = (inside k v ++ outside k v).drop (inside k v).length := by rw [hv]
    _ = outside k v := List.drop_left

theorem insert (h : Found (lines text) P k u l v) : insertPrimaryKey text name secret =
    .ok (joined (P ++ (u ++ (keyEntry (indentOf l) name secret ++ l :: v))) text) := by
  rw [insertPrimaryKey, h.find]
  simp only [bind, Except.bind, List.head?_cons]
  rw [h.take_first, h.drop_first]
  simp

theorem drop (h : Found (lines text) P k u l v) : dropNonPrimaryKeys text =
    (others P k u l v).head?.elim (.ok text) fun second =>
      .ok (joined ((lines text).take second ++ outside k v) text) := by
  rw [dropNonPrimaryKeys, h.find]
  simp only [bind, Except.bind, List.getElem?_cons_succ, ← List.head?_eq_getElem?]
  rw [h.drop_outside]
  cases (others P k u l v).head? <;> rfl

theorem drop_single (h : Found (lines text) P k u l v) (ho : others P k u l v = []) :
    dropNonPrimaryKeys text = .ok text := by
  rw [h.drop, ho]
  rfl

/-- With nothing but passed lines up to the end of the block, there is one entry. -/
theorem others_eq_nil {w tail : List String} (hw : ∀ x ∈ w, Passes k (some (indentOf l)) x)
    (ht : ∀ x ∈ tail.head?, stops k x = true) : others P k u l (w ++ tail) = [] := by
  rw [others, findEntries_passes hw, findEntries_stop ht]

theorem stops_outside : ∀ x ∈ (outside k v).head?, stops k x = true := by
  intro x hx
  have hne : outside k v ≠ [] := by
    intro hnil
    rw [hnil] at hx
    cases hx
  have hhead := List.head_dropWhile_not (fun x => !stops k x) hne
  have hx' : x = (outside k v).head hne := by
    rw [List.head?_eq_some_head hne] at hx
    exact (Option.some.inj hx).symm
  rw [hx']
  simpa [outside] using hhead

end Found

end Found

end Hbird.Etcd
