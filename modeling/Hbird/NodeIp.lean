import Hbird.Lines
import Hbird.Text

namespace Hbird.NodeIp

open Hbird.Lines Hbird.Text

variable {space : Char → Bool} {l p s t v ip : List Char}

def key : List Char := "KUBELET_EXTRA_ARGS=".toList

def flag : List Char := "--node-ip=".toList

/-- What `sed -n 's/^[[:space:]]*KUBELET_EXTRA_ARGS=//p'` prints for a line; `space` is the
locale's `[[:space:]]`. -/
def assigned (space : Char → Bool) (line : List Char) : Option (List Char) :=
  let line := line.dropWhile space
  if key <+: line then some (line.drop key.length) else none

/-- `[[ "$v" == \"*\" || "$v" == \'*\' ]]`, with `${v:1:${#v}-2}` where it holds. -/
def unquoted (v : List Char) : List Char :=
  if 2 ≤ v.length ∧ (v.head? = some '"' ∧ v.getLast? = some '"' ∨
      v.head? = some '\'' ∧ v.getLast? = some '\'') then
    (v.drop 1).take (v.length - 2)
  else v

/-- What is pinned right now; `none` is a `SYSCONFIG` that cannot be read. -/
def current (space : Char → Bool) (sysconfig : Option (List Char)) : List Char :=
  match sysconfig with
  | none => []
  | some text =>
    unquoted ((((splitTerminator '\n' text).filterMap (assigned space)).getLast?).getD [])

/-- The first match of `--node-ip=[^ ]*`, without the flag itself. -/
def firstFlag : List Char → List Char
  | [] => []
  | c :: cs =>
    if flag <+: c :: cs then ((c :: cs).drop flag.length).takeWhile (· ≠ ' ') else firstFlag cs

/-- `grep -o -- '--node-ip=[^ ]*' | head -1 | cut -d= -f2`. -/
def pinned (v : List Char) : List Char := (firstFlag v).takeWhile (· ≠ '=')

/-- `sed` without each match of `--node-ip=[^ ]*`; `true` is the rest of a match. -/
def dropFlags : Bool → List Char → List Char
  | _, [] => []
  | true, c :: cs => if c = ' ' then ' ' :: dropFlags false cs else dropFlags true cs
  | false, c :: cs => if flag <+: c :: cs then dropFlags true cs else c :: dropFlags false cs

/-- `s/  +/ /g`. -/
def squeeze : List Char → List Char
  | [] => []
  | c :: cs => if c = ' ' ∧ cs.head? = some ' ' then squeeze cs else c :: squeeze cs

/-- `s/^ //`. -/
def stripLead (s : List Char) : List Char := if s.head? = some ' ' then s.tail else s

/-- `s/ $//`. -/
def stripTrail (s : List Char) : List Char := if s.getLast? = some ' ' then s.dropLast else s

/-- Every other flag of the operator. -/
def rest (v : List Char) : List Char := stripTrail (stripLead (squeeze (dropFlags false v)))

/-- `printf 'KUBELET_EXTRA_ARGS="--node-ip=%s%s"\n' "$NODE_IP" "${REST:+ ${REST}}"`. -/
def line (ip rest : List Char) : List Char :=
  key ++ '"' :: (flag ++ ip ++ (if rest = [] then [] else ' ' :: rest)) ++ ['"', '\n']

/-- `hbird-node-ip.sh`, on every boot. -/
def repin (space : Char → Bool) (ip : List Char) (sysconfig : Option (List Char)) :
    Option (List Char) :=
  if pinned (current space sysconfig) = ip then sysconfig
  else some (line ip (rest (current space sysconfig)))

/-- The identity pinning of `worker-init.sh`, at first boot. -/
def pinWorker (space : Char → Bool) (ip : List Char) (sysconfig : Option (List Char)) :
    Option (List Char) :=
  some (line ip (rest (current space sysconfig)))

/-- One of the two scripts, with the address it has derived. -/
inductive Pin : Type
  | worker (ip : List Char)
  | boot (ip : List Char)

def Pin.nodeIp : Pin → List Char
  | .worker ip | .boot ip => ip

def Pin.run (space : Char → Bool) (sysconfig : Option (List Char)) : Pin → Option (List Char)
  | .worker ip => pinWorker space ip sysconfig
  | .boot ip => repin space ip sysconfig

/-- A word up to the flag in it. -/
def cutFlag : List Char → List Char
  | [] => []
  | c :: cs => if flag <+: c :: cs then [] else c :: cutFlag cs

def words (s : List Char) : List (List Char) := (s.splitOn ' ').filter (· ≠ [])

/-- The operator's flags: the words of the line, each up to a `--node-ip=` in it. -/
def kept (v : List Char) : List (List Char) := ((v.splitOn ' ').map cutFlag).filter (· ≠ [])

/-- An address that the line can carry. -/
def Plain (ip : List Char) : Prop := ∀ c ∈ ip, c ≠ ' ' ∧ c ≠ '=' ∧ c ≠ '\n'

theorem prefix_word (hl : ' ' ∉ l) : l <+: p ++ ' ' :: s ↔ l <+: p := by
  refine ⟨fun h => ?_, fun h => h.trans (List.prefix_append p _)⟩
  obtain hle | hlt := Nat.lt_or_ge p.length l.length
  · have hspace : p ++ [' '] <+: p ++ ' ' :: s := ⟨s, by simp⟩
    have hpre : p ++ [' '] <+: l :=
      List.prefix_of_prefix_length_le hspace h (by rw [List.length_append]; exact hle)
    exact absurd (hpre.subset (by simp)) hl
  · exact List.prefix_of_prefix_length_le h (List.prefix_append p _) hlt

theorem dropFlags_true (hp : ' ' ∉ p) (s : List Char) :
    dropFlags true (p ++ ' ' :: s) = ' ' :: dropFlags false s := by
  induction p with
  | nil => rfl
  | cons c p ih =>
    obtain ⟨hc, hp⟩ := not_or.mp (List.mem_cons.not.mp hp)
    rw [List.cons_append, dropFlags, if_neg (Ne.symm hc), ih hp]

theorem dropFlags_true_last (hp : ' ' ∉ p) : dropFlags true p = [] := by
  induction p with
  | nil => rfl
  | cons c p ih =>
    obtain ⟨hc, hp⟩ := not_or.mp (List.mem_cons.not.mp hp)
    rw [dropFlags, if_neg (Ne.symm hc), ih hp]

theorem dropFlags_word (hp : ' ' ∉ p) (s : List Char) :
    dropFlags false (p ++ ' ' :: s) = cutFlag p ++ ' ' :: dropFlags false s := by
  induction p with
  | nil => rfl
  | cons c p ih =>
    have hword := prefix_word (l := flag) (p := c :: p) (s := s) (by decide)
    obtain ⟨-, htail⟩ := not_or.mp (List.mem_cons.not.mp hp)
    rw [List.cons_append] at hword ⊢
    rw [dropFlags, cutFlag]
    by_cases hflag : flag <+: c :: p
    · rw [if_pos (hword.mpr hflag), if_pos hflag, dropFlags_true htail]
      rfl
    · rw [if_neg (hword.not.mpr hflag), if_neg hflag, ih htail, List.cons_append]

theorem dropFlags_last (hp : ' ' ∉ p) : dropFlags false p = cutFlag p := by
  induction p with
  | nil => rfl
  | cons c p ih =>
    obtain ⟨-, htail⟩ := not_or.mp (List.mem_cons.not.mp hp)
    rw [dropFlags, cutFlag, dropFlags_true_last htail, ih htail]

theorem prefix_cutFlag (s : List Char) : cutFlag s <+: s := by
  induction s with
  | nil => exact List.prefix_refl []
  | cons c s ih =>
    rw [cutFlag]
    split
    · exact List.nil_prefix
    · exact List.cons_prefix_cons.mpr ⟨rfl, ih⟩

theorem cutFlag_self (h : ¬ flag <:+: s) : cutFlag s = s := by
  induction s with
  | nil => rfl
  | cons c s ih =>
    rw [cutFlag, if_neg (fun hp => h hp.isInfix), ih fun hi => h (hi.trans (List.suffix_cons c s).isInfix)]

theorem not_infix_cutFlag (s : List Char) : ¬ flag <:+: cutFlag s := by
  induction s with
  | nil => decide
  | cons c s ih =>
    rw [cutFlag]
    split
    · decide
    · rename_i hflag
      rw [List.infix_cons_iff]
      rintro (hp | hi)
      · exact hflag (hp.trans (List.cons_prefix_cons.mpr ⟨rfl, prefix_cutFlag s⟩))
      · exact ih hi

theorem words_word (hp : ' ' ∉ p) (s : List Char) :
    words (p ++ ' ' :: s) = if p = [] then words s else p :: words s := by
  rw [words, List.splitOn_append_cons_self, List.splitOn_eq_singleton hp, List.singleton_append,
    List.filter_cons]
  by_cases h : p = [] <;> simp [h, words]

theorem words_last (hp : ' ' ∉ p) : words p = if p = [] then [] else [p] := by
  rw [words, List.splitOn_eq_singleton hp, List.filter_cons]
  by_cases h : p = [] <;> simp [h]

theorem words_dropFlags (v : List Char) : words (dropFlags false v) = kept v := by
  induction v using lines_induction ' ' with
  | nil => rfl
  | last p _ hp =>
    rw [dropFlags_last hp, words_last fun h => hp ((prefix_cutFlag p).subset h), kept,
      List.splitOn_eq_singleton hp, List.map_singleton, List.filter_cons]
    by_cases h : cutFlag p = [] <;> simp [h]
  | line p s hp ih =>
    rw [dropFlags_word hp, words_word fun h => hp ((prefix_cutFlag p).subset h), ih, kept, kept,
      List.splitOn_append_cons_self, List.splitOn_eq_singleton hp, List.singleton_append,
      List.map_cons, List.filter_cons]
    by_cases h : cutFlag p = [] <;> simp [h]

/-- Words that spaces can separate. -/
def AreWords (ws : List (List Char)) : Prop := ∀ w ∈ ws, w ≠ [] ∧ ' ' ∉ w

theorem areWords_words (s : List Char) : AreWords (words s) := by
  induction s using lines_induction ' ' with
  | nil => rintro w ⟨⟩
  | last p hne hp =>
    rw [words_last hp, if_neg hne]
    exact List.forall_mem_singleton.mpr ⟨hne, hp⟩
  | line p s hp ih =>
    rw [words_word hp]
    split
    · exact ih
    · exact List.forall_mem_cons.mpr ⟨⟨‹_›, hp⟩, ih⟩

/-- After the runs of spaces are squeezed, one space is between the words, and at most one in
front of them and one behind them. -/
structure Spaced (s lead trail : List Char) : Prop where
  text : squeeze s = lead ++ [' '].intercalate (words s) ++ trail
  lead : lead = if s.head? = some ' ' then [' '] else []
  trail : trail = [] ∨ trail = [' '] ∧ words s ≠ []

theorem squeeze_word (hp : ' ' ∉ p) (s : List Char) :
    squeeze (p ++ ' ' :: s) = p ++ squeeze (' ' :: s) := by
  induction p with
  | nil => rfl
  | cons c p ih =>
    obtain ⟨hc, hp⟩ := not_or.mp (List.mem_cons.not.mp hp)
    rw [List.cons_append, squeeze, if_neg fun h => hc h.1.symm, ih hp, List.cons_append]

theorem squeeze_last (hp : ' ' ∉ p) : squeeze p = p := by
  induction p with
  | nil => rfl
  | cons c p ih =>
    obtain ⟨hc, hp⟩ := not_or.mp (List.mem_cons.not.mp hp)
    rw [squeeze, if_neg fun h => hc h.1.symm, ih hp]

theorem intercalate_cons (p : List Char) {ws : List (List Char)} (h : ws ≠ []) :
    [' '].intercalate (p :: ws) = p ++ ' ' :: [' '].intercalate ws := by
  cases ws with
  | nil => exact absurd rfl h
  | cons w ws => rfl

theorem Spaced.behind {lead trail : List Char} (h : Spaced s lead trail) :
    Spaced (' ' :: s) [' '] trail := by
  have hwords : words (' ' :: s) = words s := words_word List.not_mem_nil s
  refine ⟨?_, rfl, hwords ▸ h.trail⟩
  rw [squeeze, hwords]
  by_cases hs : s.head? = some ' '
  · rw [if_pos ⟨rfl, hs⟩, h.text, h.lead, if_pos hs]
  · rw [if_neg fun hc => hs hc.2, h.text, h.lead, if_neg hs]
    rfl

theorem spaced (s : List Char) : ∃ lead trail, Spaced s lead trail := by
  induction s using lines_induction ' ' with
  | nil => exact ⟨[], [], rfl, rfl, .inl rfl⟩
  | last p hne hp =>
    refine ⟨[], [], ?_, ?_, .inl rfl⟩
    · rw [squeeze_last hp, words_last hp, if_neg hne]
      simp
    · rw [if_neg fun h => hp (List.mem_of_head? h)]
  | line p s hp ih =>
    obtain ⟨lead, trail, h⟩ := ih
    have hspace := h.behind
    have hwords := words_word hp s
    have hrest : words (' ' :: s) = words s := words_word List.not_mem_nil s
    by_cases hne : p = []
    · subst hne
      exact ⟨_, _, hspace⟩
    rw [if_neg hne] at hwords
    have hlead : ([] : List Char) = if (p ++ ' ' :: s).head? = some ' ' then [' '] else [] := by
      rw [if_neg]
      intro h
      rw [List.head?_append_of_ne_nil _ hne] at h
      exact hp (List.mem_of_head? h)
    by_cases hws : words s = []
    · obtain rfl : trail = [] := h.trail.resolve_right fun h => h.2 hws
      refine ⟨[], [' '], ?_, hlead, .inr ⟨rfl, hwords ▸ List.cons_ne_nil _ _⟩⟩
      rw [squeeze_word hp, hspace.text, hrest, hwords, hws]
      simp
    · refine ⟨[], trail, ?_, hlead, h.trail.imp_right fun h => ⟨h.1, hwords ▸ List.cons_ne_nil _ _⟩⟩
      rw [squeeze_word hp, hspace.text, hrest, hwords, intercalate_cons p hws]
      simp

theorem intercalate_ends {ws : List (List Char)} (h : AreWords ws) (hne : ws ≠ []) :
    ∃ c cs, [' '].intercalate ws = c :: cs ∧ c ≠ ' ' ∧ (c :: cs).getLast? ≠ some ' ' := by
  induction ws with
  | nil => exact absurd rfl hne
  | cons w ws ih =>
    obtain ⟨⟨hw, hspace⟩, hws⟩ := List.forall_mem_cons.mp h
    cases w with
    | nil => exact absurd rfl hw
    | cons c w =>
      obtain ⟨hc, -⟩ := not_or.mp (List.mem_cons.not.mp hspace)
      by_cases hnil : ws = []
      · subst hnil
        refine ⟨c, w, by simp, Ne.symm hc, fun hlast => hspace (List.mem_of_getLast? hlast)⟩
      · obtain ⟨d, ds, hds, -, hlast⟩ := ih hws hnil
        refine ⟨c, w ++ ' ' :: d :: ds, ?_, Ne.symm hc, ?_⟩
        · rw [intercalate_cons _ hnil, hds, List.cons_append]
        · rwa [← List.cons_append, List.append_cons, List.getLast?_append_of_ne_nil _ (by simp)]

theorem strip_squeeze (s : List Char) :
    stripTrail (stripLead (squeeze s)) = [' '].intercalate (words s) := by
  obtain ⟨lead, trail, htext, hlead, htrail⟩ := spaced s
  rw [htext]
  by_cases hws : words s = []
  · obtain rfl : trail = [] := htrail.resolve_right fun h => h.2 hws
    rw [hws, hlead]
    split <;> rfl
  · obtain ⟨c, cs, htext, hc, hlast⟩ := intercalate_ends (areWords_words s) hws
    have hstrip : stripLead (lead ++ (c :: cs) ++ trail) = c :: cs ++ trail := by
      rw [hlead]
      split
      · rfl
      · exact if_neg fun h => hc (Option.some.inj h)
    rw [htext, hstrip]
    obtain rfl | ⟨rfl, -⟩ := htrail
    · rw [List.append_nil, stripTrail, if_neg hlast]
    · rw [stripTrail, if_pos List.getLast?_concat, List.dropLast_concat]

theorem rest_eq (v : List Char) : rest v = [' '].intercalate (kept v) := by
  rw [rest, strip_squeeze, words_dropFlags]

theorem dropFlags_sublist (v : List Char) : ∀ b, (dropFlags b v).Sublist v := by
  induction v with
  | nil => exact fun b => by cases b <;> exact List.Sublist.refl []
  | cons c v ih =>
    rintro (_ | _)
    · rw [dropFlags]
      split
      · exact (ih true).cons c
      · exact (ih false).cons_cons c
    · rw [dropFlags]
      split
      · rename_i hc
        exact hc ▸ (ih false).cons_cons c
      · exact (ih true).cons c

theorem squeeze_sublist (s : List Char) : (squeeze s).Sublist s := by
  induction s with
  | nil => exact List.Sublist.refl []
  | cons c s ih =>
    rw [squeeze]
    split
    · exact ih.cons c
    · exact ih.cons_cons c

theorem rest_sublist (v : List Char) : (rest v).Sublist v := by
  have hlead : ∀ s, (stripLead s).Sublist s := fun s => by
    rw [stripLead]
    split
    · exact List.tail_sublist s
    · exact List.Sublist.refl s
  have htrail : ∀ s, (stripTrail s).Sublist s := fun s => by
    rw [stripTrail]
    split
    · exact List.dropLast_sublist s
    · exact List.Sublist.refl s
  exact (htrail _).trans ((hlead _).trans ((squeeze_sublist _).trans (dropFlags_sublist v false)))

theorem mem_splitTerminator {text : List Char} (h : l ∈ splitTerminator '\n' text) : '\n' ∉ l := by
  induction text generalizing l with
  | nil => cases h
  | cons c cs ih =>
    rw [splitTerminator] at h
    split at h
    · obtain rfl | h := List.mem_cons.mp h
      · exact List.not_mem_nil
      · exact ih h
    · rename_i hc
      split at h
      · rw [List.mem_singleton.mp h]
        exact fun h => hc (List.mem_singleton.mp h).symm
      · rename_i l' ls heq
        rw [heq] at ih
        obtain rfl | h := List.mem_cons.mp h
        · exact fun h => (List.mem_cons.mp h).elim (fun h => hc h.symm) (ih List.mem_cons_self)
        · exact ih (List.mem_cons_of_mem _ h)

theorem splitTerminator_line (h : '\n' ∉ l) : splitTerminator '\n' (l ++ ['\n']) = [l] := by
  induction l with
  | nil => rfl
  | cons c l ih =>
    obtain ⟨hc, hl⟩ := not_or.mp (List.mem_cons.not.mp h)
    rw [List.cons_append, splitTerminator, if_neg (Ne.symm hc), ih hl]

theorem unquoted_sublist (v : List Char) : (unquoted v).Sublist v := by
  rw [unquoted]
  split
  · exact (List.take_sublist _ _).trans (List.drop_sublist _ _)
  · exact List.Sublist.refl v

theorem not_mem_current (sysconfig : Option (List Char)) : '\n' ∉ current space sysconfig := by
  cases sysconfig with
  | none => exact List.not_mem_nil
  | some text =>
    refine fun h => ?_
    have hv := (unquoted_sublist _).subset h
    cases hlast : ((splitTerminator '\n' text).filterMap (assigned space)).getLast? with
    | none =>
      rw [hlast] at hv
      cases hv
    | some v =>
      rw [hlast] at hv
      obtain ⟨line, hline, hassigned⟩ := List.mem_filterMap.mp (List.mem_of_getLast? hlast)
      rw [assigned] at hassigned
      split at hassigned
      · obtain rfl := Option.some.inj hassigned
        exact mem_splitTerminator hline
          ((List.dropWhile_sublist _).subset ((List.drop_sublist _ _).subset hv))
      · cases hassigned

theorem unquoted_quotes (v : List Char) : unquoted ('"' :: v ++ ['"']) = v := by
  rw [unquoted, if_pos ⟨by simp, .inl ⟨rfl, List.getLast?_concat⟩⟩]
  simp

/-- What the written line says. -/
theorem current_line (hspace : space 'K' = false) (hip : '\n' ∉ ip) (ht : '\n' ∉ t) :
    current space (some (line ip t)) = flag ++ ip ++ (if t = [] then [] else ' ' :: t) := by
  generalize hv : flag ++ ip ++ (if t = [] then [] else ' ' :: t) = v
  have hline : line ip t = (key ++ ('"' :: v ++ ['"'])) ++ ['\n'] := by
    rw [line, hv]
    simp
  have hmem : '\n' ∉ key ++ ('"' :: v ++ ['"']) := by
    have hkey : '\n' ∉ key := by decide
    have hflag : '\n' ∉ flag := by decide
    have htail : '\n' ∉ (if t = [] then [] else ' ' :: t) := by
      split
      · exact List.not_mem_nil
      · simpa using ht
    rw [← hv]
    simp only [List.mem_append, List.mem_cons, List.not_mem_nil, or_false, not_or]
    exact ⟨hkey, ⟨by decide, ⟨hflag, hip⟩, htail⟩, by decide⟩
  have hdrop : (key ++ ('"' :: v ++ ['"'])).dropWhile space = key ++ ('"' :: v ++ ['"']) := by
    have hkey : key = 'K' :: key.tail := by decide
    rw [hkey, List.cons_append, List.dropWhile_cons_of_neg (by rw [hspace]; exact Bool.false_ne_true)]
  rw [current, hline, splitTerminator_line hmem]
  have hassigned : assigned space (key ++ ('"' :: v ++ ['"'])) = some ('"' :: v ++ ['"']) := by
    rw [assigned, hdrop]
    exact (if_pos (List.prefix_append _ _)).trans (congrArg some List.drop_left)
  rw [List.filterMap_cons_some hassigned]
  exact unquoted_quotes v

/-- The flags of the operator can be written between spaces, and none is the node's address. -/
def AreKept (ws : List (List Char)) : Prop := AreWords ws ∧ ∀ w ∈ ws, ¬ flag <:+: w

theorem areKept_kept (v : List Char) : AreKept (kept v) := by
  refine ⟨words_dropFlags v ▸ areWords_words _, fun w hw => ?_⟩
  obtain ⟨w, -, rfl⟩ := List.mem_map.mp (List.mem_filter.mp hw).1
  exact not_infix_cutFlag w

theorem splitOn_line {ws : List (List Char)} (h : AreWords ws) (hp : ' ' ∉ p) :
    (p ++ (if [' '].intercalate ws = [] then [] else ' ' :: [' '].intercalate ws)).splitOn ' ' =
      p :: ws := by
  by_cases hws : ws = []
  · subst hws
    exact (congrArg (List.splitOn ' ') (List.append_nil p)).trans (List.splitOn_eq_singleton hp)
  · obtain ⟨c, cs, htext, -⟩ := intercalate_ends h hws
    rw [if_neg (by rw [htext]; exact List.cons_ne_nil c cs), List.splitOn_append_cons_self,
      List.splitOn_eq_singleton hp, List.splitOn_intercalate ' ' (fun w hw => (h w hw).2) hws]
    rfl

theorem filter_words {ws : List (List Char)} (h : AreWords ws) : ws.filter (· ≠ []) = ws :=
  List.filter_eq_self.mpr fun w hw => decide_eq_true (h w hw).1

section Written

variable {ws : List (List Char)}

theorem flag_space (hip : Plain ip) : ' ' ∉ flag ++ ip := by
  rw [List.mem_append]
  rintro (h | h)
  · exact absurd h (by decide)
  · exact (hip _ h).1 rfl

theorem cutFlag_flag (s : List Char) : cutFlag (flag ++ s) = [] := by
  have hflag : flag = '-' :: flag.tail := by decide
  have h : flag <+: '-' :: (flag.tail ++ s) := List.prefix_append flag s
  rw [hflag, List.cons_append, cutFlag, if_pos h]

theorem firstFlag_flag (s : List Char) : firstFlag (flag ++ s) = s.takeWhile (· ≠ ' ') := by
  have hflag : flag = '-' :: flag.tail := by decide
  have h : flag <+: '-' :: (flag.tail ++ s) := List.prefix_append flag s
  have hdrop : ('-' :: (flag.tail ++ s)).drop flag.length = s := @List.drop_left Char flag s
  rw [hflag, List.cons_append, firstFlag, if_pos h, hdrop]

theorem kept_written (hws : AreKept ws) (hip : Plain ip) :
    kept (flag ++ ip ++ (if [' '].intercalate ws = [] then [] else ' ' :: [' '].intercalate ws)) =
      ws := by
  have hmap : ws.map cutFlag = ws :=
    (List.map_congr_left fun w hw => cutFlag_self (hws.2 w hw)).trans (List.map_id ws)
  rw [kept, splitOn_line hws.1 (flag_space hip), List.map_cons, cutFlag_flag, hmap]
  exact filter_words hws.1

theorem words_written (hws : AreWords ws) (hip : Plain ip) :
    words (flag ++ ip ++ (if [' '].intercalate ws = [] then [] else ' ' :: [' '].intercalate ws)) =
      (flag ++ ip) :: ws := by
  have hcons : AreWords ((flag ++ ip) :: ws) :=
    List.forall_mem_cons.mpr ⟨⟨List.append_ne_nil_of_left_ne_nil (by decide) ip, flag_space hip⟩, hws⟩
  rw [words, splitOn_line hws (flag_space hip), filter_words hcons]

theorem pinned_written (hip : Plain ip) (t : List Char) :
    pinned (flag ++ ip ++ (if t = [] then [] else ' ' :: t)) = ip := by
  have hspace : (ip ++ (if t = [] then [] else ' ' :: t)).takeWhile (· ≠ ' ') = ip := by
    have hrest : (if t = [] then [] else ' ' :: t).takeWhile (· ≠ ' ') = [] := by
      split <;> rfl
    rw [List.takeWhile_append_of_pos fun c hc => by simpa using (hip c hc).1, hrest, List.append_nil]
  rw [pinned, List.append_assoc, firstFlag_flag, hspace]
  exact List.takeWhile_eq_self_iff.mpr fun c hc => by simpa using (hip c hc).2.1

end Written

/-- A `SYSCONFIG` as the scripts leave it: as it was, or written for one of their addresses. -/
def Left (space : Char → Bool) (before after : Option (List Char)) : Prop :=
  after = before ∨
    ∃ ip, Plain ip ∧ after = some (line ip ([' '].intercalate (kept (current space before))))

theorem newline_intercalate (sysconfig : Option (List Char)) :
    '\n' ∉ [' '].intercalate (kept (current space sysconfig)) := by
  rw [← rest_eq]
  exact fun h => not_mem_current sysconfig ((rest_sublist _).subset h)

theorem current_written (hspace : space 'K' = false) (hip : Plain ip)
    (before : Option (List Char)) :
    kept (current space (some (line ip ([' '].intercalate (kept (current space before)))))) =
        kept (current space before) ∧
      words (current space (some (line ip ([' '].intercalate (kept (current space before)))))) =
        (flag ++ ip) :: kept (current space before) ∧
      pinned (current space (some (line ip ([' '].intercalate (kept (current space before)))))) = ip := by
  rw [current_line hspace (fun h => (hip _ h).2.2 rfl) (newline_intercalate before)]
  have hkept := areKept_kept (current space before)
  exact ⟨kept_written hkept hip, words_written hkept.1 hip, pinned_written hip _⟩

theorem Left.kept {before after : Option (List Char)} (hspace : space 'K' = false)
    (h : Left space before after) :
    kept (current space after) = kept (current space before) := by
  obtain rfl | ⟨ip, hip, rfl⟩ := h
  · rfl
  · exact (current_written hspace hip before).1

/-- What one script does to a file that the scripts have left. -/
theorem Left.run {before after : Option (List Char)} (hspace : space 'K' = false)
    (h : Left space before after) (pin : Pin) (hpin : Plain pin.nodeIp) :
    pinned (current space (pin.run space after)) = pin.nodeIp ∧
      (pin.run space after = before ∨ pin.run space after =
        some (line pin.nodeIp ([' '].intercalate (NodeIp.kept (current space before))))) := by
  have hkept := h.kept hspace
  have hwritten := current_written hspace hpin before
  cases pin with
  | worker ip =>
    rw [Pin.run, pinWorker, rest_eq, hkept]
    exact ⟨hwritten.2.2, .inr rfl⟩
  | boot ip =>
    rw [Pin.run, repin]
    by_cases hsame : pinned (current space after) = ip
    · rw [if_pos hsame]
      refine ⟨hsame, h.imp_right ?_⟩
      rintro ⟨ip', hip', rfl⟩
      rw [(current_written hspace hip' before).2.2] at hsame
      rw [hsame]
      rfl
    · rw [if_neg hsame, rest_eq, hkept]
      exact ⟨hwritten.2.2, .inr rfl⟩

/-- After any runs of the two scripts the address of the last one is pinned, and the operator's
other flags are what they were, in their order; the file is untouched or holds nothing else. -/
theorem pins_last (hspace : space 'K' = false) (sysconfig : Option (List Char)) (pins : List Pin)
    (last : Pin) (hpins : ∀ p ∈ pins ++ [last], Plain p.nodeIp) :
    let after := (pins ++ [last]).foldl (Pin.run space) sysconfig
    pinned (current space after) = last.nodeIp ∧
      kept (current space after) = kept (current space sysconfig) ∧
      (after = sysconfig ∨
        after = some (line last.nodeIp ([' '].intercalate (kept (current space sysconfig)))) ∧
          words (current space after) =
            (flag ++ last.nodeIp) :: kept (current space sysconfig)) := by
  have hleft : ∀ ps : List Pin, (∀ p ∈ ps, Plain p.nodeIp) →
      Left space sysconfig (ps.foldl (Pin.run space) sysconfig) := fun ps => by
    induction ps using List.reverseRecOn with
    | nil => exact fun _ => .inl rfl
    | append_singleton ps p ih =>
      intro hps
      have hp := hps p (by simp)
      rw [List.foldl_concat]
      exact ((ih fun q hq => hps q (by simp [hq])).run hspace p hp).2.imp_right fun h => ⟨_, hp, h⟩
  have hlast := hpins last (by simp)
  have hrun := (hleft pins fun p hp => hpins p (by simp [hp])).run hspace last hlast
  intro after
  have hafter : after = Pin.run space (pins.foldl (Pin.run space) sysconfig) last :=
    List.foldl_concat ..
  rw [← hafter] at hrun
  refine ⟨hrun.1, (hleft _ hpins).kept hspace, hrun.2.imp_right fun h => ⟨h, ?_⟩⟩
  rw [h]
  exact (current_written hspace hlast sysconfig).2.1

theorem pins_last_sample : pinned (current (· == ' ')
    ([Pin.worker "10.0.0.2".toList, .boot "10.0.0.3".toList].foldl (Pin.run (· == ' '))
      (some "KUBELET_EXTRA_ARGS=--v=2 --node-ip=10.0.0.9  --max-pods=200\n".toList))) =
    "10.0.0.3".toList :=
  (pins_last rfl _ [.worker "10.0.0.2".toList] (.boot "10.0.0.3".toList)
    (by simp [Plain, Pin.nodeIp])).1

example : repin (· == ' ') "10.0.0.3".toList
    (some "KUBELET_EXTRA_ARGS=--v=2 --node-ip=10.0.0.9  --max-pods=200\n".toList) =
    some "KUBELET_EXTRA_ARGS=\"--node-ip=10.0.0.3 --v=2 --max-pods=200\"\n".toList := by
  decide +kernel

end Hbird.NodeIp
