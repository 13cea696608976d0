import Hbird.Interaction.Exec

namespace Hbird.Interaction

variable {Q : Type} {R : Q → Type} {σ ε α β : Type}

/-- `p` has put the queries of `t`, and the next one, `q`, does not come back. -/
inductive Reaches : Program Q R α → Trace R → Q → Prop
  | here {q : Q} {next : R q → Program Q R α} : Reaches (.ask q next) [] q
  | ask {q q' : Q} {next : R q → Program Q R α} {r : R q} {t : Trace R}
      (h : Reaches (next r) t q') : Reaches (.ask q next) (⟨q, r⟩ :: t) q'

theorem reaches_done {a : α} {t : Trace R} {q : Q} : ¬ Reaches (.done a) t q := by
  rintro ⟨⟩

theorem reaches_perform {q q' : Q} {t : Trace R} :
    Reaches (Program.perform q) t q' ↔ t = [] ∧ q' = q := by
  constructor
  · intro h
    cases h with
    | here => exact ⟨rfl, rfl⟩
    | ask h => exact absurd h reaches_done
  · rintro ⟨rfl, rfl⟩
    exact .here

theorem reaches_bind {p : Program Q R α} {f : α → Program Q R β} {t : Trace R} {q : Q} :
    Reaches (p >>= f) t q ↔
      Reaches p t q ∨ ∃ a t₁ t₂, t = t₁ ++ t₂ ∧ Runs p t₁ a ∧ Reaches (f a) t₂ q := by
  induction p generalizing t with
  | done a =>
    constructor
    · exact fun h => .inr ⟨a, [], t, rfl, .done a, h⟩
    · rintro (h | ⟨b, t₁, t₂, rfl, h₁, h₂⟩)
      · exact absurd h reaches_done
      · obtain ⟨rfl, rfl⟩ := runs_done.mp h₁
        exact h₂
  | ask q' next ih =>
    constructor
    · intro h
      cases h with
      | here => exact .inl .here
      | ask h =>
        obtain h | ⟨a, t₁, t₂, rfl, h₁, h₂⟩ := (ih _).mp h
        · exact .inl (.ask h)
        · exact .inr ⟨a, _ :: t₁, t₂, rfl, .ask h₁, h₂⟩
    · rintro (h | ⟨a, t₁, t₂, rfl, h₁, h₂⟩)
      · cases h with
        | here => exact .here
        | ask h => exact .ask ((ih _).mpr (.inl h))
      · obtain ⟨r, t', rfl, h⟩ := runs_ask.mp h₁
        exact .ask ((ih r).mpr (.inr ⟨a, t', t₂, rfl, h, h₂⟩))

theorem reaches_map {p : Program Q R α} {f : α → β} {t : Trace R} {q : Q} :
    Reaches (f <$> p) t q ↔ Reaches p t q := by
  rw [map_eq_pure_bind, reaches_bind]
  constructor
  · rintro (h | ⟨a, t₁, t₂, -, -, h⟩)
    · exact h
    · exact absurd h reaches_done
  · exact .inl

/-- The same, with the record that the query carries. -/
inductive Halts : Program (σ × Q) (fun x => R x.2) α → Trace R → Q → σ → Prop
  | here {x : σ × Q} {next : R x.2 → Program (σ × Q) (fun x => R x.2) α} :
      Halts (.ask x next) [] x.2 x.1
  | ask {x : σ × Q} {q : Q} {s : σ} {next : R x.2 → Program (σ × Q) (fun x => R x.2) α}
      {r : R x.2} {t : Trace R} (h : Halts (next r) t q s) : Halts (.ask x next) (⟨x.2, r⟩ :: t) q s

theorem halts_done {a : α} {t : Trace R} {q : Q} {s : σ} :
    ¬ Halts (.done a : Program (σ × Q) (fun x => R x.2) α) t q s := by
  rintro ⟨⟩

theorem halts_tag {p : Program Q R α} {t : Trace R} {q : Q} {s s' : σ} :
    Halts (p.tag s) t q s' ↔ s' = s ∧ Reaches p t q := by
  induction p generalizing t with
  | done a => exact iff_of_false halts_done fun h => reaches_done h.2
  | ask q' next ih =>
    constructor
    · intro h
      cases h with
      | here => exact ⟨rfl, .here⟩
      | ask h =>
        obtain ⟨rfl, h⟩ := (ih _).mp h
        exact ⟨rfl, .ask h⟩
    · rintro ⟨rfl, h⟩
      cases h with
      | here => exact .here (x := (s', q))
      | ask h => exact .ask (x := (s', q')) ((ih _).mpr ⟨rfl, h⟩)

theorem halts_bind {p : Program (σ × Q) (fun x => R x.2) α}
    {f : α → Program (σ × Q) (fun x => R x.2) β} {t : Trace R} {q : Q} {s : σ} :
    Halts (p >>= f) t q s ↔
      Halts p t q s ∨ ∃ a t₁ t₂, t = t₁ ++ t₂ ∧ Runs p.untag t₁ a ∧ Halts (f a) t₂ q s := by
  induction p generalizing t with
  | done a =>
    constructor
    · exact fun h => .inr ⟨a, [], t, rfl, .done a, h⟩
    · rintro (h | ⟨b, t₁, t₂, rfl, h₁, h₂⟩)
      · exact absurd h halts_done
      · obtain ⟨rfl, rfl⟩ := runs_done.mp h₁
        exact h₂
  | ask x next ih =>
    constructor
    · intro h
      cases h with
      | here => exact .inl .here
      | ask h =>
        obtain h | ⟨a, t₁, t₂, rfl, h₁, h₂⟩ := (ih _).mp h
        · exact .inl (.ask h)
        · exact .inr ⟨a, _ :: t₁, t₂, rfl, .ask h₁, h₂⟩
    · rintro (h | ⟨a, t₁, t₂, rfl, h₁, h₂⟩)
      · cases h with
        | here => exact .here
        | ask h => exact .ask ((ih _).mpr (.inl h))
      · obtain ⟨r, t', rfl, h⟩ := runs_ask.mp h₁
        exact .ask ((ih r).mpr (.inr ⟨a, t', t₂, rfl, h, h₂⟩))

/-- `Unwinds x s t q s'`: from the record `s`, `x` has put the queries of `t` and is cut short
in the query `q`, which finds the record `s'`. -/
def Unwinds (x : Guarded Q R σ ε α) (s : σ) (t : Trace R) (q : Q) (s' : σ) : Prop :=
  Halts (x s) t q s'

theorem unwinds_call {x : Exec Q R ε α} {s s' : σ} {t : Trace R} {q : Q} :
    Unwinds (Guarded.call x : Guarded Q R σ ε α) s t q s' ↔ s' = s ∧ Reaches x.run t q := by
  rw [Unwinds, Guarded.call, map_eq_pure_bind, halts_bind, halts_tag]
  constructor
  · rintro (h | ⟨a, t₁, t₂, -, -, h⟩)
    · exact h
    · exact absurd h halts_done
  · exact .inl

theorem unwinds_bind {x : Guarded Q R σ ε α} {f : α → Guarded Q R σ ε β} {s s' : σ} {t : Trace R}
    {q : Q} :
    Unwinds (x >>= f) s t q s' ↔
      Unwinds x s t q s' ∨
        ∃ a s₁ t₁ t₂, t = t₁ ++ t₂ ∧ Ends x s t₁ (.ok a) s₁ ∧ Unwinds (f a) s₁ t₂ q s' := by
  refine (halts_bind (p := x s)).trans (or_congr_right ?_)
  constructor
  · rintro ⟨⟨r, s₁⟩, t₁, t₂, rfl, h₁, h₂⟩
    cases r with
    | ok a => exact ⟨a, s₁, t₁, t₂, rfl, h₁, h₂⟩
    | error e => exact absurd h₂ halts_done
  · rintro ⟨a, s₁, t₁, t₂, rfl, h₁, h₂⟩
    exact ⟨(.ok a, s₁), t₁, t₂, rfl, h₁, h₂⟩

/-- A triple over what has been put so far and the record: from `P`, a result comes with `O`, a
failure with `F`, and `U` holds wherever `x` is cut short. -/
structure Upholds (U F P : Trace R → σ → Prop) (x : Guarded Q R σ ε α)
    (O : α → Trace R → σ → Prop) : Prop where
  result : ∀ {u s t a s'}, P u s → Ends x s t (.ok a) s' → O a (u ++ t) s'
  failure : ∀ {u s t e s'}, P u s → Ends x s t (.error e) s' → F (u ++ t) s'
  unwound : ∀ {u s t q s'}, P u s → Unwinds x s t q s' → U (u ++ t) s'

variable {U F P P' : Trace R → σ → Prop} {x : Guarded Q R σ ε α} {O O' : α → Trace R → σ → Prop}
  {f : α → Guarded Q R σ ε β} {O₂ : β → Trace R → σ → Prop}

theorem Upholds.mono (h : Upholds U F P x O) (hP : ∀ u s, P' u s → P u s)
    (hO : ∀ a u s, O a u s → O' a u s) : Upholds U F P' x O' :=
  ⟨fun hp he => hO _ _ _ (h.result (hP _ _ hp) he), fun hp => h.failure (hP _ _ hp),
    fun hp => h.unwound (hP _ _ hp)⟩

theorem upholds_pure {a : α} (h : ∀ u s, P u s → O a u s) :
    Upholds U F P (pure a : Guarded Q R σ ε α) O where
  result hp he := by
    obtain ⟨rfl, ha, rfl⟩ := ends_pure.mp he
    obtain rfl := Except.ok.inj ha
    rw [List.append_nil]
    exact h _ _ hp
  failure _ he := by cases (ends_pure.mp he).2.1
  unwound _ hu := absurd hu halts_done

theorem upholds_fail {e : ε} (h : ∀ u s, P u s → F u s) :
    Upholds U F P (Guarded.fail e : Guarded Q R σ ε α) O where
  result _ he := by cases (ends_fail.mp he).2.1
  failure hp he := by
    obtain ⟨rfl, -, rfl⟩ := ends_fail.mp he
    rw [List.append_nil]
    exact h _ _ hp
  unwound _ hu := absurd hu halts_done

theorem upholds_modify {g : σ → σ} {O : Unit → Trace R → σ → Prop}
    (h : ∀ u s, P u s → O () u (g s)) :
    Upholds U F P (Guarded.modify g : Guarded Q R σ ε Unit) O where
  result hp he := by
    obtain ⟨rfl, -, rfl⟩ := ends_modify.mp he
    rw [List.append_nil]
    exact h _ _ hp
  failure _ he := by cases (ends_modify.mp he).2.1
  unwound _ hu := absurd hu halts_done

theorem upholds_bind (hx : Upholds U F P x O) (hf : ∀ a, Upholds U F (O a) (f a) O₂) :
    Upholds U F P (x >>= f) O₂ where
  result hp he := by
    obtain ⟨e, ho, -⟩ | ⟨a, s₁, t₁, t₂, rfl, h₁, h₂⟩ := ends_bind.mp he
    · cases ho
    · rw [← List.append_assoc]
      exact (hf a).result (hx.result hp h₁) h₂
  failure hp he := by
    obtain ⟨e, ho, h⟩ | ⟨a, s₁, t₁, t₂, rfl, h₁, h₂⟩ := ends_bind.mp he
    · exact hx.failure hp h
    · rw [← List.append_assoc]
      exact (hf a).failure (hx.result hp h₁) h₂
  unwound hp hu := by
    obtain h | ⟨a, s₁, t₁, t₂, rfl, h₁, h₂⟩ := unwinds_bind.mp hu
    · exact hx.unwound hp h
    · rw [← List.append_assoc]
      exact (hf a).unwound (hx.result hp h₁) h₂

theorem upholds_call {y : Exec Q R ε α}
    (hok : ∀ {u s t a}, P u s → Finishes y t (.ok a) → O a (u ++ t) s)
    (herr : ∀ {u s t e}, P u s → Finishes y t (.error e) → F (u ++ t) s)
    (hcut : ∀ {u s t q}, P u s → Reaches y.run t q → U (u ++ t) s) :
    Upholds U F P (Guarded.call y : Guarded Q R σ ε α) O where
  result hp he := by
    obtain ⟨rfl, h⟩ := ends_call.mp he
    exact hok hp h
  failure hp he := by
    obtain ⟨rfl, h⟩ := ends_call.mp he
    exact herr hp h
  unwound hp hu := by
    obtain ⟨rfl, h⟩ := unwinds_call.mp hu
    exact hcut hp h

end Hbird.Interaction
