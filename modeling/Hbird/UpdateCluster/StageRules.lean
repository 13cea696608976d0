import Hbird.Interaction.Unwind
import Hbird.UpdateCluster.Nodes

namespace Hbird.UpdateCluster

open Hbird.Interaction Step

/-- `p` puts one query, and `x` says which exchange that makes. -/
structure Single {β : Type} (p : Program Stage Stage.Result β) (x : β → Exchange Stage.Result) :
    Prop where
  runs : ∀ {t r}, Runs p t r → t = [x r]
  reaches : ∀ {t q}, Reaches p t q → t = []

theorem single_stage (q : Stage) : Single (stage q) fun r => ⟨q, r⟩ :=
  ⟨runs_stage.mp, fun h => (reaches_perform.mp h).1⟩

variable {α : Type} {text : String} {p : Program Stage Stage.Result (Except Failure α)}
  {x : Except Failure α → Exchange Stage.Result} {U F P : Trace Stage.Result → InFlight → Prop}

section Fallible

variable {O : α → Trace Stage.Result → InFlight → Prop} (hp : Single p x)
  (hok : ∀ u s a, P u s → O a (u ++ [x (.ok a)]) s)
  (herr : ∀ u s e, P u s → F (u ++ [x (.error e)]) s) (hcut : ∀ u s, P u s → U u s)
include hp hok herr hcut

theorem upholds_must : Upholds U F P (must p) O := by
  refine upholds_call ?_ ?_ ?_
  · intro u s t a hP h
    rw [hp.runs h]
    exact hok u s a hP
  · intro u s t e hP h
    rw [hp.runs h]
    exact herr u s e hP
  · intro u s t q hP h
    rw [hp.reaches h, List.append_nil]
    exact hcut u s hP

theorem upholds_mustFor : Upholds U F P (mustFor text p) O := by
  refine upholds_call ?_ ?_ ?_
  · intro u s t a hP h
    rw [hp.runs (finishes_context_ok.mp h)]
    exact hok u s a hP
  · intro u s t e hP h
    obtain ⟨r, hr, hrun⟩ := finishes_context.mp h
    cases r with
    | ok a => cases hr
    | error e' =>
      rw [hp.runs hrun]
      exact herr u s e' hP
  · intro u s t q hP h
    rw [hp.reaches (reaches_map.mp h), List.append_nil]
    exact hcut u s hP

end Fallible

theorem upholds_ignore {O : Unit → Trace Stage.Result → InFlight → Prop} (hp : Single p x)
    (hok : ∀ u s r, P u s → O () (u ++ [x r]) s) (hcut : ∀ u s, P u s → U u s) :
    Upholds U F P (ignore p) O := by
  refine upholds_call ?_ ?_ ?_
  · intro u s t a hP h
    obtain ⟨r, t₁, t₂, rfl, h₁, h₂⟩ := finishes_outcome_bind.mp h
    obtain ⟨rfl, -⟩ := finishes_pure.mp h₂
    rw [hp.runs h₁, List.append_nil]
    exact hok u s r hP
  · intro u s t e hP h
    obtain ⟨r, t₁, t₂, rfl, h₁, h₂⟩ := finishes_outcome_bind.mp h
    cases (finishes_pure.mp h₂).2
  · intro u s t q hP h
    obtain h | ⟨r, t₁, t₂, rfl, -, h₂⟩ := reaches_bind.mp h
    · rw [hp.reaches (reaches_map.mp h), List.append_nil]
      exact hcut u s hP
    · exact absurd h₂ (by cases r <;> exact reaches_done)

end Hbird.UpdateCluster
