import MiniLisp.Proofs.Eval.OneRun

/-!
# More depth

This module shows that a result or a fault does not depend on the bound on the depth of
evaluation: once a depth is enough, every greater depth gives the same outcome and leaves
the same store (`eval_refines`).

Only the evaluation of parts uses depth.  So it is enough that every step of evaluation
passes on that one action does all that another does (`Judgement.refinement`), and the
theorem follows by induction on the lesser depth.
-/

namespace MiniLisp

namespace Action

/-- Wherever the first action ends, the second one ends alike, with related results. -/
def RefinesBy
    {Result : Type}
    (related : Result → Result → Prop)
    (action other : Action Result) :
    Prop :=
  ∀ store outcome after,
    action.outcome store = some (outcome, after) →
      ∃ outcome',
        other.outcome store = some (outcome', after) ∧
          ResultsAgree .same related outcome outcome'

namespace RefinesBy

variable {First Second : Type}

/-- An action does what it does itself. -/
theorem refl
    {related : First → First → Prop}
    (reflexive : ∀ result, related result result)
    (action : Action First) :
    action.RefinesBy related action :=
  fun _ outcome _ ends => ⟨outcome, ends, .same fun result _ => reflexive result⟩

theorem bind
    {early : First → First → Prop}
    {late : Second → Second → Prop}
    {action other : Action First}
    {next following : First → Action Second}
    (refines : action.RefinesBy early other)
    (rest :
      ∀ result result', early result result' → (next result).RefinesBy late (following result')) :
    (action >>= next).RefinesBy late (other >>= following) := by
  intro store outcome after ends
  rw [outcome_bind]
  rcases outcome_bind_cases ends with ⟨fault, rfl, failed⟩ | ⟨value, between, made, later⟩
  · obtain ⟨outcome', failed', agree⟩ := refines store _ after failed
    rw [failed']
    cases agree
    exact ⟨_, rfl, .fault fault⟩
  · obtain ⟨outcome', made', agree⟩ := refines store _ between made
    rw [made']
    cases agree with
    | result holds => exact rest value _ holds between outcome after later

end RefinesBy

/-- Wherever the first action ends, the second one ends in the same way. -/
abbrev Refines
    {Result : Type}
    (action other : Action Result) :
    Prop :=
  action.RefinesBy Eq other

namespace Refines

variable {First Second : Type}

theorem refl
    (action : Action First) :
    action.Refines action :=
  RefinesBy.refl (fun _ => rfl) action

theorem ends
    {action other : Action First}
    (refines : action.Refines other)
    {store : Store}
    {ending : Except Fault First × Store}
    (ends : action.outcome store = some ending) :
    other.outcome store = some ending := by
  obtain ⟨outcome', ends', agree⟩ := refines store ending.1 ending.2 ends
  rw [ends', agree.eq_of_same]

theorem bind
    {action other : Action First}
    {next following : First → Action Second}
    (refines : action.Refines other)
    (rest : ∀ result, (next result).Refines (following result)) :
    (action >>= next).Refines (other >>= following) := by
  apply RefinesBy.bind refines
  rintro result _ rfl
  exact rest result

theorem map
    (change : First → Second)
    {action other : Action First}
    (refines : action.Refines other) :
    (change <$> action).Refines (change <$> other) := by
  rw [map_eq_pure_bind, map_eq_pure_bind]
  exact refines.bind fun _ => refl _

end Refines

end Action

/-- Wherever the first evaluation ends, the second one ends in the same way. -/
def Evaluator.Refines (evaluate other : Evaluator) : Prop :=
  ∀ frame form, (evaluate frame form).Refines (other frame form)

/-- A run of which nothing is asked. -/
def OneRun.unconditional : OneRun where

namespace Judgement

private theorem opened_unconditional {frame inner : FrameId} :
    OneRun.unconditional.toConditions.Opened () frame inner where
  placed := trivial
  form := id
  may := fun _ => trivial
  target := fun _ => trivial

/-- The second action does all that the first does. -/
def refinement : Judgement where
  toConditions := OneRun.unconditional.toConditions
  holds := fun _ related action other => action.RefinesBy (related ()) other
  applied := OneRun.applied
  pure := by
    rintro Result world related result other holds store _ _ ⟨⟩
    exact ⟨_, rfl, .result holds⟩
  fail := by
    rintro Result world related fault - store _ _ ⟨⟩
    exact ⟨_, rfl, .fault fault⟩
  bind := fun refines rest => refines.bind fun result result' => rest () result result' trivial
  lookup := fun _ _ _ => .refl (fun _ => ⟨rfl, trivial⟩) _
  define := by
    rintro world frame name given other - - ⟨rfl, -⟩
    exact .refl (fun _ => trivial) _
  openFrame := by
    intro world frame pairs others _ bound
    rw [(OneRun.same_of_forall₂_bindings bound).1]
    exact .refl (fun inner => ⟨inner, rfl, rfl, opened_unconditional⟩) _
  makeClosure := by
    rintro world frame names parameters body other - - ⟨rfl, -⟩
    have same := Parameters.rename_id parameters
    exact same.symm ▸ .refl (fun _ => ⟨rfl, trivial⟩) _
  write := fun text => .refl (fun _ => trivial) _

end Judgement

/-- Evaluation to a greater depth does all that evaluation to a lesser depth does. -/
theorem eval_refines
    {depth more : Nat}
    (deeper : depth ≤ more) :
    Evaluator.Refines (eval depth) (eval more) := by
  have evaluates : Judgement.refinement.Evaluates (eval depth) (eval more) := by
    induction depth generalizing more with
    | zero =>
        rintro _ _ _ _ _ _ _ _ _ ⟨⟩
    | succ depth ih =>
        cases more with
        | zero => cases deeper
        | succ more =>
            apply Judgement.evaluates_evalForm fun _ _ _ _ _ _ _ => trivial
            exact ih (Nat.le_of_succ_le_succ deeper)
  intro frame form store outcome after ends
  have ready : OneRun.unconditional.toConditions.Ready () frame .here form form :=
    ⟨rfl, trivial⟩
  obtain ⟨outcome', ends', agree⟩ := evaluates trivial ready store outcome after ends
  exact ⟨outcome', ends', agree.mono fun _ _ same => same.1.symm⟩

end MiniLisp
