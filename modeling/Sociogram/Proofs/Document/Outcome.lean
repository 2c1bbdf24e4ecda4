import Sociogram.Proofs.Document.Value

/-!
Outcomes that are the same as far as a report tells faults apart. Reading goes on alike from
such outcomes, and steps that can be taken in either order can be taken in any order.
-/

namespace Sociogram

/-! ## Outcomes -/

section

variable {Fault Report Value Result State Input : Type} {report : Fault → Report}

/-- The two outcomes are the same, as far as the report tells one fault from another. -/
def SameOutcome (report : Fault → Report) (first second : Except Fault Value) : Prop :=
  first.mapError report = second.mapError report

def unreported : Fault → Unit := fun _ => ()

namespace SameOutcome

theorem refl (outcome : Except Fault Value) : SameOutcome report outcome outcome := rfl

theorem symm {first second : Except Fault Value} (same : SameOutcome report first second) :
    SameOutcome report second first := Eq.symm same

theorem trans {first second third : Except Fault Value} (same : SameOutcome report first second)
    (next : SameOutcome report second third) : SameOutcome report first third :=
  Eq.trans same next

theorem bind {first second : Except Fault Value} {next other : Value → Except Fault Result}
    (same : SameOutcome report first second)
    (each : ∀ value, first = .ok value → SameOutcome report (next value) (other value)) :
    SameOutcome report (first >>= next) (second >>= other) := by
  cases first with
  | error fault =>
      cases second with
      | error _ => exact congrArg Except.error (Except.error.inj same)
      | ok _ => cases same
  | ok value =>
      cases second with
      | error _ => cases same
      | ok _ =>
          obtain rfl := Except.ok.inj same
          exact each value rfl

theorem map {first second : Except Fault Value} (same : SameOutcome report first second)
    (image : Value → Result) : SameOutcome report (first.map image) (second.map image) :=
  same.bind fun _ _ => refl _

end SameOutcome

theorem sameOutcome_id_iff {first second : Except Fault Value} :
    SameOutcome id first second ↔ first = second := by
  cases first <;> cases second <;> simp [SameOutcome, Except.mapError]

theorem sameOutcome_unreported_iff {first second : Except Fault Value} :
    SameOutcome unreported first second ↔ ∀ value, first = .ok value ↔ second = .ok value := by
  cases first with
  | error _ => cases second <;> simp [SameOutcome, Except.mapError, unreported]
  | ok value =>
      cases second with
      | error _ => simp [SameOutcome, Except.mapError]
      | ok _ =>
          simp only [SameOutcome, Except.mapError, Except.ok.injEq]
          exact ⟨fun equal _ => by rw [equal], fun each => ((each value).mp rfl).symm⟩

/-! ## Steps and items -/

theorem sameOutcome_foldlM {step : State → Input → Except Fault State} {item other : Input}
    (same : ∀ state, SameOutcome report (step state item) (step state other))
    (before after : List Input) (start : State) :
    SameOutcome report ((before ++ item :: after).foldlM step start)
      ((before ++ other :: after).foldlM step start) := by
  simp only [List.foldlM_append, List.foldlM_cons]
  exact (SameOutcome.refl _).bind fun state _ => (same state).bind fun _ _ => .refl _

theorem sameOutcome_mapM {read : Input → Except Fault Value} {item other : Input}
    (same : SameOutcome report (read item) (read other)) (before after : List Input) :
    SameOutcome report ((before ++ item :: after).mapM read)
      ((before ++ other :: after).mapM read) := by
  simp only [List.mapM_append, List.mapM_cons]
  exact (SameOutcome.refl _).bind fun _ _ => (same.bind fun _ _ => .refl _).bind fun _ _ =>
    .refl _

theorem sameOutcome_foldlM_of_perm {step : State → Input → Except Fault State}
    (commute : ∀ state first second,
      SameOutcome report (step state first >>= (step · second))
        (step state second >>= (step · first)))
    {items others : List Input} (perm : items.Perm others) (start : State) :
    SameOutcome report (items.foldlM step start) (others.foldlM step start) := by
  induction perm generalizing start with
  | nil => exact .refl _
  | cons item _ induction =>
      simp only [List.foldlM_cons]
      exact (SameOutcome.refl _).bind fun state _ => induction state
  | swap first second rest =>
      simp only [List.foldlM_cons, ← bind_assoc]
      exact (commute start second first).bind fun _ _ => .refl _
  | trans _ _ induction next => exact (induction start).trans (next start)

end

end Sociogram
