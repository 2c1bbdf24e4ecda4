import Sociogram.Session

/-!
Runs of sessions. Steps that fail might as well not have been taken, and what is kept under a name
stays there until something else is kept under it, whatever becomes of the network meanwhile.
-/

namespace Sociogram

namespace Session

variable {session : Session} {slot name : String}

def Outcome.isFailure : Outcome → Bool
  | failed _ => true
  | unknown => true
  | _ => false

/-! ## Steps -/

/-- What a step can do: nothing at all, or it is done and has changed one of three things. -/
theorem step_cases (session : Session) (step : Step) :
    (session.step step).1 = session ∨
    (∃ network, session.step step = session.become network) ∨
    (∃ name purpose format text compiled, step = .compile name purpose format text ∧
      session.step step =
        ({ session with compiled := Keyed.insert name compiled session.compiled }, .done)) ∨
    ∃ slot, step = .save slot ∧
      session.step step =
        ({ session with slots := Keyed.insert slot session.network session.slots }, .done) := by
  cases step with
  | load format text =>
      rw [Session.step]
      split
      · exact .inr (.inl ⟨_, rfl⟩)
      · exact .inl rfl
  | compile name purpose format text =>
      rw [Session.step]
      split
      · exact .inr (.inr (.inl ⟨name, purpose, format, text, _, rfl, rfl⟩))
      · exact .inl rfl
  | apply name =>
      rw [Session.step]
      split
      · exact .inr (.inl ⟨_, rfl⟩)
      · exact .inr (.inl ⟨_, rfl⟩)
      · exact .inl rfl
      · exact .inl rfl
  | peek name =>
      rw [Session.step]
      split <;> exact .inl rfl
  | restore slot =>
      rw [Session.step]
      split
      · exact .inr (.inl ⟨_, rfl⟩)
      · exact .inl rfl
  | equals slot =>
      rw [Session.step]
      split <;> exact .inl rfl
  | save slot => exact .inr (.inr (.inr ⟨slot, rfl, rfl⟩))
  | clear | addNode node | addEdge edge | setEgo ego | trim | empty =>
      exact .inr (.inl ⟨_, rfl⟩)
  | get id attributeName => exact .inl rfl
  | statistics => exact .inl rfl
  | dump => exact .inl rfl

/-- A step that fails changes nothing. -/
theorem step_of_isFailure {step : Step} (fails : (session.step step).2.isFailure = true) :
    (session.step step).1 = session := by
  rcases session.step_cases step with
    same | ⟨_, done⟩ | ⟨_, _, _, _, _, _, done⟩ | ⟨_, _, done⟩
  · exact same
  all_goals
    rw [done] at fails
    cases fails

theorem get?_slots_step {step : Step} (unsaved : step ≠ .save slot) :
    Keyed.get? slot (session.step step).1.slots = Keyed.get? slot session.slots := by
  rcases session.step_cases step with
    same | ⟨_, done⟩ | ⟨_, _, _, _, _, _, done⟩ | ⟨other, rfl, done⟩
  · rw [same]
  · rw [done, become]
  · rw [done]
  · rw [done]
    have different : slot ≠ other := fun same => unsaved (congrArg Step.save same.symm)
    exact Keyed.get?_insert_of_ne different _ _

theorem get?_compiled_step {step : Step}
    (uncompiled : ∀ purpose format text, step ≠ .compile name purpose format text) :
    Keyed.get? name (session.step step).1.compiled = Keyed.get? name session.compiled := by
  rcases session.step_cases step with
    same | ⟨_, done⟩ | ⟨other, _, _, _, _, rfl, done⟩ | ⟨_, _, done⟩
  · rw [same]
  · rw [done, become]
  · rw [done]
    have different : name ≠ other := by
      rintro rfl
      exact uncompiled _ _ _ rfl
    exact Keyed.get?_insert_of_ne different _ _
  · rw [done]

/-! ## Runs -/

def after (session : Session) : List Step → Session
  | [] => session
  | step :: steps => (session.step step).1.after steps

@[simp] theorem run_cons (session : Session) (step : Step) (steps : List Step) :
    session.run (step :: steps) =
      ((session.step step).2, (session.step step).1.network) ::
        (session.step step).1.run steps :=
  rfl

theorem run_append (session : Session) (first second : List Step) :
    session.run (first ++ second) = session.run first ++ (session.after first).run second := by
  induction first generalizing session with
  | nil => rfl
  | cons step steps induction =>
      rw [List.cons_append, run_cons, run_cons, after, induction, List.cons_append]

theorem after_preserves (property : Session → Prop) {steps : List Step}
    (preserves : ∀ step ∈ steps, ∀ session : Session,
      property session → property (session.step step).1)
    (holds : property session) : property (session.after steps) := by
  induction steps generalizing session with
  | nil => exact holds
  | cons step steps induction =>
      exact induction (fun later member => preserves later (List.mem_cons_of_mem _ member))
        (preserves step List.mem_cons_self session holds)

/-! ## Failures -/

def succeeding (session : Session) : List Step → List Step
  | [] => []
  | step :: steps =>
      let later := (session.step step).1.succeeding steps
      if (session.step step).2.isFailure then later else step :: later

/-- Steps that fail can be left out: the others do the same without them. -/
theorem run_succeeding (session : Session) (steps : List Step) :
    session.run (session.succeeding steps) =
        (session.run steps).filter (fun report => !report.1.isFailure) ∧
      session.after (session.succeeding steps) = session.after steps := by
  induction steps generalizing session with
  | nil => exact ⟨rfl, rfl⟩
  | cons step steps induction =>
      have ⟨reports, last⟩ := induction (session.step step).1
      cases fails : (session.step step).2.isFailure with
      | true =>
          -- The other steps are taken from the same session with and without this one.
          rw [step_of_isFailure fails] at reports last
          simp [succeeding, after, fails, step_of_isFailure fails, reports, last]
      | false => simp [succeeding, after, fails, reports, last]

/-! ## Names -/

/-- What has been saved is restored, whatever happens in between, as long as nothing else is saved
in the same slot. -/
theorem restore_saved {steps : List Step} (unsaved : .save slot ∉ steps) :
    let later := (session.step (.save slot)).1.after steps
    later.step (.restore slot) = later.become session.network := by
  intro later
  have kept : Keyed.get? slot later.slots = some session.network := by
    apply after_preserves fun other => Keyed.get? slot other.slots = some session.network
    · intro step member other holds
      have different : step ≠ .save slot := fun same => unsaved (same ▸ member)
      rw [get?_slots_step different, holds]
    · exact Keyed.get?_insert_self _ _ _
  rw [Session.step, kept]

theorem run_restore_saved {steps : List Step} (unsaved : .save slot ∉ steps) :
    session.run (.save slot :: steps ++ [.restore slot]) =
      session.run (.save slot :: steps) ++ [(.done, session.network)] := by
  rw [run_append, after]
  have last := run_cons ((session.step (.save slot)).1.after steps) (.restore slot) []
  rw [restore_saved unsaved] at last
  rw [last]
  rfl

/-- What has been compiled is applied to the network of the time, whatever happens in between, as
long as nothing else is compiled under the same name. -/
theorem apply_compiled {ruleSet : RuleSet} {format : Format} {text : String} {steps : List Step}
    (reads : RuleSet.ofText format text = .ok ruleSet) (purpose : Purpose)
    (uncompiled : ∀ purpose format text, .compile name purpose format text ∉ steps) :
    let later := (session.step (.compile name purpose format text)).1.after steps
    later.step (.apply name) =
      match purpose with
      | .filter => later.become ((Filter.ofRuleSet ruleSet).apply later.network)
      | .singlePass => later.become ((SinglePassFilter.ofRuleSet ruleSet).apply later.network)
      | .query => (later, .verdict ((Query.ofRuleSet ruleSet).evaluate later.network)) := by
  intro later
  have kept : Keyed.get? name later.compiled = some (.ofRuleSet purpose ruleSet) := by
    apply after_preserves fun other =>
      Keyed.get? name other.compiled = some (.ofRuleSet purpose ruleSet)
    · intro step member other holds
      have different : ∀ purpose format text, step ≠ .compile name purpose format text :=
        fun purpose format text same => uncompiled purpose format text (same ▸ member)
      rw [get?_compiled_step different, holds]
    · rw [Session.step, reads]
      exact Keyed.get?_insert_self _ _ _
  rw [Session.step, kept]
  cases purpose <;> rfl

end Session

end Sociogram
