import RecognizerModel.Proofs.CoupledModel

/-! Validation only ever stops a job. Where every extension keeps its contract the job builds the
same without validation, step by step. -/
namespace RecognizerModel

namespace Chain

/-- What a pass finds in order comes back as it does if nothing is looked at. -/
theorem pass_free_of_ok {p : Point} {contract : Contract N} {hook : Extension → N → N}
    {extensions : List Extension} {node after : N}
    (h : (pass p contract hook extensions node).outcome = .ok after) :
    (pass p .free hook extensions node).outcome = .ok after := by
  induction extensions generalizing node with
  | nil => exact h
  | cons e rest ih =>
      unfold pass at h
      dsimp only at h
      split at h
      · cases h
      · exact ih h

end Chain

namespace Setup

/-- The same setup with or without validation. -/
def validating (validate : Bool) (setup : Setup) : Setup :=
  { setup with chain := { setup.chain with validate } }

/-- A validated job may stop where one that is not goes on, and then it does so for good. -/
def unvalidated : Coupling :=
  .same id (∃ error, · = .fatal error) fun _ => False

theorem unvalidated_visits (setup : Setup) :
    unvalidated.Visits (setup.validating true) (setup.validating false) where
  vocabulary := rfl
  labelTarget := rfl
  visit p {node node'} same := by
    obtain rfl : node = node' := same
    refine (Coupling.coupled_recordVisits p p _ _).bind fun _ _ _ => ?_
    cases hfold : ((setup.validating true).chain.fold p p.anchor? node).outcome with
    | error error => exact fun _ _ _ => .left ⟨error, rfl⟩
    | ok after =>
        have free : ((setup.validating false).chain.fold p p.anchor? node).outcome = .ok after :=
          Chain.pass_free_of_ok hfold
        rw [free]
        exact Coupling.coupled_pure rfl

theorem unvalidated_jobs (setup : Setup) :
    unvalidated.Jobs (setup.validating true) (setup.validating false) where
  toVisits := setup.unvalidated_visits
  reference := setup.unvalidated_visits.reference fun span op =>
    (setup.unvalidated_visits.labelIfNeeded (fun _ _ => rfl) span op).imp fun _ _ same =>
      congrArg (fun op => [op]) same
  choose fits related := setup.unvalidated_visits.choose (fun _ => rfl) fits related
  target := rfl
  name := rfl
  kind := rfl
  rules := by
    have here : Rule.moved unvalidated.move = id := Rule.moved_id
    rw [here, List.map_id]
    rfl
  actions := rfl
  good := ⟨fun _ => id, fun _ => False.elim⟩

end Setup

/-- Beside a run that comes to its end one that does not stop by itself comes to its end too. -/
theorem Coupling.Runs.exists_of_ok {C : Coupling} {R : α → β → Prop} {a : α}
    {first : Except Failure α × JobState} {second : Except Failure β × JobState}
    (runs : C.Runs R first second) (along : ∀ failure, ¬C.rightStops failure)
    (h : first.1 = .ok a) : ∃ b, second.1 = .ok b ∧ R a b := by
  cases runs with
  | ended related _ =>
      cases h
      exact ⟨_, rfl, related⟩
  | failed | left => cases h
  | right stops => exact absurd stops (along _)

/-- Models that are the same at the same places are equal. -/
theorem Coupling.Jobs.Models.eq_of_same {leftStops rightStops : Failure → Prop}
    {model model' : ParserModel} (h : Models (same id leftStops rightStops) model model') :
    model' = model := by
  rw [h.eq_moved, ParserModel.moved_id, id]

namespace Grammar

/-- What a job builds under validation it builds without. -/
theorem ok_of_validated (g : Grammar) (config : Config) (extensions : List Extension) :
    (∀ model, g.parserResult { config with validate := true } extensions = .ok model →
      g.parserResult { config with validate := false } extensions = .ok model) ∧
    ∀ file, g.lexerResult { config with validate := true } extensions = .ok file →
      g.lexerResult { config with validate := false } extensions = .ok file := by
  obtain ⟨target, validate, treeBuilding⟩ := config
  cases target with
  | none => exact ⟨nofun, nofun⟩
  | some target =>
      let first := if treeBuilding then [Extension.treeBuilding] else []
      let setup : Setup := { grammar := g, target, chain := ⟨first ++ extensions, true⟩ }
      have jobs := setup.unvalidated_jobs
      constructor
      · intro model h
        have runs := jobs.parserModel _ _ Coupling.states_empty
        obtain ⟨model', run, models⟩ := runs.exists_of_ok (fun _ => id) h
        rw [← models.eq_of_same]
        exact run
      · intro file h
        have runs := jobs.lexerModel _ _ Coupling.states_empty
        obtain ⟨file', run, rfl⟩ := runs.exists_of_ok (fun _ => id) h
        exact run

/-- A grammar for both recognizers, of which the first rule breaks off inside a choice. -/
def brokenAndToken : Grammar :=
  (load ("(COMBINED_GRAMMAR C(RULE a(BLOCK(ALT(BLOCK(ALT(TOKEN_REF ID))(ALT)))))" ++
    "(RULE b(BLOCK(ALT(TOKEN_REF ID))))(RULE ID(BLOCK(ALT(STRING_LITERAL 'x')))))")).toOption.get
      (by decide +kernel)

/-- An extension that runs code behind every rule. -/
def tracing : Extension where
  name := "tracing"
  hook
    | .rulePostamble, ops => ops ++ [.action "trace();"]
    | _, node => node

/-- Both jobs come to their end here, and no extension is in the way. -/
theorem ok_of_validated_brokenAndToken : ∃ model file,
    brokenAndToken.parserResult ⟨some .java, true, true⟩ [tracing] = .ok model ∧
      brokenAndToken.parserResult ⟨some .java, false, true⟩ [tracing] = .ok model ∧
      brokenAndToken.lexerResult ⟨some .java, true, true⟩ [tracing] = .ok file ∧
      brokenAndToken.lexerResult ⟨some .java, false, true⟩ [tracing] = .ok file := by
  have runs : (brokenAndToken.parserResult ⟨some .java, true, true⟩ [tracing]).isOk = true ∧
      (brokenAndToken.lexerResult ⟨some .java, true, true⟩ [tracing]).isOk = true := by
    decide +kernel
  obtain ⟨parser, lexer⟩ := ok_of_validated brokenAndToken ⟨some .java, true, true⟩ [tracing]
  rcases hmodel : brokenAndToken.parserResult ⟨some .java, true, true⟩ [tracing] with _ | model
  · rw [hmodel] at runs
    cases runs.1
  rcases hfile : brokenAndToken.lexerResult ⟨some .java, true, true⟩ [tracing] with _ | file
  · rw [hfile] at runs
    cases runs.2
  exact ⟨model, file, rfl, parser model hmodel, rfl, lexer file hfile⟩

end Grammar

end RecognizerModel
