import RecognizerModel.Proofs.FatalErrors
import RecognizerModel.Proofs.RuleRun
import RecognizerModel.Proofs.Validation

/-! Jobs that build trees, beside jobs that do not. Tree building puts operations into rules and
fields into contexts. What is reported of the rules stays the same. -/
namespace RecognizerModel

/-- What a model says of its rules. -/
def ParserModel.reports (m : ParserModel) : List RuleOutcome × List Diagnostic :=
  (m.outcomes, m.diagnostics)

/-- The setup for a grammar with tree building alone. -/
def Setup.treeing (g : Grammar) (target : Target) (validate : Bool) : Setup :=
  { grammar := g, target, chain := ⟨[.treeBuilding], validate⟩ }

/-- Whether nodes of a sort that have a name have the same. -/
def Subject.Namesakes : (s : Subject) → s.Node → s.Node → Prop
  | .file, f, f' => f'.recognizer.name = f.recognizer.name
  | .parserTable, table, table' => table'.name = table.name
  | .lexerTable, table, table' => table'.name = table.name
  | .ruleFunction, f, f' => f'.name = f.name
  | _, _, _ => True

theorem Subject.Namesakes.refl {s : Subject} (node : s.Node) : s.Namesakes node node := by
  cases s <;> first | exact rfl | exact True.intro

theorem Diagnostic.append_moved_id {ds ds' : List Diagnostic} (d : Diagnostic) (same : ds' = ds) :
    ds' ++ [d.moved id] = ds ++ [d] := by
  rw [same, moved_id, id]

/-- Jobs that report the same on rules of the same names. The second may want a rule on the stack
for a label that the first does without. -/
def Coupling.reportingAlike : Coupling where
  move := id
  nodes := Subject.Namesakes
  diagnostics ds ds' := ds' = ds
  leftStops _ := False
  rightStops := (· = .fatal .ruleStackEmpty)
  refl := Subject.Namesakes.refl
  append _ _ := trivial
  opsOf _ := trivial
  fill _ _ := trivial
  inChoice _ _ _ _ _ := trivial
  ofChoice _ := trivial
  inWhole _ _ := trivial
  inOptional _ _ _ := trivial
  inClosure _ _ _ := trivial
  inTree _ _ _ _ := trivial
  ofWhole _ := trivial
  ofOptional _ := trivial
  ofClosure _ := trivial
  ofTree _ := trivial
  name := id
  declare _ := id
  withCode h _ := h
  finish _ h _ := h
  recognizerName := id
  inParser _ h _ := h
  inLexer _ h := h
  noDiagnostics := rfl
  report := Diagnostic.append_moved_id

namespace Setup

variable {g : Grammar} {target : Target} {validate : Bool}

theorem ofConfig_treeing (g : Grammar) (target : Target) (validate : Bool) :
    ofConfig g ⟨some target, validate, true⟩ [] = .ok (treeing g target validate) := rfl

theorem treeing_keepsContracts (g : Grammar) (target : Target) :
    (treeing g target false).KeepsContracts :=
  fun _ _ => rfl

theorem namesakes_decorated {p : Point} {node node' : p.Node}
    (related : p.subject.Namesakes node node') :
    p.subject.Namesakes node ((treeing g target validate).decorated p node') := by
  cases p <;> exact related

theorem reportingAlike_visits (g : Grammar) (target : Target) (validate : Bool) :
    Coupling.reportingAlike.Visits (plain g target validate) (treeing g target false) where
  vocabulary := rfl
  labelTarget := rfl
  visit p {node node'} related := by
    intro s s' states
    obtain ⟨visits, hvisit⟩ :=
      (treeing_keepsContracts g target).visit_eq p node' s'
    rw [plain_visit, hvisit]
    exact .ended (namesakes_decorated related) ⟨states.contexts, states.diagnostics⟩

/-- Tree building wants a label on whatever has none. -/
theorem coupled_needsImplicitLabel {span : Span} {op : Op} (unlabeled : op.isUnlabeled = true) :
    Coupling.reportingAlike.Coupled (fun _ needed => needed = true)
      ((plain g target validate).needsImplicitLabel span op)
      ((treeing g target false).needsImplicitLabel span op) := by
  have wanted : (treeing g target false).chain.wantsLabel span op = true := by
    cases op <;> first | rfl | cases unlabeled
  refine Coupling.coupled_context fun c c' _ => ?_
  refine (Coupling.coupled_recordVisits _ _ _ _).bind fun _ _ _ => Coupling.coupled_pure ?_
  rw [wanted, Bool.or_true]

/-- A declaration in the second job alone. -/
theorem coupled_declare_right (op op' : Op) (field : Field) :
    Coupling.reportingAlike.Coupled (fun _ _ => True) (pure op)
      (do Job.modifyRule (·.declare field); return op') := by
  rintro ⟨⟨root, rules, alt, blocks, treeLevel⟩, ds, vs⟩
    ⟨⟨root', rules', alt', blocks', treeLevel'⟩, ds', vs'⟩ states
  have related : List.Forall₂ (Coupling.reportingAlike.nodes .ruleFunction) rules rules' :=
    states.contexts.rules
  cases related with
  | nil => exact .right rfl
  | cons first rest =>
      exact .ended trivial ⟨⟨.cons first rest, states.contexts.alt, states.contexts.blocks,
        states.contexts.treeLevel⟩, states.diagnostics⟩

theorem coupled_labelIfNeeded (span : Span) (op : Op) :
    Coupling.reportingAlike.Coupled (fun _ _ => True)
      ((plain g target validate).labelIfNeeded span op)
      ((treeing g target false).labelIfNeeded span op) := by
  unfold labelIfNeeded
  split
  · next unlabeled =>
    refine (coupled_needsImplicitLabel unlabeled).bind fun b b' needed => ?_
    subst needed
    cases b with
    | true =>
        exact ((reportingAlike_visits g target validate).defineImplicitLabel op).imp
          fun _ _ _ => trivial
    | false =>
        simp only [if_true, Bool.false_eq_true, if_false]
        unfold defineImplicitLabel
        cases (treeing g target false).implicitLabel? op with
        | none => exact Coupling.coupled_pure trivial
        | some label => exact coupled_declare_right op _ _
  · exact Coupling.coupled_pure trivial

theorem reportingAlike_jobs (g : Grammar) (target : Target) (validate : Bool) :
    Coupling.reportingAlike.Jobs (plain g target validate) (treeing g target false) where
  toVisits := reportingAlike_visits g target validate
  reference := (reportingAlike_visits g target validate).reference coupled_labelIfNeeded
  choose fits related :=
    (reportingAlike_visits g target validate).choose (fun _ => rfl) fits related
  target := rfl
  name := rfl
  kind := rfl
  rules := by
    have here : Rule.moved Coupling.reportingAlike.move = id := Rule.moved_id
    rw [here, List.map_id]
    rfl
  actions := rfl
  good := ⟨fun _ => False.elim, fun _ stops => ⟨_, stops⟩⟩

/-- With tree building alone, or without any extension, a job that is not refused comes to its
end. -/
theorem exists_ok_of_stock {setup : Setup} (stock : ∀ e ∈ setup.chain.extensions, e = .treeBuilding)
    (h : setup.checkJob .parser .empty = (.ok (), .empty)) :
    ∃ model, (setup.parserModel .empty).1 = .ok model := by
  rcases hrun : setup.parserModel .empty with ⟨failure | model, s⟩
  · obtain ⟨error, _, breach⟩ := setup.raises_parserModel h failure s hrun
    exact absurd breach (not_breach_of_treeBuilding stock error)
  · exact ⟨model, rfl⟩

/-- Stock jobs that stay together are refused alike, or both come to their end. -/
theorem models_of_stock {C : Coupling} {first second : Setup} (jobs : C.Jobs first second)
    (stock : ∀ e ∈ first.chain.extensions, e = .treeBuilding)
    (stock' : ∀ e ∈ second.chain.extensions, e = .treeBuilding) :
    (∃ failure, (first.parserModel .empty).1 = .error failure ∧
      (second.parserModel .empty).1 = .error failure) ∨
    ∃ model model', (first.parserModel .empty).1 = .ok model ∧
      (second.parserModel .empty).1 = .ok model' ∧ Coupling.Jobs.Models C model model' := by
  have checks : second.checkJob .parser .empty = first.checkJob .parser .empty := by
    simp only [checkJob_parser_eq, jobs.kind, jobs.name, jobs.rulesFor, List.map_eq_nil_iff]
  have check := first.checkJob_parser_eq .empty
  have refused {failure : Failure} (h : first.checkJob .parser .empty = (.error failure, .empty)) :
      ∃ failure, (first.parserModel .empty).1 = .error failure ∧
        (second.parserModel .empty).1 = .error failure := by
    refine ⟨failure, ?_, ?_⟩
    · rw [first.parserModel_of_refused h]
    · rw [second.parserModel_of_refused (checks.trans h)]
  split at check
  · exact .inl (refused check)
  · split at check
    · exact .inl (refused check)
    · obtain ⟨model, h⟩ := exists_ok_of_stock stock check
      obtain ⟨model', h'⟩ := exists_ok_of_stock stock' (checks.trans check)
      have runs := jobs.parserModel _ _ Coupling.states_empty
      refine .inr ⟨model, model', h, h', ?_⟩
      generalize first.parserModel .empty = run at runs h
      generalize second.parserModel .empty = run' at runs h'
      cases runs with
      | ended models _ =>
          cases h
          cases h'
          exact models
      | failed | left => cases h
      | right => cases h'

theorem treeing_stock : ∀ e ∈ (treeing g target validate).chain.extensions, e = .treeBuilding :=
  fun _ he => List.mem_singleton.mp he

/-- Tree building gets through validation, so it makes no difference. -/
theorem treeing_unvalidated (g : Grammar) (target : Target) (validate : Bool) :
    ((treeing g target validate).parserModel .empty).1 =
      ((treeing g target false).parserModel .empty).1 := by
  cases validate with
  | false => rfl
  | true =>
      rcases models_of_stock (treeing g target true).unvalidated_jobs treeing_stock treeing_stock
        with ⟨failure, h, h'⟩ | ⟨model, model', h, h', models⟩
      · exact h.trans h'.symm
      · rw [models.eq_of_same] at h'
        exact h.trans h'.symm

theorem reports_of_treeing (g : Grammar) (target : Target) (validate : Bool) :
    ((treeing g target validate).parserModel .empty).1.map ParserModel.reports =
      ((plain g target validate).parserModel .empty).1.map ParserModel.reports := by
  rw [treeing_unvalidated]
  rcases models_of_stock (reportingAlike_jobs g target validate) nofun treeing_stock
    with ⟨failure, h, h'⟩ | ⟨model, model', h, h', models⟩
  · rw [h, h']
  · have outcomes : model'.outcomes = model.outcomes.map (RuleOutcome.moved id) := models.outcomes
    rw [RuleOutcome.moved_id, List.map_id] at outcomes
    have diagnostics : model'.diagnostics = model.diagnostics := models.diagnostics
    rw [h, h']
    simp only [Except.map, ParserModel.reports, outcomes, diagnostics]

end Setup

end RecognizerModel
