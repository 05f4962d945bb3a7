import RecognizerModel.Proofs.CoupledWalk
import RecognizerModel.Proofs.RuleIsolation

/-! Two whole jobs side by side. Where two walks stay together the jobs make related files, and the
same outcomes and diagnostics but for the places of these. -/
namespace RecognizerModel

namespace Coupling

variable {C : Coupling} {R : α → β → Prop}

/-- Whether jobs that were attempted came to what is related or to the same construct. -/
inductive Attempted (C : Coupling) (R : α → β → Prop) :
    Except Malformed α → Except Malformed β → Prop
  | ok {a : α} {b : β} : R a b → Attempted C R (.ok a) (.ok b)
  | error (construct : Malformed) :
      Attempted C R (.error construct) (.error (construct.moved C.move))

/-- Whether a run stops by itself only for good. -/
structure StopsForGood (C : Coupling) : Prop where
  left : ∀ failure, C.leftStops failure → ∃ error, failure = .fatal error
  right : ∀ failure, C.rightStops failure → ∃ error, failure = .fatal error

theorem Coupled.attempt {job : Job α} {job' : Job β} (hjob : C.Coupled R job job')
    (good : C.StopsForGood) : C.Coupled (C.Attempted R) job.attempt job'.attempt := by
  intro s s' states
  have run := hjob s s' states
  unfold Job.attempt
  generalize job s = first at run ⊢
  generalize job' s' = second at run ⊢
  cases run with
  | ended related states => exact .ended (.ok related) states
  | failed failure states =>
      cases failure with
      | fatal error => exact .failed (.fatal error) states
      | malformed construct => exact .ended (.error construct) states
  | left stops =>
      obtain ⟨error, rfl⟩ := good.left _ stops
      exact .left stops
  | right stops =>
      obtain ⟨error, rfl⟩ := good.right _ stops
      exact .right stops

theorem coupled_settle (name : String) {result result' : Except Malformed (List Op)}
    (h : C.Attempted (C.nodes .ops) result result') :
    C.Coupled (fun outcome outcome' => outcome' = outcome.moved C.move)
      (Setup.settle name result) (Setup.settle name result') := by
  cases h with
  | ok related =>
      exact (coupled_modifyRule fun _ _ function => C.withCode function related).map
        fun _ _ _ => rfl
  | error construct => exact (coupled_report _).map fun _ _ _ => rfl

theorem coupled_popRule : C.Coupled (C.nodes .ruleFunction) Job.popRule Job.popRule := by
  rintro ⟨⟨root, rules, alt, blocks, treeLevel⟩, ds, vs⟩
    ⟨⟨root', rules', alt', blocks', treeLevel'⟩, ds', vs'⟩ states
  have related : List.Forall₂ (C.nodes .ruleFunction) rules rules' := states.contexts.rules
  cases related with
  | nil => exact .failed (.fatal .ruleStackEmpty) states
  | cons first rest =>
      exact .ended first ⟨⟨rest, states.contexts.alt, states.contexts.blocks,
        states.contexts.treeLevel⟩, states.diagnostics⟩

theorem coupled_takeDiagnostics :
    C.Coupled C.diagnostics Job.takeDiagnostics Job.takeDiagnostics :=
  fun _ _ states => .ended states.diagnostics ⟨states.contexts, C.noDiagnostics⟩

/-- Whether two setups are for the same grammar but for its places, and jobs under them stay
together. -/
structure Jobs (C : Coupling) (first second : Setup) : Prop extends C.Walks first second where
  target : second.target = first.target
  name : second.grammar.name = first.grammar.name
  kind : second.grammar.kind = first.grammar.kind
  rules : second.grammar.rules = first.grammar.rules.map (Rule.moved C.move)
  actions : second.grammar.actions = first.grammar.actions
  good : C.StopsForGood

namespace Jobs

variable {first second : Setup}

theorem rulesFor (h : C.Jobs first second) (kind : RecognizerKind) :
    second.grammar.rulesFor kind = (first.grammar.rulesFor kind).map (Rule.moved C.move) := by
  have lexer (rule : Rule) : second.grammar.isLexerRule (rule.moved C.move) =
      first.grammar.isLexerRule rule := by
    unfold Grammar.isLexerRule
    rw [h.kind]
    rfl
  unfold Grammar.rulesFor
  rw [h.rules, List.filter_map]
  simp only [Function.comp_def, lexer]

theorem ruleNames (h : C.Jobs first second) (kind : RecognizerKind) :
    second.grammar.ruleNames kind = first.grammar.ruleNames kind := by
  unfold Grammar.ruleNames
  rw [h.rulesFor, List.filterMap_map]
  rfl

theorem actionCode? (h : C.Jobs first second) (name : String) :
    second.grammar.actionCode? name = first.grammar.actionCode? name := by
  unfold Grammar.actionCode?
  rw [h.actions]

theorem recognizerName (h : C.Jobs first second) (kind : RecognizerKind) :
    second.grammar.recognizerName kind = first.grammar.recognizerName kind := by
  unfold Grammar.recognizerName
  rw [h.kind, h.name]

theorem closeRule (h : C.Jobs first second) (rule : Rule) {outcome outcome' : RuleOutcome}
    (same : outcome' = outcome.moved C.move) :
    C.Coupled (fun built built' => C.nodes .ruleFunction built.1 built'.1 ∧
        built'.2 = built.2.moved C.move)
      (first.closeRule rule outcome) (second.closeRule (rule.moved C.move) outcome') := by
  refine (coupled_modifyContext fun _ _ contexts => ?_).bind fun _ _ _ => ?_
  · exact ⟨contexts.rules, rfl, rfl, rfl⟩
  refine (h.visit .rulePostamble (C.refl _)).bind fun postamble postamble' hpostamble => ?_
  refine coupled_popRule.map fun f f' hf => ?_
  rw [h.target]
  exact ⟨C.finish _ hf hpostamble, same⟩

theorem buildRule (h : C.Jobs first second) (rule : Rule) (index : Nat) :
    C.Coupled (fun built built' => C.nodes .ruleFunction built.1 built'.1 ∧
        built'.2 = built.2.moved C.move)
      (first.buildRule first.walkRule rule index)
      (second.buildRule second.walkRule (rule.moved C.move) index) := by
  rw [Setup.buildRule_eq, Setup.buildRule_eq]
  refine (h.visit .rule (C.refl _)).bind fun f f' hf => ?_
  refine (coupled_modifyContext fun _ _ contexts => ?_).bind fun _ _ _ => ?_
  · exact ⟨.cons hf contexts.rules, contexts.alt, contexts.blocks, contexts.treeLevel⟩
  refine ((h.walkRule rule).attempt h.good).bind fun result result' attempted => ?_
  refine (coupled_settle _ attempted).bind fun outcome outcome' same => ?_
  exact h.closeRule rule same

theorem buildRules (h : C.Jobs first second) (index : Nat) (rules : List Rule) :
    C.Coupled (List.Forall₂ fun built built' => C.nodes .ruleFunction built.1 built'.1 ∧
        built'.2 = built.2.moved C.move)
      (first.buildRules first.walkRule index rules)
      (second.buildRules second.walkRule index (rules.map (Rule.moved C.move))) := by
  induction rules generalizing index with
  | nil => exact coupled_pure .nil
  | cons rule rest ih =>
      rw [List.map_cons, Setup.buildRules, Setup.buildRules]
      exact (h.buildRule rule index).bind fun built built' hbuilt =>
        (ih (index + 1)).map fun _ _ others => .cons hbuilt others

theorem checkJob (h : C.Jobs first second) (kind : RecognizerKind) :
    C.Coupled (fun _ _ => True) (first.checkJob kind) (second.checkJob kind) := by
  unfold Setup.checkJob
  cases kind <;> simp only [h.kind, h.name, h.rules, h.rulesFor, List.isEmpty_map]
  all_goals
    split
    · exact coupled_fatal _
    · split
      · exact coupled_fatal _
      · exact coupled_pure trivial

theorem emptyFile (h : C.Jobs first second) (kind : RecognizerKind) :
    second.emptyFile kind (second.fileName kind) = first.emptyFile kind (first.fileName kind) := by
  unfold Setup.emptyFile Setup.fileName
  rw [h.name, h.actionCode?, h.recognizerName, h.target]

/-- What two parser models have in common. -/
structure Models (C : Coupling) (model model' : ParserModel) : Prop where
  file : C.nodes .file model.file model'.file
  diagnostics : C.diagnostics model.diagnostics model'.diagnostics
  outcomes : model'.outcomes = model.outcomes.map (RuleOutcome.moved C.move)

theorem parserModel (h : C.Jobs first second) :
    C.Coupled (Models C) first.parserModel second.parserModel := by
  unfold Setup.parserModel Setup.parserModelWith
  refine (h.checkJob .parser).bind fun _ _ _ => ?_
  have hfile : C.Coupled (C.nodes .file) (first.parserFile (first.fileName .parser))
      (second.parserFile (second.fileName .parser)) := by
    unfold Setup.parserFile
    rw [h.emptyFile]
    exact h.visit .parserFile (C.refl _)
  refine hfile.bind fun file file' files => ?_
  refine (coupled_modifyContext fun _ _ contexts => ?_).bind fun _ _ _ => ?_
  · exact ⟨contexts.rules, contexts.alt, contexts.blocks, contexts.treeLevel⟩
  have htable : C.Coupled (C.nodes .parserTable) (first.parserTable file)
      (second.parserTable file') := by
    unfold Setup.parserTable
    rw [C.recognizerName files, h.vocabulary, h.ruleNames, h.actionCode?]
    exact h.visit .parser (C.refl _)
  refine htable.bind fun table table' tables => ?_
  rw [h.rulesFor]
  refine (h.buildRules 0 _).bind fun built built' related => ?_
  refine coupled_takeDiagnostics.map fun ds ds' hds => ?_
  constructor
  case file =>
    refine C.inParser files tables ?_
    rw [List.forall₂_map_left_iff, List.forall₂_map_right_iff]
    exact related.imp fun _ _ pair => pair.1
  case diagnostics => exact hds
  case outcomes =>
    change built'.map Prod.snd = (built.map Prod.snd).map _
    rw [List.map_map]
    induction related with
    | nil => rfl
    | cons pair _ ih => simp [pair.2, ih]

theorem lexerModel (h : C.Jobs first second) :
    C.Coupled (C.nodes .file) first.lexerModel second.lexerModel := by
  unfold Setup.lexerModel
  refine (h.checkJob .lexer).bind fun _ _ _ => ?_
  have hfile : C.Coupled (C.nodes .file) (first.lexerFile (first.fileName .lexer))
      (second.lexerFile (second.fileName .lexer)) := by
    unfold Setup.lexerFile
    rw [h.emptyFile]
    exact h.visit .lexerFile (C.refl _)
  refine hfile.bind fun file file' files => ?_
  refine (coupled_modifyContext fun _ _ contexts => ?_).bind fun _ _ _ => ?_
  · exact ⟨contexts.rules, contexts.alt, contexts.blocks, contexts.treeLevel⟩
  have htable : C.Coupled (C.nodes .lexerTable) (first.lexerTable file)
      (second.lexerTable file') := by
    unfold Setup.lexerTable
    rw [C.recognizerName files, h.vocabulary, h.ruleNames]
    exact h.visit .lexer (C.refl _)
  exact htable.map fun table table' tables => C.inLexer files tables

end Jobs

/-- Nothing is under construction and nothing reported when a job starts. -/
theorem states_empty : C.States .empty .empty :=
  ⟨⟨.nil, rfl, rfl, rfl⟩, C.noDiagnostics⟩

/-- Jobs that build the same and report it at the places that the syntax was moved to. -/
def same (move : Span → Span) (leftStops rightStops : Failure → Prop) : Coupling where
  move := move
  nodes _ node node' := node = node'
  diagnostics ds ds' := ds' = ds.map (Diagnostic.moved move)
  leftStops := leftStops
  rightStops := rightStops
  refl _ := rfl
  append := by rintro _ _ _ _ rfl rfl; rfl
  opsOf := by rintro _ _ rfl; rfl
  fill := by rintro _ _ _ _ rfl rfl; rfl
  inChoice _ _ _ halts htests := by
    rw [List.forall₂_eq_eq_eq] at halts htests
    rw [halts, htests]
  ofChoice := by rintro _ _ rfl; rfl
  inWhole _ := by rintro rfl; rfl
  inOptional _ _ := by rintro rfl; rfl
  inClosure _ _ := by rintro rfl; rfl
  inTree _ _ := by rintro rfl rfl; rfl
  ofWhole := by rintro _ _ rfl; rfl
  ofOptional := by rintro _ _ rfl; rfl
  ofClosure := by rintro _ _ rfl; rfl
  ofTree := by rintro _ _ rfl; rfl
  name := by rintro _ _ rfl; rfl
  declare _ := by rintro rfl; rfl
  withCode := by rintro _ _ _ _ rfl rfl; rfl
  finish _ := by rintro rfl rfl; rfl
  recognizerName := by rintro _ _ rfl; rfl
  inParser := by
    rintro _ _ _ _ _ _ rfl rfl hfuncs
    rw [List.forall₂_eq_eq_eq] at hfuncs
    rw [hfuncs]
  inLexer := by rintro _ _ _ _ rfl rfl; rfl
  noDiagnostics := List.map_nil.symm
  report d := by
    rintro rfl
    simp

/-- Models that are the same but for their places differ by the move of these. -/
theorem Jobs.Models.eq_moved {move : Span → Span} {leftStops rightStops : Failure → Prop}
    {model model' : ParserModel} (h : Models (same move leftStops rightStops) model model') :
    model' = model.moved move := by
  obtain ⟨file, ds, outcomes⟩ := model
  obtain ⟨file', ds', outcomes'⟩ := model'
  obtain ⟨(rfl : file = file'), (hds : ds' = _), (houtcomes : outcomes' = _)⟩ := h
  rw [hds, houtcomes]
  rfl

end Coupling

namespace Grammar

/-- What a parser job comes to under a configuration. -/
def parserResult (g : Grammar) (config : Config) (extensions : List Extension) :
    Except Failure ParserModel :=
  match Setup.ofConfig g config extensions with
  | .ok setup => (setup.parserModel .empty).1
  | .error error => .error (.fatal error)

/-- What a lexer job comes to under a configuration. -/
def lexerResult (g : Grammar) (config : Config) (extensions : List Extension) :
    Except Failure RecognizerFile :=
  match Setup.ofConfig g config extensions with
  | .ok setup => (setup.lexerModel .empty).1
  | .error error => .error (.fatal error)

end Grammar

end RecognizerModel
