import RecognizerModel.Proofs.SurroundingBlanks
import RecognizerModel.Proofs.TreeJobs

/-! The layout of a grammar's text does not count. What is made of two texts that differ in their
blanks alone is the same but for the places in diagnostics. -/
namespace RecognizerModel

/-- Whether extensions ask for labels without a look at the place. -/
def Chain.Placeless (c : Chain) : Prop :=
  ∀ span span' op, c.wantsLabel span op = c.wantsLabel span' op

/-- Jobs that build the same at no place in particular. -/
def Coupling.anywhere : Coupling :=
  .same .forgotten (fun _ => False) fun _ => False

/-- What a run at no place in particular ends with if it fails for good alone. -/
theorem Coupling.Runs.result_eq {R : α → β → Prop} {first : Except Failure α × JobState}
    {second : Except Failure β × JobState} (runs : anywhere.Runs R first second) {change : α → β}
    (related : ∀ a b, R a b → b = change a)
    (fatal : ∀ failure, first.1 = .error failure → ∃ error, failure = .fatal error) :
    second.1 = first.1.map change := by
  cases runs with
  | ended h _ => exact congrArg Except.ok (related _ _ h)
  | failed failure _ =>
      obtain ⟨error, rfl⟩ := fatal failure rfl
      rfl
  | left stops | right stops => exact stops.elim

namespace Setup

/-- The same setup for the grammar without its layout. -/
def stripped (setup : Setup) : Setup :=
  { setup with grammar := setup.grammar.stripped }

theorem stripped_visits (setup : Setup) : Coupling.anywhere.Visits setup setup.stripped where
  vocabulary := rfl
  labelTarget := rfl
  visit p {node node'} same := by
    obtain rfl : node = node' := same
    refine (Coupling.coupled_recordVisits p p _ _).bind fun _ _ _ => ?_
    -- the chain is the same and gets the same node, which has no place
    have same : setup.stripped.chain.fold p p.anchor? node = setup.chain.fold p p.anchor? node := rfl
    rw [same]
    cases (setup.chain.fold p p.anchor? node).outcome with
    | error error => exact Coupling.coupled_fatal error
    | ok after => exact Coupling.coupled_pure rfl

theorem stripped_jobs {setup : Setup} (placeless : setup.chain.Placeless) :
    Coupling.anywhere.Jobs setup setup.stripped where
  toVisits := setup.stripped_visits
  reference := setup.stripped_visits.reference fun span op =>
    (setup.stripped_visits.labelIfNeeded (fun _ _ => placeless _ _ _) span op).imp
      fun _ _ same => congrArg (fun op => [op]) same
  choose fits related := setup.stripped_visits.choose (fun _ => rfl) fits related
  target := rfl
  name := rfl
  kind := rfl
  rules := setup.grammar.rules_stripped
  actions := setup.grammar.actions_stripped
  good := ⟨fun _ => False.elim, fun _ => False.elim⟩

theorem parserModel_stripped {setup : Setup} (placeless : setup.chain.Placeless) :
    (setup.stripped.parserModel .empty).1 =
      (setup.parserModel .empty).1.map (ParserModel.moved .forgotten) :=
  ((stripped_jobs placeless).parserModel _ _ Coupling.states_empty).result_eq
    (fun _ _ models => models.eq_moved) fun _ h => setup.fatal_of_parserModel (Prod.ext h rfl)

theorem lexerModel_stripped {setup : Setup} (placeless : setup.chain.Placeless) :
    (setup.stripped.lexerModel .empty).1 = (setup.lexerModel .empty).1 := by
  have runs := (stripped_jobs placeless).lexerModel _ _ Coupling.states_empty
  rw [runs.result_eq (fun _ _ same => Eq.symm same) fun _ h =>
    setup.fatal_of_lexerModel (Prod.ext h rfl)]
  cases (setup.lexerModel .empty).1 <;> rfl

theorem ofConfig_stripped {g : Grammar} {config : Config} {extensions : List Extension} :
    ofConfig g.stripped config extensions = (ofConfig g config extensions).map stripped := by
  obtain ⟨_ | target, validate, treeBuilding⟩ := config <;> rfl

/-- Neither tree building nor the want of extensions looks at places. -/
theorem placeless_of_ofConfig {g : Grammar} {config : Config} {setup : Setup}
    (h : ofConfig g config [] = .ok setup) : setup.chain.Placeless := by
  obtain ⟨_ | target, validate, _ | _⟩ := config <;> cases h <;> exact fun _ _ _ => rfl

end Setup

namespace Grammar

variable (g : Grammar) (config : Config)

theorem parserResult_stripped :
    g.stripped.parserResult config [] =
      (g.parserResult config []).map (ParserModel.moved .forgotten) := by
  unfold parserResult
  rw [Setup.ofConfig_stripped]
  cases h : Setup.ofConfig g config [] with
  | error error => rfl
  | ok setup => exact Setup.parserModel_stripped (Setup.placeless_of_ofConfig h)

theorem lexerResult_stripped : g.stripped.lexerResult config [] = g.lexerResult config [] := by
  unfold lexerResult
  rw [Setup.ofConfig_stripped]
  cases h : Setup.ofConfig g config [] with
  | error error => rfl
  | ok setup => exact Setup.lexerModel_stripped (Setup.placeless_of_ofConfig h)

theorem ruleNames_stripped (kind : RecognizerKind) :
    g.stripped.ruleNames kind = g.ruleNames kind := by
  rw [ruleNames, rulesFor, rules_stripped, List.filter_map, List.filterMap_map]
  rfl

/-- Whether two grammars are the same but for their layout and the classes of their decisions. -/
structure SameButLayout (g g' : Grammar) : Prop where
  root : g.root.stripped = g'.root.stripped
  kind : g.kind = g'.kind
  name : g.name = g'.name
  vocabulary : g.vocabulary = g'.vocabulary

variable {g} {g' : Grammar} {source source' : String}

theorem ReadFrom.sameButLayout (reading : g.ReadFrom source) (reading' : g'.ReadFrom source')
    (same : significant (tokenize source) = significant (tokenize source')) :
    g.SameButLayout g' := by
  have root : g.root.stripped = g'.root.stripped :=
    stripped_eq_of_read reading.root reading'.root same
  refine ⟨root, ?kind, ?name, ?vocabulary⟩
  case kind =>
    have kinds := reading.kind
    rw [← g.root.kind_stripped, root, Node.kind_stripped, reading'.kind] at kinds
    exact (Option.some.inj kinds).symm
  case name =>
    have names := reading.name
    have other : TokenKind.word ≠ .whitespace := by decide
    rw [← g.root.inner.firstText?_stripped other, ← Node.inner_stripped, root, Node.inner_stripped,
      Forest.firstText?_stripped _ other, reading'.name] at names
    exact (Option.some.inj names).symm
  case vocabulary =>
    rw [reading.vocabulary, reading'.vocabulary, ← definedNames_stripped g.root, root,
      definedNames_stripped]

namespace SameButLayout

variable (h : g.SameButLayout g') (table : DecisionTable) (config : Config)
include h

theorem stripped_eq :
    { g with decisions := table }.stripped = { g' with decisions := table }.stripped := by
  simp only [stripped, h.root, h.kind, h.name, h.vocabulary]

theorem ruleNames (kind : RecognizerKind) : g.ruleNames kind = g'.ruleNames kind := by
  have names := congrArg (·.ruleNames kind) (h.stripped_eq [])
  rwa [ruleNames_stripped, ruleNames_stripped] at names

theorem actions : g.actions = g'.actions := by
  have codes := congrArg Grammar.actions (h.stripped_eq [])
  rwa [actions_stripped, actions_stripped] at codes

theorem parserResult :
    ({ g with decisions := table }.parserResult config []).map (ParserModel.moved .forgotten) =
      ({ g' with decisions := table }.parserResult config []).map
        (ParserModel.moved .forgotten) := by
  rw [← parserResult_stripped, ← parserResult_stripped, h.stripped_eq]

theorem lexerResult : { g with decisions := table }.lexerResult config [] =
    { g' with decisions := table }.lexerResult config [] := by
  rw [← lexerResult_stripped, h.stripped_eq, lexerResult_stripped]

end SameButLayout

/-- Blanks around texts do not keep them from being the same. -/
theorem significant_eq_of_trim {first second : String} {root root' : Node}
    (hread : read (Text.trim first) = .ok root) (hread' : read (Text.trim second) = .ok root')
    (same : significant (tokenize first) = significant (tokenize second)) :
    significant (tokenize (Text.trim first)) = significant (tokenize (Text.trim second)) := by
  rw [significant_trim hread, significant_trim hread', same]

/-- Two texts that differ in their blanks alone make the same grammar, and under every configuration
jobs for both end alike: they fail alike, or they make the same file and the same outcomes and
diagnostics but for the places of these. Blanks around the texts need not even be readable. -/
theorem results_of_significant {first second : String} {g g' : Grammar}
    (hload : load first = .ok g) (hload' : load second = .ok g')
    (same : significant (tokenize first) = significant (tokenize second) ∨
      significant (tokenize (Text.trim first)) = significant (tokenize (Text.trim second))) :
    (g.name = g'.name ∧ g.kind = g'.kind ∧ g.vocabulary = g'.vocabulary ∧
      (∀ kind, g.ruleNames kind = g'.ruleNames kind) ∧ g.actions = g'.actions) ∧
    ∀ (table : DecisionTable) (config : Config),
      ({ g with decisions := table }.parserResult config []).map (ParserModel.moved .forgotten) =
        ({ g' with decisions := table }.parserResult config []).map
          (ParserModel.moved .forgotten) ∧
      { g with decisions := table }.lexerResult config [] =
        { g' with decisions := table }.lexerResult config [] := by
  have reading := readFrom_of_load hload
  have reading' := readFrom_of_load hload'
  have trimmed : significant (tokenize (Text.trim first)) =
      significant (tokenize (Text.trim second)) :=
    same.elim (significant_eq_of_trim reading.root reading'.root) id
  have alike := reading.sameButLayout reading' trimmed
  exact ⟨⟨alike.name, alike.kind, alike.vocabulary, alike.ruleNames, alike.actions⟩,
    fun table config => ⟨alike.parserResult table config, alike.lexerResult table config⟩⟩

/-- A grammar with a choice, with as few blanks as there can be. -/
def narrowText : String :=
  "(COMBINED_GRAMMAR C(RULE a(BLOCK@1(ALT(EPSILON))(ALT(EPSILON))))(RULE B(BLOCK(ALT))))"

/-- The same grammar with a line for each rule. -/
def wideText : String :=
  "\n(COMBINED_GRAMMAR C\n  (RULE a (BLOCK @1 (ALT (EPSILON)) (ALT (EPSILON))))\n" ++
    "  (RULE B (BLOCK (ALT))))\n"

def narrow : Grammar :=
  (load narrowText).toOption.get (by decide +kernel)

def wide : Grammar :=
  (load wideText).toOption.get (by decide +kernel)

/-- The choice gets a class that fits no alternatives, and the diagnostic of that moves with it. -/
theorem results_of_significant_wide : ∃ model model' file,
    { narrow with decisions := [(1, .ll1 [])] }.parserResult ⟨some .java, true, true⟩ [] =
        .ok model ∧
      model.diagnostics.map Diagnostic.span = [⟨26, 63⟩] ∧
      { wide with decisions := [(1, .ll1 [])] }.parserResult ⟨some .java, true, true⟩ [] =
        .ok model' ∧
      model'.diagnostics.map Diagnostic.span = [⟨30, 72⟩] ∧
      model.moved .forgotten = model'.moved .forgotten ∧
      { narrow with decisions := [(1, .ll1 [])] }.lexerResult ⟨some .java, true, true⟩ [] =
        .ok file ∧
      { wide with decisions := [(1, .ll1 [])] }.lexerResult ⟨some .java, true, true⟩ [] =
        .ok file := by
  have hnarrow : load narrowText = .ok narrow := eq_ok_of_toOption (Option.some_get _).symm
  have hwide : load wideText = .ok wide := eq_ok_of_toOption (Option.some_get _).symm
  have same : significant (tokenize narrowText) = significant (tokenize wideText) := by
    decide +kernel
  obtain ⟨parsers, lexers⟩ := (results_of_significant hnarrow hwide (.inl same)).2
    [(1, .ll1 [])] ⟨some .java, true, true⟩
  have evaluated :
      ({ narrow with decisions := [(1, .ll1 [])] }.parserResult
        ⟨some .java, true, true⟩ []).toOption.map
          (fun m : ParserModel => m.diagnostics.map Diagnostic.span) = some [⟨26, 63⟩] ∧
      ({ wide with decisions := [(1, .ll1 [])] }.parserResult
        ⟨some .java, true, true⟩ []).toOption.map
          (fun m : ParserModel => m.diagnostics.map Diagnostic.span) = some [⟨30, 72⟩] ∧
      ({ narrow with decisions := [(1, .ll1 [])] }.lexerResult
        ⟨some .java, true, true⟩ []).toOption.isSome = true := by
    decide +kernel
  obtain ⟨model, hmodel, places⟩ := Option.map_eq_some_iff.mp evaluated.1
  obtain ⟨model', hmodel', places'⟩ := Option.map_eq_some_iff.mp evaluated.2.1
  obtain ⟨file, hfile⟩ := Option.isSome_iff_exists.mp evaluated.2.2
  have first := eq_ok_of_toOption hmodel
  have second := eq_ok_of_toOption hmodel'
  have tokens := eq_ok_of_toOption hfile
  rw [first, second] at parsers
  exact ⟨model, model', file, first, places, second, places', Except.ok.inj parsers, tokens,
    lexers.symm.trans tokens⟩

end Grammar

end RecognizerModel
