import Mathlib.Data.List.Forall2
import Mathlib.Tactic.Choose
import RecognizerModel.Proofs.RuleIsolation
import RecognizerModel.Proofs.WalkRun

/-! What a parser job makes of a rule is settled by the translation of the rule alone. -/
namespace RecognizerModel

/-- The outcome of a rule by its translation. -/
def Rule.outcome (rule : Rule) : Translated (List Op) → RuleOutcome
  | .ok _ => .built (rule.name.getD "")
  | .error construct =>
    .failed (rule.name.getD "") (.ofMalformed (rule.name.getD "") construct)

/-- The operations behind the rule that its actions ask for. -/
def Rule.postamble (rule : Rule) : List Op :=
  ((rule.actionCode? "after").map Op.action).toList

theorem Context.standsAt_start (root : Option RootInfo) (f : RuleFunction) :
    Context.StandsAt ⟨root, [f], none, [], 0⟩ .start :=
  ⟨List.cons_ne_nil _ _, rfl, rfl, rfl⟩

/-- Attributes go to the context alone. -/
theorem RuleFunction.exists_declareAttributes (f : RuleFunction) :
    ∃ context, f.declareAttributes = { f with context } := by
  have declared (attributes : List Attribute) (f : RuleFunction) : ∃ context,
      attributes.foldl (fun f a => f.declare (.ofAttribute a)) f = { f with context } := by
    induction attributes generalizing f with
    | nil => exact ⟨f.context, rfl⟩
    | cons a rest ih =>
        obtain ⟨context, h⟩ := ih (f.declare (.ofAttribute a))
        exact ⟨context, h⟩
  exact declared _ f

/-- What a rule's declarations do not touch is as in an empty function. -/
theorem RuleFunction.exists_ofRule (rule : Rule) (name : String) (index : Nat) :
    ∃ args returns locals context,
      ofRule rule name index = { empty name index with args, returns, locals, context } := by
  obtain ⟨context, h⟩ := exists_declareAttributes { empty name index with
    args := (rule.args.map Attribute.parseList).getD []
    returns := (rule.returns.map Attribute.parseList).getD []
    locals := (rule.locals.map Attribute.parseList).getD [] }
  exact ⟨_, _, _, context, h⟩

/-- A function has no operations before its rule is walked. -/
theorem RuleFunction.code_ofRule (rule : Rule) (name : String) (index : Nat) :
    (ofRule rule name index).code = [] := by
  obtain ⟨args, returns, locals, context, h⟩ := exists_ofRule rule name index
  rw [h]
  rfl

/-- A grammar with a rule for the parser supports a parser. -/
theorem Setup.checkJob_of_mem {setup : Setup} {rule : Rule}
    (h : rule ∈ setup.grammar.rulesFor .parser) (s : JobState) :
    setup.checkJob .parser s = (.ok (), s) := by
  have supported : setup.grammar.kind.supports .parser = true := by
    cases hkind : setup.grammar.kind with
    | lexer => simp [Grammar.rulesFor, Grammar.isLexerRule, hkind] at h
    | parser | combined => rfl
  have some : (setup.grammar.rulesFor .parser).isEmpty = false := by
    rw [List.isEmpty_eq_false_iff]
    exact List.ne_nil_of_mem h
  unfold checkJob
  simp only [supported, some]
  rfl

namespace Setup.KeepsContracts

variable {setup : Setup}

theorem visit_eq (keeps : setup.KeepsContracts) (p : Point) (node : p.Node) (s : JobState) :
    ∃ visits, setup.visit p node s = (.ok (setup.decorated p node), { s with visits }) := by
  unfold visit
  rw [Job.bind_run]
  dsimp only [Job.recordVisits]
  rw [keeps p node]
  exact ⟨_, rfl⟩

theorem follows_walkRule (keeps : setup.KeepsContracts) (rule : Rule) : ∃ refs,
    (setup.walkRule rule).Follows .start (setup.ruleCode rule) refs := by
  unfold walkRule ruleCode
  cases rule.block with
  | some block => exact ⟨_, keeps.follows_walkBlock .start block⟩
  | none => exact ⟨[], Job.follows_malformed _ _ _⟩

/-- The rule that is on the stack when it closes comes off it finished. -/
theorem closeRule_eq (keeps : setup.KeepsContracts) (rule : Rule) (outcome : RuleOutcome)
    {s : JobState} {f : RuleFunction} (one : s.context.rules = [f]) :
    ∃ t, setup.closeRule rule outcome s =
      (.ok (f.finish (setup.target.contextType (rule.name.getD ""))
        (setup.decorated .rulePostamble rule.postamble), outcome), t) := by
  obtain ⟨⟨root, rules, alt, blocks, treeLevel⟩, ds, vs⟩ := s
  obtain rfl : rules = [f] := one
  have reset : Job.modifyContext .resetRuleState ⟨⟨root, [f], alt, blocks, treeLevel⟩, ds, vs⟩ =
      (.ok (), ⟨⟨root, [f], none, [], 0⟩, ds, vs⟩) := rfl
  obtain ⟨visits, hpostamble⟩ : ∃ visits,
      setup.rulePostamble rule ⟨⟨root, [f], none, [], 0⟩, ds, vs⟩ =
        (.ok (setup.decorated .rulePostamble rule.postamble),
          ⟨⟨root, [f], none, [], 0⟩, ds, visits⟩) :=
    keeps.visit_eq .rulePostamble _ _
  have pop : Job.popRule ⟨⟨root, [f], none, [], 0⟩, ds, visits⟩ =
      (.ok f, ⟨⟨root, [], none, [], 0⟩, ds, visits⟩) := rfl
  unfold closeRule
  rw [Job.bind_of_ok reset, Job.bind_of_ok hpostamble, Job.bind_of_ok pop]
  exact ⟨_, rfl⟩

/-- A rule gives the function that its walk leaves, with what its translation says. If that breaks
off, the operations are those of which the function was made before the walk. -/
theorem exists_walk (keeps : setup.KeepsContracts) (rule : Rule) (index : Nat) {f : RuleFunction}
    (made : setup.decorated .rule (.ofRule rule (rule.name.getD "") index) = f) :
    ∃ (s : JobState) (context : Option ContextDecl) (b : RuleBuild),
      s.context.StandsAt .start ∧ s.context.rules = [f] ∧
      (setup.walkRule rule s).2.context.rules = [{ f with context }] ∧
      setup.buildAlone rule index = .ok b ∧ b.outcome = rule.outcome (setup.ruleCode rule) ∧
      b.function = RuleFunction.finish
        { f with context, code := (setup.ruleCode rule).toOption.getD f.code }
        (setup.target.contextType (rule.name.getD ""))
        (setup.decorated .rulePostamble rule.postamble) := by
  obtain ⟨visits, hrule⟩ : ∃ visits, setup.rule rule (rule.name.getD "") index .empty =
      (.ok f, ⟨.empty, [], visits⟩) := by
    rw [← made]
    exact keeps.visit_eq .rule _ _
  have push : Job.modifyContext (.pushRule f) ⟨.empty, [], visits⟩ =
      (.ok (), ⟨⟨none, [f], none, [], 0⟩, [], visits⟩) := rfl
  obtain ⟨context, same⟩ :=
    (setup.walkRule_local rule).sameButContext ⟨⟨none, [f], none, [], 0⟩, [], visits⟩
  have stands := Context.standsAt_start none f
  obtain ⟨refs, follows⟩ := keeps.follows_walkRule rule
  have run := follows ⟨⟨none, [f], none, [], 0⟩, [], visits⟩ stands
  refine ⟨⟨⟨none, [f], none, [], 0⟩, [], visits⟩, context, ?_⟩
  unfold buildAlone
  rw [buildRule_eq, Job.bind_of_ok hrule, Job.bind_of_ok push, Job.bind_run, Job.attempt]
  rcases hwalk : setup.walkRule rule ⟨⟨none, [f], none, [], 0⟩, [], visits⟩ with
    ⟨answer, ⟨⟨root, rules, alt, blocks, treeLevel⟩, ds, vs⟩⟩
  rw [hwalk] at run same
  obtain rfl : rules = [{ f with context }] := same
  cases hcode : setup.ruleCode rule with
  | ok code =>
      rw [hcode] at run
      obtain ⟨rfl, _⟩ := run
      have settled : settle (rule.name.getD "") (.ok code)
            ⟨⟨root, [{ f with context }], alt, blocks, treeLevel⟩, ds, vs⟩ =
          (.ok (rule.outcome (.ok code)),
            ⟨⟨root, [{ f with context, code }], alt, blocks, treeLevel⟩, ds, vs⟩) := rfl
      obtain ⟨t, hclose⟩ :=
        keeps.closeRule_eq rule (rule.outcome (.ok code))
          (s := ⟨⟨root, [{ f with context, code }], alt, blocks, treeLevel⟩, ds, vs⟩) rfl
      dsimp only
      rw [Job.bind_of_ok settled, hclose]
      exact ⟨_, stands, rfl, rfl, rfl, rfl, rfl⟩
  | error construct =>
      rw [hcode] at run
      obtain rfl : answer = .error (.malformed construct) := run
      let d := Diagnostic.ofMalformed (rule.name.getD "") construct
      have settled : settle (rule.name.getD "") (.error construct)
            ⟨⟨root, [{ f with context }], alt, blocks, treeLevel⟩, ds, vs⟩ =
          (.ok (rule.outcome (.error construct)),
            ⟨⟨root, [{ f with context }], alt, blocks, treeLevel⟩, ds ++ [d], vs⟩) := rfl
      obtain ⟨t, hclose⟩ :=
        keeps.closeRule_eq rule (rule.outcome (.error construct))
          (s := ⟨⟨root, [{ f with context }], alt, blocks, treeLevel⟩, ds ++ [d], vs⟩) rfl
      dsimp only
      rw [Job.bind_of_ok settled, hclose]
      exact ⟨_, stands, rfl, rfl, rfl, rfl, rfl⟩

/-- The outcome of a rule and its operations are as its translation says. -/
theorem buildAlone_eq (keeps : setup.KeepsContracts) (rule : Rule) (index : Nat) :
    ∃ b, setup.buildAlone rule index = .ok b ∧
      b.outcome = rule.outcome (setup.ruleCode rule) ∧
      b.function.code = (setup.ruleCode rule).toOption.getD
        (setup.decorated .rule (.ofRule rule (rule.name.getD "") index)).code := by
  obtain ⟨s, context, b, _, _, _, halone, houtcome, hfunction⟩ := keeps.exists_walk rule index rfl
  exact ⟨b, halone, houtcome, congrArg RuleFunction.code hfunction⟩

/-- Every rule gives something by itself. -/
theorem exists_builds (keeps : setup.KeepsContracts) : ∃ builds : List RuleBuild,
    ((setup.grammar.rulesFor .parser).mapIdx fun i rule => setup.buildAlone rule i) =
      builds.map .ok := by
  choose b halone _ using keeps.buildAlone_eq
  refine ⟨(setup.grammar.rulesFor .parser).mapIdx fun i rule => b rule i, ?_⟩
  apply List.ext_getElem?
  intro i
  simp only [halone, List.getElem?_mapIdx, List.getElem?_map, Option.map_map, Function.comp_def]

/-- A job that has a rule comes to its end with what the rules give by themselves. -/
theorem parserModel_eq (keeps : setup.KeepsContracts) {builds : List RuleBuild}
    (nonempty : setup.grammar.rulesFor .parser ≠ [])
    (h : ((setup.grammar.rulesFor .parser).mapIdx fun i rule => setup.buildAlone rule i) =
      builds.map .ok) :
    ∃ (model : ParserModel) (s : JobState) (file : RecognizerFile) (table : ParserTable),
      setup.parserModel .empty = (.ok model, s) ∧
        (∃ before after, setup.parserTable file before = (.ok table, after)) ∧
        model.file.parser? =
          some { table with funcs := table.funcs ++ builds.map RuleBuild.function } ∧
        model.outcomes = builds.map RuleBuild.outcome ∧
        model.diagnostics = builds.flatMap RuleBuild.diagnostics := by
  obtain ⟨rule, hrule⟩ := List.exists_mem_of_ne_nil _ nonempty
  have hcheck := checkJob_of_mem hrule .empty
  obtain ⟨file, visits, hfile⟩ : ∃ file visits,
      setup.parserFile (setup.fileName .parser) .empty = (.ok file, ⟨.empty, [], visits⟩) :=
    ⟨_, keeps.visit_eq .parserFile _ _⟩
  have hroot : Job.modifyContext (.setRoot file) ⟨.empty, [], visits⟩ =
      (.ok (), ⟨Context.empty.setRoot file, [], visits⟩) := rfl
  obtain ⟨table, visits', htable⟩ : ∃ table visits',
      setup.parserTable file ⟨Context.empty.setRoot file, [], visits⟩ =
        (.ok table, ⟨Context.empty.setRoot file, [], visits'⟩) :=
    ⟨_, keeps.visit_eq .parser _ _⟩
  have fromZero : ((setup.grammar.rulesFor .parser).mapIdx fun i rule =>
      setup.buildAlone rule (i + 0)) = builds.map .ok := h
  obtain ⟨t, hrules, _, hds⟩ := buildRules_of_alone
    (s := ⟨Context.empty.setRoot file, [], visits'⟩) ⟨rfl, rfl, rfl, rfl⟩ fromZero
  have htake : Job.takeDiagnostics t = (.ok t.diagnostics, { t with diagnostics := [] }) := rfl
  unfold parserModel parserModelWith
  rw [Job.bind_of_ok hcheck, Job.bind_of_ok hfile, Job.bind_of_ok hroot, Job.bind_of_ok htable,
    Job.bind_of_ok hrules, Job.bind_of_ok htake]
  refine ⟨_, _, file, table, rfl, ⟨_, _, htable⟩, ?_, ?_, hds⟩
  · simp only [RecognizerFile.parser?, List.map_map, Function.comp_def]
  · simp only [List.map_map, Function.comp_def]

end Setup.KeepsContracts

namespace Setup

/-- Whether a parser job comes to its end with a function and an outcome for the rule of an
index. -/
def Makes (setup : Setup) (index : Nat) (f : RuleFunction) (outcome : RuleOutcome) : Prop :=
  ∃ (model : ParserModel) (table : ParserTable) (s : JobState),
    setup.parserModel .empty = (.ok model, s) ∧ model.file.parser? = some table ∧
      table.funcs[index]? = some f ∧ model.outcomes[index]? = some outcome

/-- A job makes one thing of a rule. -/
theorem Makes.unique {setup : Setup} {index : Nat} {f f' : RuleFunction}
    {outcome outcome' : RuleOutcome} (h : setup.Makes index f outcome)
    (h' : setup.Makes index f' outcome') : f = f' ∧ outcome = outcome' := by
  obtain ⟨model, table, s, hrun, htable, hf, houtcome⟩ := h
  obtain ⟨model', table', s', hrun', htable', hf', houtcome'⟩ := h'
  rw [hrun] at hrun'
  cases hrun'
  rw [htable] at htable'
  cases htable'
  rw [hf] at hf'
  rw [houtcome] at houtcome'
  exact ⟨Option.some.inj hf', Option.some.inj houtcome'⟩

/-- A rule comes out of a job as if it had been built alone, if no functions come before those of
the rules. -/
theorem KeepsContracts.makes_alone {setup : Setup} (keeps : setup.KeepsContracts)
    (noFuncs : ∀ table : ParserTable,
      table.funcs = [] → (setup.decorated .parser table).funcs = [])
    {index : Nat} {rule : Rule} (hrule : (setup.grammar.rulesFor .parser)[index]? = some rule) :
    ∃ b, setup.buildAlone rule index = .ok b ∧ setup.Makes index b.function b.outcome := by
  obtain ⟨builds, alone⟩ := keeps.exists_builds
  obtain ⟨model, s, file, table, run, ⟨before, after, htable⟩, hparser, houtcomes, _⟩ :=
    keeps.parserModel_eq (List.ne_nil_of_mem (List.mem_of_getElem? hrule)) alone
  obtain ⟨visits, hvisit⟩ := keeps.visit_eq .parser _ before
  obtain rfl := Except.ok.inj (Prod.mk.inj (hvisit.symm.trans htable)).1
  rw [noFuncs _ rfl, List.nil_append] at hparser
  have each := congrArg (·[index]?) alone
  simp only [List.getElem?_mapIdx, List.getElem?_map, hrule, Option.map_some] at each
  obtain ⟨b, hb, halone⟩ := Option.map_eq_some_iff.mp each.symm
  refine ⟨b, halone.symm, model, _, s, run, hparser, ?_, ?_⟩
  · rw [List.getElem?_map, hb, Option.map_some]
  · rw [houtcomes, List.getElem?_map, hb, Option.map_some]

/-- The setup for a grammar without extensions. -/
def plain (g : Grammar) (target : Target) (validate : Bool) : Setup :=
  { grammar := g, target, chain := ⟨[], validate⟩ }

theorem ofConfig_plain (g : Grammar) (target : Target) (validate : Bool) :
    ofConfig g ⟨some target, validate, false⟩ [] = .ok (plain g target validate) := rfl

variable (g : Grammar) (target : Target) (validate : Bool)

theorem plain_keepsContracts : (plain g target validate).KeepsContracts :=
  fun _ _ => rfl

theorem plain_visit (p : Point) (node : p.Node) (s : JobState) :
    (plain g target validate).visit p node s = (.ok node, s) := by
  change (Except.ok node, { s with visits := s.visits ++ [] }) = (Except.ok node, s)
  rw [List.append_nil]

/-- Without extensions every rule gives what its translation says. -/
theorem plain_buildAlone (rule : Rule) (index : Nat) :
    ∃ b, (plain g target validate).buildAlone rule index = .ok b ∧
      b.outcome = rule.outcome ((plain g target validate).ruleCode rule) ∧
      b.function.code = ((plain g target validate).ruleCode rule).toOption.getD [] := by
  obtain ⟨b, halone, houtcome, hcode⟩ :=
    (plain_keepsContracts g target validate).buildAlone_eq rule index
  refine ⟨b, halone, houtcome, hcode.trans ?_⟩
  have none : (RuleFunction.ofRule rule (rule.name.getD "") index).code = [] :=
    RuleFunction.code_ofRule rule _ index
  exact congrArg _ none

/-- A model that was made without extensions: the parts of each rule and the tables of the
grammar. -/
structure RanPlain (builds : List RuleBuild) (model : ParserModel) (table : ParserTable) :
    Prop where
  alone : ((g.rulesFor .parser).mapIdx fun i rule =>
    (plain g target validate).buildAlone rule i) = builds.map .ok
  file : model.file.parser? = some table
  tokenNames : table.tokenNames = g.vocabulary.tokenNames
  ruleNames : table.ruleNames = g.ruleNames .parser
  funcs : table.funcs = builds.map RuleBuild.function
  outcomes : model.outcomes = builds.map RuleBuild.outcome
  diagnostics : model.diagnostics = builds.flatMap RuleBuild.diagnostics

variable {g target validate} in
theorem RanPlain.exists_build {builds : List RuleBuild} {model : ParserModel} {table : ParserTable}
    (ran : RanPlain g target validate builds model table) {index : Nat} {rule : Rule}
    (h : (g.rulesFor .parser)[index]? = some rule) : ∃ b, builds[index]? = some b ∧
      (plain g target validate).buildAlone rule index = .ok b := by
  have each := congrArg (·[index]?) ran.alone
  simp only [List.getElem?_mapIdx, List.getElem?_map, h, Option.map_some] at each
  obtain ⟨b, hb, halone⟩ := Option.map_eq_some_iff.mp each.symm
  exact ⟨b, hb, halone.symm⟩

variable {g target validate} in
theorem RanPlain.exists_rule {builds : List RuleBuild} {model : ParserModel} {table : ParserTable}
    (ran : RanPlain g target validate builds model table) {b : RuleBuild} (hb : b ∈ builds) :
    ∃ rule ∈ g.rulesFor .parser, ∃ index,
      (plain g target validate).buildAlone rule index = .ok b := by
  have made : Except.ok b ∈ (g.rulesFor .parser).mapIdx fun i rule =>
      (plain g target validate).buildAlone rule i := by
    rw [ran.alone]
    exact List.mem_map_of_mem hb
  obtain ⟨index, bound, halone⟩ := List.mem_mapIdx.mp made
  exact ⟨_, List.getElem_mem bound, index, halone⟩

variable {g target validate} in
/-- Every rule of the parser has its build. -/
theorem RanPlain.forall₂_build {builds : List RuleBuild} {model : ParserModel}
    {table : ParserTable} (ran : RanPlain g target validate builds model table) :
    List.Forall₂ (fun rule b => ∃ index, (plain g target validate).buildAlone rule index = .ok b)
      (g.rulesFor .parser) builds := by
  have length := congrArg List.length ran.alone
  rw [List.length_mapIdx, List.length_map] at length
  refine List.forall₂_iff_get.mpr ⟨length, fun i hrule hb => ?_⟩
  obtain ⟨b, hbuild, halone⟩ := ran.exists_build (List.getElem?_eq_getElem hrule)
  rw [List.getElem?_eq_getElem hb] at hbuild
  obtain rfl := Option.some.inj hbuild
  exact ⟨i, halone⟩

/-- Without extensions the job of a grammar with a rule for the parser comes to its end. -/
theorem exists_ranPlain (nonempty : g.rulesFor .parser ≠ []) :
    ∃ (builds : List RuleBuild) (model : ParserModel) (table : ParserTable) (s : JobState),
      (plain g target validate).parserModel .empty = (.ok model, s) ∧
        RanPlain g target validate builds model table := by
  obtain ⟨builds, hbuilds⟩ := (plain_keepsContracts g target validate).exists_builds
  obtain ⟨model, s, file, table, run, ⟨before, after, htable⟩, hparser, houtcomes, hds⟩ :=
    (plain_keepsContracts g target validate).parserModel_eq nonempty hbuilds
  rw [parserTable, plain_visit] at htable
  cases htable
  exact ⟨builds, model, _, s, run, hbuilds, hparser, rfl, rfl, List.nil_append _, houtcomes, hds⟩

/-- Without extensions every rule of the parser comes out as its translation says. -/
theorem plain_makes {index : Nat} {rule : Rule} (h : (g.rulesFor .parser)[index]? = some rule) :
    ∃ f, (plain g target validate).Makes index f
        (rule.outcome ((plain g target validate).ruleCode rule)) ∧
      f.code = ((plain g target validate).ruleCode rule).toOption.getD [] := by
  obtain ⟨b, halone, makes⟩ :=
    (plain_keepsContracts g target validate).makes_alone (fun _ noFuncs => noFuncs) h
  obtain ⟨b', halone', houtcome, hcode⟩ := plain_buildAlone g target validate rule index
  rw [halone] at halone'
  cases halone'
  exact ⟨b.function, houtcome ▸ makes, hcode⟩

end Setup

end RecognizerModel
