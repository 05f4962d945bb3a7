import RecognizerModel.Proofs.DeclaringWalk
import RecognizerModel.Proofs.FatalErrors
import RecognizerModel.Proofs.FirstOccurrences
import RecognizerModel.Proofs.RuleFunctions

/-! The fields of a rule's context are its attributes and, behind them, the labels in its code. -/
namespace RecognizerModel

/-- The arguments, return values and locals of a rule, in this order. -/
def Rule.attributes (rule : Rule) : List Attribute :=
  [rule.args, rule.returns, rule.locals].flatMap fun text =>
    (text.map Attribute.parseList).getD []

namespace RuleFunction

theorem fieldNames_declareAttributes (f : RuleFunction) (none : f.fieldNames = []) :
    f.declareAttributes.fieldNames =
      ((f.args ++ f.returns ++ f.locals).map Attribute.name).eraseDups := by
  have declared (attributes : List Attribute) (f : RuleFunction) (names : List String)
      (h : f.fieldNames = names.eraseDups) :
      (attributes.foldl (fun f a => f.declare (.ofAttribute a)) f).fieldNames =
        (names ++ attributes.map Attribute.name).eraseDups := by
    induction attributes generalizing f names with
    | nil => simpa using h
    | cons a rest ih =>
        simpa [Field.ofAttribute] using ih _ _ (fieldNames_declare h (.ofAttribute a))
  exact declared _ f [] none

/-- A function starts with the attributes of its rule. -/
theorem fieldNames_ofRule (rule : Rule) (name : String) (index : Nat) :
    (ofRule rule name index).fieldNames = (rule.attributes.map Attribute.name).eraseDups := by
  have h := fieldNames_declareAttributes { empty name index with
    args := (rule.args.map Attribute.parseList).getD []
    returns := (rule.returns.map Attribute.parseList).getD []
    locals := (rule.locals.map Attribute.parseList).getD [] } rfl
  simpa [Rule.attributes, ofRule] using h

theorem attributes_ofRule (rule : Rule) (name : String) (index : Nat) :
    (ofRule rule name index).args ++ (ofRule rule name index).returns ++
      (ofRule rule name index).locals = rule.attributes := by
  obtain ⟨context, h⟩ := exists_declareAttributes { empty name index with
    args := (rule.args.map Attribute.parseList).getD []
    returns := (rule.returns.map Attribute.parseList).getD []
    locals := (rule.locals.map Attribute.parseList).getD [] }
  unfold ofRule
  dsimp only
  rw [h]
  simp [Rule.attributes]

@[simp] theorem fieldNames_finish (f : RuleFunction) (ctxType : String) (postamble : List Op) :
    (f.finish ctxType postamble).fieldNames = f.fieldNames := by
  unfold finish dropEmptyContext fieldNames
  cases f.context with
  | none => rfl
  | some ctx =>
      cases hfields : ctx.fields <;> simp [ContextDecl.fieldNames, Option.filter, hfields]

/-- A finished function has a context if it has fields. -/
theorem context_finish_eq_none_iff (f : RuleFunction) (ctxType : String) (postamble : List Op) :
    (f.finish ctxType postamble).context = none ↔ f.fieldNames = [] := by
  unfold finish dropEmptyContext fieldNames
  cases f.context with
  | none => simp
  | some ctx =>
      cases hfields : ctx.fields <;> simp [ContextDecl.fieldNames, Option.filter, hfields]

end RuleFunction

/-- Whether a function's context has the fields that it should have: first the attributes of the
rule and then the labels in the code, each name where it comes first. Without any there is no
context, and trees are built only from labels that are declared. -/
structure RuleFunction.DeclaresAll (rule : Rule) (f : RuleFunction) : Prop where
  attributes : f.args ++ f.returns ++ f.locals = rule.attributes
  fieldNames : f.fieldNames =
    ((f.args ++ f.returns ++ f.locals).map Attribute.name ++ Op.labelsIn f.code).eraseDups
  nodup : f.fieldNames.Nodup
  context : f.context = none ↔
    (f.args ++ f.returns ++ f.locals).map Attribute.name ++ Op.labelsIn f.code = []
  treeLabels : Op.treeLabelsIn f.code ⊆ f.fieldNames

theorem RuleFunction.declaresAll_finish {rule : Rule} {f : RuleFunction}
    (attributes : f.args ++ f.returns ++ f.locals = rule.attributes)
    (fieldNames : f.fieldNames =
      (rule.attributes.map Attribute.name ++ Op.labelsIn f.code).eraseDups)
    (tree : Op.treeLabelsIn f.code ⊆ Op.labelsIn f.code) (ctxType : String)
    (postamble : List Op) : DeclaresAll rule (f.finish ctxType postamble) := by
  rw [← attributes] at fieldNames
  refine ⟨attributes, ?_, ?_, ?_, ?_⟩
  · rw [fieldNames_finish]
    exact fieldNames
  · rw [fieldNames_finish, fieldNames]
    exact nodup_eraseDups _
  · rw [context_finish_eq_none_iff, fieldNames]
    simp only [List.eq_nil_iff_forall_not_mem, List.mem_eraseDups]
    rfl
  · intro label h
    rw [fieldNames_finish, fieldNames, List.mem_eraseDups]
    exact List.mem_append_right _ (tree h)

namespace Setup

/-- The fields of a built rule are in step with its code. -/
theorem declaresAll_of_buildRule {setup : Setup} {rule : Rule} {index : Nat} {f : RuleFunction}
    {outcome : RuleOutcome} (stock : ∀ e ∈ setup.chain.extensions, e = .treeBuilding)
    (h : (setup.buildRule setup.walkRule rule index).Answers (f, outcome))
    (built : outcome.isBuilt) : f.DeclaresAll rule := by
  obtain ⟨s, t, h⟩ := h
  obtain ⟨entered, context, inside, after, result, postamble, hentered, pushed, hwalk, walked,
    hbuilt, -⟩ := exists_of_buildRule_ok h
  obtain ⟨rfl, rfl⟩ := Prod.mk.inj hbuilt
  have start : entered = .ofRule rule (rule.name.getD "") index := by
    refine Chain.of_pass_ok
      (P := fun f : RuleFunction => f = .ofRule rule (rule.name.getD "") index) ?_ rfl
      (fold_of_visit hentered)
    intro e he node same _
    obtain rfl := stock e he
    exact same
  have keeps : ∀ e ∈ setup.chain.extensions, e.KeepsLabels := by
    intro e he
    obtain rfl := stock e he
    exact Extension.treeBuilding_keepsLabels
  cases result with
  | error construct => cases built
  | ok code =>
      -- the attributes are there before the walk, so its labels come behind them
      have before : inside.fieldNames = (rule.attributes.map Attribute.name ++ []).eraseDups := by
        rw [JobState.fieldNames, Context.rule?, pushed, start, List.append_nil]
        exact RuleFunction.fieldNames_ofRule rule _ index
      obtain ⟨labels, labeled, declared⟩ :=
        declares_walkRule keeps rule inside code after _ before (Job.eq_ok_of_attempt hwalk)
      rw [JobState.fieldNames, Context.rule?, walked, ← labeled.carried] at declared
      have tree := labeled.tree
      rw [← labeled.carried] at tree
      refine RuleFunction.declaresAll_finish (f := { entered with context, code }) ?_ declared tree
        _ postamble
      rw [← RuleFunction.attributes_ofRule rule (rule.name.getD "") index, ← start]

/-- Without extensions, or with tree building alone, a rule that is built has the attributes and the
labels in its code as its fields. -/
theorem declaresAll_of_built {setup : Setup}
    (stock : ∀ e ∈ setup.chain.extensions, e = .treeBuilding) {index : Nat} {rule : Rule}
    (hrule : (setup.grammar.rulesFor .parser)[index]? = some rule) :
    ∃ f outcome, setup.Makes index f outcome ∧ (outcome.isBuilt → f.DeclaresAll rule) := by
  have keeps : ∀ e ∈ setup.chain.extensions, ∀ table : ParserTable,
      table.funcs = [] → (e.hook .parser table).funcs = [] := by
    intro e he table noFuncs
    obtain rfl := stock e he
    exact noFuncs
  obtain ⟨f, outcome, makes, answers⟩ := exists_makes hrule (not_breach_of_treeBuilding stock) keeps
  exact ⟨f, outcome, makes, declaresAll_of_buildRule stock answers⟩

/-- A rule with an argument, an explicit label and a reference of which trees are built. -/
def explicitAndImplicit : Setup where
  grammar := (Grammar.load ("(PARSER_GRAMMAR P(RULE a(ARG_ACTION[int n])" ++
    "(BLOCK(ALT(ASSIGN id(TOKEN_REF ID))(TOKEN_REF X)))))")).toOption.get (by decide +kernel)
  target := .java
  chain := ⟨[.treeBuilding], true⟩

theorem declaresAll_explicitAndImplicit : ∃ rule f outcome,
    (explicitAndImplicit.grammar.rulesFor .parser)[0]? = some rule ∧
      explicitAndImplicit.Makes 0 f outcome ∧ outcome.isBuilt ∧ f.DeclaresAll rule ∧
      f.fieldNames = ["n", "id", "_x"] := by
  have evaluated : ((explicitAndImplicit.grammar.rulesFor .parser)[0]?.bind fun _ =>
      (explicitAndImplicit.parserModel .empty).1.toOption.bind fun model =>
        model.file.parser?.bind fun table => table.funcs[0]?.bind fun f =>
          model.outcomes[0]?.map fun outcome => (outcome.isBuilt, f.fieldNames)) =
      some (true, ["n", "id", "_x"]) := by decide +kernel
  have stock : ∀ e ∈ explicitAndImplicit.chain.extensions, e = .treeBuilding := fun _ he =>
    List.mem_singleton.mp he
  obtain ⟨rule, hrule, evaluated⟩ := Option.bind_eq_some_iff.mp evaluated
  obtain ⟨f, outcome, makes, declares⟩ := declaresAll_of_built stock hrule
  have made := makes
  obtain ⟨model, table, s, hrun, htable, hf, houtcome⟩ := made
  rw [hrun, Except.toOption, Option.bind_some, htable, Option.bind_some, hf, Option.bind_some,
    houtcome, Option.map_some, Option.some.injEq, Prod.mk.injEq] at evaluated
  exact ⟨rule, f, outcome, hrule, makes, evaluated.1, declares evaluated.1, evaluated.2⟩

end Setup

end RecognizerModel
