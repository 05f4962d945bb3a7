import RecognizerModel.Proofs.FillingWalk
import RecognizerModel.Proofs.RuleRun

/-! What a rule's function is like when it leaves the job. A walk that breaks off leaves no
operations, but the labels that it declared before stay among the fields of the context. -/
namespace RecognizerModel

/-- The fields that the walk over a rule declares until it is done or breaks off. -/
def Rule.declared (setup : Setup) (rule : Rule) : List Field :=
  (rule.reached setup).filterMap setup.field?

/-- The function of a rule without operations. Behind the attributes its context has certain
labels. -/
def Rule.emptyFunction (rule : Rule) (target : Target) (index : Nat) (labels : List Field) :
    RuleFunction where
  name := rule.name.getD ""
  index
  ctxType := target.contextType (rule.name.getD "")
  args := (rule.args.map Attribute.parseList).getD []
  returns := (rule.returns.map Attribute.parseList).getD []
  locals := (rule.locals.map Attribute.parseList).getD []
  code := []
  postamble := rule.postamble
  context :=
    let fields := Field.firsts (rule.attributes.map .ofAttribute ++ labels)
    if fields = [] then none else some ⟨target.contextType (rule.name.getD ""), fields⟩

namespace Rule

theorem fields_emptyFunction (rule : Rule) (target : Target) (index : Nat) (labels : List Field) :
    (rule.emptyFunction target index labels).fields =
      Field.firsts (rule.attributes.map .ofAttribute ++ labels) := by
  unfold emptyFunction RuleFunction.fields
  dsimp only
  split
  · next h => exact h.symm
  · rfl

/-- Labels make no difference if attributes have their names. -/
theorem emptyFunction_eq_iff {rule : Rule} {target : Target} {index : Nat} {labels : List Field} :
    rule.emptyFunction target index labels = rule.emptyFunction target index [] ↔
      ∀ field ∈ labels, field.name ∈ rule.attributes.map Attribute.name := by
  have names : (rule.attributes.map .ofAttribute).map Field.name =
      rule.attributes.map Attribute.name := List.map_map
  rw [← names, ← Field.firsts_append_eq_iff]
  constructor
  · intro same
    have fields := congrArg RuleFunction.fields same
    rwa [fields_emptyFunction, fields_emptyFunction, List.append_nil] at fields
  · intro same
    unfold emptyFunction
    rw [same, List.append_nil]

end Rule

namespace Setup

/-- Whether the extensions leave alone what a job makes of rules and tables. -/
structure LeavesFunctions (setup : Setup) : Prop where
  rule : ∀ f, setup.decorated .rule f = f
  rulePostamble : ∀ ops, setup.decorated .rulePostamble ops = ops
  parser : ∀ table, setup.decorated .parser table = table

/-- A function is made of the attributes of its rule, of the code that the translation gives and of
the fields that the walk declares. -/
theorem KeepsContracts.makes_function {setup : Setup} (keeps : setup.KeepsContracts)
    (leaves : setup.LeavesFunctions) {index : Nat} {rule : Rule}
    (hrule : (setup.grammar.rulesFor .parser)[index]? = some rule) :
    setup.Makes index
      { rule.emptyFunction setup.target index (rule.declared setup) with
        code := (setup.ruleCode rule).toOption.getD [] }
      (rule.outcome (setup.ruleCode rule)) := by
  obtain ⟨b, halone, makes⟩ := keeps.makes_alone
    (fun table noFuncs => by rw [leaves.parser, noFuncs]) hrule
  obtain ⟨s, context, b', stands, entered, left, halone', houtcome, hfunction⟩ :=
    keeps.exists_walk rule index (leaves.rule _)
  rw [halone] at halone'
  obtain rfl := Except.ok.inj halone'
  -- what the walk left is the function that it started on, with the fields that it declared
  have filled := keeps.fills_walkRule rule s stands
  rw [left, entered, List.modifyHead_cons, List.singleton_inj] at filled
  have fields : ({ RuleFunction.ofRule rule (rule.name.getD "") index with
      context, code := (setup.ruleCode rule).toOption.getD [] } : RuleFunction).fields =
      Field.firsts (rule.attributes.map .ofAttribute ++ rule.declared setup) :=
    (congrArg RuleFunction.fields filled).trans (RuleFunction.fields_declareAll
      (RuleFunction.fields_ofRule rule (rule.name.getD "") index) (rule.declared setup))
  have function : b.function = { rule.emptyFunction setup.target index (rule.declared setup) with
      code := (setup.ruleCode rule).toOption.getD [] } := by
    rw [hfunction, leaves.rulePostamble, RuleFunction.code_ofRule, RuleFunction.finish_eq, fields,
      RuleFunction.ofRule_eq]
    rfl
  rw [← function, ← houtcome]
  exact makes

theorem plain_leavesFunctions (g : Grammar) (target : Target) (validate : Bool) :
    (plain g target validate).LeavesFunctions :=
  ⟨fun _ => rfl, fun _ => rfl, fun _ => rfl⟩

theorem plain_makes_function (g : Grammar) (target : Target) (validate : Bool) {index : Nat}
    {rule : Rule} (hrule : (g.rulesFor .parser)[index]? = some rule) :
    (plain g target validate).Makes index
      { rule.emptyFunction target index (rule.declared (plain g target validate)) with
        code := ((plain g target validate).ruleCode rule).toOption.getD [] }
      (rule.outcome ((plain g target validate).ruleCode rule)) :=
  (plain_keepsContracts g target validate).makes_function
    (plain_leavesFunctions g target validate) hrule

/-- A rule that fails without extensions keeps its name, index, attributes and after action, has no
operations, and has the labels of the references that the walk came to before it broke off. It is as
if nothing had been matched exactly if these labels all have the names of attributes. -/
theorem function_of_failed (g : Grammar) (target : Target) (validate : Bool) {index : Nat}
    {rule : Rule} (hrule : (g.rulesFor .parser)[index]? = some rule) :
    ∃ f outcome, (plain g target validate).Makes index f outcome ∧ (outcome.isBuilt = false →
      rule.reached (plain g target validate) <+: rule.sites ∧
      f = rule.emptyFunction target index (rule.declared (plain g target validate)) ∧
      (f = rule.emptyFunction target index [] ↔
        ∀ field ∈ rule.declared (plain g target validate),
          field.name ∈ rule.attributes.map Attribute.name)) := by
  refine ⟨_, _, plain_makes_function g target validate hrule, fun failed => ?_⟩
  have function : { rule.emptyFunction target index (rule.declared (plain g target validate)) with
      code := ((plain g target validate).ruleCode rule).toOption.getD [] } =
      rule.emptyFunction target index (rule.declared (plain g target validate)) := by
    cases hcode : (plain g target validate).ruleCode rule with
    | ok code =>
        rw [hcode] at failed
        cases failed
    | error construct => rfl
  refine ⟨((plain g target validate).covers_rule rule).front, function, ?_⟩
  exact (Eq.congr_left function).trans Rule.emptyFunction_eq_iff

end Setup

/-- A rule that breaks off behind a reference under a label. -/
def Grammar.labelThenBroken : Grammar :=
  (load "(PARSER_GRAMMAR P(RULE a(BLOCK(ALT(ASSIGN x(TOKEN_REF X))(TOKEN_REF)))))").toOption.get
    (by decide +kernel)

namespace Setup

theorem declared_labelThenBroken : ∃ rule construct,
    (Grammar.labelThenBroken.rulesFor .parser)[0]? = some rule ∧
      (plain .labelThenBroken .java true).ruleCode rule = .error construct ∧
      rule.attributes = [] ∧ rule.declared (plain .labelThenBroken .java true) = [.token "x"] ∧
      (rule.emptyFunction .java 0 [.token "x"]).context =
        some ⟨"AContext", [.token "x"]⟩ := by
  have evaluated : ((Grammar.labelThenBroken.rulesFor .parser)[0]?.map fun rule =>
      (((plain .labelThenBroken .java true).ruleCode rule).isOk, rule.attributes,
        rule.declared (plain .labelThenBroken .java true),
        (rule.emptyFunction .java 0 [.token "x"]).context)) =
      some (false, [], [.token "x"], some ⟨"AContext", [.token "x"]⟩) := by decide +kernel
  obtain ⟨rule, hrule, seen⟩ := Option.map_eq_some_iff.mp evaluated
  simp only [Prod.mk.injEq] at seen
  obtain ⟨broken, known⟩ := seen
  cases hcode : (plain .labelThenBroken .java true).ruleCode rule with
  | ok code =>
      rw [hcode] at broken
      cases broken
  | error construct => exact ⟨rule, construct, hrule, hcode, known⟩

theorem function_of_failed_labelThenBroken : ∃ rule f outcome,
    (Grammar.labelThenBroken.rulesFor .parser)[0]? = some rule ∧
      (plain .labelThenBroken .java true).Makes 0 f outcome ∧ outcome.isBuilt = false ∧
      rule.reached (plain .labelThenBroken .java true) <+: rule.sites ∧
      f = rule.emptyFunction .java 0 [.token "x"] ∧ f ≠ rule.emptyFunction .java 0 [] := by
  obtain ⟨rule, construct, hrule, hcode, none, declared, _⟩ := declared_labelThenBroken
  obtain ⟨f, outcome, makes, left⟩ := function_of_failed .labelThenBroken .java true hrule
  obtain ⟨f', made, _⟩ := plain_makes .labelThenBroken .java true hrule
  obtain ⟨rfl, rfl⟩ := makes.unique made
  have failed : (rule.outcome ((plain .labelThenBroken .java true).ruleCode rule)).isBuilt =
      false := by
    rw [hcode]
    rfl
  obtain ⟨front, function, asIfEmpty⟩ := left failed
  rw [declared] at function asIfEmpty
  refine ⟨rule, f, _, hrule, makes, failed, front, function, fun same => ?_⟩
  simpa [none] using asIfEmpty.mp same

/-- The rule has no attributes, nothing was built of it, and its context holds the label. -/
theorem labelThenBroken_keepsLabel : Grammar.labelThenBroken.Loaded ∧ ∃ rule f outcome,
    (Grammar.labelThenBroken.rulesFor .parser)[0]? = some rule ∧
      (plain .labelThenBroken .java true).Makes 0 f outcome ∧ outcome.isBuilt = false ∧
      f.code = [] ∧ rule.attributes = [] ∧
      f.context = some ⟨"AContext", [.token "x"]⟩ ∧ f ≠ rule.emptyFunction .java 0 [] := by
  obtain ⟨rule, construct, hrule, hcode, none, declared, context⟩ := declared_labelThenBroken
  have makes := plain_makes_function .labelThenBroken .java true hrule
  rw [hcode, declared] at makes
  refine ⟨Grammar.loaded_get _, rule, _, _, hrule, makes, rfl, rfl, none, context, fun same => ?_⟩
  have asIfEmpty : rule.emptyFunction .java 0 [.token "x"] = rule.emptyFunction .java 0 [] := same
  simpa [none] using Rule.emptyFunction_eq_iff.mp asIfEmpty

end Setup

end RecognizerModel
