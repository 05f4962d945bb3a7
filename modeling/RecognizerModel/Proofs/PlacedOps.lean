import RecognizerModel.Proofs.ChainFold
import RecognizerModel.Proofs.CoupledModel
import RecognizerModel.Proofs.LoadedGrammar

/-! What extensions put into an alternative when it is entered. The number that they leave in it
stays, and the operations give way to those of the walk. So two chains that do the same everywhere
else build the same, whatever they put there. -/
namespace RecognizerModel

/-- Whether two extensions do the same, but for what they make of an alternative when it is
entered. -/
structure Extension.AlikeElsewhere (e e' : Extension) : Prop where
  name : e'.name = e.name
  hook {p : Point} : p ≠ .alternative → e'.hook p = e.hook p
  wantsLabel : e'.wantsLabel = e.wantsLabel

namespace Chain

/-- The alternative of a number as the extensions leave it when it is entered. -/
def entered (c : Chain) (num : Nat) : Alternative :=
  stage .alternative c.extensions ⟨num, []⟩ c.extensions.length

/-- An alternative always comes through, since all of them have one role. -/
theorem fold_alternative (c : Chain) (num : Nat) :
    c.fold .alternative none ⟨num, []⟩ = ⟨c.extensions.length, .ok (c.entered num)⟩ := by
  refine pass_of_kept fun k _ => ?_
  split
  · exact Contract.ofSubject_eq_none ⟨rfl, nofun⟩
  · rfl

/-- Whether two chains do the same, but for the operations that they put into an alternative when it
is entered. -/
structure AlikeElsewhere (c c' : Chain) : Prop where
  validate : c'.validate = c.validate
  extensions : List.Forall₂ Extension.AlikeElsewhere c.extensions c'.extensions
  num (num : Nat) : (c'.entered num).num = (c.entered num).num

theorem pass_eq_of_alike {p : Point} (other : p ≠ .alternative) {contract : Contract p.Node}
    {extensions extensions' : List Extension}
    (alike : List.Forall₂ Extension.AlikeElsewhere extensions extensions') (node : p.Node) :
    pass p contract (·.hook p) extensions' node = pass p contract (·.hook p) extensions node := by
  induction alike generalizing node with
  | nil => rfl
  | cons first _ ih => simp only [pass, first.hook other, first.name, ih]

end Chain

/-- The same setup with another chain. -/
def Setup.withChain (chain : Chain) (setup : Setup) : Setup :=
  { setup with chain }

namespace Setup

variable (setup : Setup) (chain : Chain)

@[simp] theorem referenceOp_withChain (r : Reference) :
    (setup.withChain chain).referenceOp r = setup.referenceOp r := rfl

@[simp] theorem defineImplicitLabel_withChain (op : Op) :
    (setup.withChain chain).defineImplicitLabel op = setup.defineImplicitLabel op := rfl

@[simp] theorem tokenType_withChain (name : String) (place : Place) (p : Point) :
    (setup.withChain chain).tokenType name place p = setup.tokenType name place p := rfl

@[simp] theorem strategy_withChain (site : ChoiceSite) :
    (setup.withChain chain).strategy site = setup.strategy site := rfl

@[simp] theorem grammar_withChain : (setup.withChain chain).grammar = setup.grammar := rfl

@[simp] theorem chain_withChain : (setup.withChain chain).chain = chain := rfl

@[simp] theorem target_withChain : (setup.withChain chain).target = setup.target := rfl

end Setup

namespace Chain.AlikeElsewhere

variable {setup : Setup} {chain : Chain} (h : setup.chain.AlikeElsewhere chain)

include h

theorem length : chain.extensions.length = setup.chain.extensions.length :=
  h.extensions.length_eq.symm

theorem wantsLabel : chain.wantsLabel = setup.chain.wantsLabel := by
  have any {extensions others : List Extension} (span : Span) (op : Op)
      (alike : List.Forall₂ Extension.AlikeElsewhere extensions others) :
      others.any (·.wantsLabel span op) = extensions.any (·.wantsLabel span op) := by
    induction alike with
    | nil => rfl
    | cons first _ ih => rw [List.any_cons, List.any_cons, first.wantsLabel, ih]
  funext span op
  exact any span op h.extensions

theorem visit (p : Point) (other : p ≠ .alternative) (node : p.Node) :
    (setup.withChain chain).visit p node = setup.visit p node := by
  have same : chain.fold p p.anchor? node = setup.chain.fold p p.anchor? node := by
    unfold Chain.fold
    rw [h.validate]
    exact pass_eq_of_alike other h.extensions node
  unfold Setup.visit Setup.withChain
  rw [same]

theorem needsImplicitLabel (span : Span) (op : Op) :
    (setup.withChain chain).needsImplicitLabel span op = setup.needsImplicitLabel span op := by
  unfold Setup.needsImplicitLabel Setup.withChain
  simp only [h.length, h.wantsLabel]

theorem reference (r : Reference) (label : Option Label) :
    (setup.withChain chain).reference r label = setup.reference r label := by
  simp (disch := decide) only [Setup.reference, Setup.labelIfNeeded, Setup.referenceOp_withChain,
    Setup.defineImplicitLabel_withChain, h.needsImplicitLabel, h.visit]

theorem rootReference (r : Reference) (ops : List Op) :
    (setup.withChain chain).rootReference r ops = setup.rootReference r ops := by
  simp (disch := decide) only [Setup.rootReference, h.visit]

theorem labeledReference (element : Element) :
    (setup.withChain chain).labeledReference element = setup.labeledReference element := by
  simp only [Setup.labeledReference, h.reference]

theorem action (c : CodeNode) : (setup.withChain chain).action c = setup.action c := by
  simp (disch := decide) only [Setup.action, h.visit]

theorem forcedAction (c : CodeNode) :
    (setup.withChain chain).forcedAction c = setup.forcedAction c := by
  simp (disch := decide) only [Setup.forcedAction, h.visit]

theorem predicate (c : CodeNode) : (setup.withChain chain).predicate c = setup.predicate c := by
  simp (disch := decide) only [Setup.predicate, h.visit]

theorem rewriteReference (isRoot : Bool) (r : Reference) :
    (setup.withChain chain).rewriteReference isRoot r = setup.rewriteReference isRoot r := by
  simp (disch := decide) only [Setup.rewriteReference, Setup.rewriteRule, Setup.rewriteToken,
    Setup.tokenType_withChain, h.visit]

theorem rewriteTree (root children : List Op) :
    (setup.withChain chain).rewriteTree root children = setup.rewriteTree root children := by
  simp (disch := decide) only [Setup.rewriteTree, h.visit]

theorem rewriteOptional (referenced : List String) (ops : List Op) :
    (setup.withChain chain).rewriteOptional referenced ops =
      setup.rewriteOptional referenced ops := by
  simp (disch := decide) only [Setup.rewriteOptional, h.visit]

theorem rewriteClosure (referenced : List String) (ops : List Op) :
    (setup.withChain chain).rewriteClosure referenced ops =
      setup.rewriteClosure referenced ops := by
  simp (disch := decide) only [Setup.rewriteClosure, h.visit]

omit h in
mutual

theorem rewriteElement (h : setup.chain.AlikeElsewhere chain) (isRoot : Bool) :
    ∀ element : RewriteElement,
      (setup.withChain chain).rewriteElement isRoot element = setup.rewriteElement isRoot element
  | .reference r => by simp only [Setup.rewriteElement, h.rewriteReference]
  | .tree _ [] => by simp only [Setup.rewriteElement]
  | .tree _ (first :: rest) => by
      simp only [Setup.rewriteElement, h.rewriteElement true first, h.rewriteElements rest,
        h.rewriteTree]
  | .optional _ _ elements => by
      simp only [Setup.rewriteElement, h.rewriteElements elements, h.rewriteOptional]
  | .closure _ _ elements => by
      simp only [Setup.rewriteElement, h.rewriteElements elements, h.rewriteClosure]

theorem rewriteElements (h : setup.chain.AlikeElsewhere chain) :
    ∀ elements : List RewriteElement,
      (setup.withChain chain).rewriteElements elements = setup.rewriteElements elements
  | [] => by simp only [Setup.rewriteElements]
  | element :: rest => by
      simp only [Setup.rewriteElements, h.rewriteElement false element, h.rewriteElements rest]

end

theorem rewriteOf (rewrite : Option Rewrite) :
    (setup.withChain chain).rewriteOf rewrite = setup.rewriteOf rewrite := by
  simp (disch := decide) only [Setup.rewriteOf, Setup.treeRewrite, h.rewriteElements, h.visit]

theorem ll1Test : (setup.withChain chain).ll1Test = setup.ll1Test := by
  funext look
  simp (disch := decide) only [Setup.ll1Test, Setup.grammar_withChain, h.visit]

theorem choice (kind : ChoiceKind) (site : ChoiceSite) (alts : List Alternative) :
    (setup.withChain chain).choice kind site alts = setup.choice kind site alts := by
  simp (disch := decide) only [Setup.choice, Setup.ll1Tests, Setup.visitChoice,
    Setup.grammar_withChain, h.ll1Test, h.visit]

end Chain.AlikeElsewhere

/-- Whether the walk goes through an alternative element by element: nothing strange stands in it,
and it is more than an epsilon. -/
structure Alt.IsSequence (alt : Alt) : Prop where
  strangers : alt.strangers = []
  nonempty : ¬(alt.elements = [] ∧ alt.rewrite = none)
  more (span : Span) : ¬(alt.elements = [.epsilon span] ∧ alt.rewrite = none)

namespace Setup

/-- The operations of the elements of an alternative and of its rewrite. -/
def altOps (setup : Setup) (alt : Alt) : Job (List Op) := do
  let ops ← setup.walkElements alt.elements
  return ops ++ (← setup.rewriteOf alt.rewrite)

/-- The block that is finished has the number that the extensions left when the alternative was
entered, and the operations of the walk in place of theirs. -/
theorem walkAlt_eq_finished (setup : Setup) (num : Nat) {alt : Alt} (h : alt.IsSequence) :
    setup.walkAlt num alt = (do
      enterAlt alt num
      Job.recordVisits .alternative setup.chain.extensions.length
      let ops ← setup.altOps alt
      setup.visit .finishAlternative ⟨(setup.chain.entered num).num, ops⟩) := by
  obtain ⟨span, elements, rewrite, strangers, refs⟩ := alt
  obtain rfl : strangers = [] := h.strangers
  rw [setup.walkAlt_eq num h.nonempty h.more]
  unfold alternative visit
  simp only [Point.anchor?, setup.chain.fold_alternative num, finishAlternative, altOps, bind_assoc,
    pure_bind]
  rfl

end Setup

namespace Chain.AlikeElsewhere

variable {setup : Setup} {chain : Chain}

mutual

theorem walkElement (h : setup.chain.AlikeElsewhere chain) : ∀ element : Element,
    (setup.withChain chain).walkElement element = setup.walkElement element
  | .reference r => by simp only [Setup.walkElement, h.reference]
  | .action c => by simp only [Setup.walkElement, h.action]
  | .forcedAction c => by simp only [Setup.walkElement, h.forcedAction]
  | .predicate c => by simp only [Setup.walkElement, h.predicate]
  | .block b => by simp only [Setup.walkElement, h.walkBlock b]
  | .ebnf _ _ _ (some ⟨_, _, alts⟩) => by
      simp only [Setup.walkElement, h.walkAlts 1 alts, Setup.strategy_withChain, h.choice]
  | .root _ (some operand) => by
      simp only [Setup.walkElement, h.labeledReference, h.rootReference]
  | .bang _ (some operand) => by simp only [Setup.walkElement, h.walkElement operand]
  | .labeled _ operand => by simp only [Setup.walkElement, h.labeledReference]
  | .epsilon _ | .ebnf _ _ _ none | .root _ none | .bang _ none => by
      simp only [Setup.walkElement]

theorem walkElements (h : setup.chain.AlikeElsewhere chain) : ∀ elements : List Element,
    (setup.withChain chain).walkElements elements = setup.walkElements elements
  | [] => by simp only [Setup.walkElements]
  | element :: rest => by
      simp only [Setup.walkElements, h.walkElement element, h.walkElements rest]

theorem walkBlock (h : setup.chain.AlikeElsewhere chain) : ∀ b : Block,
    (setup.withChain chain).walkBlock b = setup.walkBlock b
  | ⟨_, _, []⟩ => by simp only [Setup.walkBlock]
  | ⟨_, _, [alt]⟩ => by simp only [Setup.walkBlock, h.walkAlt 1 alt]
  | ⟨_, _, alt :: next :: rest⟩ => by
      simp only [Setup.walkBlock, h.walkAlts 1 (alt :: next :: rest), Setup.strategy_withChain,
        h.choice]

theorem walkAlts (h : setup.chain.AlikeElsewhere chain) : ∀ (num : Nat) (alts : List Alt),
    (setup.withChain chain).walkAlts num alts = setup.walkAlts num alts
  | _, [] => by simp only [Setup.walkAlts]
  | num, alt :: rest => by
      simp only [Setup.walkAlts, h.walkAlt num alt, h.walkAlts (num + 1) rest]

theorem walkAlt (h : setup.chain.AlikeElsewhere chain) : ∀ (num : Nat) (alt : Alt),
    (setup.withChain chain).walkAlt num alt = setup.walkAlt num alt
  | num, ⟨span, elements, rewrite, stranger :: others, refs⟩ => by simp only [Setup.walkAlt]
  | num, ⟨span, elements, rewrite, [], refs⟩ => by
      by_cases empty : elements = [] ∧ rewrite = none
      · obtain ⟨rfl, rfl⟩ := empty
        simp only [Setup.walkAlt]
      by_cases epsilon : ∃ s, elements = [.epsilon s] ∧ rewrite = none
      · obtain ⟨s, rfl, rfl⟩ := epsilon
        simp (disch := decide) only [Setup.walkAlt, Setup.epsilon, h.visit]
      -- both blocks are finished with the operations of the walk, and their numbers agree
      have sequence : Alt.IsSequence ⟨span, elements, rewrite, [], refs⟩ :=
        ⟨rfl, empty, not_exists.mp epsilon⟩
      rw [Setup.walkAlt_eq_finished _ num sequence, Setup.walkAlt_eq_finished _ num sequence]
      simp (disch := decide) only [Setup.altOps, h.walkElements elements, h.rewriteOf, h.visit,
        Setup.chain_withChain, h.length, h.num]

end

theorem walkRule (h : setup.chain.AlikeElsewhere chain) :
    (setup.withChain chain).walkRule = setup.walkRule := by
  funext rule
  simp only [Setup.walkRule, h.walkBlock]

theorem buildRule (h : setup.chain.AlikeElsewhere chain) (walk : Rule → Job (List Op))
    (rule : Rule) (index : Nat) :
    (setup.withChain chain).buildRule walk rule index = setup.buildRule walk rule index := by
  simp (disch := decide) only [Setup.buildRule, Setup.rule, Setup.rulePostamble,
    Setup.target_withChain, h.visit]

theorem buildRules (h : setup.chain.AlikeElsewhere chain) (walk : Rule → Job (List Op))
    (index : Nat) (rules : List Rule) :
    (setup.withChain chain).buildRules walk index rules = setup.buildRules walk index rules := by
  induction rules generalizing index with
  | nil => rfl
  | cons rule rest ih => simp only [Setup.buildRules, h.buildRule, ih]

theorem parserModel (h : setup.chain.AlikeElsewhere chain) :
    (setup.withChain chain).parserModel = setup.parserModel := by
  simp (disch := decide) only [Setup.parserModel, Setup.parserModelWith, Setup.parserFile,
    Setup.parserTable, Setup.grammar_withChain, h.walkRule, h.buildRules, h.visit]
  rfl

end Chain.AlikeElsewhere

/-- What the extensions put into an alternative when it is entered is gone when it is finished: they
are then handed the operations of its elements and its rewrite, under the number that they left.
Whole jobs come to the same, report the same and call the same extensions whatever is put there. -/
theorem Setup.finished_of_entered (setup : Setup) :
    (∀ (alt : Alt) (num : Nat), alt.IsSequence → setup.walkAlt num alt = (do
      enterAlt alt num
      Job.recordVisits .alternative setup.chain.extensions.length
      let ops ← setup.altOps alt
      setup.visit .finishAlternative ⟨(setup.chain.entered num).num, ops⟩)) ∧
    ∀ chain, setup.chain.AlikeElsewhere chain →
      (setup.withChain chain).parserModel = setup.parserModel :=
  ⟨fun _ num => setup.walkAlt_eq_finished num, fun _ => Chain.AlikeElsewhere.parserModel⟩

/-- An extension that runs code in front of every alternative, or means to. -/
def Extension.entering : Extension where
  name := "enter"
  hook
    | .alternative, block => { block with ops := block.ops ++ [.action "enter();"] }
    | _, node => node

theorem Extension.keeps_entering (p : Point) (node : p.Node) :
    ¬entering.ChangesRole p node ∧ ¬entering.RemovesAnchor p node := by
  cases p with
  | alternative => exact ⟨fun changes => changes rfl, fun removes => removes.2 nofun⟩
  | _ => exact ⟨fun changes => changes rfl, fun removes => removes.2 removes.1⟩

/-- An extension of the same name that changes nothing. -/
def Extension.idle : Extension where
  name := "enter"

theorem Extension.entering_alikeElsewhere : entering.AlikeElsewhere idle where
  name := rfl
  hook {p} other := by cases p <;> first | rfl | exact absurd rfl other
  wantsLabel := rfl

/-- A rule with one alternative, which is a token. -/
def Grammar.oneToken : Grammar :=
  (load "(PARSER_GRAMMAR P(RULE a(BLOCK(ALT(TOKEN_REF X)))))").toOption.get (by decide +kernel)

namespace Setup

def entering : Setup where
  grammar := .oneToken
  target := .java
  chain := ⟨[.entering], true⟩

/-- The extension that changes nothing makes the same of the grammar. -/
theorem finished_of_entered_entering : Grammar.oneToken.Loaded ∧
    entering.chain.AlikeElsewhere ⟨[.idle], true⟩ ∧
    (entering.withChain ⟨[.idle], true⟩).parserModel = entering.parserModel ∧
    ∃ alt : Alt, alt.IsSequence ∧ entering.walkAlt 1 alt = (do
      enterAlt alt 1
      Job.recordVisits .alternative 1
      let ops ← entering.altOps alt
      entering.visit .finishAlternative ⟨1, ops⟩) := by
  obtain ⟨finished, alike⟩ := entering.finished_of_entered
  have same : entering.chain.AlikeElsewhere ⟨[.idle], true⟩ :=
    ⟨rfl, .cons Extension.entering_alikeElsewhere .nil, fun _ => rfl⟩
  let token : TokenRef := ⟨⟨0, 0⟩, some "X", none, false⟩
  have sequence : Alt.IsSequence ⟨⟨0, 0⟩, [.reference (.token token)], none, [], []⟩ :=
    ⟨rfl, nofun, nofun⟩
  exact ⟨Grammar.loaded_get _, same, alike _ same, _, sequence, finished _ 1 sequence⟩

/-- The extension keeps all roles and hands on what is finished as it is, so the code of the rule is
what the alternative was finished with. The action that was put in is not there. -/
theorem entering_isLost : Grammar.oneToken.Loaded ∧
    (∀ p node, ¬Extension.entering.ChangesRole p node ∧
      ¬Extension.entering.RemovesAnchor p node) ∧
    (entering.chain.entered 1).ops = [.action "enter();"] ∧
    (∀ block, Extension.entering.hook .finishAlternative block = block) ∧
    ∃ model table f, Grammar.oneToken.parserResult ⟨some .java, true, false⟩ [.entering] =
        .ok model ∧ model.file.parser? = some table ∧ table.funcs = [f] ∧
      .action "enter();" ∉ f.code := by
  have evaluated : ((Grammar.oneToken.parserResult ⟨some .java, true, false⟩
      [.entering]).toOption.bind (·.file.parser?)).map (fun table =>
        table.funcs.map fun f => f.code.map Op.kind) = some [[.matchToken]] := by
    decide +kernel
  obtain ⟨table, htable, codes⟩ := Option.map_eq_some_iff.mp evaluated
  obtain ⟨model, hmodel, htable⟩ := Option.bind_eq_some_iff.mp htable
  obtain ⟨f, hf, code⟩ := List.map_eq_singleton_iff.mp codes
  refine ⟨Grammar.loaded_get _, Extension.keeps_entering, rfl, fun _ => rfl, model, table, f,
    eq_ok_of_toOption hmodel, htable, hf, fun inside => ?_⟩
  have kind : OpKind.action ∈ f.code.map Op.kind := List.mem_map_of_mem inside
  simp [code] at kind

end Setup

end RecognizerModel
