import Mathlib.Data.List.Forall2
import RecognizerModel.Proofs.CodeLeaves
import RecognizerModel.Proofs.Constituents
import RecognizerModel.Proofs.PlainTranslation

/-! What becomes of the constituents of a rule. Each that the walk comes to gives one operation. One
that stands where the walk does not look gives none, and the rule is built without it. -/
namespace RecognizerModel

/-- Whether an operation is what becomes of a constituent, in an alternative or in a rewrite. -/
inductive Constituent.BuiltAs : Constituent → Op → Prop
  | token {name : String} {args : Option String} {ttype : Int} {labels : List String} :
      BuiltAs ⟨.tokenRef, some name, args⟩ (.matchToken name ttype labels)
  | rule {name ctxType : String} {args : Option String} {labels : List String} :
      BuiltAs ⟨.ruleRef, some name, args⟩ (.invokeRule name ctxType args labels)
  | literal {text : String} {ttype : Int} {labels : List String} :
      BuiltAs ⟨.stringLiteral, some text, none⟩ (.matchLiteral text ttype labels)
  | action {code : String} : BuiltAs ⟨.action, some code, none⟩ (.action code)
  | forcedAction {code : String} : BuiltAs ⟨.forcedAction, some code, none⟩ (.forcedAction code)
  | predicate {code : String} : BuiltAs ⟨.predicate, some code, none⟩ (.predicate code)
  | rewrittenToken {name : String} {args : Option String} {ttype : Int} {isRoot : Bool}
      {treeLevel blockLevel : Nat} : BuiltAs ⟨.tokenRef, some name, args⟩
        (.rewriteToken name ttype isRoot args treeLevel blockLevel)
  | rewrittenRule {name : String} {args : Option String} {isRoot : Bool}
      {treeLevel blockLevel : Nat} : BuiltAs ⟨.ruleRef, some name, args⟩
        (.rewriteRule name isRoot treeLevel blockLevel)
  | rewrittenLiteral {text : String} {ttype : Int} {isRoot : Bool} {treeLevel blockLevel : Nat} :
      BuiltAs ⟨.stringLiteral, some text, none⟩
        (.rewriteToken text ttype isRoot none treeLevel blockLevel)

namespace Op

/-- Whether an operation stands for a constituent. -/
def isConstituent : Op → Bool
  | matchToken .. | invokeRule .. | matchLiteral .. | action _ | forcedAction _ | predicate _
  | rewriteToken .. | rewriteRule .. => true
  | _ => false

/-- The operations in code that stand for constituents, in order. -/
def constituentsIn (ops : List Op) : List Op :=
  (leavesIn ops).filter isConstituent

@[simp] theorem constituentsIn_append (ops rest : List Op) :
    constituentsIn (ops ++ rest) = constituentsIn ops ++ constituentsIn rest := by
  unfold constituentsIn
  rw [leavesIn_append, List.filter_append]

end Op

/-- The operations in alternatives that stand for constituents, in order. -/
def Alternative.constituentsIn (alts : List Alternative) : List Op :=
  (leavesIn alts).filter Op.isConstituent

namespace Constituent.BuiltAs

variable {c : Constituent} {op : Op}

theorem addLabel (h : c.BuiltAs op) (label : String) : c.BuiltAs (op.addLabel label) := by
  cases h <;> constructor

theorem constituentsIn_singleton (h : c.BuiltAs op) : Op.constituentsIn [op] = [op] := by
  cases h <;> rfl

end Constituent.BuiltAs

/-- Whether operations are what becomes of constituents, one of each in order. -/
def Renders (constituents : List Constituent) (ops : List Op) : Prop :=
  List.Forall₂ Constituent.BuiltAs constituents (Op.constituentsIn ops)

namespace Renders

variable {cs cs' : List Constituent} {op : Op} {ops ops' : List Op}

theorem append (h : Renders cs ops) (h' : Renders cs' ops') :
    Renders (cs ++ cs') (ops ++ ops') := by
  unfold Renders
  rw [Op.constituentsIn_append]
  exact List.rel_append h h'

/-- What holds other operations stands for nothing itself. -/
theorem of_leaves (same : op.leaves = Op.leavesIn ops) (h : Renders cs ops) :
    Renders cs [op] := by
  unfold Renders Op.constituentsIn at h ⊢
  rwa [Op.leavesIn_singleton, same]

end Renders

/-- Whether operations stand for the constituents of a rule that the walk comes to, which are all of
them exactly if none is lost. -/
structure Node.PartlyRenderedBy (n : Node) (ops : List Op) : Prop where
  reached : Renders (n.reachedConstituents.map Node.constituent) ops
  parts : (n.reachedConstituents ++ n.lostConstituents).Perm n.constituents
  all_iff : (∃ nodes : List Node, nodes.Perm n.constituents ∧
    Renders (nodes.map Node.constituent) ops) ↔ n.lostConstituents = []

theorem Renders.partlyRenderedBy {n : Node} {ops : List Op} (rule : n.kind = .rule)
    (h : Renders (n.reachedConstituents.map Node.constituent) ops) : n.PartlyRenderedBy ops := by
  have parts := Node.reachedConstituents_append_lost rule
  refine ⟨h, parts, ?_, fun none => ?_⟩
  · -- there are as many operations as the walk comes to, so none is left for a further node
    rintro ⟨nodes, all, renders⟩
    have same : nodes.length = n.reachedConstituents.length := by
      simpa using renders.length_eq.trans h.length_eq.symm
    have total := parts.length_eq.trans all.length_eq.symm
    rw [List.length_append] at total
    exact List.eq_nil_of_length_eq_zero (by omega)
  · rw [none, List.append_nil] at parts
    exact ⟨n.reachedConstituents, parts, h⟩

namespace Setup

variable {g : Grammar} {target : Target} {validate : Bool}

theorem builtAs_of_plainOp {setup : Setup} {r : Reference} {op : Op}
    (h : setup.plainOp r = .ok op) : r.constituent.BuiltAs op := by
  match r with
  | .rule ⟨_, some _, _, _⟩ =>
      cases h
      exact .rule
  | .token ⟨_, some _, _, _⟩ =>
      obtain ⟨ttype, _, h⟩ := bind_eq_ok.mp h
      cases h
      exact .token
  | .literal ⟨_, some _⟩ =>
      obtain ⟨ttype, _, h⟩ := bind_eq_ok.mp h
      cases h
      exact .literal
  | .rule ⟨_, none, _, _⟩ | .token ⟨_, none, _, _⟩ | .literal ⟨_, none⟩ => cases h

theorem renders_singleton {c : Constituent} {op : Op} (h : c.BuiltAs op) : Renders [c] [op] := by
  unfold Renders
  rw [h.constituentsIn_singleton]
  exact .cons h .nil

theorem renders_of_referenceCode {refs : List String} {r : Reference} {label : Option Label}
    {ops : List Op} (h : (plain g target validate).referenceCode refs r label = .ok ops) :
    Renders [r.constituent] ops := by
  obtain ⟨op, labeled, hop, labels, rfl⟩ := exists_of_referenceCode h
  have built := builtAs_of_plainOp hop
  obtain rfl | ⟨name, rfl⟩ := labels
  · exact renders_singleton built
  · exact renders_singleton (built.addLabel name)

theorem renders_of_labeledReferenceCode {refs : List String} {element : Element}
    {built : Reference × List Op}
    (h : (plain g target validate).labeledReferenceCode refs element = .ok built) :
    Renders element.constituents built.2 := by
  obtain ⟨label, hsplit, hcode⟩ := exists_reference_of_labeledReferenceCode h
  have renders := renders_of_referenceCode hcode
  obtain ⟨rfl, rfl⟩ | ⟨l, rfl, rfl⟩ := Element.eq_of_splitLabel hsplit
  · rwa [Element.constituents]
  · rwa [Element.constituents, Element.constituents]

theorem renders_of_rewriteReferenceCode {spot : Spot} {isRoot : Bool} {r : Reference}
    {ops : List Op} (h : (plain g target validate).rewriteReferenceCode spot isRoot r = .ok ops) :
    Renders [r.constituent] ops := by
  match r with
  | .rule ⟨_, some _, _, _⟩ =>
      cases h
      exact renders_singleton .rewrittenRule
  | .token ⟨_, some _, _, _⟩ =>
      obtain ⟨ttype, _, h⟩ := bind_eq_ok.mp h
      cases h
      exact renders_singleton .rewrittenToken
  | .literal ⟨_, some _⟩ =>
      obtain ⟨ttype, _, h⟩ := bind_eq_ok.mp h
      cases h
      exact renders_singleton .rewrittenLiteral
  | .rule ⟨_, none, _, _⟩ | .token ⟨_, none, _, _⟩ | .literal ⟨_, none⟩ => cases h

/-- Every reference in a rewrite becomes an operation of the rewrite. -/
theorem rewriteCompositional_renders : RewriteCompositional g target validate
    (fun _ _ element ops => Renders element.constituents ops)
    (fun _ elements ops => Renders (RewriteElement.constituentsIn elements) ops) where
  reference h := by
    rw [RewriteElement.constituents]
    exact renders_of_rewriteReferenceCode h
  tree hroot hchildren := by
    rw [RewriteElement.constituents, RewriteElement.constituentsIn]
    refine (hroot.append hchildren).of_leaves ?_
    rw [Op.leavesIn_append]
    rfl
  optional hops := by
    rw [RewriteElement.constituents]
    exact hops.of_leaves rfl
  closure hops := by
    rw [RewriteElement.constituents]
    exact hops.of_leaves rfl
  noElements := .nil
  elements hfirst hothers := hfirst.append hothers

theorem renders_of_rewriteCode {spot : Spot} {rewrite : Option Rewrite} {ops : List Op}
    (h : (plain g target validate).rewriteCode spot rewrite = .ok ops) :
    Renders ((rewrite.map fun rewrite =>
      RewriteElement.constituentsIn rewrite.elements).getD []) ops := by
  obtain ⟨rfl, rfl⟩ | ⟨r, body, rfl, hbody, rfl⟩ := rewriteCompositional_renders.of_rewriteCode h
  · exact .nil
  · exact hbody.of_leaves rfl

/-- The tests of a choice stand for nothing in the rule. -/
theorem renders_of_choiceAt {site : ChoiceSite} {cs : List Constituent} {alts : List Alternative}
    {c : Choice} (inside : List.Forall₂ Constituent.BuiltAs cs (Alternative.constituentsIn alts))
    (h : (plain g target validate).choiceAt site alts = .ok c) : Renders cs [.choice c] := by
  obtain ⟨rfl, _⟩ := eq_of_choiceAt h
  have none (sets : List LookaheadSet) : (Op.leavesInEach (sets.map fun look =>
      [.testSet look.types (look.tokenNames g.vocabulary)]) ++ Op.leavesIn []).filter
        Op.isConstituent = [] := by
    rw [Op.leavesInEach_map_singleton fun _ => rfl, Op.leavesIn, List.append_nil]
    simp [Op.isConstituent]
  unfold Renders Op.constituentsIn
  rwa [Op.leavesIn_singleton, Op.leaves, List.filter_append, none, List.append_nil]

/-- What the walk comes to in an element becomes the operations of the element. -/
theorem compositional_renders : Compositional g target validate
    (fun _ element ops => Renders element.constituents ops)
    (fun _ elements ops => Renders (Element.constituentsIn elements) ops)
    (fun _ block ops => Renders block.constituents ops)
    (fun _ _ alt ops => Renders alt.constituents ops)
    (fun _ _ alts built => List.Forall₂ Constituent.BuiltAs (Alt.constituentsIn alts)
      (Alternative.constituentsIn built)) where
  reference hops := by
    rw [Element.constituents]
    exact renders_of_referenceCode hops
  action := renders_singleton .action
  forcedAction := renders_singleton .forcedAction
  predicate := renders_singleton .predicate
  epsilon := .nil
  block hops := by rwa [Element.constituents]
  ebnf _ halts hc := by
    rw [Element.constituents, Block.constituents]
    exact renders_of_choiceAt halts hc
  root hbuilt := by
    rw [Element.constituents]
    exact renders_of_labeledReferenceCode hbuilt
  bang hops := by rwa [Element.constituents]
  labeled hbuilt := renders_of_labeledReferenceCode hbuilt
  noElements := .nil
  elements hfirst hothers := by
    rw [Element.constituentsIn]
    exact hfirst.append hothers
  inlined hops := by
    rwa [Block.constituents, Alt.constituentsIn, Alt.constituentsIn, List.append_nil]
  choice _ halts hc := by
    rw [Block.constituents]
    exact renders_of_choiceAt halts hc
  alt _ hops hrewritten := by
    rw [Alt.constituents_eq]
    exact hops.append (renders_of_rewriteCode hrewritten)
  noAlts := .nil
  alts hops hothers := by
    rw [Alt.constituentsIn]
    unfold Alternative.constituentsIn
    rw [Alternative.leavesIn, List.filter_append]
    exact List.rel_append hops hothers

/-- What the walk comes to in a rule becomes the operations of the rule. -/
theorem renders_of_ruleCode {n : Node} {code : List Op} (rule : n.kind = .rule)
    (h : (plain g target validate).ruleCode (.ofNode n) = .ok code) :
    Renders (n.reachedConstituents.map Node.constituent) code := by
  obtain ⟨block, hblock, renders⟩ := compositional_renders.of_ruleCode h
  rwa [← Rule.constituents_block rule, hblock, Option.map_some, Option.getD_some]

/-- Without extensions the operations of a built rule that stand for something are those of the
constituents that the walk comes to, in its order. The rule is built without the others, so its
operations stand for every constituent exactly if there are no others. -/
theorem constituents_of_built (g : Grammar) (target : Target) (validate : Bool) {index : Nat}
    {n : Node} {rule : Rule} (made : n.rule? = some rule)
    (hrule : (g.rulesFor .parser)[index]? = some rule) :
    ∃ f outcome, (plain g target validate).Makes index f outcome ∧
      (outcome.isBuilt → n.PartlyRenderedBy f.code) := by
  obtain ⟨kind, rfl⟩ := Node.rule?_eq_some_iff.mp made
  obtain ⟨f, outcome, makes, code⟩ := plain_makes_code g target validate hrule
  exact ⟨f, outcome, makes, fun built =>
    (renders_of_ruleCode kind (code built)).partlyRenderedBy kind⟩

end Setup

namespace Grammar

/-- A rule with a reference in its block outside of any alternative. -/
def strayInBlock : Grammar :=
  (load "(PARSER_GRAMMAR P(RULE a(BLOCK(TOKEN_REF X)(ALT(TOKEN_REF Y)))))").toOption.get
    (by decide +kernel)

theorem strayInBlock_loaded : strayInBlock.Loaded :=
  loaded_get _

end Grammar

namespace Setup

theorem makes_strayInBlock : ∃ n rule f outcome, n ∈ Grammar.strayInBlock.root.inner.nodes ∧
    n.rule? = some rule ∧ (Grammar.strayInBlock.rulesFor .parser)[0]? = some rule ∧
      (plain .strayInBlock .java true).Makes 0 f outcome ∧ outcome.isBuilt ∧
      (plain .strayInBlock .java true).ruleCode rule = .ok f.code :=
  exists_node_makes_of_isSome (by decide +kernel)

theorem constituents_of_strayInBlock : ∃ (n : Node) (rule : Rule) (f : RuleFunction)
    (outcome : RuleOutcome), n.rule? = some rule ∧
    (Grammar.strayInBlock.rulesFor .parser)[0]? = some rule ∧
      (plain .strayInBlock .java true).Makes 0 f outcome ∧ outcome.isBuilt ∧
      n.PartlyRenderedBy f.code := by
  obtain ⟨n, rule, f, outcome, _, same, hrule, makes, built, _⟩ := makes_strayInBlock
  obtain ⟨f', outcome', makes', constituents⟩ :=
    constituents_of_built .strayInBlock .java true same hrule
  obtain ⟨rfl, rfl⟩ := makes.unique makes'
  exact ⟨n, rule, f, outcome, same, hrule, makes, built, constituents built⟩

/-- The rule is built, and no operation of it stands for the reference outside. -/
theorem strayInBlock_loses : Grammar.strayInBlock.Loaded ∧ ∃ n rule f outcome,
    n ∈ Grammar.strayInBlock.root.inner.nodes ∧ n.rule? = some rule ∧
      (Grammar.strayInBlock.rulesFor .parser)[0]? = some rule ∧
      (plain .strayInBlock .java true).Makes 0 f outcome ∧ outcome.isBuilt ∧
      ∃ lost ∈ n.constituents, lost.constituent = ⟨.tokenRef, some "X", none⟩ ∧
        ∀ op ∈ Op.leavesIn f.code, ¬lost.constituent.BuiltAs op := by
  have inside : Grammar.strayInBlock.root.inner.nodes.all (fun n =>
      n.constituents.any (·.constituent == ⟨.tokenRef, some "X", none⟩)) = true := by
    decide +kernel
  have evaluated : ((Grammar.strayInBlock.rulesFor .parser)[0]?.bind fun rule =>
      ((plain .strayInBlock .java true).ruleCode rule).toOption.map fun code =>
        (Op.leavesIn code).map Op.referredName?) = some [some "Y"] := by decide +kernel
  obtain ⟨n, rule, f, outcome, hn, same, hrule, makes, built, hcode⟩ := makes_strayInBlock
  obtain ⟨lost, hlost, isX⟩ := List.any_eq_true.mp (List.all_eq_true.mp inside n hn)
  rw [beq_iff_eq] at isX
  rw [hrule, Option.bind_some, hcode, Except.toOption, Option.map_some, Option.some.injEq]
    at evaluated
  refine ⟨Grammar.strayInBlock_loaded, n, rule, f, outcome, hn, same, hrule, makes, built, lost,
    hlost, isX, fun op hop stands => ?_⟩
  have name : op.referredName? ∈ [some "Y"] := evaluated ▸ List.mem_map_of_mem hop
  rw [isX] at stands
  cases stands <;> simp [Op.referredName?] at name

end Setup

end RecognizerModel
