import RecognizerModel.Proofs.LostSyntax
import RecognizerModel.Proofs.Parts

/-! What becomes of the parts of a rule. Each gives one operation: a choice made as its site says,
or an operation of a rewrite at the levels of its position. -/
namespace RecognizerModel

mutual

/-- The operations at and below an operation, each behind those that it holds. -/
def Op.nested : Op → List Op
  | .choice ⟨kind, decision, ebnf, alts, tests, preamble⟩ =>
    Alternative.nestedIn alts ++ (Op.nestedInEach tests ++ Op.nestedIn preamble) ++
      [.choice ⟨kind, decision, ebnf, alts, tests, preamble⟩]
  | .treeRewrite ⟨level, ops⟩ => Op.nestedIn ops ++ [.treeRewrite ⟨level, ops⟩]
  | .rewriteOptional ⟨level, referenced, ops⟩ =>
    Op.nestedIn ops ++ [.rewriteOptional ⟨level, referenced, ops⟩]
  | .rewriteClosure ⟨level, referenced, ops⟩ =>
    Op.nestedIn ops ++ [.rewriteClosure ⟨level, referenced, ops⟩]
  | .rewriteTree ⟨treeLevel, level, root, children⟩ =>
    Op.nestedIn root ++ Op.nestedIn children ++ [.rewriteTree ⟨treeLevel, level, root, children⟩]
  | op => [op]

def Op.nestedIn : List Op → List Op
  | [] => []
  | op :: rest => op.nested ++ Op.nestedIn rest

def Op.nestedInEach : List (List Op) → List Op
  | [] => []
  | ops :: rest => Op.nestedIn ops ++ Op.nestedInEach rest

def Alternative.nestedIn : List Alternative → List Op
  | [] => []
  | ⟨_, ops⟩ :: rest => Op.nestedIn ops ++ Alternative.nestedIn rest

end

namespace Op

def choice? : Op → Option Choice
  | choice c => some c
  | _ => none

/-- Whether an operation is made by a rewrite. -/
def isRewrite : Op → Bool
  | treeRewrite _ | rewriteOptional _ | rewriteClosure _ | rewriteTree _ | rewriteToken ..
  | rewriteRule .. => true
  | _ => false

/-- The choices in code, wherever they stand, inner ones first. -/
def choicesIn (ops : List Op) : List Choice :=
  (nestedIn ops).filterMap choice?

/-- The operations of rewrites in code, inner ones first. -/
def rewritesIn (ops : List Op) : List Op :=
  (nestedIn ops).filter isRewrite

/-- Whether an operation is what becomes of a part of a rule. -/
def isPart (op : Op) : Bool :=
  op.choice?.isSome || op.isRewrite

def partsIn (ops : List Op) : List Op :=
  (nestedIn ops).filter isPart

theorem nestedIn_append (ops rest : List Op) :
    nestedIn (ops ++ rest) = nestedIn ops ++ nestedIn rest := by
  induction ops with
  | nil => rfl
  | cons op ops ih => rw [List.cons_append, nestedIn, ih, nestedIn, List.append_assoc]

theorem nestedIn_singleton (op : Op) : nestedIn [op] = op.nested :=
  List.append_nil _

theorem nested_rewriteTree (treeLevel level : Nat) (root children : List Op) :
    (rewriteTree ⟨treeLevel, level, root, children⟩).nested =
      nestedIn (root ++ children) ++ [rewriteTree ⟨treeLevel, level, root, children⟩] := by
  rw [nestedIn_append, nested]

theorem nestedInEach_map_singleton {f : α → Op} (leaf : ∀ a, (f a).nested = [f a])
    (as : List α) : nestedInEach (as.map fun a => [f a]) = as.map f := by
  induction as with
  | nil => rfl
  | cons a rest ih =>
      rw [List.map_cons, nestedInEach, ih, nestedIn_singleton, leaf]
      rfl

theorem partsIn_append (ops rest : List Op) :
    partsIn (ops ++ rest) = partsIn ops ++ partsIn rest := by
  unfold partsIn
  rw [nestedIn_append, List.filter_append]

/-- What matches a reference is no part by itself. -/
theorem partsIn_of_labels? {op : Op} {labels : List String} (h : op.labels? = some labels) :
    partsIn [op] = [] := by
  cases op <;> first | rfl | cases h

/-- A part stands behind those inside of it. -/
theorem partsIn_of_nested {op : Op} {ops : List Op} (same : op.nested = nestedIn ops ++ [op])
    (part : op.isPart = true) : partsIn [op] = partsIn ops ++ [op] := by
  unfold partsIn
  rw [nestedIn_singleton, same, List.filter_append, List.filter_cons_of_pos part]
  rfl

end Op

/-- The operations in alternatives that become of parts of a rule. -/
def Alternative.partsIn (alts : List Alternative) : List Op :=
  (nestedIn alts).filter Op.isPart

/-- Whether an operation is what becomes of a part of a rewrite, at its levels. -/
inductive RewritePart.BuiltAs : RewritePart → Op → Prop
  | whole {treeLevel blockLevel : Nat} {ops : List Op} :
      BuiltAs ⟨.whole, treeLevel, blockLevel⟩ (.treeRewrite ⟨blockLevel, ops⟩)
  | tree {treeLevel blockLevel : Nat} {root children : List Op} :
      BuiltAs ⟨.tree, treeLevel, blockLevel⟩ (.rewriteTree ⟨treeLevel, blockLevel, root, children⟩)
  | optional {referenced : List String} {treeLevel blockLevel : Nat} {ops : List Op} :
      BuiltAs ⟨.optional referenced, treeLevel, blockLevel⟩
        (.rewriteOptional ⟨blockLevel, referenced, ops⟩)
  | closure {referenced : List String} {treeLevel blockLevel : Nat} {ops : List Op} :
      BuiltAs ⟨.closure referenced, treeLevel, blockLevel⟩
        (.rewriteClosure ⟨blockLevel, referenced, ops⟩)
  | token {c : Constituent} {name : String} {ttype : Int} {isRoot : Bool} {arg : Option String}
      {treeLevel blockLevel : Nat} :
      c.BuiltAs (.rewriteToken name ttype isRoot arg treeLevel blockLevel) →
        BuiltAs ⟨.reference c, treeLevel, blockLevel⟩
          (.rewriteToken name ttype isRoot arg treeLevel blockLevel)
  | rule {c : Constituent} {name : String} {isRoot : Bool} {treeLevel blockLevel : Nat} :
      c.BuiltAs (.rewriteRule name isRoot treeLevel blockLevel) →
        BuiltAs ⟨.reference c, treeLevel, blockLevel⟩
          (.rewriteRule name isRoot treeLevel blockLevel)

/-- Whether a choice is made of a site with so many alternatives, as the decisions of the grammar
say. -/
structure ChoiceSite.MadeInto (g : Grammar) (site : ChoiceSite) (count : Nat) (c : Choice) :
    Prop where
  decision : c.decision = site.decision
  ebnf : c.ebnf = site.ebnf
  /-- Without a classified decision the choice is generic. -/
  kind : c.kind = ⟨((site.decision.bind g.classify).map Classification.strategy).getD .generic,
    site.ebnf.isSome⟩
  numbers : c.alts.map Alternative.num = List.range' 1 count
  several : (if site.ebnf.isSome then 1 else 2) ≤ count
  noTests : c.kind.isLl1 = false → c.tests = []
  /-- A test for each alternative, with the types of its set and their names in the same order. -/
  tests : c.kind.isLl1 = true → ∃ n sets, site.decision = some n ∧
    g.classify n = some (.ll1 sets) ∧ sets.length = count ∧
      c.tests = sets.map (fun look => [.testSet look.types
        (look.types.map fun t => (g.vocabulary.displayName? t).getD (toString t))]) ∧
      ∀ look ∈ sets, look.types.Pairwise (· < ·)
  preamble : c.preamble = []

/-- Whether an operation is what becomes of a part of a rule. -/
inductive Part.BuiltAs (g : Grammar) : Part → Op → Prop
  | choice {site : ChoiceSite} {count : Nat} {c : Choice} :
      site.MadeInto g count c → BuiltAs g (.choice site count) (.choice c)
  | rewrite {part : RewritePart} {op : Op} : part.BuiltAs op → BuiltAs g (.rewrite part) op

namespace Setup

variable {g : Grammar} {target : Target} {validate : Bool}

theorem partsIn_of_referenceCode {refs : List String} {r : Reference} {label : Option Label}
    {ops : List Op} (h : (plain g target validate).referenceCode refs r label = .ok ops) :
    Op.partsIn ops = [] := by
  obtain ⟨op, labeled, hop, hlabeled, rfl⟩ := exists_of_referenceCode h
  have bare := labels?_of_plainOp _ hop
  rcases hlabeled with rfl | ⟨name, rfl⟩
  · exact Op.partsIn_of_labels? bare
  · exact Op.partsIn_of_labels? (Op.labels?_addLabel_append bare name)

/-- A reference that is labeled or marked is no part, and neither is its operation. -/
theorem parts_of_labeledReferenceCode {refs : List String} {element : Element}
    {built : Reference × List Op}
    (h : (plain g target validate).labeledReferenceCode refs element = .ok built)
    (blocks trees : Nat) :
    List.Forall₂ (Part.BuiltAs g) (element.parts blocks trees) (Op.partsIn built.2) := by
  obtain ⟨label, hsplit, hcode⟩ := exists_reference_of_labeledReferenceCode h
  have none : element.parts blocks trees = [] := by
    obtain ⟨rfl, _⟩ | ⟨l, rfl, _⟩ := Element.eq_of_splitLabel hsplit
    · rfl
    · rfl
  rw [none, partsIn_of_referenceCode hcode]
  exact .nil

theorem parts_of_rewriteReferenceCode {spot : Spot} {isRoot : Bool} {r : Reference}
    {ops : List Op} (h : (plain g target validate).rewriteReferenceCode spot isRoot r = .ok ops) :
    List.Forall₂ RewritePart.BuiltAs [⟨.reference r.constituent, spot.trees, spot.blockLevel⟩]
      (Op.partsIn ops) := by
  match r with
  | .rule ⟨_, some _, _, _⟩ =>
      cases h
      exact .cons (.rule .rewrittenRule) .nil
  | .token ⟨_, some _, _, _⟩ =>
      obtain ⟨ttype, _, h⟩ := bind_eq_ok.mp h
      cases h
      exact .cons (.token .rewrittenToken) .nil
  | .literal ⟨_, some _⟩ =>
      obtain ⟨ttype, _, h⟩ := bind_eq_ok.mp h
      cases h
      exact .cons (.token .rewrittenLiteral) .nil
  | .rule ⟨_, none, _, _⟩ | .token ⟨_, none, _, _⟩ | .literal ⟨_, none⟩ => cases h

/-- The parts of a rewrite become operations at the levels of the spots where they are built. -/
theorem rewriteCompositional_parts : RewriteCompositional g target validate
    (fun spot _ element ops => List.Forall₂ RewritePart.BuiltAs
      (element.parts spot.blocks spot.trees) (Op.partsIn ops))
    (fun spot elements ops => List.Forall₂ RewritePart.BuiltAs
      (RewriteElement.partsIn spot.blocks spot.trees elements) (Op.partsIn ops)) where
  reference h := by
    rw [RewriteElement.parts]
    exact parts_of_rewriteReferenceCode h
  tree hroot hchildren := by
    rw [RewriteElement.parts, RewriteElement.partsIn,
      Op.partsIn_of_nested (Op.nested_rewriteTree _ _ _ _) rfl, Op.partsIn_append]
    exact List.rel_append (List.rel_append hroot hchildren) (.cons .tree .nil)
  optional hops := by
    rw [RewriteElement.parts, Op.partsIn_of_nested rfl rfl]
    exact List.rel_append hops (.cons .optional .nil)
  closure hops := by
    rw [RewriteElement.parts, Op.partsIn_of_nested rfl rfl]
    exact List.rel_append hops (.cons .closure .nil)
  noElements := .nil
  elements hfirst hothers := by
    rw [RewriteElement.partsIn, Op.partsIn_append]
    exact List.rel_append hfirst hothers

theorem parts_of_rewriteCode {spot : Spot} {rewrite : Option Rewrite} {ops : List Op}
    (h : (plain g target validate).rewriteCode spot rewrite = .ok ops) :
    List.Forall₂ (Part.BuiltAs g) ((rewrite.map fun rewrite =>
      (rewrite.parts spot.blocks spot.trees).map .rewrite).getD []) (Op.partsIn ops) := by
  obtain ⟨rfl, rfl⟩ | ⟨r, body, rfl, hbody, rfl⟩ := rewriteCompositional_parts.of_rewriteCode h
  · exact .nil
  · have parts : List.Forall₂ RewritePart.BuiltAs (r.parts spot.blocks spot.trees)
        (Op.partsIn [.treeRewrite ⟨spot.blockLevel, body⟩]) := by
      rw [Rewrite.parts, Op.partsIn_of_nested rfl rfl]
      exact List.rel_append hbody (.cons .whole .nil)
    exact List.forall₂_map_left_iff.mpr (parts.imp fun _ _ => .rewrite)

/-- A choice is made as its site says. -/
theorem madeInto_of_choiceAt {site : ChoiceSite} {count : Nat} {alts : List Alternative}
    {c : Choice} (numbers : alts.map Alternative.num = List.range' 1 count)
    (several : (if site.ebnf.isSome then 1 else 2) ≤ count)
    (h : (plain g target validate).choiceAt site alts = .ok c) : site.MadeInto g count c := by
  have length : alts.length = count := by simpa using congrArg List.length numbers
  obtain ⟨rfl, fits⟩ := eq_of_choiceAt h
  have known := isLl1_kindAt (plain g target validate) site
  refine ⟨rfl, rfl, rfl, numbers, several, fun other => ?_, fun ll1 => ?_, rfl⟩
  · rw [known, Option.isSome_eq_false_iff, Option.isNone_iff_eq_none] at other
    rw [other]
    rfl
  · rw [known] at ll1
    obtain ⟨sets, hlook⟩ := Option.isSome_iff_exists.mp ll1
    obtain ⟨n, hdecision, hclass⟩ :=
      (plain g target validate).lookaheadAt?_eq_some_iff.mp hlook
    refine ⟨n, sets, hdecision, hclass, (fits sets hlook).trans length, ?_, fun look _ =>
      look.sorted⟩
    rw [hlook]
    rfl

/-- The tests of a choice are no parts, so the choice stands directly behind its alternatives. -/
theorem partsIn_of_choiceAt {site : ChoiceSite} {alts : List Alternative} {c : Choice}
    (h : (plain g target validate).choiceAt site alts = .ok c) :
    Op.partsIn [.choice c] = Alternative.partsIn alts ++ [.choice c] := by
  obtain ⟨rfl, _⟩ := eq_of_choiceAt h
  have tests (sets : List LookaheadSet) : (Op.nestedInEach (sets.map fun look =>
      [.testSet look.types (look.tokenNames g.vocabulary)]) ++ Op.nestedIn []).filter Op.isPart =
        [] := by
    rw [Op.nestedInEach_map_singleton fun _ => rfl, Op.nestedIn, List.append_nil]
    simp [Op.isPart, Op.choice?, Op.isRewrite]
  unfold Op.partsIn
  rw [Op.nestedIn_singleton, Op.nested, List.filter_append, List.filter_append, tests,
    List.append_nil]
  rfl

theorem parts_of_choiceAt {site : ChoiceSite} {count : Nat} {parts : List Part}
    {alts : List Alternative} {c : Choice}
    (inside : List.Forall₂ (Part.BuiltAs g) parts (Alternative.partsIn alts))
    (numbers : alts.map Alternative.num = List.range' 1 count)
    (several : (if site.ebnf.isSome then 1 else 2) ≤ count)
    (h : (plain g target validate).choiceAt site alts = .ok c) :
    List.Forall₂ (Part.BuiltAs g) (parts ++ [.choice site count]) (Op.partsIn [.choice c]) := by
  rw [partsIn_of_choiceAt h]
  exact List.rel_append inside (.cons (.choice (madeInto_of_choiceAt numbers several h)) .nil)

/-- The parts of a rule become operations, in order. -/
theorem compositional_parts : Compositional g target validate
    (fun spot element ops => List.Forall₂ (Part.BuiltAs g)
      (element.parts spot.blocks spot.trees) (Op.partsIn ops))
    (fun spot elements ops => List.Forall₂ (Part.BuiltAs g)
      (Element.partsIn spot.blocks spot.trees elements) (Op.partsIn ops))
    (fun spot block ops => List.Forall₂ (Part.BuiltAs g)
      (block.parts spot.blocks spot.trees) (Op.partsIn ops))
    (fun spot _ alt ops => List.Forall₂ (Part.BuiltAs g)
      (alt.parts spot.blocks spot.trees) (Op.partsIn ops))
    (fun spot num alts built => List.Forall₂ (Part.BuiltAs g)
        (Alt.partsIn spot.blocks spot.trees alts) (Alternative.partsIn built) ∧
      built.map Alternative.num = List.range' num alts.length) where
  reference hops := by
    rw [Element.parts, partsIn_of_referenceCode hops]
    · exact .nil
    all_goals simp
  action := .nil
  forcedAction := .nil
  predicate := .nil
  epsilon := .nil
  block hops := by rwa [Element.parts]
  ebnf {_ _ _ _ _ _ alts _ _} nonempty halts hc := by
    have several : 1 ≤ alts.length := List.length_pos_of_ne_nil nonempty
    rw [Element.parts, Part.ofCount, if_pos several]
    exact parts_of_choiceAt halts.1 halts.2 several hc
  root hbuilt := by
    rw [Element.parts]
    exact parts_of_labeledReferenceCode hbuilt _ _
  bang hops := by rwa [Element.parts]
  labeled hbuilt := parts_of_labeledReferenceCode hbuilt _ _
  noElements := .nil
  elements hfirst hothers := by
    rw [Element.partsIn, Op.partsIn_append]
    exact List.rel_append hfirst hothers
  inlined hops := by
    simpa [Block.parts, Alt.partsIn, Part.ofCount] using hops
  choice several halts hc := by
    rw [Block.parts, if_pos several, Part.ofCount, if_pos several]
    exact parts_of_choiceAt halts.1 halts.2 several hc
  alt _ hops hrewritten := by
    have rewritten := parts_of_rewriteCode hrewritten
    rw [Alt.parts_eq, Op.partsIn_append]
    exact List.rel_append hops rewritten
  noAlts := ⟨.nil, rfl⟩
  alts hops hothers := by
    refine ⟨?_, ?_⟩
    · rw [Alt.partsIn]
      unfold Alternative.partsIn
      rw [Alternative.nestedIn, List.filter_append]
      exact List.rel_append hops hothers.1
    · rw [List.map_cons, hothers.2, List.length_cons, List.range'_succ]

/-- The positions that are parts of a rule become operations of its code, in order. -/
theorem parts_of_ruleCode {n : Node} {code : List Op} (rule : n.kind = .rule)
    (h : (plain g target validate).ruleCode (.ofNode n) = .ok code) :
    List.Forall₂ (Part.BuiltAs g) (n.walked.filterMap Position.part?) (Op.partsIn code) := by
  obtain ⟨block, hblock, parts⟩ := compositional_parts.of_ruleCode h
  rwa [← Rule.parts_block rule, hblock, Option.map_some, Option.getD_some]

/-- The choices in the code of a rule are those of its positions. -/
theorem choices_of_ruleCode {n : Node} {code : List Op} (rule : n.kind = .rule)
    (h : (plain g target validate).ruleCode (.ofNode n) = .ok code) :
    List.Forall₂ (fun p c => p.site.MadeInto g p.count c) (n.walked.filter Position.isChoice)
      (Op.choicesIn code) := by
  have each : Relator.LiftFun (Part.BuiltAs g)
      (Option.Rel fun (choice : ChoiceSite × Nat) c => choice.1.MadeInto g choice.2 c)
      Part.choice? Op.choice? := by
    rintro _ _ (made | made)
    · exact .some made
    · cases made <;> exact .none
  have choices := List.rel_filterMap each (parts_of_ruleCode rule h)
  have positions : (n.walked.filterMap Position.part?).filterMap Part.choice? =
      (n.walked.filter Position.isChoice).map fun p => (p.site, p.count) := by
    rw [List.filterMap_filterMap, ← List.filterMap_eq_map, List.filterMap_filter]
    exact List.filterMap_congr fun p _ => p.choice?_part?
  have ops : (Op.partsIn code).filterMap Op.choice? = Op.choicesIn code := by
    rw [Op.partsIn, Op.choicesIn, List.filterMap_filter]
    refine List.filterMap_congr fun op _ => ?_
    cases op <;> rfl
  rwa [positions, ops, List.forall₂_map_left_iff] at choices

/-- The operations of rewrites in the code of a rule are those of its positions. -/
theorem rewrites_of_ruleCode {n : Node} {code : List Op} (rule : n.kind = .rule)
    (h : (plain g target validate).ruleCode (.ofNode n) = .ok code) :
    List.Forall₂ RewritePart.BuiltAs (n.walked.filterMap Position.rewritePart?)
      (Op.rewritesIn code) := by
  have each : Relator.LiftFun (Part.BuiltAs g) (Option.Rel RewritePart.BuiltAs)
      Part.rewrite? (Option.guard Op.isRewrite) := by
    rintro _ _ (made | made)
    · exact .none
    · cases id made <;> exact .some made
  have rewrites := List.rel_filterMap each (parts_of_ruleCode rule h)
  have positions : (n.walked.filterMap Position.part?).filterMap Part.rewrite? =
      n.walked.filterMap Position.rewritePart? := by
    rw [List.filterMap_filterMap]
    exact List.filterMap_congr fun p _ => p.rewrite?_part?
  have ops : (Op.partsIn code).filterMap (Option.guard Op.isRewrite) = Op.rewritesIn code := by
    rw [List.filterMap_eq_filter, Op.partsIn, Op.rewritesIn, List.filter_filter]
    exact List.filter_congr fun op _ => by cases op <;> rfl
  rwa [positions, ops] at rewrites

/-- Without extensions the choices in the code of a built rule are made as the sites of the rule say
where something chooses between enough alternatives, inner ones first. -/
theorem choices_of_built (g : Grammar) (target : Target) (validate : Bool) {index : Nat}
    {n : Node} {rule : Rule} (made : n.rule? = some rule)
    (hrule : (g.rulesFor .parser)[index]? = some rule) :
    ∃ f outcome, (plain g target validate).Makes index f outcome ∧
      (outcome.isBuilt → List.Forall₂ (fun p c => p.site.MadeInto g p.count c)
        (n.walked.filter Position.isChoice) (Op.choicesIn f.code)) := by
  obtain ⟨kind, rfl⟩ := Node.rule?_eq_some_iff.mp made
  obtain ⟨f, outcome, makes, code⟩ := plain_makes_code g target validate hrule
  exact ⟨f, outcome, makes, fun built => choices_of_ruleCode kind (code built)⟩

end Setup

/-- A rule that repeats a choice; for that one it is known that one token of lookahead is enough. -/
def Grammar.nestedChoices : Grammar :=
  ((load ("(PARSER_GRAMMAR P(RULE a(BLOCK @1(ALT(CLOSURE(BLOCK @2(ALT(TOKEN_REF X))" ++
    "(ALT(TOKEN_REF Y)))))(ALT(TOKEN_REF Z)))))")).toOption.get (by decide +kernel)).withDecision 2
      (.ll1 [.ofList [1], .ofList [2]])

namespace Setup

theorem choices_of_nestedChoices : ∃ (n : Node) (rule : Rule) (f : RuleFunction)
    (outcome : RuleOutcome), n.rule? = some rule ∧
    (Grammar.nestedChoices.rulesFor .parser)[0]? = some rule ∧
      (plain .nestedChoices .java true).Makes 0 f outcome ∧ outcome.isBuilt ∧
      (Op.choicesIn f.code).map Choice.decision = [some 2, some 1] ∧
      List.Forall₂ (fun p c => p.site.MadeInto .nestedChoices p.count c)
        (n.walked.filter Position.isChoice) (Op.choicesIn f.code) := by
  have evaluated : ((Grammar.nestedChoices.rulesFor .parser)[0]?.bind fun rule =>
      ((plain .nestedChoices .java true).ruleCode rule).toOption.map fun code =>
        (Op.choicesIn code).map Choice.decision) = some [some 2, some 1] := by decide +kernel
  obtain ⟨n, rule, f, outcome, _, same, hrule, makes, built, seen⟩ :=
    exists_node_makes_of_map evaluated
  obtain ⟨f', outcome', makes', choices⟩ :=
    choices_of_built .nestedChoices .java true same hrule
  obtain ⟨rfl, rfl⟩ := makes.unique makes'
  exact ⟨n, rule, f, outcome, same, hrule, makes, built, seen, choices built⟩

/-- Without extensions the operations of rewrites in the code of a built rule stand at the levels of
trees and blocks where their nodes are, inner ones first. -/
theorem levels_of_built (g : Grammar) (target : Target) (validate : Bool) {index : Nat}
    {n : Node} {rule : Rule} (made : n.rule? = some rule)
    (hrule : (g.rulesFor .parser)[index]? = some rule) :
    ∃ f outcome, (plain g target validate).Makes index f outcome ∧
      (outcome.isBuilt → List.Forall₂ RewritePart.BuiltAs
        (n.walked.filterMap Position.rewritePart?) (Op.rewritesIn f.code)) := by
  obtain ⟨kind, rfl⟩ := Node.rule?_eq_some_iff.mp made
  obtain ⟨f, outcome, makes, code⟩ := plain_makes_code g target validate hrule
  exact ⟨f, outcome, makes, fun built => rewrites_of_ruleCode kind (code built)⟩

end Setup

/-- A rule that repeats a block with a rewrite, which repeats a tree inside of a tree. -/
def Grammar.nestedTrees : Grammar :=
  (load ("(PARSER_GRAMMAR P(RULE a(BLOCK(ALT(CLOSURE(BLOCK(ALT(TOKEN_REF X)(REWRITE" ++
    "(REWRITE_CLOSURE(REWRITE_TREE(TOKEN_REF X)(REWRITE_TREE(TOKEN_REF Y))))))))))))"
    )).toOption.get (by decide +kernel)

namespace Setup

theorem levels_of_nestedTrees : ∃ (n : Node) (rule : Rule) (f : RuleFunction)
    (outcome : RuleOutcome), n.rule? = some rule ∧
    (Grammar.nestedTrees.rulesFor .parser)[0]? = some rule ∧
      (plain .nestedTrees .java true).Makes 0 f outcome ∧ outcome.isBuilt ∧
      (Op.rewritesIn f.code).length = 6 ∧
      List.Forall₂ RewritePart.BuiltAs (n.walked.filterMap Position.rewritePart?)
        (Op.rewritesIn f.code) := by
  have evaluated : ((Grammar.nestedTrees.rulesFor .parser)[0]?.bind fun rule =>
      ((plain .nestedTrees .java true).ruleCode rule).toOption.map fun code =>
        (Op.rewritesIn code).length) = some 6 := by decide +kernel
  obtain ⟨n, rule, f, outcome, _, same, hrule, makes, built, seen⟩ :=
    exists_node_makes_of_map evaluated
  obtain ⟨f', outcome', makes', levels⟩ := levels_of_built .nestedTrees .java true same hrule
  obtain ⟨rfl, rfl⟩ := makes.unique makes'
  exact ⟨n, rule, f, outcome, same, hrule, makes, built, seen, levels built⟩

end Setup

end RecognizerModel
