import RecognizerModel.Proofs.PlainTranslation

/-! Operations without what hangs on the place where they stand: labels, levels, the kinds of
choices and their tests. What is left of the code of a rule comes from a translation that keeps no
track of where it is. -/
namespace RecognizerModel

mutual

/-- An operation without labels and levels, and its choices without kinds and tests. -/
def Op.bare : Op → Op
  | .matchToken name ttype _ => .matchToken name ttype []
  | .invokeRule name ctxType args _ => .invokeRule name ctxType args []
  | .matchLiteral literal ttype _ => .matchLiteral literal ttype []
  | .action code => .action code
  | .forcedAction code => .forcedAction code
  | .predicate code => .predicate code
  | .epsilon => .epsilon
  | .choice c => .choice c.bare
  | .testSet ttypes names => .testSet ttypes names
  | .addLeaf label => .addLeaf label
  | .becomeRoot label => .becomeRoot label
  | .treeRewrite rewrite => .treeRewrite rewrite.bare
  | .rewriteOptional body => .rewriteOptional body.bare
  | .rewriteClosure body => .rewriteClosure body.bare
  | .rewriteTree tree => .rewriteTree tree.bare
  | .rewriteToken token ttype isRoot arg _ _ => .rewriteToken token ttype isRoot arg 0 0
  | .rewriteRule rule isRoot _ _ => .rewriteRule rule isRoot 0 0

def Op.bareAll : List Op → List Op
  | [] => []
  | op :: rest => op.bare :: Op.bareAll rest

def Alternative.bare : Alternative → Alternative
  | ⟨num, ops⟩ => ⟨num, Op.bareAll ops⟩

def Alternative.bareAll : List Alternative → List Alternative
  | [] => []
  | alt :: rest => alt.bare :: Alternative.bareAll rest

def Choice.bare : Choice → Choice
  | ⟨_, decision, ebnf, alts, _, preamble⟩ =>
    ⟨default, decision, ebnf, Alternative.bareAll alts, [], Op.bareAll preamble⟩

def TreeRewrite.bare : TreeRewrite → TreeRewrite
  | ⟨_, ops⟩ => ⟨0, Op.bareAll ops⟩

def RewriteOptional.bare : RewriteOptional → RewriteOptional
  | ⟨_, referenced, ops⟩ => ⟨0, referenced, Op.bareAll ops⟩

def RewriteClosure.bare : RewriteClosure → RewriteClosure
  | ⟨_, referenced, ops⟩ => ⟨0, referenced, Op.bareAll ops⟩

def RewriteTree.bare : RewriteTree → RewriteTree
  | ⟨_, _, root, children⟩ => ⟨0, 0, Op.bareAll root, Op.bareAll children⟩

end

theorem Op.bareAll_append (ops rest : List Op) :
    Op.bareAll (ops ++ rest) = Op.bareAll ops ++ Op.bareAll rest := by
  induction ops with
  | nil => rfl
  | cons op ops ih => rw [List.cons_append, bareAll, ih, bareAll, List.cons_append]

theorem Op.bare_addLabel (op : Op) (label : String) : (op.addLabel label).bare = op.bare := by
  cases op <;> simp only [addLabel, bare]

namespace Grammar

variable (g : Grammar) (target : Target)

/-- What is matched for a reference. -/
def bareReference? : Reference → Option (List Op)
  | .rule r => r.name.map fun name => [.invokeRule name (target.contextType name) r.args []]
  | .token t => do
    let name ← t.name
    return [.matchToken name (← g.vocabulary.type? name) []]
  | .literal l => do
    let text ← l.text
    return [.matchLiteral text (← g.vocabulary.type? text) []]

/-- What a rewrite makes of a reference. -/
def bareRewriteReference? (isRoot : Bool) : Reference → Option (List Op)
  | .rule r => r.name.map fun name => [.rewriteRule name isRoot 0 0]
  | .token t => do
    let name ← t.name
    return [.rewriteToken name (← g.vocabulary.type? name) isRoot t.arg 0 0]
  | .literal l => do
    let text ← l.text
    return [.rewriteToken text (← g.vocabulary.type? text) isRoot none 0 0]

mutual

/-- The first element of a tree is its root and the others are its children. -/
def bareRewriteElement? (isRoot : Bool) : RewriteElement → Option (List Op)
  | .reference r => g.bareRewriteReference? isRoot r
  | .tree _ [] => none
  | .tree _ (first :: rest) => do
    let root ← bareRewriteElement? true first
    let children ← bareRewriteElements? rest
    return [.rewriteTree ⟨0, 0, root, children⟩]
  | .optional _ referenced elements => do
    return [.rewriteOptional ⟨0, referenced, ← bareRewriteElements? elements⟩]
  | .closure _ referenced elements => do
    return [.rewriteClosure ⟨0, referenced, ← bareRewriteElements? elements⟩]

def bareRewriteElements? : List RewriteElement → Option (List Op)
  | [] => some []
  | element :: rest => do
    return (← bareRewriteElement? false element) ++ (← bareRewriteElements? rest)

end

def bareRewrite? : Option Rewrite → Option (List Op)
  | none => some []
  | some rewrite => do return [.treeRewrite ⟨0, ← g.bareRewriteElements? rewrite.elements⟩]

mutual

/-- Marks and labels are looked through, and a block with one alternative stands for the operations
of that alternative. -/
def bareElement? : Element → Option (List Op)
  | .reference r => g.bareReference? target r
  | .action c => c.code.map fun code => [.action code]
  | .forcedAction c => c.code.map fun code => [.forcedAction code]
  | .predicate c => c.code.map fun code => [.predicate code]
  | .epsilon _ => some [.epsilon]
  | .block b => bareBlock? b
  | .ebnf kind _ decision (some ⟨_, bodyDecision, alt :: rest⟩) => do
    let alts ← bareAlts? 1 (alt :: rest)
    return [.choice ⟨default, decision.or bodyDecision, some kind, alts, [], []⟩]
  | .root _ (some operand) | .bang _ (some operand) | .labeled _ (some operand) =>
    bareElement? operand
  | _ => none

def bareElements? : List Element → Option (List Op)
  | [] => some []
  | element :: rest => do return (← bareElement? element) ++ (← bareElements? rest)

def bareBlock? : Block → Option (List Op)
  | ⟨_, _, []⟩ => none
  | ⟨_, _, [alt]⟩ => bareAlt? alt
  | ⟨_, decision, alts⟩ => do
    return [.choice ⟨default, decision, none, ← bareAlts? 1 alts, [], []⟩]

/-- The alternatives of a choice, which count from `num`. -/
def bareAlts? (num : Nat) : List Alt → Option (List Alternative)
  | [] => some []
  | alt :: rest => do return ⟨num, ← bareAlt? alt⟩ :: (← bareAlts? (num + 1) rest)

/-- The elements in order and then the rewrite, if there is one. -/
def bareAlt? : Alt → Option (List Op)
  | ⟨_, elements, rewrite, _, _⟩ => do
    return (← bareElements? elements) ++ (← g.bareRewrite? rewrite)

end

def bareRule? (rule : Rule) : Option (List Op) :=
  rule.block.bind (g.bareBlock? target)

end Grammar

namespace Setup

variable {g : Grammar} {target : Target} {validate : Bool}

theorem bare_of_labeled {setup : Setup} {refs : List String} {span : Span} {op labeled : Op}
    {label : Option Label} (h : setup.labeled refs span op label = .ok labeled) :
    labeled.bare = op.bare := by
  obtain rfl | ⟨name, rfl⟩ := eq_or_eq_addLabel_of_labeled h
  · rfl
  · exact Op.bare_addLabel op name

theorem bareReference_of_plainOp {r : Reference} {op : Op}
    (h : (plain g target validate).plainOp r = .ok op) :
    g.bareReference? target r = some [op.bare] := by
  match r with
  | .rule ⟨_, some name, args, _⟩ =>
      cases h
      rfl
  | .token ⟨_, some name, _, _⟩ =>
      obtain ⟨ttype, htype, h⟩ := bind_eq_ok.mp h
      cases h
      have known : g.vocabulary.type? name = some ttype := type?_of_typeOf htype
      simp only [Grammar.bareReference?, known, Op.bare, Option.bind_eq_bind, Option.bind_some,
        Option.pure_def]
  | .literal ⟨_, some text⟩ =>
      obtain ⟨ttype, htype, h⟩ := bind_eq_ok.mp h
      cases h
      have known : g.vocabulary.type? text = some ttype := type?_of_typeOf htype
      simp only [Grammar.bareReference?, known, Op.bare, Option.bind_eq_bind, Option.bind_some,
        Option.pure_def]
  | .rule ⟨_, none, _, _⟩ | .token ⟨_, none, _, _⟩ | .literal ⟨_, none⟩ => cases h

theorem bareReference_of_referenceCode {refs : List String} {r : Reference}
    {label : Option Label} {ops : List Op}
    (h : (plain g target validate).referenceCode refs r label = .ok ops) :
    g.bareReference? target r = some (Op.bareAll ops) := by
  obtain ⟨op, hop, h⟩ := bind_eq_ok.mp h
  obtain ⟨labeled, hlabeled, h⟩ := bind_eq_ok.mp h
  rw [decoratedReference_plain] at h
  cases h
  rw [bareReference_of_plainOp hop, Op.bareAll, bare_of_labeled hlabeled, Op.bareAll]

/-- Under at most one label the reference is what counts. -/
theorem bareElement_of_labeledReferenceCode {refs : List String} {element : Element}
    {built : Reference × List Op}
    (h : (plain g target validate).labeledReferenceCode refs element = .ok built) :
    g.bareElement? target element = some (Op.bareAll built.2) := by
  obtain ⟨label, hsplit, hcode⟩ := exists_reference_of_labeledReferenceCode h
  have bare := bareReference_of_referenceCode hcode
  obtain ⟨rfl, rfl⟩ | ⟨l, rfl, rfl⟩ := Element.eq_of_splitLabel hsplit
  · rw [Grammar.bareElement?, bare]
  · rw [Grammar.bareElement?, Grammar.bareElement?, bare]

theorem bareRewriteReference_of_rewriteReferenceCode {spot : Spot} {isRoot : Bool} {r : Reference}
    {ops : List Op} (h : (plain g target validate).rewriteReferenceCode spot isRoot r = .ok ops) :
    g.bareRewriteReference? isRoot r = some (Op.bareAll ops) := by
  match r with
  | .rule ⟨_, some name, _, _⟩ =>
      cases h
      rfl
  | .token ⟨_, some name, _, _⟩ | .literal ⟨_, some name⟩ =>
      obtain ⟨ttype, htype, h⟩ := bind_eq_ok.mp h
      cases h
      have known : g.vocabulary.type? name = some ttype := type?_of_typeOf htype
      simp only [Grammar.bareRewriteReference?, known, Op.bareAll, Op.bare, plain_decorated,
        Option.bind_eq_bind, Option.bind_some, Option.pure_def]
  | .rule ⟨_, none, _, _⟩ | .token ⟨_, none, _, _⟩ | .literal ⟨_, none⟩ => cases h

theorem rewriteCompositional_bare : RewriteCompositional g target validate
    (fun _ isRoot element ops => g.bareRewriteElement? isRoot element = some (Op.bareAll ops))
    (fun _ elements ops => g.bareRewriteElements? elements = some (Op.bareAll ops)) where
  reference h := by
    rw [Grammar.bareRewriteElement?]
    exact bareRewriteReference_of_rewriteReferenceCode h
  tree hroot hchildren := by
    simp only [Grammar.bareRewriteElement?, hroot, hchildren, Op.bareAll, Op.bare,
      RewriteTree.bare, Option.bind_eq_bind, Option.bind_some, Option.pure_def]
  optional hops := by
    simp only [Grammar.bareRewriteElement?, hops, Op.bareAll, Op.bare, RewriteOptional.bare,
      Option.bind_eq_bind, Option.bind_some, Option.pure_def]
  closure hops := by
    simp only [Grammar.bareRewriteElement?, hops, Op.bareAll, Op.bare, RewriteClosure.bare,
      Option.bind_eq_bind, Option.bind_some, Option.pure_def]
  noElements := rfl
  elements hfirst hothers := by
    simp only [Grammar.bareRewriteElements?, hfirst, hothers, Op.bareAll_append,
      Option.bind_eq_bind, Option.bind_some, Option.pure_def]

theorem bareRewrite_of_code {spot : Spot} {rewrite : Option Rewrite} {ops : List Op}
    (h : (plain g target validate).rewriteCode spot rewrite = .ok ops) :
    g.bareRewrite? rewrite = some (Op.bareAll ops) := by
  obtain ⟨rfl, rfl⟩ | ⟨r, body, rfl, hbody, rfl⟩ := rewriteCompositional_bare.of_rewriteCode h
  · rfl
  · simp only [Grammar.bareRewrite?, hbody, Op.bareAll, Op.bare, TreeRewrite.bare,
      Option.bind_eq_bind, Option.bind_some, Option.pure_def]

/-- A choice keeps its decision, its operator and its alternatives. -/
theorem bare_of_choiceAt {site : ChoiceSite} {alts : List Alternative} {c : Choice}
    (h : (plain g target validate).choiceAt site alts = .ok c) :
    c.bare = ⟨default, site.decision, site.ebnf, Alternative.bareAll alts, [], []⟩ := by
  obtain ⟨rfl, _⟩ := eq_of_choiceAt h
  rw [Choice.bare, Op.bareAll]

theorem compositional_bare : Compositional g target validate
    (fun _ element ops => g.bareElement? target element = some (Op.bareAll ops))
    (fun _ elements ops => g.bareElements? target elements = some (Op.bareAll ops))
    (fun _ block ops => g.bareBlock? target block = some (Op.bareAll ops))
    (fun _ _ alt ops => g.bareAlt? target alt = some (Op.bareAll ops))
    (fun _ num alts built => g.bareAlts? target num alts = some (Alternative.bareAll built)) where
  reference hops := by
    rw [Grammar.bareElement?]
    exact bareReference_of_referenceCode hops
  action := rfl
  forcedAction := rfl
  predicate := rfl
  epsilon := rfl
  block hops := by rwa [Grammar.bareElement?]
  ebnf {_ _ _ _ _ _ alts _ _} nonempty halts hc := by
    obtain ⟨alt, rest, rfl⟩ := List.exists_cons_of_ne_nil nonempty
    simp only [Grammar.bareElement?, halts, Op.bareAll, Op.bare, bare_of_choiceAt hc,
      ChoiceSite.ofEbnf, Option.bind_eq_bind, Option.bind_some, Option.pure_def]
  root hbuilt := by
    rw [Grammar.bareElement?]
    exact bareElement_of_labeledReferenceCode hbuilt
  bang hops := by rwa [Grammar.bareElement?]
  labeled hbuilt := bareElement_of_labeledReferenceCode hbuilt
  noElements := rfl
  elements hfirst hothers := by
    simp only [Grammar.bareElements?, hfirst, hothers, Op.bareAll_append, Option.bind_eq_bind,
      Option.bind_some, Option.pure_def]
  inlined hops := by rwa [Grammar.bareBlock?]
  choice {_ _ _ alts _ _} several halts hc := by
    match alts with
    | alt :: next :: rest =>
        simp only [Grammar.bareBlock?, halts, Op.bareAll, Op.bare, bare_of_choiceAt hc,
          ChoiceSite.ofBlock, Option.bind_eq_bind, Option.bind_some, Option.pure_def]
  alt _ hops hrewritten := by
    simp only [Grammar.bareAlt?, hops, bareRewrite_of_code hrewritten, Op.bareAll_append,
      Option.bind_eq_bind, Option.bind_some, Option.pure_def]
  noAlts := rfl
  alts hops hothers := by
    simp only [Grammar.bareAlts?, hops, hothers, Alternative.bareAll, Alternative.bare,
      Option.bind_eq_bind, Option.bind_some, Option.pure_def]

theorem bareRule_of_ruleCode {rule : Rule} {code : List Op}
    (h : (plain g target validate).ruleCode rule = .ok code) :
    g.bareRule? target rule = some (Op.bareAll code) := by
  obtain ⟨block, hblock, bare⟩ := compositional_bare.of_ruleCode h
  rw [Grammar.bareRule?, hblock, Option.bind_some, bare]

/-- Without extensions a rule that is built has the code that the bare translation gives, up to what
hangs on the place of an operation. -/
theorem bareRule_of_built (g : Grammar) (target : Target) (validate : Bool) {index : Nat}
    {rule : Rule} (hrule : (g.rulesFor .parser)[index]? = some rule) :
    ∃ f outcome, (plain g target validate).Makes index f outcome ∧
      (outcome.isBuilt → g.bareRule? target rule = some (Op.bareAll f.code)) := by
  obtain ⟨f, makes, hcode⟩ := plain_makes g target validate hrule
  refine ⟨f, _, makes, fun built => ?_⟩
  cases htranslated : (plain g target validate).ruleCode rule with
  | ok code =>
      rw [htranslated] at hcode
      rw [hcode]
      exact bareRule_of_ruleCode htranslated
  | error construct =>
      rw [htranslated] at built
      cases built

/-- The rule with a choice, in which there are another one and a rewrite. -/
theorem bareRule_of_choiceAndBroken : ∃ rule f outcome,
    (Grammar.choiceAndBroken.rulesFor .parser)[0]? = some rule ∧
      (plain .choiceAndBroken .java true).Makes 0 f outcome ∧ outcome.isBuilt ∧
      f.code.map (fun | .choice c => c.alts.map (·.ops.map Op.kind) | _ => []) =
        [[[.matchToken, .choice, .treeRewrite], [.matchToken]]] ∧
      Grammar.choiceAndBroken.bareRule? .java rule = some (Op.bareAll f.code) := by
  obtain ⟨_, rule, f, outcome, _, _, hrule, makes, built, kinds⟩ := makes_choiceAndBroken
  obtain ⟨f', outcome', makes', bare⟩ := bareRule_of_built .choiceAndBroken .java true hrule
  obtain ⟨rfl, rfl⟩ := makes.unique makes'
  exact ⟨rule, f, outcome, hrule, makes, built, kinds, bare built⟩

end Setup

end RecognizerModel
