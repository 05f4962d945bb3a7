import RecognizerModel.Build.Model
import RecognizerModel.Proofs.Outcome

/-! What a walk gives, said without a state: the operations of an element as a function of where it
stands, or the first construct of which nothing can be built. -/
namespace RecognizerModel

/-- Where an element stands: the names that the alternative at hand refers to, and how many blocks
and rewrite trees are open around it. -/
structure Spot where
  refs : List String
  blocks : Nat
  trees : Nat

namespace Spot

/-- The spot outside of any block and alternative. -/
def start : Spot :=
  ⟨[], 0, 0⟩

/-- The level of the innermost block; outside of any it is 0. -/
def blockLevel (spot : Spot) : Nat :=
  spot.blocks - 1

def inBlock (spot : Spot) : Spot :=
  { spot with blocks := spot.blocks + 1 }

def inTree (spot : Spot) : Spot :=
  { spot with trees := spot.trees + 1 }

end Spot

mutual

/-- The names that the alternative at hand refers to once an element is behind. An alternative
inlined from a block stays at hand; the one around a choice comes back. -/
def Element.refsAfter (refs : List String) : Element → List String
  | .block b => b.refsAfter refs
  | .bang _ (some operand) => operand.refsAfter refs
  | _ => refs

def Element.refsAfterAll (refs : List String) : List Element → List String
  | [] => refs
  | element :: rest => Element.refsAfterAll (element.refsAfter refs) rest

def Block.refsAfter (refs : List String) : Block → List String
  | ⟨_, _, [alt]⟩ => alt.refsAfter
  | _ => refs

def Alt.refsAfter : Alt → List String
  | ⟨_, elements, _, _, refs⟩ => Element.refsAfterAll refs elements

end

theorem Element.eq_of_splitLabel {element : Element} {r : Reference} {label : Option Label}
    (h : element.splitLabel = (.reference r, label)) :
    element = .reference r ∧ label = none ∨
      ∃ l, element = .labeled l (some (.reference r)) ∧ label = some l := by
  unfold splitLabel at h
  split at h
  · next l operand =>
    cases h
    exact .inr ⟨l, rfl, rfl⟩
  · cases h
  · cases h
    exact .inl ⟨rfl, rfl⟩

/-- Whether a part of a rewrite is shown at a point. -/
def Point.isRewrite : Point → Bool
  | treeRewrite | rewriteOptional | rewriteClosure | rewriteTree | rewriteRuleRef
  | rewriteTokenRef => true
  | _ => false

/-- What is found or the construct that stands in the way. -/
abbrev Translated (α : Type) : Type :=
  Except Malformed α

def malformed (place : Place) (point : Option Point) (detail : String) : Translated α :=
  .error ⟨place, point, detail⟩

namespace Setup

/-- What the extensions make of a node if none of them breaks a contract. -/
def decorated (setup : Setup) (p : Point) (node : p.Node) : p.Node :=
  setup.chain.extensions.foldl (fun node e => e.hook p node) node

/-- Whether no extension ever breaks a contract. -/
def KeepsContracts (setup : Setup) : Prop :=
  ∀ (p : Point) (node : p.Node),
    (setup.chain.fold p p.anchor? node).outcome = .ok (setup.decorated p node)

def typeOf (setup : Setup) (name : String) (place : Place) (p : Point) : Translated Int :=
  match setup.grammar.vocabulary.type? name with
  | some ttype => .ok ttype
  | none => malformed place p s!"token `{name}` is not in the vocabulary"

/-- The operation that a reference stands for, without labels. -/
def plainOp (setup : Setup) : Reference → Translated Op
  | .rule r =>
    match r.name with
    | some name => .ok (.invokeRule name (setup.labelTarget.contextType name) r.args [])
    | none => malformed (Reference.rule r).place (some .ruleRef) "rule reference has no name"
  | .token t =>
    match t.name with
    | some name => do
      let ttype ← setup.typeOf name (Reference.token t).place .tokenRef
      return .matchToken name ttype []
    | none => malformed (Reference.token t).place (some .tokenRef) "token reference has no name"
  | .literal l =>
    match l.text with
    | some text => do
      let ttype ← setup.typeOf text (Reference.literal l).place .stringRef
      return .matchLiteral text ttype []
    | none => malformed (Reference.literal l).place (some .stringRef) "string literal has no text"

/-- Whether an operation without a label is referred to or wanted with a label. -/
def labelNeeded (setup : Setup) (refs : List String) (span : Span) (op : Op) : Bool :=
  op.referredName?.any refs.contains || setup.chain.wantsLabel span op

def withImplicitLabel (setup : Setup) (op : Op) : Op :=
  match setup.implicitLabel? op with
  | some label => op.addLabel label
  | none => op

/-- Puts on the explicit label or, for want of one, the implicit label if it is needed. -/
def labeled (setup : Setup) (refs : List String) (span : Span) (op : Op) :
    Option Label → Translated Op
  | none => .ok (if setup.labelNeeded refs span op then setup.withImplicitLabel op else op)
  | some label =>
    match label.name with
    | some name => .ok (op.addLabel name)
    | none => malformed label.place none "label has no name"

def decoratedReference (setup : Setup) (r : Reference) (ops : List Op) : List Op :=
  match r with
  | .rule r =>
    let ops := setup.decorated .ruleRef ops
    if r.marked then ops else setup.decorated .leafRule ops
  | .token t =>
    let ops := setup.decorated .tokenRef ops
    if t.marked then ops else setup.decorated .leafToken ops
  | .literal _ => setup.decorated .stringRef ops

def decoratedRoot (setup : Setup) (r : Reference) (ops : List Op) : List Op :=
  match r with
  | .rule _ => setup.decorated .rootRule ops
  | _ => setup.decorated .rootToken ops

def referenceCode (setup : Setup) (refs : List String) (r : Reference) (label : Option Label) :
    Translated (List Op) := do
  let op ← setup.plainOp r
  let op ← setup.labeled refs r.place.span op label
  return setup.decoratedReference r [op]

/-- An element that has to be a reference under at most one label. -/
def labeledReferenceCode (setup : Setup) (refs : List String) (element : Element) :
    Translated (Reference × List Op) :=
  match element.splitLabel with
  | (.reference r, label) => do return (r, ← setup.referenceCode refs r label)
  | (other, label) =>
    malformed ((label.map Label.place).getD other.place) none
      "expected a rule, token or literal reference"

theorem labeledReferenceCode_eq {setup : Setup} {refs : List String} {element : Element}
    {r : Reference} {label : Option Label} (h : element.splitLabel = (.reference r, label)) :
    setup.labeledReferenceCode refs element = do
      return (r, ← setup.referenceCode refs r label) := by
  unfold labeledReferenceCode
  rw [h]

/-- What is translated as a reference is one, under at most one label. -/
theorem exists_reference_of_labeledReferenceCode {setup : Setup} {refs : List String}
    {element : Element} {built : Reference × List Op}
    (h : setup.labeledReferenceCode refs element = .ok built) :
    ∃ label, element.splitLabel = (.reference built.1, label) ∧
      setup.referenceCode refs built.1 label = .ok built.2 := by
  unfold labeledReferenceCode at h
  split at h
  · next r label hsplit =>
    obtain ⟨ops, hops, h⟩ := bind_eq_ok.mp h
    cases h
    exact ⟨label, hsplit, hops⟩
  · cases h

/-- The class of the decision at a site. -/
def classAt? (setup : Setup) (site : ChoiceSite) : Option Classification :=
  site.decision.bind setup.grammar.classify

/-- The kind of the choice at a site; without a classified decision it is generic. -/
def kindAt (setup : Setup) (site : ChoiceSite) : ChoiceKind :=
  ⟨((setup.classAt? site).map Classification.strategy).getD .generic, site.ebnf.isSome⟩

/-- The sets of lookahead that are known for a site, if one token separates the alternatives. -/
def lookaheadAt? (setup : Setup) (site : ChoiceSite) : Option (List LookaheadSet) :=
  match setup.classAt? site with
  | some ⟨.ll1, sets⟩ => some sets
  | _ => none

/-- One test for each of `count` alternatives; none where more than a token of lookahead may be
needed. -/
def testsAt (setup : Setup) (site : ChoiceSite) (count : Nat) : Translated (List (List Op)) :=
  match setup.lookaheadAt? site with
  | some sets =>
    if sets.length = count then
      .ok (sets.map fun look =>
        setup.decorated .ll1Test [.testSet look.types (look.tokenNames setup.grammar.vocabulary)])
    else
      let decision := site.decision.getD 0
      malformed site.place (some (.ofChoice (setup.kindAt site)))
        s!"decision {decision} has {sets.length} lookahead sets for {count} alternatives"
  | none => .ok []

def decoratedChoice (setup : Setup) (c : Choice) : ChoiceKind → Choice
  | ⟨.generic, false⟩ => setup.decorated .choiceBlock c
  | ⟨.generic, true⟩ => setup.decorated .ebnfBlock c
  | ⟨.ll1, false⟩ => setup.decorated .ll1ChoiceBlock c
  | ⟨.ll1, true⟩ => setup.decorated .ll1EbnfBlock c
  | ⟨.llStar, false⟩ => setup.decorated .llStarChoiceBlock c
  | ⟨.llStar, true⟩ => setup.decorated .llStarEbnfBlock c

def choiceAt (setup : Setup) (site : ChoiceSite) (alts : List Alternative) : Translated Choice := do
  let kind := setup.kindAt site
  let tests ← setup.testsAt site alts.length
  return setup.decoratedChoice ⟨kind, site.decision, site.ebnf, alts, tests, []⟩ kind

def rewriteTokenCode (setup : Setup) (spot : Spot) (place : Place) (name : Option String)
    (isRoot : Bool) (arg : Option String) : Translated (List Op) :=
  match name with
  | none => malformed place (some .rewriteTokenRef) "expected a named token or literal"
  | some name => do
    let ttype ← setup.typeOf name place .rewriteTokenRef
    return setup.decorated .rewriteTokenRef
      [.rewriteToken name ttype isRoot arg spot.trees spot.blockLevel]

def rewriteReferenceCode (setup : Setup) (spot : Spot) (isRoot : Bool) :
    Reference → Translated (List Op)
  | .rule r =>
    match r.name with
    | none =>
      malformed (Reference.rule r).place (some .rewriteRuleRef) "rule reference has no name"
    | some name =>
      .ok (setup.decorated .rewriteRuleRef [.rewriteRule name isRoot spot.trees spot.blockLevel])
  | .token t => setup.rewriteTokenCode spot (Reference.token t).place t.name isRoot t.arg
  | .literal l => setup.rewriteTokenCode spot (Reference.literal l).place l.text isRoot none

mutual

def rewriteElementCode (setup : Setup) (spot : Spot) (isRoot : Bool) :
    RewriteElement → Translated (List Op)
  | .reference r => setup.rewriteReferenceCode spot isRoot r
  | .tree span [] =>
    malformed ⟨.node .rewriteTree, span⟩ (some .rewriteTree) "rewrite tree has no root"
  | .tree _ (first :: rest) => do
    let root ← rewriteElementCode setup spot.inTree true first
    let children ← rewriteElementsCode setup spot.inTree rest
    return [.rewriteTree (setup.decorated .rewriteTree
      ⟨spot.inTree.trees, spot.blockLevel, root, children⟩)]
  | .optional _ referenced elements => do
    let ops ← rewriteElementsCode setup spot.inBlock elements
    return [.rewriteOptional (setup.decorated .rewriteOptional ⟨spot.blockLevel, referenced, ops⟩)]
  | .closure _ referenced elements => do
    let ops ← rewriteElementsCode setup spot.inBlock elements
    return [.rewriteClosure (setup.decorated .rewriteClosure ⟨spot.blockLevel, referenced, ops⟩)]

def rewriteElementsCode (setup : Setup) (spot : Spot) :
    List RewriteElement → Translated (List Op)
  | [] => .ok []
  | element :: rest => do
    let ops ← rewriteElementCode setup spot false element
    return ops ++ (← rewriteElementsCode setup spot rest)

end

def rewriteCode (setup : Setup) (spot : Spot) : Option Rewrite → Translated (List Op)
  | none => .ok []
  | some rewrite => do
    let ops ← setup.rewriteElementsCode spot rewrite.elements
    return [.treeRewrite (setup.decorated .treeRewrite ⟨spot.blockLevel, ops⟩)]

def actionCode (setup : Setup) (c : CodeNode) : Translated (List Op) :=
  match c.code with
  | some code => .ok (setup.decorated .action [.action code])
  | none => malformed ⟨.node .action, c.span⟩ (some .action) "action has no code"

def forcedActionCode (setup : Setup) (c : CodeNode) : Translated (List Op) :=
  match c.code with
  | some code => .ok (setup.decorated .forcedAction [.forcedAction code])
  | none => malformed ⟨.node .forcedAction, c.span⟩ (some .forcedAction) "action has no code"

def predicateCode (setup : Setup) (c : CodeNode) : Translated (List Op) :=
  match c.code with
  | some code => .ok (setup.decorated .predicate [.predicate code])
  | none => malformed ⟨.node .predicate, c.span⟩ (some .predicate) "predicate has no code"

mutual

def elementCode (setup : Setup) (spot : Spot) : Element → Translated (List Op)
  | .reference r => setup.referenceCode spot.refs r none
  | .action c => setup.actionCode c
  | .forcedAction c => setup.forcedActionCode c
  | .predicate c => setup.predicateCode c
  | .epsilon _ => .ok [.epsilon]
  | .block b => blockCode setup spot b
  | .ebnf kind span _ none => malformed ⟨.node kind.nodeKind, span⟩ none "EBNF has no block"
  | .ebnf kind span decision (some ⟨bodySpan, bodyDecision, alts⟩) => do
    if alts.isEmpty then malformed ⟨.node .block, bodySpan⟩ none "block has no alternatives"
    else
      let site := ChoiceSite.ofEbnf kind span decision (some ⟨bodySpan, bodyDecision, alts⟩)
      let alternatives ← branches setup spot.inBlock 1 alts
      return [.choice (← setup.choiceAt site alternatives)]
  | .root span none => malformed ⟨.node .root, span⟩ none "`^` has no operand"
  | .root _ (some operand) => do
    let (r, ops) ← setup.labeledReferenceCode spot.refs operand
    return setup.decoratedRoot r ops
  | .bang span none => malformed ⟨.node .bang, span⟩ none "`!` has no operand"
  | .bang _ (some operand) => elementCode setup spot operand
  | .labeled label operand => do
    let (_, ops) ← setup.labeledReferenceCode spot.refs (.labeled label operand)
    return ops

def elementsCode (setup : Setup) (spot : Spot) : List Element → Translated (List Op)
  | [] => .ok []
  | element :: rest => do
    let ops ← elementCode setup spot element
    return ops ++ (← elementsCode setup { spot with refs := element.refsAfter spot.refs } rest)

def blockCode (setup : Setup) (spot : Spot) : Block → Translated (List Op)
  | ⟨span, _, []⟩ => malformed ⟨.node .block, span⟩ none "block has no alternatives"
  | ⟨_, _, [alt]⟩ => do
    let inlined ← branch setup spot 1 alt
    return inlined.ops
  | ⟨span, decision, alts⟩ => do
    let alternatives ← branches setup spot.inBlock 1 alts
    return [.choice (← setup.choiceAt (.ofBlock ⟨span, decision, alts⟩) alternatives)]

/-- The alternatives of a choice, which count from `num`. -/
def branches (setup : Setup) (spot : Spot) (num : Nat) : List Alt → Translated (List Alternative)
  | [] => .ok []
  | alt :: rest => do
    let alternative ← branch setup spot num alt
    return alternative :: (← branches setup spot (num + 1) rest)

def branch (setup : Setup) (spot : Spot) (num : Nat) : Alt → Translated Alternative
  | ⟨_, _, _, stranger :: _, _⟩ =>
    malformed stranger (some .alternative) s!"unexpected {stranger.kind.describe} in alternative"
  | ⟨span, [], none, [], _⟩ =>
    malformed ⟨.node .alt, span⟩ (some .alternative) "alternative has no elements"
  | ⟨_, [.epsilon _], none, [], _⟩ => .ok (setup.decorated .epsilon ⟨num, [.epsilon]⟩)
  | ⟨_, elements, rewrite, [], refs⟩ => do
    let ops ← elementsCode setup { spot with refs } elements
    let last := { spot with refs := Element.refsAfterAll refs elements }
    let rewritten ← setup.rewriteCode last rewrite
    return setup.decorated .finishAlternative
      { setup.decorated .alternative ⟨num, []⟩ with ops := ops ++ rewritten }

end

/-- The operations of a rule, or what keeps it from being built. -/
def ruleCode (setup : Setup) (rule : Rule) : Translated (List Op) :=
  match rule.block with
  | some block => setup.blockCode .start block
  | none => malformed rule.place none "rule has no block"

/-- A block with several alternatives gives a choice between them. -/
theorem blockCode_eq (setup : Setup) (spot : Spot) (span : Span) (decision : Option Nat)
    {alts : List Alt} (several : 2 ≤ alts.length) :
    setup.blockCode spot ⟨span, decision, alts⟩ = (do
      let alternatives ← setup.branches spot.inBlock 1 alts
      return [.choice (← setup.choiceAt (.ofBlock ⟨span, decision, alts⟩) alternatives)]) := by
  match alts with
  | alt :: next :: rest =>
      rw [blockCode]
      all_goals simp

theorem elementCode_ebnf (setup : Setup) (spot : Spot) (kind : EbnfKind) (span bodySpan : Span)
    (decision bodyDecision : Option Nat) {alts : List Alt} (nonempty : alts ≠ []) :
    setup.elementCode spot (.ebnf kind span decision (some ⟨bodySpan, bodyDecision, alts⟩)) = (do
      let site := ChoiceSite.ofEbnf kind span decision (some ⟨bodySpan, bodyDecision, alts⟩)
      let alternatives ← setup.branches spot.inBlock 1 alts
      return [.choice (← setup.choiceAt site alternatives)]) := by
  obtain ⟨alt, rest, rfl⟩ := List.exists_cons_of_ne_nil nonempty
  rw [elementCode]
  rfl

/-- An alternative that holds something and nothing strange gives what its elements and then its
rewrite give, unless the extensions see to alternatives. -/
theorem branch_eq {setup : Setup} (begun : ∀ b, setup.decorated .alternative b = b)
    (ended : ∀ b, setup.decorated .finishAlternative b = b)
    (skipped : ∀ b, setup.decorated .epsilon b = b) {spot : Spot} {num : Nat} {span : Span}
    {elements : List Element} {rewrite : Option Rewrite} {refs : List String}
    (nonempty : elements ≠ [] ∨ rewrite ≠ none) :
    setup.branch spot num ⟨span, elements, rewrite, [], refs⟩ = (do
      let ops ← setup.elementsCode { spot with refs } elements
      let rewritten ← setup.rewriteCode
        { spot with refs := Element.refsAfterAll refs elements } rewrite
      return ⟨num, ops ++ rewritten⟩) := by
  rw [branch.eq_def]
  dsimp only
  split
  · next h => cases h
  · next h =>
    cases h
    simp at nonempty
  · next h =>
    cases h
    rw [skipped]
    rfl
  · next h =>
    cases h
    simp only [begun, ended]

theorem length_branches {setup : Setup} {spot : Spot} {num : Nat} {alts : List Alt}
    {built : List Alternative} (h : setup.branches spot num alts = .ok built) :
    built.length = alts.length := by
  induction alts generalizing num built with
  | nil =>
      cases h
      rfl
  | cons alt rest ih =>
      rw [branches] at h
      obtain ⟨first, _, h⟩ := bind_eq_ok.mp h
      obtain ⟨others, hothers, h⟩ := bind_eq_ok.mp h
      cases h
      rw [List.length_cons, ih hothers, List.length_cons]

/-- Whether two setups have the same tokens and their extensions see to rewrites alike. -/
structure RewritesAlike (first second : Setup) : Prop where
  vocabulary : second.grammar.vocabulary = first.grammar.vocabulary
  decorated (p : Point) (node : p.Node) : p.isRewrite = true →
    second.decorated p node = first.decorated p node

namespace RewritesAlike

variable {first second : Setup}

theorem rewriteTokenCode (alike : RewritesAlike first second) (spot : Spot) (place : Place)
    (name : Option String) (isRoot : Bool) (arg : Option String) :
    second.rewriteTokenCode spot place name isRoot arg =
      first.rewriteTokenCode spot place name isRoot arg := by
  cases name with
  | none => rfl
  | some name =>
      simp only [Setup.rewriteTokenCode, typeOf, alike.vocabulary,
        alike.decorated .rewriteTokenRef _ rfl]

theorem rewriteReferenceCode (alike : RewritesAlike first second) (spot : Spot) (isRoot : Bool)
    (r : Reference) :
    second.rewriteReferenceCode spot isRoot r = first.rewriteReferenceCode spot isRoot r := by
  cases r with
  | rule r => simp only [Setup.rewriteReferenceCode, alike.decorated .rewriteRuleRef _ rfl]
  | token t => exact alike.rewriteTokenCode spot _ t.name isRoot t.arg
  | literal l => exact alike.rewriteTokenCode spot _ l.text isRoot none

mutual

theorem rewriteElementCode (alike : RewritesAlike first second) :
    ∀ (element : RewriteElement) (spot : Spot) (isRoot : Bool),
      second.rewriteElementCode spot isRoot element = first.rewriteElementCode spot isRoot element
  | .reference r, spot, isRoot => by
      rw [Setup.rewriteElementCode, Setup.rewriteElementCode, alike.rewriteReferenceCode]
  | .tree _ [], _, _ => by rw [Setup.rewriteElementCode, Setup.rewriteElementCode]
  | .tree _ (root :: rest), spot, _ => by
      simp only [Setup.rewriteElementCode, alike.rewriteElementCode root,
        alike.rewriteElementsCode rest, alike.decorated .rewriteTree _ rfl]
  | .optional _ _ elements, _, _ => by
      simp only [Setup.rewriteElementCode, alike.rewriteElementsCode elements,
        alike.decorated .rewriteOptional _ rfl]
  | .closure _ _ elements, _, _ => by
      simp only [Setup.rewriteElementCode, alike.rewriteElementsCode elements,
        alike.decorated .rewriteClosure _ rfl]

theorem rewriteElementsCode (alike : RewritesAlike first second) :
    ∀ (elements : List RewriteElement) (spot : Spot),
      second.rewriteElementsCode spot elements = first.rewriteElementsCode spot elements
  | [], _ => rfl
  | element :: rest, _ => by
      simp only [Setup.rewriteElementsCode, alike.rewriteElementCode element,
        alike.rewriteElementsCode rest]

end

/-- What a rewrite gives hangs on the tokens and on what the extensions make of rewrites. -/
theorem rewriteCode (alike : RewritesAlike first second) (spot : Spot)
    (rewrite : Option Rewrite) :
    second.rewriteCode spot rewrite = first.rewriteCode spot rewrite := by
  cases rewrite with
  | none => rfl
  | some rewrite =>
      simp only [Setup.rewriteCode, alike.rewriteElementsCode,
        alike.decorated .treeRewrite _ rfl]

end RewritesAlike

end Setup

end RecognizerModel
