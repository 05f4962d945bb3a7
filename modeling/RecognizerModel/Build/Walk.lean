import RecognizerModel.Build.Branch
import RecognizerModel.Build.Rewriting

/-!
The walk over a rule, which turns its syntax into operations.

A block with one alternative becomes the operations of that alternative. Any other block, and every
optional or repeated one, becomes a choice. The alternative that was current before a choice is
current again after it; one alternative inlined from a block stays current.
-/
namespace RecognizerModel

/-- Takes the label off an element; one without a label stays as it is, and so does a label without
an operand. -/
def Element.splitLabel : Element → Element × Option Label
  | .labeled label (some operand) => (operand, some label)
  | .labeled label none => (.labeled label none, some label)
  | element => (element, none)

/-- Enters the block of a choice, and afterwards leaves it and returns to the alternative at hand;
after a failure everything stays as it was then. -/
def insideChoice (decision : Option Nat) (body : Job α) : Job α := do
  let before ← Job.context
  Job.modifyContext (·.pushBlock decision)
  let result ← body
  Job.modifyContext fun c => { c.popBlock with alt := before.alt }
  return result

namespace Setup

/-- Builds an element that has to be a reference under at most one label. -/
def labeledReference (setup : Setup) (element : Element) : Job (Reference × List Op) :=
  match element.splitLabel with
  | (.reference r, label) => do return (r, ← setup.reference r label)
  | (other, label) =>
    Job.malformed ((label.map Label.place).getD other.place) none
      "expected a rule, token or literal reference"

mutual

def rewriteElement (setup : Setup) (isRoot : Bool) : RewriteElement → Job (List Op)
  | .reference r => setup.rewriteReference isRoot r
  | .tree span elements =>
    Job.within .enterTree .exitTree (do
      match elements with
      | [] =>
        Job.malformed ⟨.node .rewriteTree, span⟩ (some .rewriteTree) "rewrite tree has no root"
      | first :: rest =>
        let root ← rewriteElement setup true first
        let children ← rewriteElements setup rest
        return [.rewriteTree (← setup.rewriteTree root children)])
  | .optional _ referenced elements => do
    let ops ← Job.within (.pushBlock none) .popBlock (rewriteElements setup elements)
    return [.rewriteOptional (← setup.rewriteOptional referenced ops)]
  | .closure _ referenced elements => do
    let ops ← Job.within (.pushBlock none) .popBlock (rewriteElements setup elements)
    return [.rewriteClosure (← setup.rewriteClosure referenced ops)]

def rewriteElements (setup : Setup) : List RewriteElement → Job (List Op)
  | [] => pure []
  | element :: rest => do
    let ops ← rewriteElement setup false element
    return ops ++ (← rewriteElements setup rest)

end

/-- The rewrite of an alternative as its last operation; nothing without one. -/
def rewriteOf (setup : Setup) : Option Rewrite → Job (List Op)
  | none => pure []
  | some rewrite => do
    let body ← setup.rewriteElements rewrite.elements
    return [.treeRewrite (← setup.treeRewrite body)]

mutual

def walkElement (setup : Setup) : Element → Job (List Op)
  | .reference r => setup.reference r none
  | .action c => setup.action c
  | .forcedAction c => setup.forcedAction c
  | .predicate c => setup.predicate c
  | .epsilon _ => pure [.epsilon]
  | .block b => walkBlock setup b
  | .ebnf kind span _ none =>
    Job.malformed ⟨.node kind.nodeKind, span⟩ none "EBNF has no block"
  | .ebnf kind span decision (some ⟨bodySpan, bodyDecision, alts⟩) => do
    if alts.isEmpty then
      Job.malformed ⟨.node .block, bodySpan⟩ none "block has no alternatives"
    else
      let site := ChoiceSite.ofEbnf kind span decision (some ⟨bodySpan, bodyDecision, alts⟩)
      let branches ← insideChoice site.decision (walkAlts setup 1 alts)
      let strategy ← setup.strategy site
      return [.choice (← setup.choice ⟨strategy, true⟩ site branches)]
  | .root span none => Job.malformed ⟨.node .root, span⟩ none "`^` has no operand"
  | .root _ (some operand) => do
    let (r, ops) ← setup.labeledReference operand
    setup.rootReference r ops
  | .bang span none => Job.malformed ⟨.node .bang, span⟩ none "`!` has no operand"
  | .bang _ (some operand) => walkElement setup operand
  | .labeled label operand => do
    let (_, ops) ← setup.labeledReference (.labeled label operand)
    return ops

def walkElements (setup : Setup) : List Element → Job (List Op)
  | [] => pure []
  | element :: rest => do
    let ops ← walkElement setup element
    return ops ++ (← walkElements setup rest)

def walkBlock (setup : Setup) : Block → Job (List Op)
  | ⟨span, _, []⟩ => Job.malformed ⟨.node .block, span⟩ none "block has no alternatives"
  | ⟨_, _, [alt]⟩ => do
    let branch ← walkAlt setup 1 alt
    return branch.ops
  | ⟨span, decision, alts⟩ => do
    let site := ChoiceSite.ofBlock ⟨span, decision, alts⟩
    let branches ← insideChoice decision (walkAlts setup 1 alts)
    let strategy ← setup.strategy site
    return [.choice (← setup.choice ⟨strategy, false⟩ site branches)]

/-- Walks alternatives that count from `num`. -/
def walkAlts (setup : Setup) (num : Nat) : List Alt → Job (List Alternative)
  | [] => pure []
  | alt :: rest => do
    let branch ← walkAlt setup num alt
    return branch :: (← walkAlts setup (num + 1) rest)

def walkAlt (setup : Setup) (num : Nat) : Alt → Job Alternative
  | ⟨span, elements, rewrite, strangers, refs⟩ => do
    let alt : Alt := ⟨span, elements, rewrite, strangers, refs⟩
    match strangers with
    | stranger :: _ =>
      Job.malformed stranger (some .alternative)
        s!"unexpected {stranger.kind.describe} in alternative"
    | [] =>
      match elements, rewrite with
      | [], none => Job.malformed alt.place (some .alternative) "alternative has no elements"
      | [.epsilon _], none => setup.epsilon alt num
      | elements, rewrite => do
        let block ← setup.alternative alt num
        let ops ← walkElements setup elements
        setup.finishAlternative block (ops ++ (← setup.rewriteOf rewrite))

end

/-- The operations of a rule. -/
def walkRule (setup : Setup) (rule : Rule) : Job (List Op) :=
  match rule.block with
  | some block => setup.walkBlock block
  | none => Job.malformed rule.place none "rule has no block"

end Setup

end RecognizerModel
