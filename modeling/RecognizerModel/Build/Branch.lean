import RecognizerModel.Build.Job

/-! Building alternatives and the choices between them. -/
namespace RecognizerModel

/-- Where a choice stands: around a block, or around the operator in front of one. -/
structure ChoiceSite where
  place : Place
  decision : Option Nat
  ebnf : Option EbnfKind
deriving DecidableEq, Repr, Inhabited

namespace ChoiceSite

def ofBlock (b : Block) : ChoiceSite :=
  ⟨b.place, b.decision, none⟩

/-- A decision number on the operator counts before one on its block. -/
def ofEbnf (kind : EbnfKind) (span : Span) (decision : Option Nat) (body : Option Block) :
    ChoiceSite :=
  ⟨⟨.node kind.nodeKind, span⟩, decision.or (body.bind Block.decision), some kind⟩

/-- The site that an element makes, if it makes one. -/
def ofElement? : Element → Option ChoiceSite
  | .block b => some (.ofBlock b)
  | .ebnf kind span decision body => some (.ofEbnf kind span decision body)
  | _ => none

end ChoiceSite

/-- Makes an alternative the current one of the rule under construction. -/
def enterAlt (alt : Alt) (num : Nat) : Job Unit :=
  Job.modifyContext fun c =>
    { c with alt := some ⟨c.ruleName, num, alt.refs⟩ }

namespace Setup

/-- Enters an alternative. -/
def alternative (setup : Setup) (alt : Alt) (num : Nat) : Job Alternative := do
  enterAlt alt num
  setup.visit .alternative ⟨num, []⟩

/-- Gives an alternative its operations. -/
def finishAlternative (setup : Setup) (block : Alternative) (ops : List Op) : Job Alternative :=
  setup.visit .finishAlternative { block with ops }

/-- Enters an alternative that matches nothing. -/
def epsilon (setup : Setup) (alt : Alt) (num : Nat) : Job Alternative := do
  enterAlt alt num
  setup.visit .epsilon ⟨num, [.epsilon]⟩

def ll1Test (setup : Setup) (look : LookaheadSet) : Job (List Op) :=
  setup.visit .ll1Test [.testSet look.types (look.tokenNames setup.grammar.vocabulary)]

/-- One test for each of `count` alternatives, from the sets of the site's decision. -/
def ll1Tests (setup : Setup) (site : ChoiceSite) (count : Nat) (p : Point) :
    Job (List (List Op)) :=
  match site.decision with
  | none => Job.malformed site.place (some p) "LL(1) block has no decision number"
  | some n =>
    match setup.grammar.classify n with
    | none => Job.malformed site.place (some p) s!"decision {n} has no classification"
    | some c =>
      if c.lookahead.length = count then c.lookahead.mapM setup.ll1Test
      else
        Job.malformed site.place (some p)
          s!"decision {n} has {c.lookahead.length} lookahead sets for {count} alternatives"

/-- Shows a choice at the point for a kind. -/
def visitChoice (setup : Setup) (c : Choice) : ChoiceKind → Job Choice
  | ⟨.generic, false⟩ => setup.visit .choiceBlock c
  | ⟨.generic, true⟩ => setup.visit .ebnfBlock c
  | ⟨.ll1, false⟩ => setup.visit .ll1ChoiceBlock c
  | ⟨.ll1, true⟩ => setup.visit .ll1EbnfBlock c
  | ⟨.llStar, false⟩ => setup.visit .llStarChoiceBlock c
  | ⟨.llStar, true⟩ => setup.visit .llStarEbnfBlock c

/-- Builds a choice of a kind, which has to fit the site. -/
def choice (setup : Setup) (kind : ChoiceKind) (site : ChoiceSite) (alts : List Alternative) :
    Job Choice := do
  let p := Point.ofChoice kind
  if kind.ebnf = site.ebnf.isSome then
    let tests ← if kind.isLl1 then setup.ll1Tests site alts.length p else pure []
    setup.visitChoice ⟨kind, site.decision, site.ebnf, alts, tests, []⟩ kind
  else
    let need := if kind.ebnf then "an EBNF block" else "a plain block"
    Job.malformed site.place (some p) s!"{kind.describe} needs {need}"

/-- The strategy for a site. One without a classified decision gets a warning and a generic
choice. -/
def strategy (setup : Setup) (site : ChoiceSite) : Job Strategy := do
  let unclassified (detail : String) : Job Strategy := do
    let context ← Job.context
    Job.report (.ofUnclassified context.ruleName site.place.span detail)
    return .generic
  match site.decision with
  | none => unclassified "block has no decision number"
  | some n =>
    match setup.grammar.classify n with
    | some c => return c.strategy
    | none => unclassified s!"decision {n} has no classification"

end Setup

end RecognizerModel
