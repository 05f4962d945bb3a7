import RecognizerModel.Build.Job

/-!
Building references, code and labels.

A reference is built in a fixed order: the operation with its explicit label, an implicit label if
it needs one, the extensions at the reference's own point, and then, unless the reference is marked,
the extensions at the point for leaves.
-/
namespace RecognizerModel

namespace Setup

/-- The type of a name that a node mentions. -/
def tokenType (setup : Setup) (name : String) (place : Place) (p : Point) : Job Int :=
  match setup.grammar.vocabulary.type? name with
  | some ttype => pure ttype
  | none => Job.malformed place p s!"token `{name}` is not in the vocabulary"

/-- The operation that a reference stands for, without labels. -/
def referenceOp (setup : Setup) : Reference → Job Op
  | .rule r =>
    match r.name with
    | some name => pure (.invokeRule name (setup.labelTarget.contextType name) r.args [])
    | none =>
      Job.malformed (Reference.rule r).place (some .ruleRef) "rule reference has no name"
  | .token t =>
    match t.name with
    | some name => do
      let ttype ← setup.tokenType name (Reference.token t).place .tokenRef
      return .matchToken name ttype []
    | none =>
      Job.malformed (Reference.token t).place (some .tokenRef) "token reference has no name"
  | .literal l =>
    match l.text with
    | some text => do
      let ttype ← setup.tokenType text (Reference.literal l).place .stringRef
      return .matchLiteral text ttype []
    | none =>
      Job.malformed (Reference.literal l).place (some .stringRef) "string literal has no text"

end Setup

/-- The context field that holds what an operation matched under a label. -/
def Op.field (isList : Bool) (label : String) : Op → Field
  | .invokeRule _ ctxType _ _ =>
    if isList then .ruleContextList label ctxType else .ruleContext label ctxType
  | _ => if isList then .tokenList label else .token label

@[simp] theorem Op.name_field (isList : Bool) (label : String) (op : Op) :
    (op.field isList label).name = label := by
  unfold field
  split <;> split <;> rfl

/-- Puts an explicit label on an operation and declares it in the rule's context. -/
def applyLabel (op : Op) : Option Label → Job Op
  | none => pure op
  | some label =>
    match label.name with
    | none => Job.malformed label.place none "label has no name"
    | some name => do
      Job.modifyRule (·.declare (op.field label.isList name))
      return op.addLabel name

namespace Setup

/-- The label that an operation gets for want of an explicit one; none if it cannot carry any. -/
def implicitLabel? (setup : Setup) : Op → Option String
  | .invokeRule name _ _ _ => some (setup.labelTarget.ruleLabel name)
  | .matchToken name _ _ => some (setup.labelTarget.tokenLabel name)
  | .matchLiteral _ ttype _ => some (setup.labelTarget.tokenLabel s!"T__{ttype}")
  | _ => none

/-- Puts the implicit label on an operation and declares it in the rule's context. -/
def defineImplicitLabel (setup : Setup) (op : Op) : Job Op :=
  match setup.implicitLabel? op with
  | none => pure op
  | some label => do
    Job.modifyRule (·.declare (op.field false label))
    return op.addLabel label

/-- Whether an operation without a label is referred to by the actions of the alternative at hand,
or some extension wants it labeled. -/
def needsImplicitLabel (setup : Setup) (span : Span) (op : Op) : Job Bool := do
  let context ← Job.context
  let referred := op.isUnlabeled && op.referredName?.any fun name =>
    context.alt.any (·.refersTo name)
  Job.recordVisits .needsImplicitLabel setup.chain.extensions.length
  return referred || setup.chain.wantsLabel span op

/-- Labels an operation that can carry a label, has none and needs one. -/
def labelIfNeeded (setup : Setup) (span : Span) (op : Op) : Job Op := do
  if op.isUnlabeled then
    if ← setup.needsImplicitLabel span op then setup.defineImplicitLabel op else return op
  else return op

/-- Builds a reference, with its label if it has one. -/
def reference (setup : Setup) (r : Reference) (label : Option Label) : Job (List Op) := do
  let op ← setup.referenceOp r
  let op ← applyLabel op label
  let op ← setup.labelIfNeeded r.place.span op
  match r with
  | .rule r => do
    let ops ← setup.visit .ruleRef [op]
    if r.marked then return ops else setup.visit .leafRule ops
  | .token t => do
    let ops ← setup.visit .tokenRef [op]
    if t.marked then return ops else setup.visit .leafToken ops
  | .literal _ => setup.visit .stringRef [op]

/-- Shows the extensions a reference that is to be the root of the tree under construction. -/
def rootReference (setup : Setup) (r : Reference) (ops : List Op) : Job (List Op) :=
  match r with
  | .rule _ => setup.visit .rootRule ops
  | _ => setup.visit .rootToken ops

def action (setup : Setup) (c : CodeNode) : Job (List Op) :=
  match c.code with
  | some code => setup.visit .action [.action code]
  | none => Job.malformed ⟨.node .action, c.span⟩ (some .action) "action has no code"

def forcedAction (setup : Setup) (c : CodeNode) : Job (List Op) :=
  match c.code with
  | some code => setup.visit .forcedAction [.forcedAction code]
  | none => Job.malformed ⟨.node .forcedAction, c.span⟩ (some .forcedAction) "action has no code"

def predicate (setup : Setup) (c : CodeNode) : Job (List Op) :=
  match c.code with
  | some code => setup.visit .predicate [.predicate code]
  | none => Job.malformed ⟨.node .predicate, c.span⟩ (some .predicate) "predicate has no code"

end Setup

end RecognizerModel
