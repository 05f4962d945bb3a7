import RecognizerModel.Build.Reference

/-! Building rewrites, at the levels of blocks and trees where they stand. -/
namespace RecognizerModel

/-- The shape that a node of a kind makes. -/
def RewriteShape.ofNodeKind? : NodeKind → Option RewriteShape
  | .rewriteOptional => some .optional
  | .rewriteClosure => some .closure
  | .rewriteTree => some .tree
  | _ => none

def RewriteShape.point : RewriteShape → Point
  | optional => .rewriteOptional
  | closure => .rewriteClosure
  | tree => .rewriteTree

namespace Setup

def treeRewrite (setup : Setup) (ops : List Op) : Job TreeRewrite := do
  let context ← Job.context
  setup.visit .treeRewrite ⟨context.blockLevel, ops⟩

def rewriteOptional (setup : Setup) (referenced : List String) (ops : List Op) :
    Job RewriteOptional := do
  let context ← Job.context
  setup.visit .rewriteOptional ⟨context.blockLevel, referenced, ops⟩

def rewriteClosure (setup : Setup) (referenced : List String) (ops : List Op) :
    Job RewriteClosure := do
  let context ← Job.context
  setup.visit .rewriteClosure ⟨context.blockLevel, referenced, ops⟩

def rewriteTree (setup : Setup) (root children : List Op) : Job RewriteTree := do
  let context ← Job.context
  setup.visit .rewriteTree ⟨context.treeLevel, context.blockLevel, root, children⟩

/-- Builds a rewrite of a shape from a node, which has to be of that shape. A tree takes `ops` as
its root; only a tree has children. -/
def shapedRewrite (setup : Setup) (shape : RewriteShape) (n : Node) (ops children : List Op) :
    Job ShapedRewrite := do
  if RewriteShape.ofNodeKind? n.kind = some shape then
    match shape with
    | .optional => return .optional (← setup.rewriteOptional n.referencedNames ops)
    | .closure => return .closure (← setup.rewriteClosure n.referencedNames ops)
    | .tree => return .tree (← setup.rewriteTree ops children)
  else
    Job.malformed n.place (some shape.point)
      s!"`{shape.point.name}` cannot be built from this node"

def rewriteRule (setup : Setup) (r : RuleRef) (isRoot : Bool) : Job (List Op) :=
  match r.name with
  | none =>
    Job.malformed (Reference.rule r).place (some .rewriteRuleRef) "rule reference has no name"
  | some name => do
    let context ← Job.context
    setup.visit .rewriteRuleRef [.rewriteRule name isRoot context.treeLevel context.blockLevel]

/-- Builds the rewrite of a token or literal that stands at a place. -/
def rewriteToken (setup : Setup) (place : Place) (name : Option String) (isRoot : Bool)
    (arg : Option String) : Job (List Op) :=
  match name with
  | none => Job.malformed place (some .rewriteTokenRef) "expected a named token or literal"
  | some name => do
    let ttype ← setup.tokenType name place .rewriteTokenRef
    let context ← Job.context
    setup.visit .rewriteTokenRef
      [.rewriteToken name ttype isRoot arg context.treeLevel context.blockLevel]

/-- Builds a reference in a rewrite. A literal takes no argument. -/
def rewriteReference (setup : Setup) (isRoot : Bool) : Reference → Job (List Op)
  | .rule r => setup.rewriteRule r isRoot
  | .token t => setup.rewriteToken (Reference.token t).place t.name isRoot t.arg
  | .literal l => setup.rewriteToken (Reference.literal l).place l.text isRoot none

end Setup

end RecognizerModel
