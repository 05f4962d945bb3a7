import RecognizerModel.Model.ChoiceKind

/-!
Operations of a recognizer. An operation is one step of a rule function; choices and rewrites hold
further operations, all others are leaves.
-/
namespace RecognizerModel

mutual

inductive Op where
  | matchToken (name : String) (ttype : Int) (labels : List String)
  | invokeRule (name ctxType : String) (args : Option String) (labels : List String)
  | matchLiteral (literal : String) (ttype : Int) (labels : List String)
  | action (code : String)
  /-- An action that runs even while speculating. -/
  | forcedAction (code : String)
  | predicate (code : String)
  /-- Matches nothing. -/
  | epsilon
  | choice (choice : Choice)
  /-- Tests the next token against a set. -/
  | testSet (ttypes : List Int) (names : List String)
  /-- Adds what the label holds as a child of the tree under construction. -/
  | addLeaf (label : String)
  /-- Makes what the label holds the root of the tree under construction. -/
  | becomeRoot (label : String)
  | treeRewrite (rewrite : TreeRewrite)
  | rewriteOptional (body : RewriteOptional)
  | rewriteClosure (body : RewriteClosure)
  | rewriteTree (tree : RewriteTree)
  | rewriteToken (token : String) (ttype : Int) (isRoot : Bool) (arg : Option String)
      (treeLevel blockLevel : Nat)
  | rewriteRule (rule : String) (isRoot : Bool) (treeLevel blockLevel : Nat)

/-- The operations of one alternative; `num` counts from 1 within its block. -/
structure Alternative where
  num : Nat
  ops : List Op

/-- A decision point. An LL(1) choice holds one test per alternative, other choices none. -/
structure Choice where
  kind : ChoiceKind
  decision : Option Nat
  ebnf : Option EbnfKind
  alts : List Alternative
  tests : List (List Op)
  /-- Runs before the decision. -/
  preamble : List Op

/-- What an alternative's rewrite makes of the elements it matched. -/
structure TreeRewrite where
  blockLevel : Nat
  ops : List Op

/-- Runs once if anything it refers to has a value. -/
structure RewriteOptional where
  blockLevel : Nat
  referenced : List String
  ops : List Op

/-- Runs once for each value of what it refers to. -/
structure RewriteClosure where
  blockLevel : Nat
  referenced : List String
  ops : List Op

/-- A tree with its root and its children. -/
structure RewriteTree where
  treeLevel : Nat
  blockLevel : Nat
  root : List Op
  children : List Op

end

instance : Inhabited Op := ⟨.epsilon⟩
instance : Inhabited Alternative := ⟨⟨0, []⟩⟩
instance : Inhabited Choice := ⟨⟨default, none, none, [], [], []⟩⟩
instance : Inhabited TreeRewrite := ⟨⟨0, []⟩⟩
instance : Inhabited RewriteOptional := ⟨⟨0, [], []⟩⟩
instance : Inhabited RewriteClosure := ⟨⟨0, [], []⟩⟩
instance : Inhabited RewriteTree := ⟨⟨0, 0, [], []⟩⟩

/-- The kind of an operation without its contents. -/
inductive OpKind where
  | matchToken
  | invokeRule
  | matchLiteral
  | action
  | forcedAction
  | predicate
  | epsilon
  | choice
  | testSet
  | addLeaf
  | becomeRoot
  | treeRewrite
  | rewriteOptional
  | rewriteClosure
  | rewriteTree
  | rewriteToken
  | rewriteRule
deriving DecidableEq, Repr, Inhabited

def OpKind.name : OpKind → String
  | matchToken => "match-token"
  | invokeRule => "invoke-rule"
  | matchLiteral => "match-literal"
  | action => "action"
  | forcedAction => "forced-action"
  | predicate => "sempred"
  | epsilon => "epsilon"
  | choice => "choice"
  | testSet => "test-set"
  | addLeaf => "add-leaf"
  | becomeRoot => "become-root"
  | treeRewrite => "tree-rewrite"
  | rewriteOptional => "rewrite-optional"
  | rewriteClosure => "rewrite-closure"
  | rewriteTree => "rewrite-tree"
  | rewriteToken => "rewrite-token-ref"
  | rewriteRule => "rewrite-rule-ref"

namespace Op

def kind : Op → OpKind
  | matchToken .. => .matchToken
  | invokeRule .. => .invokeRule
  | matchLiteral .. => .matchLiteral
  | action _ => .action
  | forcedAction _ => .forcedAction
  | predicate _ => .predicate
  | epsilon => .epsilon
  | choice _ => .choice
  | testSet .. => .testSet
  | addLeaf _ => .addLeaf
  | becomeRoot _ => .becomeRoot
  | treeRewrite _ => .treeRewrite
  | rewriteOptional _ => .rewriteOptional
  | rewriteClosure _ => .rewriteClosure
  | rewriteTree _ => .rewriteTree
  | rewriteToken .. => .rewriteToken
  | rewriteRule .. => .rewriteRule

/-- The labels of an operation; `none` for one that cannot carry any. -/
def labels? : Op → Option (List String)
  | matchToken _ _ labels | invokeRule _ _ _ labels | matchLiteral _ _ labels => some labels
  | _ => none

/-- The first label. -/
def label? (op : Op) : Option String :=
  op.labels?.bind List.head?

/-- Whether the operation could carry a label and has none. -/
def isUnlabeled (op : Op) : Bool :=
  op.labels? matches some []

/-- Adds a label after those present, if the operation can carry one. -/
def addLabel (label : String) : Op → Op
  | matchToken name ttype labels => matchToken name ttype (labels ++ [label])
  | invokeRule name ctxType args labels => invokeRule name ctxType args (labels ++ [label])
  | matchLiteral literal ttype labels => matchLiteral literal ttype (labels ++ [label])
  | op => op

/-- The name by which an action refers to what the operation matched. -/
def referredName? : Op → Option String
  | matchToken name _ _ | invokeRule name _ _ _ => some name
  | _ => none

end Op

/-- Whether the alternative matches nothing. -/
def Alternative.isEpsilon (alt : Alternative) : Bool :=
  alt.ops.all (·.kind == .epsilon)

/-- The shape of a rewrite that stands inside another. -/
inductive RewriteShape where
  | optional
  | closure
  | tree
deriving DecidableEq, Repr, Inhabited

def RewriteShape.name : RewriteShape → String
  | optional => "optional"
  | closure => "closure"
  | tree => "tree"

/-- A rewrite of any shape. -/
inductive ShapedRewrite where
  | optional (body : RewriteOptional)
  | closure (body : RewriteClosure)
  | tree (tree : RewriteTree)
deriving Inhabited

namespace ShapedRewrite

def shape : ShapedRewrite → RewriteShape
  | optional _ => .optional
  | closure _ => .closure
  | tree _ => .tree

def toOp : ShapedRewrite → Op
  | optional body => .rewriteOptional body
  | closure body => .rewriteClosure body
  | tree t => .rewriteTree t

end ShapedRewrite

end RecognizerModel
