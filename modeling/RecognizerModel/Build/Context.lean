import RecognizerModel.Build.Error

/-! Where construction stands: the rules, alternative, blocks and trees it is inside of. -/
namespace RecognizerModel

/-- The file under construction. -/
structure RootInfo where
  fileName : String
  kind : RecognizerKind
deriving DecidableEq, Repr, Inhabited

/-- The alternative whose elements are being built. -/
structure CurrentAlt where
  rule : String
  num : Nat
  refs : List String
deriving DecidableEq, Repr, Inhabited

def CurrentAlt.refersTo (alt : CurrentAlt) (name : String) : Bool :=
  alt.refs.contains name

/-- A block that has been entered. The outermost has level 0; `treeLevel` is the level of the
rewrite tree at which it was entered. -/
structure OpenBlock where
  level : Nat
  treeLevel : Nat
  decision : Option Nat
deriving DecidableEq, Repr, Inhabited

structure Context where
  root : Option RootInfo
  /-- The rules under construction, innermost first. -/
  rules : List RuleFunction
  alt : Option CurrentAlt
  /-- The open blocks, innermost first. -/
  blocks : List OpenBlock
  treeLevel : Nat
deriving Inhabited

namespace Context

def empty : Context :=
  ⟨none, [], none, [], 0⟩

def setRoot (file : RecognizerFile) (c : Context) : Context :=
  { c with root := some ⟨file.fileName, file.kind⟩ }

def pushRule (f : RuleFunction) (c : Context) : Context :=
  { c with rules := f :: c.rules }

def popRule? (c : Context) : Option (RuleFunction × Context) :=
  match c.rules with
  | [] => none
  | f :: rest => some (f, { c with rules := rest })

def rule? (c : Context) : Option RuleFunction :=
  c.rules.head?

/-- The name of the innermost rule; outside of any it is empty. -/
def ruleName (c : Context) : String :=
  (c.rule?.map RuleFunction.name).getD ""

/-- Changes the innermost rule, if there is one. -/
def modifyRule? (change : RuleFunction → RuleFunction) (c : Context) : Option Context :=
  match c.rules with
  | [] => none
  | f :: rest => some { c with rules := change f :: rest }

/-- Puts a block in place of the innermost, or enters it if none is open. -/
def setBlock (block : OpenBlock) (c : Context) : Context :=
  { c with blocks := block :: c.blocks.tail }

/-- The block that would be entered next. -/
def nextBlock (decision : Option Nat) (c : Context) : OpenBlock :=
  ⟨c.blocks.length, c.treeLevel, decision⟩

def pushBlock (decision : Option Nat) (c : Context) : Context :=
  { c with blocks := c.nextBlock decision :: c.blocks }

def popBlock (c : Context) : Context :=
  { c with blocks := c.blocks.tail }

/-- The level of the innermost block, and 0 outside of any. -/
def blockLevel (c : Context) : Nat :=
  match c.blocks with
  | block :: _ => block.level
  | [] => 0

def enterTree (c : Context) : Context :=
  { c with treeLevel := c.treeLevel + 1 }

/-- Leaves a tree; outside of any nothing changes. -/
def exitTree (c : Context) : Context :=
  { c with treeLevel := c.treeLevel - 1 }

/-- Leaves the alternative and all blocks and trees. The rules and the file stay. -/
def resetRuleState (c : Context) : Context :=
  { c with alt := none, blocks := [], treeLevel := 0 }

end Context

end RecognizerModel
