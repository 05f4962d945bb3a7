import RecognizerModel.Model.File

/-!
Roles of model nodes. A node may be decorated as long as it keeps its role: the function of rule `a`
stays the function of rule `a`, and an LL(1) choice stays an LL(1) choice.
-/
namespace RecognizerModel

inductive Role where
  | file (kind : RecognizerKind)
  | ruleTable (kind : RecognizerKind)
  | ruleFunction (name : String)
  | alternative
  | choice (kind : ChoiceKind)
  | ops
  | treeRewrite
  | rewrite (shape : RewriteShape)
deriving DecidableEq, Repr, Inhabited

def Role.describe : Role → String
  | file kind => s!"{kind.name} file"
  | ruleTable kind => s!"{kind.name} rule table"
  | ruleFunction name => s!"rule function `{name}`"
  | alternative => "alternative block"
  | choice kind => kind.describe
  | ops => "operation list"
  | treeRewrite => "tree rewrite"
  | rewrite shape =>
    match shape with
    | .optional => "rewrite optional"
    | .closure => "rewrite closure"
    | .tree => "rewrite tree"

def RecognizerFile.role (file : RecognizerFile) : Role :=
  .file file.kind

def RuleFunction.role (f : RuleFunction) : Role :=
  .ruleFunction f.name

def Choice.role (c : Choice) : Role :=
  .choice c.kind

def ShapedRewrite.role (r : ShapedRewrite) : Role :=
  .rewrite r.shape

end RecognizerModel
