import RecognizerModel.Build.Job

/-! The function of a rule before and after the walk over it. -/
namespace RecognizerModel

/-- Declares the attributes of a function as fields of its context. -/
def RuleFunction.declareAttributes (f : RuleFunction) : RuleFunction :=
  (f.args ++ f.returns ++ f.locals).foldl (fun f a => f.declare (.ofAttribute a)) f

/-- What a rule's declarations make of its function. -/
def RuleFunction.ofRule (rule : Rule) (name : String) (index : Nat) : RuleFunction :=
  let attributes (text : Option String) := (text.map Attribute.parseList).getD []
  declareAttributes
    { RuleFunction.empty name index with
      args := attributes rule.args
      returns := attributes rule.returns
      locals := attributes rule.locals }

/-- Gives a function the name of its context type and its postamble; a context without fields is
dropped. -/
def RuleFunction.finish (f : RuleFunction) (ctxType : String) (postamble : List Op) :
    RuleFunction :=
  dropEmptyContext
    { f with
      ctxType
      postamble
      context := f.context.map fun ctx => { ctx with name := ctxType } }

namespace Setup

def rule (setup : Setup) (rule : Rule) (name : String) (index : Nat) : Job RuleFunction :=
  setup.visit .rule (.ofRule rule name index)

def rulePostamble (setup : Setup) (rule : Rule) : Job (List Op) :=
  setup.visit .rulePostamble ((rule.actionCode? "after").map Op.action).toList

end Setup

end RecognizerModel
