import RecognizerModel.Model.Attribute
import RecognizerModel.Model.Op

/-! Rule functions and the contexts they fill. -/
namespace RecognizerModel

/-- What a context field holds: what a label stands for, or the value of an attribute. -/
inductive FieldKind where
  | token
  | tokenList
  | ruleContext
  | ruleContextList
  | value
deriving DecidableEq, Repr, Inhabited

structure Field where
  kind : FieldKind
  name : String
  /-- The type that an attribute was declared with, or that of a rule's context. -/
  type : Option String
deriving DecidableEq, Repr, Inhabited

namespace Field

def token (name : String) : Field :=
  ⟨.token, name, none⟩

def tokenList (name : String) : Field :=
  ⟨.tokenList, name, none⟩

def ruleContext (name ctxType : String) : Field :=
  ⟨.ruleContext, name, some ctxType⟩

def ruleContextList (name ctxType : String) : Field :=
  ⟨.ruleContextList, name, some ctxType⟩

def ofAttribute (a : Attribute) : Field :=
  ⟨.value, a.name, a.type⟩

end Field

/-- The fields of a rule's context, in the order of their declaration. -/
structure ContextDecl where
  name : String
  fields : List Field
deriving DecidableEq, Repr, Inhabited

namespace ContextDecl

def get? (ctx : ContextDecl) (name : String) : Option Field :=
  ctx.fields.find? (·.name == name)

/-- Declares a field. The first declaration of a name is kept. -/
def declare (ctx : ContextDecl) (field : Field) : ContextDecl :=
  if ctx.fields.any (·.name == field.name) then ctx
  else { ctx with fields := ctx.fields ++ [field] }

end ContextDecl

/-- The function made for one rule. `index` is the rule's position in the table, and a context
that would have no fields is left out. -/
structure RuleFunction where
  name : String
  index : Nat
  ctxType : String
  args : List Attribute
  returns : List Attribute
  locals : List Attribute
  code : List Op
  postamble : List Op
  context : Option ContextDecl
deriving Inhabited

namespace RuleFunction

/-- A function without contents, with an empty context named after the rule. -/
def empty (name : String) (index : Nat) : RuleFunction :=
  ⟨name, index, "", [], [], [], [], [], some ⟨name, []⟩⟩

/-- Declares a context field. A context that was dropped comes back under the present type name. -/
def declare (f : RuleFunction) (field : Field) : RuleFunction :=
  { f with context := some ((f.context.getD ⟨f.ctxType, []⟩).declare field) }

/-- Drops a context without fields. -/
def dropEmptyContext (f : RuleFunction) : RuleFunction :=
  { f with context := f.context.filter (!·.fields.isEmpty) }

end RuleFunction

end RecognizerModel
