import RecognizerModel.Json
import RecognizerModel.Model.File

/-!
The JSON form of a model. Every structure becomes an object of its fields. A value of several forms
carries a tag: operations `op`, recognizers `kind` and shaped rewrites `shape`.
-/
namespace RecognizerModel

def ChoiceKind.key : ChoiceKind → String
  | ⟨.generic, false⟩ => "generic"
  | ⟨.generic, true⟩ => "ebnf"
  | ⟨.ll1, false⟩ => "ll1"
  | ⟨.ll1, true⟩ => "ebnf_ll1"
  | ⟨.llStar, false⟩ => "ll_star"
  | ⟨.llStar, true⟩ => "ebnf_ll_star"

def EbnfKind.key : EbnfKind → String
  | optional => "optional"
  | closure => "closure"
  | positiveClosure => "positive_closure"

def OpKind.key : OpKind → String
  | matchToken => "match_token"
  | invokeRule => "invoke_rule"
  | matchLiteral => "match_literal"
  | action => "action"
  | forcedAction => "forced_action"
  | predicate => "sem_pred"
  | epsilon => "epsilon"
  | choice => "choice"
  | testSet => "test_set_inline"
  | addLeaf => "add_leaf"
  | becomeRoot => "become_root"
  | treeRewrite => "tree_rewrite"
  | rewriteOptional => "rewrite_optional"
  | rewriteClosure => "rewrite_closure"
  | rewriteTree => "rewrite_tree"
  | rewriteToken => "rewrite_token_ref"
  | rewriteRule => "rewrite_rule_ref"

def RewriteShape.key : RewriteShape → String
  | optional => "optional"
  | closure => "closure"
  | tree => "structure"

namespace ChoiceKind

def all : List ChoiceKind :=
  [⟨.generic, false⟩, ⟨.generic, true⟩, ⟨.ll1, false⟩, ⟨.ll1, true⟩, ⟨.llStar, false⟩,
   ⟨.llStar, true⟩]

def ofKey? (key : String) : Option ChoiceKind :=
  all.find? (·.key == key)

end ChoiceKind

namespace EbnfKind

def all : List EbnfKind :=
  [optional, closure, positiveClosure]

def ofKey? (key : String) : Option EbnfKind :=
  all.find? (·.key == key)

end EbnfKind

namespace OpKind

def all : List OpKind :=
  [matchToken, invokeRule, matchLiteral, action, forcedAction, predicate, epsilon, choice, testSet,
   addLeaf, becomeRoot, treeRewrite, rewriteOptional, rewriteClosure, rewriteTree, rewriteToken,
   rewriteRule]

def ofKey? (key : String) : Option OpKind :=
  all.find? (·.key == key)

end OpKind

namespace RewriteShape

def all : List RewriteShape :=
  [optional, closure, tree]

def ofKey? (key : String) : Option RewriteShape :=
  all.find? (·.key == key)

end RewriteShape

mutual

/-- The members of an operation's object beside its tag. -/
def Op.jsonFields : Op → List (String × Json)
  | .matchToken name ttype labels =>
    [("name", .str name), ("ttype", .int ttype), ("labels", .ofStrings labels)]
  | .invokeRule name ctxType args labels =>
    [("name", .str name), ("ctx_type", .str ctxType), ("args", .ofOption .str args),
     ("labels", .ofStrings labels)]
  | .matchLiteral literal ttype labels =>
    [("literal", .str literal), ("ttype", .int ttype), ("labels", .ofStrings labels)]
  | .action code => [("code", .str code)]
  | .forcedAction code => [("code", .str code)]
  | .predicate code => [("predicate", .str code)]
  | .epsilon => []
  | .choice c => c.jsonFields
  | .testSet ttypes names => [("ttypes", .ofList .int ttypes), ("token_names", .ofStrings names)]
  | .addLeaf label => [("label", .str label)]
  | .becomeRoot label => [("label", .str label)]
  | .treeRewrite r => r.jsonFields
  | .rewriteOptional r => r.jsonFields
  | .rewriteClosure r => r.jsonFields
  | .rewriteTree r => r.jsonFields
  | .rewriteToken token ttype isRoot arg treeLevel blockLevel =>
    [("token", .str token), ("ttype", .int ttype), ("is_root", .bool isRoot),
     ("arg", .ofOption .str arg), ("tree_level", .ofNat treeLevel),
     ("code_block_level", .ofNat blockLevel)]
  | .rewriteRule rule isRoot treeLevel blockLevel =>
    [("rule", .str rule), ("is_root", .bool isRoot), ("tree_level", .ofNat treeLevel),
     ("code_block_level", .ofNat blockLevel)]

def Op.jsonItems : List Op → List Json
  | [] => []
  | op :: rest => .obj (("op", .str op.kind.key) :: op.jsonFields) :: Op.jsonItems rest

def Choice.jsonFields : Choice → List (String × Json)
  | ⟨kind, decision, ebnf, alts, tests, preamble⟩ =>
    [("kind", .str kind.key), ("decision", .ofOption .ofNat decision),
     ("ebnf", .ofOption (fun kind => .str kind.key) ebnf),
     ("alts", .arr (Alternative.jsonItems alts)), ("alt_tests", .arr (Choice.jsonTests tests)),
     ("preamble", .arr (Op.jsonItems preamble))]

def Choice.jsonTests : List (List Op) → List Json
  | [] => []
  | test :: rest => .arr (Op.jsonItems test) :: Choice.jsonTests rest

def Alternative.jsonItems : List Alternative → List Json
  | [] => []
  | ⟨num, ops⟩ :: rest =>
    .obj [("alt_num", .ofNat num), ("ops", .arr (Op.jsonItems ops))] :: Alternative.jsonItems rest

def TreeRewrite.jsonFields : TreeRewrite → List (String × Json)
  | ⟨blockLevel, ops⟩ =>
    [("code_block_level", .ofNat blockLevel), ("ops", .arr (Op.jsonItems ops))]

def RewriteOptional.jsonFields : RewriteOptional → List (String × Json)
  | ⟨blockLevel, referenced, ops⟩ =>
    [("code_block_level", .ofNat blockLevel), ("referenced", .ofStrings referenced),
     ("ops", .arr (Op.jsonItems ops))]

def RewriteClosure.jsonFields : RewriteClosure → List (String × Json)
  | ⟨blockLevel, referenced, ops⟩ =>
    [("code_block_level", .ofNat blockLevel), ("referenced", .ofStrings referenced),
     ("ops", .arr (Op.jsonItems ops))]

def RewriteTree.jsonFields : RewriteTree → List (String × Json)
  | ⟨treeLevel, blockLevel, root, children⟩ =>
    [("tree_level", .ofNat treeLevel), ("code_block_level", .ofNat blockLevel),
     ("root", .arr (Op.jsonItems root)), ("children", .arr (Op.jsonItems children))]

end

def Op.toJson (op : Op) : Json :=
  .obj (("op", .str op.kind.key) :: op.jsonFields)

def Op.listToJson (ops : List Op) : Json :=
  .arr (Op.jsonItems ops)

def Alternative.toJson (alt : Alternative) : Json :=
  .obj [("alt_num", .ofNat alt.num), ("ops", Op.listToJson alt.ops)]

def Choice.toJson (c : Choice) : Json :=
  .obj c.jsonFields

def TreeRewrite.toJson (r : TreeRewrite) : Json :=
  .obj r.jsonFields

def RewriteOptional.toJson (r : RewriteOptional) : Json :=
  .obj r.jsonFields

def RewriteClosure.toJson (r : RewriteClosure) : Json :=
  .obj r.jsonFields

def RewriteTree.toJson (r : RewriteTree) : Json :=
  .obj r.jsonFields

def ShapedRewrite.toJson (r : ShapedRewrite) : Json :=
  let fields := match r with
    | .optional body => body.jsonFields
    | .closure body => body.jsonFields
    | .tree t => t.jsonFields
  .obj (("shape", .str r.shape.key) :: fields)

def Attribute.toJson (a : Attribute) : Json :=
  .obj [("name", .str a.name), ("type_name", .ofOption .str a.type)]

def FieldKind.key : FieldKind → String
  | token => "token"
  | tokenList => "token_list"
  | ruleContext => "rule_context"
  | ruleContextList => "rule_context_list"
  | value => "attribute"

def Field.toJson (f : Field) : Json :=
  .obj [("kind", .str f.kind.key), ("name", .str f.name),
        ("type_name", .ofOption .str f.type)]

def ContextDecl.toJson (ctx : ContextDecl) : Json :=
  .obj [("name", .str ctx.name), ("fields", .ofList Field.toJson ctx.fields)]

def RuleFunction.toJson (f : RuleFunction) : Json :=
  .obj [("name", .str f.name), ("index", .ofNat f.index), ("ctx_type", .str f.ctxType),
        ("args", .ofList Attribute.toJson f.args),
        ("returns", .ofList Attribute.toJson f.returns),
        ("locals", .ofList Attribute.toJson f.locals),
        ("code", Op.listToJson f.code), ("postamble", Op.listToJson f.postamble),
        ("rule_ctx", .ofOption ContextDecl.toJson f.context)]

def ParserTable.jsonFields (table : ParserTable) : List (String × Json) :=
  [("name", .str table.name), ("token_names", .ofStrings table.tokenNames),
   ("rule_names", .ofStrings table.ruleNames), ("members", .ofOption .str table.members),
   ("funcs", .ofList RuleFunction.toJson table.funcs)]

def LexerTable.jsonFields (table : LexerTable) : List (String × Json) :=
  [("name", .str table.name), ("token_names", .ofStrings table.tokenNames),
   ("rule_names", .ofStrings table.ruleNames), ("modes", .ofStrings table.modes)]

def ParserTable.toJson (table : ParserTable) : Json :=
  .obj table.jsonFields

def LexerTable.toJson (table : LexerTable) : Json :=
  .obj table.jsonFields

def Recognizer.toJson (r : Recognizer) : Json :=
  let fields := match r with
    | .parser table => table.jsonFields
    | .lexer table => table.jsonFields
  .obj (("kind", .str r.kind.name) :: fields)

def RecognizerFile.toJson (file : RecognizerFile) : Json :=
  .obj [("file_name", .str file.fileName), ("grammar_name", .str file.grammarName),
        ("header", .ofOption .str file.header), ("recognizer", file.recognizer.toJson)]

end RecognizerModel
