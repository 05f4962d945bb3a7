import RecognizerModel.Model.File

/-! The outline of a model: a line for each node and heading, two blanks deeper at each level. -/
namespace RecognizerModel

structure OutlineLine where
  depth : Nat
  text : String
deriving DecidableEq, Repr, Inhabited

def OutlineLine.render (line : OutlineLine) : String :=
  String.ofList (List.replicate (2 * line.depth) ' ') ++ line.text ++ "\n"

/-- Each label behind an at sign. -/
def labelsSuffix (labels : List String) : String :=
  String.join (labels.map (" @" ++ ·))

def parenthesized (lead : String) : Option String → String
  | some text => s!"{lead}({text})"
  | none => ""

def rootMark (isRoot : Bool) : String :=
  if isRoot then " ^" else ""

/-- The line of a choice itself. -/
def choiceTitle (kind : ChoiceKind) (decision : Option Nat) (ebnf : Option EbnfKind) : String :=
  let number := match decision with
    | some n => s!" d{n}"
    | none => ""
  let operator := match ebnf with
    | some kind => " " ++ kind.symbol
    | none => ""
  kind.describe ++ number ++ operator

mutual

def Op.outline (depth : Nat) : Op → List OutlineLine
  | .matchToken name _ labels => [⟨depth, s!"match {name}" ++ labelsSuffix labels⟩]
  | .invokeRule name _ args labels =>
    [⟨depth, s!"invoke {name}" ++ parenthesized "" args ++ labelsSuffix labels⟩]
  | .matchLiteral literal _ labels => [⟨depth, s!"match {literal}" ++ labelsSuffix labels⟩]
  | .action code => [⟨depth, s!"action {code}"⟩]
  | .forcedAction code => [⟨depth, s!"forced-action {code}"⟩]
  | .predicate code => [⟨depth, s!"sempred {code}"⟩]
  | .epsilon => [⟨depth, "epsilon"⟩]
  | .choice c => c.outline depth
  | .testSet _ names => [⟨depth, "test " ++ " ".intercalate names⟩]
  | .addLeaf label => [⟨depth, s!"add-leaf {label}"⟩]
  | .becomeRoot label => [⟨depth, s!"become-root {label}"⟩]
  | .treeRewrite r => r.outline depth
  | .rewriteOptional r => r.outline depth
  | .rewriteClosure r => r.outline depth
  | .rewriteTree r => r.outline depth
  | .rewriteToken token _ isRoot arg _ _ =>
    [⟨depth, s!"rewrite-token {token}" ++ rootMark isRoot ++ parenthesized " " arg⟩]
  | .rewriteRule rule isRoot _ _ => [⟨depth, s!"rewrite-rule {rule}" ++ rootMark isRoot⟩]

def Op.outlineAll (depth : Nat) : List Op → List OutlineLine
  | [] => []
  | op :: rest => op.outline depth ++ Op.outlineAll depth rest

def Choice.outline (depth : Nat) : Choice → List OutlineLine
  | ⟨kind, decision, ebnf, alts, tests, preamble⟩ =>
    ⟨depth, choiceTitle kind decision ebnf⟩ ::
      ((if preamble.isEmpty then []
        else ⟨depth + 1, "preamble"⟩ :: Op.outlineAll (depth + 2) preamble) ++
        Alternative.outlineAll (depth + 1) (Choice.outlineTests (depth + 2) tests) alts)

def Choice.outlineTests (depth : Nat) : List (List Op) → List (List OutlineLine)
  | [] => []
  | test :: rest => Op.outlineAll depth test :: Choice.outlineTests depth rest

/-- Each alternative with its test, as far as there are tests. -/
def Alternative.outlineAll (depth : Nat) (tests : List (List OutlineLine)) :
    List Alternative → List OutlineLine
  | [] => []
  | ⟨num, ops⟩ :: rest =>
    ⟨depth, s!"alt {num}"⟩ :: (tests.headD [] ++ Op.outlineAll (depth + 1) ops) ++
      Alternative.outlineAll depth tests.tail rest

def TreeRewrite.outline (depth : Nat) : TreeRewrite → List OutlineLine
  | ⟨_, ops⟩ => ⟨depth, "rewrite"⟩ :: Op.outlineAll (depth + 1) ops

def RewriteOptional.outline (depth : Nat) : RewriteOptional → List OutlineLine
  | ⟨_, referenced, ops⟩ =>
    ⟨depth, "rewrite-optional [" ++ ", ".intercalate referenced ++ "]"⟩ ::
      Op.outlineAll (depth + 1) ops

def RewriteClosure.outline (depth : Nat) : RewriteClosure → List OutlineLine
  | ⟨_, referenced, ops⟩ =>
    ⟨depth, "rewrite-closure [" ++ ", ".intercalate referenced ++ "]"⟩ ::
      Op.outlineAll (depth + 1) ops

def RewriteTree.outline (depth : Nat) : RewriteTree → List OutlineLine
  | ⟨_, _, root, children⟩ =>
    ⟨depth, "rewrite-tree"⟩ :: ⟨depth + 1, "root"⟩ ::
      (Op.outlineAll (depth + 2) root ++
        if children.isEmpty then []
        else ⟨depth + 1, "children"⟩ :: Op.outlineAll (depth + 2) children)

end

def Field.outlineText (field : Field) : String :=
  let kind := match field.kind with
    | .token => "token"
    | .tokenList => "token-list"
    | .ruleContext => "rule-ctx"
    | .ruleContextList => "rule-ctx-list"
    | .value => "attr"
  match field.type with
  | some type => s!"{kind} {field.name}: {type}"
  | none => s!"{kind} {field.name}"

def ContextDecl.outline (depth : Nat) (ctx : ContextDecl) : List OutlineLine :=
  ⟨depth, s!"ctx {ctx.name}"⟩ :: ctx.fields.map fun field => ⟨depth + 1, field.outlineText⟩

/-- A line for a list of attributes; nothing for an empty one. -/
def Attribute.outlineList (depth : Nat) (title : String) (attrs : List Attribute) :
    List OutlineLine :=
  if attrs.isEmpty then [] else [⟨depth, title ++ " " ++ renderList attrs⟩]

def RuleFunction.outline (depth : Nat) (f : RuleFunction) : List OutlineLine :=
  let code :=
    if f.code.isEmpty then [⟨depth + 1, "code (empty)"⟩]
    else ⟨depth + 1, "code"⟩ :: Op.outlineAll (depth + 2) f.code
  let postamble :=
    if f.postamble.isEmpty then []
    else ⟨depth + 1, "postamble"⟩ :: Op.outlineAll (depth + 2) f.postamble
  let context := match f.context with
    | some ctx => ctx.outline (depth + 1)
    | none => []
  ⟨depth, s!"rule {f.name} -> {f.ctxType}"⟩ ::
    (Attribute.outlineList (depth + 1) "args" f.args ++
      Attribute.outlineList (depth + 1) "returns" f.returns ++
      Attribute.outlineList (depth + 1) "locals" f.locals ++ code ++ postamble ++ context)

/-- A line of names; nothing if there are none. -/
def namesLine (depth : Nat) (title : String) (names : List String) : List OutlineLine :=
  if names.isEmpty then [] else [⟨depth, title ++ " " ++ " ".intercalate names⟩]

/-- A line for a text taken over word for word; nothing if there is none. -/
def verbatimLine (depth : Nat) (title : String) : Option String → List OutlineLine
  | some text => [⟨depth, s!"{title} {text}"⟩]
  | none => []

def ParserTable.outline (depth : Nat) (table : ParserTable) : List OutlineLine :=
  ⟨depth, s!"parser {table.name}"⟩ ::
    (namesLine (depth + 1) "tokens" table.tokenNames ++
      verbatimLine (depth + 1) "members" table.members ++
      table.funcs.flatMap (·.outline (depth + 1)))

def LexerTable.outline (depth : Nat) (table : LexerTable) : List OutlineLine :=
  ⟨depth, s!"lexer {table.name}"⟩ ::
    (namesLine (depth + 1) "tokens" table.tokenNames ++
      namesLine (depth + 1) "rules" table.ruleNames ++
      namesLine (depth + 1) "modes" table.modes)

def RecognizerFile.outline (file : RecognizerFile) : List OutlineLine :=
  let table := match file.recognizer with
    | .parser table => table.outline 1
    | .lexer table => table.outline 1
  ⟨0, s!"{file.kind.name} file {file.fileName} (grammar {file.grammarName})"⟩ ::
    (verbatimLine 1 "header" file.header ++ table)

def OutlineLine.renderAll (lines : List OutlineLine) : String :=
  String.join (lines.map render)

/-- The text of a file's outline. -/
def RecognizerFile.dump (file : RecognizerFile) : String :=
  OutlineLine.renderAll file.outline

/-- The text of the outline of operations, the first ones at depth 0. -/
def Op.dumpAll (ops : List Op) : String :=
  OutlineLine.renderAll (Op.outlineAll 0 ops)

end RecognizerModel
