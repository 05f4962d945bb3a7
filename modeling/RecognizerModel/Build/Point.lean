import RecognizerModel.Model.Role

/-! Construction points: the places where an extension sees what is being built. -/
namespace RecognizerModel

inductive Point where
  | parserFile
  | parser
  | lexerFile
  | lexer
  | rule
  | rulePostamble
  | alternative
  | finishAlternative
  | epsilon
  | ruleRef
  /-- A rule reference that becomes a child of the tree under construction. -/
  | leafRule
  | tokenRef
  /-- A token reference that becomes a child of the tree under construction. -/
  | leafToken
  | stringRef
  | action
  | forcedAction
  | predicate
  | rootToken
  | rootRule
  | choiceBlock
  | ebnfBlock
  | ll1ChoiceBlock
  | llStarChoiceBlock
  | ll1EbnfBlock
  | llStarEbnfBlock
  | ll1Test
  /-- Here an extension is asked a question and sees no node. -/
  | needsImplicitLabel
  | treeRewrite
  | rewriteOptional
  | rewriteClosure
  | rewriteTree
  | rewriteRuleRef
  | rewriteTokenRef
deriving DecidableEq, Repr, Inhabited

/-- What is seen at a point. -/
inductive Subject where
  | file
  | parserTable
  | lexerTable
  | ruleFunction
  | alternative
  | choice
  | ops
  | treeRewrite
  | rewriteOptional
  | rewriteClosure
  | rewriteTree
  | nothing
deriving DecidableEq, Repr, Inhabited

namespace Subject

abbrev Node : Subject → Type
  | file => RecognizerFile
  | parserTable => ParserTable
  | lexerTable => LexerTable
  | ruleFunction => RuleFunction
  | alternative => Alternative
  | choice => Choice
  | ops => List Op
  | treeRewrite => TreeRewrite
  | rewriteOptional => RewriteOptional
  | rewriteClosure => RewriteClosure
  | rewriteTree => RewriteTree
  | nothing => Empty

/-- The role of a node, which an extension has to keep. -/
def role : (s : Subject) → s.Node → Role
  | file, f => f.role
  | parserTable, _ => .ruleTable .parser
  | lexerTable, _ => .ruleTable .lexer
  | ruleFunction, f => f.role
  | alternative, _ => .alternative
  | choice, c => c.role
  | ops, _ => .ops
  | treeRewrite, _ => .treeRewrite
  | rewriteOptional, _ => .rewrite .optional
  | rewriteClosure, _ => .rewrite .closure
  | rewriteTree, _ => .rewrite .tree

end Subject

namespace Point

def all : List Point :=
  [parserFile, parser, lexerFile, lexer, rule, rulePostamble, alternative, finishAlternative,
   epsilon, ruleRef, leafRule, tokenRef, leafToken, stringRef, action, forcedAction, predicate,
   rootToken, rootRule, choiceBlock, ebnfBlock, ll1ChoiceBlock, llStarChoiceBlock, ll1EbnfBlock,
   llStarEbnfBlock, ll1Test, needsImplicitLabel, treeRewrite, rewriteOptional, rewriteClosure,
   rewriteTree, rewriteRuleRef, rewriteTokenRef]

def name : Point → String
  | parserFile => "parser_file"
  | parser => "parser"
  | lexerFile => "lexer_file"
  | lexer => "lexer"
  | rule => "rule"
  | rulePostamble => "rule_postamble"
  | alternative => "alternative"
  | finishAlternative => "finish_alternative"
  | epsilon => "epsilon"
  | ruleRef => "rule_ref"
  | leafRule => "leaf_rule"
  | tokenRef => "token_ref"
  | leafToken => "leaf_token"
  | stringRef => "string_ref"
  | action => "action"
  | forcedAction => "forced_action"
  | predicate => "sempred"
  | rootToken => "root_token"
  | rootRule => "root_rule"
  | choiceBlock => "choice_block"
  | ebnfBlock => "ebnf_block"
  | ll1ChoiceBlock => "ll1_choice_block"
  | llStarChoiceBlock => "ll_star_choice_block"
  | ll1EbnfBlock => "ll1_ebnf_block"
  | llStarEbnfBlock => "ll_star_ebnf_block"
  | ll1Test => "ll1_test"
  | needsImplicitLabel => "needs_implicit_label"
  | treeRewrite => "tree_rewrite"
  | rewriteOptional => "rewrite_optional"
  | rewriteClosure => "rewrite_closure"
  | rewriteTree => "rewrite_tree"
  | rewriteRuleRef => "rewrite_rule_ref"
  | rewriteTokenRef => "rewrite_token_ref"

def ofName? (name : String) : Option Point :=
  all.find? (·.name == name)

abbrev subject : Point → Subject
  | parserFile | lexerFile => .file
  | parser => .parserTable
  | lexer => .lexerTable
  | rule => .ruleFunction
  | alternative | finishAlternative | epsilon => .alternative
  | choiceBlock | ebnfBlock | ll1ChoiceBlock | llStarChoiceBlock | ll1EbnfBlock
  | llStarEbnfBlock => .choice
  | treeRewrite => .treeRewrite
  | rewriteOptional => .rewriteOptional
  | rewriteClosure => .rewriteClosure
  | rewriteTree => .rewriteTree
  | needsImplicitLabel => .nothing
  | rulePostamble | ruleRef | leafRule | tokenRef | leafToken | stringRef | action | forcedAction
  | predicate | rootToken | rootRule | ll1Test | rewriteRuleRef | rewriteTokenRef => .ops

abbrev Node (p : Point) : Type :=
  p.subject.Node

/-- The kind of operation that has to stay in a list handed over at a point. -/
def anchor? : Point → Option OpKind
  | ruleRef | leafRule => some .invokeRule
  | tokenRef | leafToken => some .matchToken
  | stringRef => some .matchLiteral
  | ll1Test => some .testSet
  | rewriteRuleRef => some .rewriteRule
  | rewriteTokenRef => some .rewriteToken
  | _ => none

/-- The point where choices of a kind are seen. -/
def ofChoice : ChoiceKind → Point
  | ⟨.generic, false⟩ => choiceBlock
  | ⟨.generic, true⟩ => ebnfBlock
  | ⟨.ll1, false⟩ => ll1ChoiceBlock
  | ⟨.ll1, true⟩ => ll1EbnfBlock
  | ⟨.llStar, false⟩ => llStarChoiceBlock
  | ⟨.llStar, true⟩ => llStarEbnfBlock

end Point

end RecognizerModel
