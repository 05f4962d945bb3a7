/-! How a decision point is made and what surrounds it. -/
namespace RecognizerModel

/-- What grammar analysis found a decision to need. -/
inductive Strategy where
  /-- Nothing is known beyond that it is a choice. -/
  | generic
  /-- One token of lookahead separates the alternatives. -/
  | ll1
  /-- Any amount of lookahead may be needed. -/
  | llStar
deriving DecidableEq, Repr, Inhabited

def Strategy.code : Strategy → String
  | generic => "Generic"
  | ll1 => "Ll1"
  | llStar => "LlStar"

/-- The operator around an optional or repeated block. -/
inductive EbnfKind where
  | optional
  | closure
  | positiveClosure
deriving DecidableEq, Repr, Inhabited

def EbnfKind.symbol : EbnfKind → String
  | optional => "?"
  | closure => "*"
  | positiveClosure => "+"

/-- The kind of a choice: its strategy, and whether its block is optional or repeated. -/
structure ChoiceKind where
  strategy : Strategy
  ebnf : Bool
deriving DecidableEq, Repr, Inhabited

namespace ChoiceKind

def isLl1 (kind : ChoiceKind) : Bool :=
  kind.strategy == .ll1

def name : ChoiceKind → String
  | ⟨.generic, false⟩ => "choice"
  | ⟨.generic, true⟩ => "ebnf"
  | ⟨.ll1, false⟩ => "ll1"
  | ⟨.ll1, true⟩ => "ebnf-ll1"
  | ⟨.llStar, false⟩ => "ll*"
  | ⟨.llStar, true⟩ => "ebnf-ll*"

/-- The kind in front of the word for a choice; a generic choice is just that. -/
def describe : ChoiceKind → String
  | ⟨.generic, false⟩ => "choice"
  | kind => kind.name ++ " choice"

end ChoiceKind

end RecognizerModel
