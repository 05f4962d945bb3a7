import RecognizerModel.Grammar.Lookahead
import RecognizerModel.Model.ChoiceKind

/-! What grammar analysis says about decisions. -/
namespace RecognizerModel

/-- The class of a decision. Where one token of lookahead is enough, each alternative in turn has
the set of tokens that select it. -/
structure Classification where
  strategy : Strategy
  lookahead : List LookaheadSet
deriving DecidableEq, Inhabited

namespace Classification

def generic : Classification :=
  ⟨.generic, []⟩

def ll1 (lookahead : List LookaheadSet) : Classification :=
  ⟨.ll1, lookahead⟩

def llStar : Classification :=
  ⟨.llStar, []⟩

end Classification

/-- The classes of the decisions that have one; the first entry of a number counts. -/
abbrev DecisionTable := List (Nat × Classification)

end RecognizerModel
