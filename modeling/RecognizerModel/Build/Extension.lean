import RecognizerModel.Build.Error
import RecognizerModel.Text.Quoted

/-!
Extensions and their order. An extension sees each node after it has been built and answers the node
to keep. Extensions form a chain: each gets what the one before it answered.
-/
namespace RecognizerModel

structure Extension where
  name : String
  /-- What becomes of a node seen at a point. -/
  hook : (p : Point) → p.Node → p.Node := fun _ node => node
  /-- Whether an unlabeled reference needs a label. Its span says which it is, for no other node of
  a grammar has the same. -/
  wantsLabel : Span → Op → Bool := fun _ _ => false

/-- What a node has to be after an extension has seen it: `none` if it is that, otherwise what was
expected and what was found. -/
abbrev Contract (N : Type) := (before after : N) → Option (String × String)

namespace Contract

def free : Contract N :=
  fun _ _ => none

/-- The node keeps its role. -/
def keepsRole {s : Subject} : Contract s.Node := fun before after =>
  if s.role after = s.role before then none
  else some ((s.role before).describe, (s.role after).describe)

/-- Operations by their kinds, as an error shows them. -/
def describeOps (ops : List Op) : String :=
  if ops.isEmpty then "empty operation list"
  else "operation list [" ++ ", ".intercalate (ops.map (·.kind.name)) ++ "]"

/-- An operation of the kind is in the list. -/
def keepsAnchor (kind : OpKind) : Contract (List Op) := fun _ after =>
  if after.any (·.kind == kind) then none
  else some (s!"operation list containing {kind.name}", describeOps after)

/-- What extensions owe to nodes of each sort: operations keep one of the anchor's kind, if there is
an anchor, and all other nodes keep their role. -/
def ofSubject (anchor : Option OpKind) : (s : Subject) → Contract s.Node
  | .ops =>
    match anchor with
    | some kind => keepsAnchor kind
    | none => free
  | _ => keepsRole

end Contract

/-- What came of a node on its way along a chain. -/
structure Passage (N : Type) where
  /-- How many extensions saw it. -/
  seen : Nat
  outcome : Except BuildError N

/-- Extensions in the order of their registration. -/
structure Chain where
  extensions : List Extension
  validate : Bool := true

namespace Chain

/-- The chain on one line. -/
def describe (c : Chain) : String :=
  "ExtensionChain \x7b extensions: [" ++
    ", ".intercalate (c.extensions.map fun e => Text.quoted e.name) ++ "], validate: " ++
    (if c.validate then "true" else "false") ++ " \x7d"

/-- Hands a node along extensions, up to the first that breaks the contract. -/
def pass (p : Point) (contract : Contract N) (hook : Extension → N → N) :
    List Extension → N → Passage N
  | [], node => ⟨0, .ok node⟩
  | e :: rest, node =>
    let next := hook e node
    match contract node next with
    | some (expected, found) => ⟨1, .error (.contractViolation e.name p expected found)⟩
    | none =>
      let passage := pass p contract hook rest next
      { passage with seen := passage.seen + 1 }

/-- Hands a node along the chain. Validation checks the contract after each extension. -/
def fold (c : Chain) (p : Point) (anchor : Option OpKind) (node : p.Node) : Passage p.Node :=
  pass p (if c.validate then .ofSubject anchor p.subject else .free) (·.hook p) c.extensions node

/-- Whether some extension wants a label. All are asked. -/
def wantsLabel (c : Chain) (span : Span) (op : Op) : Bool :=
  c.extensions.any (·.wantsLabel span op)

end Chain

end RecognizerModel
