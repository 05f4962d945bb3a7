import RecognizerModel.Build.Branch
import RecognizerModel.Proofs.Constituents
import RecognizerModel.Proofs.TypedSyntax

/-! Where the nodes stand that the walk comes to: inside of which nodes, and what that makes of
them. Some become choices, those of a rewrite become operations at levels of blocks and trees, and
the levels are counted along the nodes around. -/
namespace RecognizerModel

/-- A node that the walk comes to, with the nodes around it, innermost first. -/
structure Position where
  node : Node
  above : List Node
deriving DecidableEq, Repr, Inhabited

/-- The positions that the walk comes to when it looks for something in a row, each behind those
inside of it. -/
def Forest.walked (above : List Node) : Slot → Forest → List Position
  | _, .nil => []
  | slot, .token _ rest => rest.walked above slot
  | slot, .node kind span inner rest =>
    if slot.takes kind then
      (kind.slots.flatMap fun below => inner.walked (⟨kind, span, inner⟩ :: above) below) ++
        ⟨⟨kind, span, inner⟩, above⟩ :: if slot.isSingle then [] else rest.walked above slot
    else rest.walked above slot

/-- A node that the walk comes to stands at or below the row. -/
theorem Forest.mem_descendants_of_mem_walked {f : Forest} {above : List Node} {slot : Slot}
    {p : Position} (h : p ∈ f.walked above slot) : p.node ∈ f.descendants := by
  induction f generalizing above slot with
  | nil => cases h
  | token t rest ih => exact ih h
  | node kind span inner rest ihInner ihRest =>
      have others (h : p ∈ rest.walked above slot) :
          p.node ∈ (node kind span inner rest).descendants :=
        List.mem_cons_of_mem _ (List.mem_append_right _ (ihRest h))
      rw [walked] at h
      split at h
      · rcases List.mem_append.mp h with h | h
        · obtain ⟨below, _, h⟩ := List.mem_flatMap.mp h
          exact List.mem_cons_of_mem _ (List.mem_append_left _ (ihInner h))
        · rcases List.mem_cons.mp h with rfl | h
          · exact List.mem_cons_self ..
          · split at h
            · cases h
            · exact others h
      · exact others h

/-- What is seen at the positions at and below a node that is looked for, and behind it. -/
theorem Forest.filterMap_walked_taken {above : List Node} {slot : Slot} {kind : NodeKind}
    {span : Span} {inner rest : Forest} (see : Position → Option β)
    (taken : slot.takes kind = true) :
    ((node kind span inner rest).walked above slot).filterMap see =
      (kind.slots.flatMap fun below =>
        (inner.walked (⟨kind, span, inner⟩ :: above) below).filterMap see) ++
        ((see ⟨⟨kind, span, inner⟩, above⟩).toList ++
          if slot.isSingle then [] else (rest.walked above slot).filterMap see) := by
  rw [walked, if_pos taken, List.filterMap_append, List.filterMap_flatMap, List.filterMap_cons]
  split <;> split <;> simp [*]

theorem Forest.walked_passed {above : List Node} {slot : Slot} {kind : NodeKind} {span : Span}
    {inner rest : Forest} (passed : slot.takes kind = false) :
    (node kind span inner rest).walked above slot = rest.walked above slot := by
  rw [walked, if_neg (by simp [passed])]

/-- The positions that the walk comes to inside a rule. -/
def Node.walked (n : Node) : List Position :=
  n.inner.walked [n] .body

theorem Node.mem_descendants_of_mem_walked {n : Node} {p : Position} (h : p ∈ n.walked) :
    p.node ∈ n.descendants :=
  n.descendants_inner (Forest.mem_descendants_of_mem_walked h)

def Node.alternatives (n : Node) : List Node :=
  n.inner.nodes.filter (·.kind == .alt)

namespace Position

/-- Whether what stands directly inside the nodes around is the block of an operator. -/
def inOperator (above : List Node) : Bool :=
  above.head?.any (·.kind.isEbnf)

def inRewrite (above : List Node) : Bool :=
  above.any (·.kind == .rewrite)

/-- The nodes around as positions, innermost first. -/
def around : List Node → List Position
  | [] => []
  | n :: above => ⟨n, above⟩ :: around above

/-- The block between whose alternatives something at a position chooses: that of an operator, or
a block by itself. -/
def body? (p : Position) : Option Node :=
  if p.node.kind.isEbnf then p.node.inner.firstNode? .block
  else if p.node.kind = .block ∧ inOperator p.above = false then some p.node else none

/-- How many alternatives there are to choose from. -/
def count (p : Position) : Nat :=
  ((p.body?.map Node.alternatives).getD []).length

/-- How many alternatives make a choice. -/
def least (p : Position) : Nat :=
  if p.node.kind.isEbnf then 1 else 2

def isChoice (p : Position) : Bool :=
  p.least ≤ p.count

/-- The site of a choice. A decision number on the operator counts before one on its block. -/
def site (p : Position) : ChoiceSite :=
  ⟨p.node.place, p.node.inner.decision?.or (p.body?.bind (·.inner.decision?)), p.node.ebnfKind?⟩

/-- Whether blocks inside are one level deeper: inside an operator, a block that chooses by itself,
and a rewrite that is optional or repeated. -/
def opensBlock (p : Position) : Bool :=
  p.node.kind.isEbnf || p.node.kind == .rewriteOptional || p.node.kind == .rewriteClosure ||
    p.node.kind == .block && !inOperator p.above && decide (2 ≤ p.node.alternatives.length)

/-- How many of the nodes around open a block. -/
def openBlocks (above : List Node) : Nat :=
  (around above).countP opensBlock

def openTrees (above : List Node) : Nat :=
  above.countP (·.kind == .rewriteTree)

/-- The level of the innermost block around; outside of any it is 0. -/
def blockLevel (p : Position) : Nat :=
  openBlocks p.above - 1

/-- How many rewrite trees there are around a position, itself included. -/
def treeLevel (p : Position) : Nat :=
  openTrees (p.node :: p.above)

theorem inRewrite_cons (n : Node) {above : List Node} (h : inRewrite above = true) :
    inRewrite (n :: above) = true :=
  List.any_cons.trans (by rw [← inRewrite, h, Bool.or_true])

theorem inRewrite_cons_of_ne (n : Node) {above : List Node} (other : n.kind ≠ .rewrite)
    (h : inRewrite above = false) : inRewrite (n :: above) = false :=
  List.any_cons.trans (by rw [← inRewrite, h, Bool.or_false, beq_eq_false_iff_ne]; exact other)

theorem openBlocks_cons (n : Node) (above : List Node) :
    openBlocks (n :: above) = openBlocks above + if opensBlock ⟨n, above⟩ then 1 else 0 := by
  rw [openBlocks, around, List.countP_cons]
  rfl

theorem openTrees_cons (n : Node) (above : List Node) :
    openTrees (n :: above) = openTrees above + if n.kind == .rewriteTree then 1 else 0 :=
  List.countP_cons

end Position

end RecognizerModel
