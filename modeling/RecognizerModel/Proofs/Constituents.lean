import Mathlib.Data.List.Count
import RecognizerModel.Syntax.Element

/-! The nodes of a rule that stand for something to match or to run, and where the walk looks for
them. It looks for certain nodes in certain places, passes over what else stands there, and comes to
no node twice. -/
namespace RecognizerModel

namespace NodeKind

/-- Whether a node of this kind stands for something to match or to run. -/
def isConstituent : NodeKind → Bool
  | ruleRef | tokenRef | stringLiteral | action | forcedAction | predicate => true
  | _ => false

/-- Whether a node of this kind is an element of a rewrite. -/
def isRewriteElement : NodeKind → Bool
  | ruleRef | tokenRef | stringLiteral | rewriteTree | rewriteOptional | rewriteClosure => true
  | _ => false

end NodeKind

/-- What the walk looks for in a row. -/
inductive Slot where
  /-- The first block. -/
  | body
  | alternatives
  | elements
  /-- The first element. -/
  | operand
  /-- The first rewrite. -/
  | rewrite
  | rewriteElements
deriving DecidableEq, Repr, Inhabited

namespace Slot

/-- Whether a node of a kind is looked for. -/
def takes : Slot → NodeKind → Bool
  | body, kind => kind == .block
  | alternatives, kind => kind == .alt
  | elements, kind | operand, kind => kind.isElement
  | rewrite, kind => kind == .rewrite
  | rewriteElements, kind => kind.isRewriteElement

/-- Whether only the first is taken. -/
def isSingle : Slot → Bool
  | body | operand | rewrite => true
  | alternatives | elements | rewriteElements => false

end Slot

/-- What the walk looks for inside a node that it has come to, in this order. -/
def NodeKind.slots : NodeKind → List Slot
  | rule | optional | closure | positiveClosure => [.body]
  | block => [.alternatives]
  | alt => [.elements, .rewrite]
  | root | bang | assign | plusAssign => [.operand]
  | rewrite | rewriteTree | rewriteOptional | rewriteClosure => [.rewriteElements]
  | _ => []

/-- The nodes that the walk comes to when it looks for something in a row, in its order. -/
def Forest.reached : Slot → Forest → List Node
  | _, .nil => []
  | slot, .token _ rest => rest.reached slot
  | slot, .node kind span inner rest =>
    if slot.takes kind then
      ⟨kind, span, inner⟩ :: (kind.slots.flatMap fun below => inner.reached below) ++
        if slot.isSingle then [] else rest.reached slot
    else rest.reached slot

/-- What a node says of what it stands for: a name, a text or code, and arguments. -/
structure Constituent where
  kind : NodeKind
  text : Option String
  args : Option String
deriving DecidableEq, Repr, Inhabited

namespace Node

def constituent (n : Node) : Constituent :=
  match n.kind with
  | .ruleRef | .tokenRef => ⟨n.kind, n.inner.firstText? .word, n.inner.argText?⟩
  | .stringLiteral => ⟨n.kind, n.inner.firstText? .str, none⟩
  | _ => ⟨n.kind, n.inner.code?, none⟩

/-- The nodes inside a node that stand for something. -/
def constituents (n : Node) : List Node :=
  n.inner.descendants.filter (·.kind.isConstituent)

/-- Those of them that the walk comes to. -/
def reachedConstituents (n : Node) : List Node :=
  (n.kind.slots.flatMap fun below => n.inner.reached below).filter (·.kind.isConstituent)

/-- Those of them that it does not come to. -/
def lostConstituents (n : Node) : List Node :=
  n.constituents.diff n.reachedConstituents

end Node

def Reference.constituent : Reference → Constituent
  | rule r => ⟨.ruleRef, r.name, r.args⟩
  | token t => ⟨.tokenRef, t.name, t.arg⟩
  | literal l => ⟨.stringLiteral, l.text, none⟩

mutual

def RewriteElement.constituents : RewriteElement → List Constituent
  | .reference r => [r.constituent]
  | .tree _ elements | .optional _ _ elements | .closure _ _ elements =>
    RewriteElement.constituentsIn elements

def RewriteElement.constituentsIn : List RewriteElement → List Constituent
  | [] => []
  | element :: rest => element.constituents ++ RewriteElement.constituentsIn rest

end

mutual

/-- What the nodes of an element stand for, those of a rewrite after those of its alternative. -/
def Element.constituents : Element → List Constituent
  | .reference r => [r.constituent]
  | .action c => [⟨.action, c.code, none⟩]
  | .forcedAction c => [⟨.forcedAction, c.code, none⟩]
  | .predicate c => [⟨.predicate, c.code, none⟩]
  | .block b | .ebnf _ _ _ (some b) => b.constituents
  | .root _ (some operand) | .bang _ (some operand) | .labeled _ (some operand) =>
    operand.constituents
  | _ => []

def Element.constituentsIn : List Element → List Constituent
  | [] => []
  | element :: rest => element.constituents ++ Element.constituentsIn rest

def Block.constituents : Block → List Constituent
  | ⟨_, _, alts⟩ => Alt.constituentsIn alts

def Alt.constituentsIn : List Alt → List Constituent
  | [] => []
  | alt :: rest => alt.constituents ++ Alt.constituentsIn rest

def Alt.constituents : Alt → List Constituent
  | ⟨_, elements, none, _, _⟩ => Element.constituentsIn elements
  | ⟨_, elements, some rewrite, _, _⟩ =>
    Element.constituentsIn elements ++ RewriteElement.constituentsIn rewrite.elements

end

namespace Forest

/-- What the nodes stand for that the walk comes to in a row. -/
def contents (slot : Slot) (f : Forest) : List Constituent :=
  ((f.reached slot).filter (·.kind.isConstituent)).map Node.constituent

theorem contents_taken {slot : Slot} {kind : NodeKind} {span : Span} {inner rest : Forest}
    (taken : slot.takes kind = true) : (node kind span inner rest).contents slot =
      (if kind.isConstituent then [Node.constituent ⟨kind, span, inner⟩] else []) ++
        ((kind.slots.flatMap fun below => inner.contents below) ++
          if slot.isSingle then [] else rest.contents slot) := by
  unfold contents
  rw [reached, if_pos taken, List.cons_append, List.filter_cons, List.filter_append]
  split <;> split <;> simp [List.filter_flatMap, List.map_flatMap]

theorem contents_passed {slot : Slot} {kind : NodeKind} {span : Span} {inner rest : Forest}
    (passed : slot.takes kind = false) :
    (node kind span inner rest).contents slot = rest.contents slot := by
  unfold contents
  rw [reached, if_neg (by simp [passed])]

end Forest

theorem RewriteElement.constituentsIn_ofForest :
    ∀ f : Forest, constituentsIn (ofForest f) = f.contents .rewriteElements
  | .nil => rfl
  | .token _ rest => constituentsIn_ofForest rest
  | .node kind span inner rest => by
      have others := constituentsIn_ofForest rest
      have inside := constituentsIn_ofForest inner
      cases kind with
      | rewriteTree | rewriteOptional | rewriteClosure =>
          rw [Forest.contents_taken rfl, ← others]
          simp [ofForest, constituentsIn, constituents, inside, NodeKind.slots, Slot.isSingle,
            NodeKind.isConstituent]
      | ruleRef | tokenRef | stringLiteral =>
          rw [Forest.contents_taken rfl, ← others]
          rfl
      | _ => exact others.trans (Forest.contents_passed rfl).symm

/-- Of a row with rewrites the first counts. -/
theorem Rewrite.constituents_firstNode? (f : Forest) :
    (((f.firstNode? .rewrite).map Rewrite.ofNode).map fun rewrite =>
      RewriteElement.constituentsIn rewrite.elements).getD [] = f.contents .rewrite := by
  induction f with
  | nil => rfl
  | token t rest ih => exact ih
  | node kind span inner rest _ ih =>
      cases kind with
      | rewrite =>
          rw [Forest.contents_taken rfl]
          simp [Forest.firstNode?, Forest.nodes, Rewrite.ofNode, NodeKind.slots, Slot.isSingle,
            NodeKind.isConstituent, RewriteElement.constituentsIn_ofForest]
      | _ => exact ih.trans (Forest.contents_passed rfl).symm

namespace Element

theorem constituents_root (span : Span) (operand : Option Element) :
    (root span operand).constituents = (operand.map constituents).getD [] := by
  cases operand <;> rfl

theorem constituents_bang (span : Span) (operand : Option Element) :
    (bang span operand).constituents = (operand.map constituents).getD [] := by
  cases operand <;> rfl

theorem constituents_labeled (label : Label) (operand : Option Element) :
    (labeled label operand).constituents = (operand.map constituents).getD [] := by
  cases operand <;> rfl

theorem constituents_ebnf (kind : EbnfKind) (span : Span) (decision : Option Nat)
    (body : Option Block) :
    (ebnf kind span decision body).constituents = (body.map Block.constituents).getD [] := by
  cases body <;> rfl

end Element

theorem Alt.constituents_eq (span : Span) (elements : List Element) (rewrite : Option Rewrite)
    (strangers : List Place) (refs : List String) :
    constituents ⟨span, elements, rewrite, strangers, refs⟩ = Element.constituentsIn elements ++
      (rewrite.map fun rewrite => RewriteElement.constituentsIn rewrite.elements).getD [] := by
  cases rewrite with
  | none => exact (List.append_nil _).symm
  | some rewrite => rfl

/-- Whether what is made of a row says what the walk comes to in it. -/
structure Forest.Agrees (f : Forest) : Prop where
  elements : ∀ marked, Element.constituentsIn (Element.ofForest marked f) = f.contents .elements
  operand : ∀ marked,
    ((Element.ofForest marked f).head?.map Element.constituents).getD [] = f.contents .operand
  body : ((Block.ofForest f).head?.map Block.constituents).getD [] = f.contents .body
  alternatives : Alt.constituentsIn (Alt.ofForest f) = f.contents .alternatives

section

variable {kind : NodeKind} {span : Span} {inner rest : Forest}

theorem Element.ofForest_passed (h : kind.isElement = false) (marked : Bool) :
    ofForest marked (.node kind span inner rest) = ofForest marked rest := by
  cases kind <;> first | rfl | cases h

/-- A node that is an element says what it stands for and what the walk comes to inside. -/
theorem Element.exists_ofForest (inside : inner.Agrees) (h : kind.isElement = true)
    (marked : Bool) : ∃ e,
      ofForest marked (.node kind span inner rest) = e :: ofForest marked rest ∧ e.constituents =
        (if kind.isConstituent then [Node.constituent ⟨kind, span, inner⟩] else []) ++
          kind.slots.flatMap fun below => inner.contents below := by
  cases kind with
  | ruleRef | tokenRef | stringLiteral | action | forcedAction | predicate | epsilon =>
      exact ⟨_, rfl, rfl⟩
  | block =>
      refine ⟨_, rfl, ?_⟩
      simp [constituents, Block.constituents, inside.alternatives, NodeKind.slots,
        NodeKind.isConstituent]
  | optional | closure | positiveClosure =>
      refine ⟨_, rfl, ?_⟩
      simp [constituents_ebnf, inside.body, NodeKind.slots, NodeKind.isConstituent]
  | root =>
      refine ⟨_, rfl, ?_⟩
      simp [constituents_root, inside.operand, NodeKind.slots, NodeKind.isConstituent]
  | bang =>
      refine ⟨_, rfl, ?_⟩
      simp [constituents_bang, inside.operand, NodeKind.slots, NodeKind.isConstituent]
  | assign | plusAssign =>
      refine ⟨_, rfl, ?_⟩
      simp [constituents_labeled, inside.operand, NodeKind.slots, NodeKind.isConstituent]
  | _ => cases h

theorem Forest.Agrees.node (inside : inner.Agrees) (others : rest.Agrees) :
    (Forest.node kind span inner rest).Agrees where
  elements marked := by
    cases h : Slot.elements.takes kind with
    | false =>
        rw [Element.ofForest_passed h, contents_passed h]
        exact others.elements marked
    | true =>
        obtain ⟨e, he, same⟩ := Element.exists_ofForest inside h marked
        rw [he, contents_taken h, Element.constituentsIn, same, others.elements, List.append_assoc]
        rfl
  operand marked := by
    cases h : Slot.operand.takes kind with
    | false =>
        rw [Element.ofForest_passed h, contents_passed h]
        exact others.operand marked
    | true =>
        obtain ⟨e, he, same⟩ := Element.exists_ofForest inside h marked
        rw [he, contents_taken h, ← List.append_assoc, ← same]
        exact (List.append_nil _).symm
  body := by
    cases kind with
    | block =>
        rw [contents_taken rfl]
        simp [Block.ofForest, Block.constituents, inside.alternatives, NodeKind.slots,
          Slot.isSingle, NodeKind.isConstituent]
    | _ => exact others.body.trans (contents_passed rfl).symm
  alternatives := by
    cases kind with
    | alt =>
        rw [contents_taken rfl, ← others.alternatives]
        simp [Alt.ofForest, Alt.constituentsIn, Alt.constituents_eq, inside.elements,
          ← Rewrite.constituents_firstNode? inner, NodeKind.slots, Slot.isSingle,
          NodeKind.isConstituent]
    | _ => exact others.alternatives.trans (contents_passed rfl).symm

end

theorem Forest.agrees (f : Forest) : f.Agrees := by
  induction f with
  | nil => exact ⟨fun _ => rfl, fun _ => rfl, rfl, rfl⟩
  | token t rest ih => exact ⟨ih.elements, ih.operand, ih.body, ih.alternatives⟩
  | node kind span inner rest inside others => exact inside.node others

/-- What is made of a rule says what the walk comes to inside the rule. -/
theorem Rule.constituents_block {n : Node} (rule : n.kind = .rule) :
    ((ofNode n).block.map Block.constituents).getD [] =
      n.reachedConstituents.map Node.constituent := by
  rw [ofNode, n.inner.agrees.body, Node.reachedConstituents, rule]
  simp [NodeKind.slots, Forest.contents]

namespace Forest

/-- The elements of an alternative and its rewrite are different nodes. -/
theorem count_reached_le (f : Forest) (n : Node) :
    (∀ slot, (f.reached slot).count n ≤ f.descendants.count n) ∧
      (f.reached .elements).count n + (f.reached .rewrite).count n ≤ f.descendants.count n := by
  induction f with
  | nil => exact ⟨fun _ => Nat.zero_le _, Nat.zero_le _⟩
  | token t rest ih => exact ih
  | node kind span inner rest inside others =>
      have below : (kind.slots.flatMap fun below => inner.reached below).count n ≤
          inner.descendants.count n := by
        cases kind with
        | alt => simpa [NodeKind.slots] using inside.2
        | rule | optional | closure | positiveClosure | block | root | bang | assign | plusAssign
        | rewrite | rewriteTree | rewriteOptional | rewriteClosure =>
            simpa [NodeKind.slots] using inside.1 _
        | _ => exact Nat.zero_le _
      have each (slot : Slot) : ((node kind span inner rest).reached slot).count n ≤
          (if slot.takes kind then
            List.count n [⟨kind, span, inner⟩] + inner.descendants.count n else 0) +
              (rest.reached slot).count n := by
        have further : (if slot.isSingle then [] else rest.reached slot).count n ≤
            (rest.reached slot).count n := by
          split
          · exact Nat.zero_le _
          · exact Nat.le_refl _
        rw [reached]
        split
        · simp only [List.count_append, List.count_cons, List.count_nil]
          omega
        · omega
      have apart : Slot.elements.takes kind = true → Slot.rewrite.takes kind = false := by
        cases kind <;> simp [Slot.takes, NodeKind.isElement]
      have all : (node kind span inner rest).descendants.count n =
          List.count n [⟨kind, span, inner⟩] + inner.descendants.count n +
            rest.descendants.count n := by
        simp only [descendants, List.count_append, List.count_cons, List.count_nil]
        omega
      refine ⟨fun slot => ?_, ?_⟩
      · -- what one search takes of a row is this node with what is inside it, or is in the rest
        have here := each slot
        have there := others.1 slot
        split at here <;> omega
      · -- two searches go through the row of an alternative, and no node is taken by both
        have elements := each .elements
        have rewrites := each .rewrite
        have there := others.2
        by_cases element : Slot.elements.takes kind = true
        · rw [if_pos element] at elements
          rw [if_neg (by simp [apart element])] at rewrites
          omega
        · rw [if_neg element] at elements
          split at rewrites <;> omega

end Forest

namespace Node

/-- The walk comes to no node twice and to none that is not there. -/
theorem reachedConstituents_subperm {n : Node} (rule : n.kind = .rule) :
    n.reachedConstituents.Subperm n.constituents := by
  unfold reachedConstituents constituents
  refine List.Subperm.filter _ (List.subperm_ext_iff.mpr fun m _ => ?_)
  rw [rule]
  simpa [NodeKind.slots] using (n.inner.count_reached_le m).1 .body

theorem reachedConstituents_append_lost {n : Node} (rule : n.kind = .rule) :
    (n.reachedConstituents ++ n.lostConstituents).Perm n.constituents :=
  List.subperm_append_diff_self_of_count_le
    (List.subperm_ext_iff.mp (reachedConstituents_subperm rule))

end Node

end RecognizerModel
