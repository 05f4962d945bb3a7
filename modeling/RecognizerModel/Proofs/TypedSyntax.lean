import RecognizerModel.Syntax.Element

/-! What is found in the nodes of a row and what is made of them. A property that goes down the
typed syntax holds of all that is made of a row. -/
namespace RecognizerModel

namespace Forest

theorem descendants_of_mem_nodes {f : Forest} {n : Node} (hn : n ∈ f.nodes) :
    n.descendants ⊆ f.descendants := by
  induction f with
  | nil => cases hn
  | token t rest ih => exact ih hn
  | node kind span inner rest _ ih =>
      rcases List.mem_cons.mp hn with rfl | hn
      · intro d hd
        simp only [Node.descendants, ofNode, descendants, List.append_nil] at hd
        rcases List.mem_cons.mp hd with rfl | hd
        · exact List.mem_cons_self ..
        · exact List.mem_cons_of_mem _ (List.mem_append_left _ hd)
      · exact fun d hd => List.mem_cons_of_mem _ (List.mem_append_right _ (ih hn hd))

end Forest

theorem Node.mem_descendants_self (n : Node) : n ∈ n.descendants :=
  List.mem_cons_self ..

theorem Node.descendants_inner (n : Node) : n.inner.descendants ⊆ n.descendants :=
  fun _ hd => List.mem_cons_of_mem _ (List.mem_append_left _ hd)

/-- What is inside a node that stands in the row of another is inside of that one. -/
theorem Node.descendants_of_mem_inner {n m : Node} (hm : m ∈ n.inner.nodes) :
    m.descendants ⊆ n.descendants :=
  fun _ hd => n.descendants_inner (Forest.descendants_of_mem_nodes hm hd)

/-- Properties of elements, blocks and alternatives, each with the node that it was made of, that
hold if they hold of what is made of the nodes one level below. -/
structure Hereditary (E : Node → Element → Prop) (B : Node → Block → Prop)
    (A : Node → Alt → Prop) : Prop where
  reference {n : Node} {marked : Bool} {r : Reference} :
    n.reference? marked = some r → E n (.reference r)
  action {n : Node} : n.kind = .action → E n (.action ⟨n.span, n.inner.code?⟩)
  forcedAction {n : Node} : n.kind = .forcedAction → E n (.forcedAction ⟨n.span, n.inner.code?⟩)
  predicate {n : Node} : n.kind = .predicate → E n (.predicate ⟨n.span, n.inner.code?⟩)
  epsilon {n : Node} : E n (.epsilon n.span)
  block {n : Node} {b : Block} : B n b → E n (.block b)
  ebnf {n : Node} {kind : EbnfKind} {body : Option Block} : n.ebnfKind? = some kind →
    (∀ b, body = some b → ∃ m ∈ n.inner.nodes, B m b) →
      E n (.ebnf kind n.span n.inner.decision? body)
  root {n : Node} {operand : Option Element} :
    (∀ e, operand = some e → ∃ m ∈ n.inner.nodes, E m e) → E n (.root n.span operand)
  bang {n : Node} {operand : Option Element} :
    (∀ e, operand = some e → ∃ m ∈ n.inner.nodes, E m e) → E n (.bang n.span operand)
  labeled {n : Node} {label : Label} {operand : Option Element} : n.label? = some label →
    (∀ e, operand = some e → ∃ m ∈ n.inner.nodes, E m e) → E n (.labeled label operand)
  alts {n : Node} {alts : List Alt} :
    (∀ a ∈ alts, ∃ m ∈ n.inner.nodes, A m a) → B n ⟨n.span, n.inner.decision?, alts⟩
  elements {n : Node} {elements : List Element} {rewrite : Option Rewrite}
      {strangers : List Place} :
    n.kind = .alt → (∀ e ∈ elements, ∃ m ∈ n.inner.nodes, E m e) →
      (∀ r, rewrite = some r → ∃ m ∈ n.inner.nodes, r = .ofNode m) →
      (∀ s ∈ strangers, ∃ m ∈ n.inner.nodes, s = m.place) →
      A n ⟨n.span, elements, rewrite, strangers, n.attributeRefs⟩

namespace Hereditary

variable {E : Node → Element → Prop} {B : Node → Block → Prop} {A : Node → Alt → Prop}

mutual

theorem element (h : Hereditary E B A) (marked : Bool) :
    ∀ f : Forest, ∀ e ∈ Element.ofForest marked f, ∃ n ∈ f.nodes, E n e
  | .token _ rest, e, he => h.element marked rest e he
  | .node kind span inner rest, e, he => by
      have others (he : e ∈ Element.ofForest marked rest) :
          ∃ n ∈ (Forest.node kind span inner rest).nodes, E n e := by
        obtain ⟨n, hn, made⟩ := h.element marked rest e he
        exact ⟨n, List.mem_cons_of_mem _ hn, made⟩
      have operand (mark : Bool) (e : Element)
          (he : (Element.ofForest mark inner).head? = some e) : ∃ n ∈ inner.nodes, E n e :=
        h.element mark inner e (List.mem_of_head? he)
      have split {first : Element} (he : e ∈ first :: Element.ofForest marked rest)
          (made : E ⟨kind, span, inner⟩ first) :
          ∃ n ∈ (Forest.node kind span inner rest).nodes, E n e := by
        rcases List.mem_cons.mp he with rfl | he
        · exact ⟨_, List.mem_cons_self .., made⟩
        · exact others he
      cases kind with
      | ruleRef | tokenRef | stringLiteral =>
          exact split he (h.reference (show Node.reference? marked _ = some _ from rfl))
      | action => exact split he (h.action rfl)
      | forcedAction => exact split he (h.forcedAction rfl)
      | predicate => exact split he (h.predicate rfl)
      | epsilon => exact split he h.epsilon
      | block => exact split he (h.block (h.alts (h.alt inner)))
      | optional | closure | positiveClosure =>
          exact split he (h.ebnf rfl fun b hb => h.body inner b (List.mem_of_head? hb))
      | root => exact split he (h.root (operand true))
      | bang => exact split he (h.bang (operand true))
      | assign | plusAssign => exact split he (h.labeled rfl (operand marked))
      | _ => exact others he

theorem body (h : Hereditary E B A) :
    ∀ f : Forest, ∀ b ∈ Block.ofForest f, ∃ n ∈ f.nodes, B n b
  | .token _ rest, b, hb => h.body rest b hb
  | .node kind span inner rest, b, hb => by
      have others (hb : b ∈ Block.ofForest rest) :
          ∃ n ∈ (Forest.node kind span inner rest).nodes, B n b := by
        obtain ⟨n, hn, made⟩ := h.body rest b hb
        exact ⟨n, List.mem_cons_of_mem _ hn, made⟩
      cases kind with
      | block =>
          rcases List.mem_cons.mp hb with rfl | hb
          · exact ⟨_, List.mem_cons_self .., h.alts (h.alt inner)⟩
          · exact others hb
      | _ => exact others hb

theorem alt (h : Hereditary E B A) :
    ∀ f : Forest, ∀ a ∈ Alt.ofForest f, ∃ n ∈ f.nodes, A n a
  | .token _ rest, a, ha => h.alt rest a ha
  | .node kind span inner rest, a, ha => by
      have others (ha : a ∈ Alt.ofForest rest) :
          ∃ n ∈ (Forest.node kind span inner rest).nodes, A n a := by
        obtain ⟨n, hn, made⟩ := h.alt rest a ha
        exact ⟨n, List.mem_cons_of_mem _ hn, made⟩
      cases kind with
      | alt =>
          rcases List.mem_cons.mp ha with rfl | ha
          · refine ⟨_, List.mem_cons_self .., h.elements rfl (h.element false inner) ?_ ?_⟩
            · intro r hr
              obtain ⟨n, hn, rfl⟩ := Option.map_eq_some_iff.mp hr
              exact ⟨n, List.mem_of_find?_eq_some hn, rfl⟩
            · intro s hs
              obtain ⟨n, hn, rfl⟩ := List.mem_map.mp hs
              exact ⟨n, (List.mem_filter.mp hn).1, rfl⟩
          · exact others ha
      | _ => exact others ha

end

end Hereditary

mutual

/-- Whether all references at or below a rewrite element have a property. -/
def RewriteElement.AllRefs (P : Reference → Prop) : RewriteElement → Prop
  | .reference r => P r
  | .tree _ elements | .optional _ _ elements | .closure _ _ elements =>
    RewriteElement.AllRefsIn P elements

def RewriteElement.AllRefsIn (P : Reference → Prop) : List RewriteElement → Prop
  | [] => True
  | element :: rest => element.AllRefs P ∧ RewriteElement.AllRefsIn P rest

end

def Rewrite.AllRefs (P : Reference → Prop) (rewrite : Rewrite) : Prop :=
  RewriteElement.AllRefsIn P rewrite.elements

mutual

/-- Whether all references at or below an element have a property, those in rewrites too. -/
def Element.AllRefs (P : Reference → Prop) : Element → Prop
  | .reference r => P r
  | .block b => b.AllRefs P
  | .ebnf _ _ _ (some b) => b.AllRefs P
  | .root _ (some operand) | .bang _ (some operand) | .labeled _ (some operand) =>
    operand.AllRefs P
  | _ => True

def Element.AllRefsIn (P : Reference → Prop) : List Element → Prop
  | [] => True
  | element :: rest => element.AllRefs P ∧ Element.AllRefsIn P rest

def Block.AllRefs (P : Reference → Prop) : Block → Prop
  | ⟨_, _, alts⟩ => Alt.AllRefsIn P alts

def Alt.AllRefsIn (P : Reference → Prop) : List Alt → Prop
  | [] => True
  | alt :: rest => alt.AllRefs P ∧ Alt.AllRefsIn P rest

def Alt.AllRefs (P : Reference → Prop) : Alt → Prop
  | ⟨_, elements, rewrite, _, _⟩ =>
    Element.AllRefsIn P elements ∧ ∀ r, rewrite = some r → r.AllRefs P

end

/-- Whether all references that can be made of nodes have a property. -/
def RefsOf (P : Reference → Prop) (nodes : List Node) : Prop :=
  ∀ n ∈ nodes, ∀ marked r, n.reference? marked = some r → P r

theorem RewriteElement.allRefs_ofForest {P : Reference → Prop} :
    ∀ f : Forest, RefsOf P f.descendants → AllRefsIn P (ofForest f)
  | .nil, _ => trivial
  | .token _ rest, h => allRefs_ofForest rest h
  | .node kind span inner rest, h => by
      obtain ⟨here, below⟩ := List.forall_mem_cons.mp h
      obtain ⟨hinner, hrest⟩ := List.forall_mem_append.mp below
      have inside := allRefs_ofForest inner hinner
      have others := allRefs_ofForest rest hrest
      cases kind with
      | rewriteTree | rewriteOptional | rewriteClosure => exact ⟨inside, others⟩
      | ruleRef | tokenRef | stringLiteral => exact ⟨here false _ rfl, others⟩
      | _ => exact others

theorem Element.allRefsIn_iff {P : Reference → Prop} {elements : List Element} :
    AllRefsIn P elements ↔ ∀ e ∈ elements, e.AllRefs P := by
  induction elements with
  | nil => exact iff_of_true trivial nofun
  | cons e rest ih => rw [AllRefsIn, ih, List.forall_mem_cons]

theorem Alt.allRefsIn_iff {P : Reference → Prop} {alts : List Alt} :
    AllRefsIn P alts ↔ ∀ a ∈ alts, a.AllRefs P := by
  induction alts with
  | nil => exact iff_of_true trivial nofun
  | cons a rest ih => rw [AllRefsIn, ih, List.forall_mem_cons]

theorem RefsOf.of_mem_inner {P : Reference → Prop} {n m : Node} (h : RefsOf P n.descendants)
    (hm : m ∈ n.inner.nodes) : RefsOf P m.descendants :=
  fun d hd => h d (n.descendants_of_mem_inner hm hd)

theorem RefsOf.of_made {P : Reference → Prop} {n : Node} {p : Prop} (h : RefsOf P n.descendants)
    (made : ∃ m ∈ n.inner.nodes, RefsOf P m.descendants → p) : p := by
  obtain ⟨m, hm, made⟩ := made
  exact made (h.of_mem_inner hm)

/-- What holds of the references among the nodes holds of the references in what is made of them. -/
theorem hereditary_allRefs (P : Reference → Prop) : Hereditary
    (fun n e => RefsOf P n.descendants → e.AllRefs P)
    (fun n b => RefsOf P n.descendants → b.AllRefs P)
    (fun n a => RefsOf P n.descendants → a.AllRefs P) where
  reference hr h := h _ (Node.mem_descendants_self _) _ _ hr
  action _ _ := trivial
  forcedAction _ _ := trivial
  predicate _ _ := trivial
  epsilon _ := trivial
  block b h := b h
  ebnf {_ _ body} _ made h := by
    cases body with
    | none => trivial
    | some b => exact h.of_made (made b rfl)
  root {_ operand} made h := by
    cases operand with
    | none => trivial
    | some e => simpa only [Element.AllRefs] using h.of_made (made e rfl)
  bang {_ operand} made h := by
    cases operand with
    | none => trivial
    | some e => simpa only [Element.AllRefs] using h.of_made (made e rfl)
  labeled {_ _ operand} _ made h := by
    cases operand with
    | none => trivial
    | some e => simpa only [Element.AllRefs] using h.of_made (made e rfl)
  alts made h := Alt.allRefsIn_iff.mpr fun a ha => h.of_made (made a ha)
  elements _ elements rewrite _ h := by
    refine ⟨Element.allRefsIn_iff.mpr fun e he => h.of_made (elements e he), fun r hr => ?_⟩
    obtain ⟨m, hm, rfl⟩ := rewrite r hr
    exact RewriteElement.allRefs_ofForest m.inner fun d hd =>
      h d (Node.descendants_of_mem_inner hm (m.descendants_inner hd))

theorem Block.allRefs_ofForest {P : Reference → Prop} {f : Forest} (h : RefsOf P f.descendants)
    {b : Block} (hb : b ∈ Block.ofForest f) : b.AllRefs P := by
  obtain ⟨n, hn, made⟩ := (hereditary_allRefs P).body f b hb
  exact made fun d hd => h d (Forest.descendants_of_mem_nodes hn hd)

end RecognizerModel
