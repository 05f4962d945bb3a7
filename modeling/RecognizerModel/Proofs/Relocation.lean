import RecognizerModel.Build.Model

/-! The same syntax at other places. Moving the spans of syntax keeps everything that it says, and
what a job makes of moved syntax is the same but for the spans of its diagnostics. -/
namespace RecognizerModel

section

variable (move : Span → Span)

def Place.moved (p : Place) : Place :=
  { p with span := move p.span }

def Reference.moved : Reference → Reference
  | rule r => .rule { r with span := move r.span }
  | token t => .token { t with span := move t.span }
  | literal l => .literal { l with span := move l.span }

def CodeNode.moved (c : CodeNode) : CodeNode :=
  { c with span := move c.span }

def Label.moved (label : Label) : Label :=
  { label with span := move label.span }

mutual

def RewriteElement.moved : RewriteElement → RewriteElement
  | .reference r => .reference (r.moved move)
  | .tree span elements => .tree (move span) (RewriteElement.movedAll elements)
  | .optional span referenced elements =>
    .optional (move span) referenced (RewriteElement.movedAll elements)
  | .closure span referenced elements =>
    .closure (move span) referenced (RewriteElement.movedAll elements)

def RewriteElement.movedAll : List RewriteElement → List RewriteElement
  | [] => []
  | element :: rest => element.moved :: RewriteElement.movedAll rest

end

def Rewrite.moved (rewrite : Rewrite) : Rewrite :=
  ⟨move rewrite.span, RewriteElement.movedAll move rewrite.elements⟩

mutual

def Element.moved : Element → Element
  | .reference r => .reference (r.moved move)
  | .action c => .action (c.moved move)
  | .forcedAction c => .forcedAction (c.moved move)
  | .predicate c => .predicate (c.moved move)
  | .epsilon span => .epsilon (move span)
  | .block b => .block b.moved
  | .ebnf kind span decision (some b) => .ebnf kind (move span) decision (some b.moved)
  | .ebnf kind span decision none => .ebnf kind (move span) decision none
  | .root span (some operand) => .root (move span) (some operand.moved)
  | .root span none => .root (move span) none
  | .bang span (some operand) => .bang (move span) (some operand.moved)
  | .bang span none => .bang (move span) none
  | .labeled label (some operand) => .labeled (label.moved move) (some operand.moved)
  | .labeled label none => .labeled (label.moved move) none

def Element.movedAll : List Element → List Element
  | [] => []
  | element :: rest => element.moved :: Element.movedAll rest

def Block.moved : Block → Block
  | ⟨span, decision, alts⟩ => ⟨move span, decision, Alt.movedAll alts⟩

def Alt.movedAll : List Alt → List Alt
  | [] => []
  | alt :: rest => alt.moved :: Alt.movedAll rest

def Alt.moved : Alt → Alt
  | ⟨span, elements, rewrite, strangers, refs⟩ =>
    ⟨move span, Element.movedAll elements, rewrite.map (Rewrite.moved move),
      strangers.map (Place.moved move), refs⟩

end

def Rule.moved (rule : Rule) : Rule :=
  { rule with span := move rule.span, block := rule.block.map (Block.moved move) }

def ChoiceSite.moved (site : ChoiceSite) : ChoiceSite :=
  { site with place := site.place.moved move }

def Malformed.moved (construct : Malformed) : Malformed :=
  { construct with place := construct.place.moved move }

def Failure.moved : Failure → Failure
  | fatal error => .fatal error
  | malformed construct => .malformed (construct.moved move)

def Diagnostic.moved (d : Diagnostic) : Diagnostic :=
  { d with
    span := move d.span
    related := d.related.map fun r => { r with span := move r.span } }

def RuleOutcome.moved : RuleOutcome → RuleOutcome
  | built rule => .built rule
  | failed rule d => .failed rule (d.moved move)

def ParserModel.moved (m : ParserModel) : ParserModel :=
  { m with
    diagnostics := m.diagnostics.map (Diagnostic.moved move)
    outcomes := m.outcomes.map (RuleOutcome.moved move) }

end

section

variable (move : Span → Span)

@[simp] theorem Reference.place_moved (r : Reference) :
    (r.moved move).place = r.place.moved move := by
  cases r <;> rfl

@[simp] theorem Label.place_moved (label : Label) :
    (label.moved move).place = label.place.moved move := rfl

@[simp] theorem Block.place_moved (b : Block) : (b.moved move).place = b.place.moved move := by
  cases b
  rfl

@[simp] theorem Block.decision_moved (b : Block) : (b.moved move).decision = b.decision := by
  cases b
  rfl

@[simp] theorem Element.place_moved (element : Element) :
    (element.moved move).place = element.place.moved move := by
  cases element with
  | reference r => exact r.place_moved move
  | block b => exact b.place_moved move
  | ebnf kind span decision body => cases body <;> rfl
  | root span operand | bang span operand => cases operand <;> rfl
  | labeled label operand => cases operand <;> rfl
  | _ => rfl

@[simp] theorem Element.movedAll_eq_nil {elements : List Element} :
    Element.movedAll move elements = [] ↔ elements = [] := by
  cases elements <;> simp [Element.movedAll]

/-- What is an epsilon at another place is one. -/
theorem Element.exists_of_movedAll_eq_epsilon {elements : List Element} {span : Span}
    (h : Element.movedAll move elements = [.epsilon span]) : ∃ s, elements = [.epsilon s] := by
  match elements with
  | [] => cases h
  | _ :: _ :: _ => simp [Element.movedAll] at h
  | [element] =>
      obtain ⟨same, -⟩ := List.cons.inj h
      cases element with
      | epsilon s => exact ⟨s, rfl⟩
      | ebnf kind s decision body => cases body <;> cases same
      | root s operand | bang s operand => cases operand <;> cases same
      | labeled label operand => cases operand <;> cases same
      | _ => cases same

@[simp] theorem Alt.length_movedAll (alts : List Alt) :
    (Alt.movedAll move alts).length = alts.length := by
  induction alts with
  | nil => rfl
  | cons alt rest ih => simp [Alt.movedAll, ih]

@[simp] theorem Element.splitLabel_moved (element : Element) :
    (element.moved move).splitLabel =
      (element.splitLabel.1.moved move, element.splitLabel.2.map (Label.moved move)) := by
  cases element with
  | ebnf kind span decision body => cases body <;> rfl
  | root span operand | bang span operand => cases operand <;> rfl
  | labeled label operand => cases operand <;> rfl
  | _ => rfl

@[simp] theorem Diagnostic.moved_ofMalformed (rule : String) (construct : Malformed) :
    (ofMalformed rule construct).moved move = ofMalformed rule (construct.moved move) := rfl

end

/-! Moving the spans to where they are changes nothing. -/

@[simp] theorem Reference.moved_id (r : Reference) : r.moved id = r := by
  cases r <;> rfl

mutual

theorem RewriteElement.moved_id : ∀ element : RewriteElement, element.moved id = element
  | .reference r => by simp [RewriteElement.moved]
  | .tree _ elements | .optional _ _ elements | .closure _ _ elements => by
      simp [RewriteElement.moved, RewriteElement.movedAll_id elements]

theorem RewriteElement.movedAll_id :
    ∀ elements : List RewriteElement, RewriteElement.movedAll id elements = elements
  | [] => rfl
  | element :: rest => by
      rw [RewriteElement.movedAll, RewriteElement.moved_id element, RewriteElement.movedAll_id rest]

end

@[simp] theorem Rewrite.moved_id : Rewrite.moved id = id := by
  funext rewrite
  simp [Rewrite.moved, RewriteElement.movedAll_id]

@[simp] theorem Place.moved_id : Place.moved id = id := rfl

@[simp] theorem Label.moved_id : Label.moved id = id := rfl

mutual

theorem Element.moved_id : ∀ element : Element, element.moved id = element
  | .reference r => by simp [Element.moved]
  | .action _ | .forcedAction _ | .predicate _ | .epsilon _ | .ebnf _ _ _ none | .root _ none
  | .bang _ none | .labeled _ none => rfl
  | .block b | .ebnf _ _ _ (some b) => by simp [Element.moved, Block.moved_id b]
  | .root _ (some operand) | .bang _ (some operand) | .labeled _ (some operand) => by
      simp [Element.moved, Element.moved_id operand]

theorem Element.movedAll_id : ∀ elements : List Element, Element.movedAll id elements = elements
  | [] => rfl
  | element :: rest => by
      rw [Element.movedAll, Element.moved_id element, Element.movedAll_id rest]

theorem Block.moved_id : ∀ b : Block, b.moved id = b
  | ⟨_, _, alts⟩ => by simp [Block.moved, Alt.movedAll_id alts]

theorem Alt.movedAll_id : ∀ alts : List Alt, Alt.movedAll id alts = alts
  | [] => rfl
  | alt :: rest => by rw [Alt.movedAll, Alt.moved_id alt, Alt.movedAll_id rest]

theorem Alt.moved_id : ∀ alt : Alt, alt.moved id = alt
  | ⟨_, elements, _, _, _⟩ => by simp [Alt.moved, Element.movedAll_id elements]

end

@[simp] theorem Rule.moved_id : Rule.moved id = id := by
  funext ⟨span, name, args, returns, locals, actions, block⟩
  cases block <;> simp [Rule.moved, Block.moved_id]

@[simp] theorem Diagnostic.moved_id : Diagnostic.moved id = id := by
  funext d
  simp [Diagnostic.moved]

@[simp] theorem RuleOutcome.moved_id : RuleOutcome.moved id = id := by
  funext outcome
  cases outcome <;> simp [RuleOutcome.moved]

@[simp] theorem ParserModel.moved_id : ParserModel.moved id = id := by
  funext m
  simp [ParserModel.moved]

end RecognizerModel
