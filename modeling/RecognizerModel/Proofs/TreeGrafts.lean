import RecognizerModel.Proofs.ReferenceLabels
import RecognizerModel.Proofs.TreeJobs
import RecognizerModel.Proofs.TreeMarks

/-! What tree building puts into the code of a rule: labels for what is matched, and behind that an
operation on the tree, as the marks say. -/
namespace RecognizerModel

/-- An operation that was matched for a reference, under a label at any rate. -/
def Op.labeledAnyway (setup : Setup) (op : Op) : Op :=
  if op.isUnlabeled then setup.withImplicitLabel op else op

/-- The operation that a mark asks for behind one that is labeled. What is marked as the root is
made the root, and what is unmarked becomes a leaf unless it is a literal. -/
def Op.onTree (mark : TreeMark) (op : Op) : Option Op :=
  match mark, op.kind with
  | .root, _ => op.label?.map .becomeRoot
  | .unmarked, .matchToken | .unmarked, .invokeRule => op.label?.map .addLeaf
  | _, _ => none

mutual

/-- Puts the operations on the tree into an operation. The first marks are those of what it matches,
in order; the others are left over. -/
def Op.graft (setup : Setup) (marks : List TreeMark) : Op → List Op × List TreeMark
  | .choice c =>
    let (c, marks) := c.graft setup marks
    ([.choice c], marks)
  | op =>
    if op.labels?.isSome then
      let op := op.labeledAnyway setup
      (op :: (op.onTree (marks.headD .unmarked)).toList, marks.tail)
    else ([op], marks)

def Op.graftAll (setup : Setup) (marks : List TreeMark) : List Op → List Op × List TreeMark
  | [] => ([], marks)
  | op :: rest =>
    let (first, marks) := op.graft setup marks
    let (others, marks) := Op.graftAll setup marks rest
    (first ++ others, marks)

def Choice.graft (setup : Setup) (marks : List TreeMark) : Choice → Choice × List TreeMark
  | ⟨kind, decision, ebnf, alts, tests, preamble⟩ =>
    let (alts, marks) := Alternative.graftAll setup marks alts
    (⟨kind, decision, ebnf, alts, tests, preamble⟩, marks)

def Alternative.graftAll (setup : Setup) (marks : List TreeMark) :
    List Alternative → List Alternative × List TreeMark
  | [] => ([], marks)
  | ⟨num, ops⟩ :: rest =>
    let (ops, marks) := Op.graftAll setup marks ops
    let (others, marks) := Alternative.graftAll setup marks rest
    (⟨num, ops⟩ :: others, marks)

end

theorem Op.graftAll_append (setup : Setup) (marks : List TreeMark) (ops rest : List Op) :
    Op.graftAll setup marks (ops ++ rest) =
      ((Op.graftAll setup marks ops).1 ++
          (Op.graftAll setup (Op.graftAll setup marks ops).2 rest).1,
        (Op.graftAll setup (Op.graftAll setup marks ops).2 rest).2) := by
  induction ops generalizing marks with
  | nil => rfl
  | cons op ops ih => simp only [List.cons_append, graftAll, ih, List.append_assoc]

/-- Of what is put in for an operation only the operation itself matches something. -/
theorem Op.matchedIn_labeledAnyway (setup : Setup) {op : Op} (h : op.labels?.isSome)
    (mark : TreeMark) :
    Op.matchedIn (op.labeledAnyway setup :: ((op.labeledAnyway setup).onTree mark).toList) =
      [op.labeledAnyway setup] := by
  have matched : (op.labeledAnyway setup).matched = [op.labeledAnyway setup] := by
    cases op <;> first | cases h; done | skip
    all_goals
      unfold labeledAnyway Setup.withImplicitLabel
      split <;> rfl
  have rest : Op.matchedIn ((op.labeledAnyway setup).onTree mark).toList = [] := by
    unfold onTree
    split
    all_goals cases (op.labeledAnyway setup).label? <;> rfl
  rw [matchedIn, matched, rest, List.append_nil]

mutual

theorem Op.matchedIn_graft (setup : Setup) : ∀ (op : Op) (marks : List TreeMark),
    Op.matchedIn (op.graft setup marks).1 = op.matched.map (Op.labeledAnyway setup)
  | .choice ⟨_, _, _, alts, _, _⟩, marks => by
      simp [Op.graft, Choice.graft, Op.matchedIn, Op.matched,
        Alternative.matchedIn_graftAll setup alts]
  | .matchToken .., _ | .invokeRule .., _ | .matchLiteral .., _ =>
      Op.matchedIn_labeledAnyway setup rfl _
  | .action _, _ | .forcedAction _, _ | .predicate _, _ | .epsilon, _ | .testSet _ _, _
  | .addLeaf _, _ | .becomeRoot _, _ | .treeRewrite _, _ | .rewriteOptional _, _
  | .rewriteClosure _, _ | .rewriteTree _, _ | .rewriteToken .., _ | .rewriteRule .., _ => rfl

theorem Op.matchedIn_graftAll (setup : Setup) : ∀ (ops : List Op) (marks : List TreeMark),
    Op.matchedIn (Op.graftAll setup marks ops).1 = (Op.matchedIn ops).map (Op.labeledAnyway setup)
  | [], _ => rfl
  | op :: rest, marks => by
      simp [Op.graftAll, Op.matchedIn, Op.matchedIn_append, Op.matchedIn_graft setup op,
        Op.matchedIn_graftAll setup rest]

theorem Alternative.matchedIn_graftAll (setup : Setup) :
    ∀ (alts : List Alternative) (marks : List TreeMark),
      Alternative.matchedIn (Alternative.graftAll setup marks alts).1 =
        (Alternative.matchedIn alts).map (Op.labeledAnyway setup)
  | [], _ => rfl
  | ⟨num, ops⟩ :: rest, marks => by
      simp [Alternative.graftAll, Alternative.matchedIn, Op.matchedIn_graftAll setup ops,
        Alternative.matchedIn_graftAll setup rest]

end

/-- Whether operations under marks become something that is a result. -/
def Op.GraftedTo (setup : Setup) (marks : List TreeMark) (ops : List Op)
    (Result : List Op → Prop) : Prop :=
  ∃ grafted, Result grafted ∧ ∀ later, Op.graftAll setup (marks ++ later) ops = (grafted, later)

def Alternative.GraftedTo (setup : Setup) (marks : List TreeMark) (alts : List Alternative)
    (Result : List Alternative → Prop) : Prop :=
  ∃ grafted, Result grafted ∧
    ∀ later, Alternative.graftAll setup (marks ++ later) alts = (grafted, later)

namespace Op

variable {setup : Setup} {Result : List Op → Prop}

/-- What matches nothing stays as it is and takes no mark. -/
theorem graftedTo_leaf {op : Op} (leaf : ∀ marks, op.graft setup marks = ([op], marks))
    (result : Result [op]) : GraftedTo setup [] [op] Result :=
  ⟨[op], result, fun later => by simp [graftAll, leaf]⟩

theorem graftedTo_nil (result : Result []) : GraftedTo setup [] [] Result :=
  ⟨[], result, fun _ => rfl⟩

theorem GraftedTo.append {marks marks' : List TreeMark} {ops rest : List Op}
    {First Others : List Op → Prop} (first : GraftedTo setup marks ops First)
    (others : GraftedTo setup marks' rest Others)
    (result : ∀ grafted grafted', First grafted → Others grafted' → Result (grafted ++ grafted')) :
    GraftedTo setup (marks ++ marks') (ops ++ rest) Result := by
  obtain ⟨grafted, hfirst, hops⟩ := first
  obtain ⟨grafted', hothers, hrest⟩ := others
  refine ⟨grafted ++ grafted', result _ _ hfirst hothers, fun later => ?_⟩
  rw [graftAll_append, List.append_assoc, hops, hrest]

theorem GraftedTo.imp {marks : List TreeMark} {ops : List Op} {Result' : List Op → Prop}
    (h : GraftedTo setup marks ops Result) (result : ∀ grafted, Result grafted → Result' grafted) :
    GraftedTo setup marks ops Result' := by
  obtain ⟨grafted, made, hops⟩ := h
  exact ⟨grafted, result _ made, hops⟩

end Op

/-- A choice becomes the choice between what its alternatives become. -/
theorem Alternative.GraftedTo.choice {setup : Setup} {marks : List TreeMark} {c : Choice}
    {Results : List Alternative → Prop} {Result : List Op → Prop}
    (h : GraftedTo setup marks c.alts Results)
    (result : ∀ alts, Results alts → Result [.choice { c with alts }]) :
    Op.GraftedTo setup marks [.choice c] Result := by
  obtain ⟨grafted, made, halts⟩ := h
  obtain ⟨kind, decision, ebnf, alts, tests, preamble⟩ := c
  refine ⟨_, result _ made, fun later => ?_⟩
  simp only [Op.graftAll, Op.graft, Choice.graft, halts, List.append_nil]

theorem Alternative.graftedTo_nil {setup : Setup} {Results : List Alternative → Prop}
    (result : Results []) : GraftedTo setup [] [] Results :=
  ⟨[], result, fun _ => rfl⟩

theorem Op.GraftedTo.alternative {setup : Setup} {marks marks' : List TreeMark} {num : Nat}
    {ops : List Op} {rest : List Alternative} {First : List Op → Prop}
    {Others Results : List Alternative → Prop} (first : GraftedTo setup marks ops First)
    (others : Alternative.GraftedTo setup marks' rest Others)
    (result : ∀ ops rest, First ops → Others rest → Results (⟨num, ops⟩ :: rest)) :
    Alternative.GraftedTo setup (marks ++ marks') (⟨num, ops⟩ :: rest) Results := by
  obtain ⟨grafted, hfirst, hops⟩ := first
  obtain ⟨grafted', hothers, hrest⟩ := others
  refine ⟨⟨num, grafted⟩ :: grafted', result _ _ hfirst hothers, fun later => ?_⟩
  rw [Alternative.graftAll, List.append_assoc, hops]
  simp only [hrest]

namespace Setup

variable {g : Grammar} {target : Target} {validate : Bool}

theorem exists_withImplicitLabel (setup : Setup) {op : Op} (h : op.labels? = some []) :
    ∃ label, setup.withImplicitLabel op = op.addLabel label := by
  obtain ⟨label, hlabel⟩ := setup.exists_implicitLabel h
  exact ⟨label, by rw [withImplicitLabel, hlabel]⟩

/-- A label that tree building wants goes on whatever has no label without it. -/
theorem labeled_treeing {refs : List String} {span : Span} {op labeled : Op} {label : Option Label}
    (unlabeled : op.labels? = some [])
    (h : (plain g target validate).labeled refs span op label = .ok labeled) :
    ∃ name, labeled.labeledAnyway (plain g target validate) = op.addLabel name ∧
      (treeing g target false).labeled refs span op label = .ok (op.addLabel name) := by
  match label with
  | some ⟨_, _, some name⟩ =>
      cases h
      refine ⟨name, ?_, rfl⟩
      have done : (op.addLabel name).isUnlabeled = false := isUnlabeled_addLabel unlabeled name
      rw [Op.labeledAnyway, done]
      rfl
  | some ⟨_, _, none⟩ => cases h
  | none =>
      cases h
      obtain ⟨name, implicit⟩ :=
        exists_withImplicitLabel (plain g target validate) unlabeled
      have wanted : (treeing g target false).labelNeeded refs span op = true := by
        have wants : (treeing g target false).chain.wantsLabel span op = true := by
          cases op <;> first | rfl | cases unlabeled
        rw [labelNeeded, wants, Bool.or_true]
      refine ⟨name, ?_, ?_⟩
      · have done : (op.addLabel name).isUnlabeled = false := isUnlabeled_addLabel unlabeled name
        have bare : op.isUnlabeled = true := by simp [Op.isUnlabeled, unlabeled]
        rw [implicit]
        split
        · rw [Op.labeledAnyway, if_neg (by simp [done])]
        · rw [Op.labeledAnyway, if_pos bare, implicit]
      · rw [labeled, wanted, if_pos rfl]
        exact congrArg Except.ok implicit

theorem exists_referenceCode_treeing {refs : List String} {r : Reference} {label : Option Label}
    {ops : List Op} (h : (plain g target validate).referenceCode refs r label = .ok ops) :
    ∃ op name, ops = [op] ∧ op.labels?.isSome ∧
      (op.labeledAnyway (plain g target validate)).kind = r.opKind ∧
      (op.labeledAnyway (plain g target validate)).label? = some name ∧
      (treeing g target false).referenceCode refs r label = .ok
        ((treeing g target false).decoratedReference r
          [op.labeledAnyway (plain g target validate)]) := by
  obtain ⟨op, hop, h⟩ := bind_eq_ok.mp h
  obtain ⟨labeled, hlabeled, h⟩ := bind_eq_ok.mp h
  rw [decoratedReference_plain] at h
  cases h
  have unlabeled := labels?_of_plainOp _ hop
  have held : labeled.labels?.isSome := by
    obtain rfl | ⟨name, rfl⟩ := eq_or_eq_addLabel_of_labeled hlabeled
    · rw [unlabeled]
      rfl
    · rw [Op.labels?_addLabel unlabeled]
      rfl
  obtain ⟨name, same, labels⟩ := labeled_treeing unlabeled hlabeled
  refine ⟨labeled, name, rfl, held, ?_, ?_, ?_⟩
  · rw [same, Op.kind_addLabel, kind_of_plainOp _ hop]
  · rw [same, Op.label?, Op.labels?_addLabel unlabeled]
    rfl
  · rw [same]
    exact bind_eq_ok.mpr ⟨op, hop, bind_eq_ok.mpr ⟨_, labels, rfl⟩⟩

theorem insertAfterLabel_singleton {make : String → Op} {op : Op} {name : String}
    (h : op.label? = some name) : insertAfterLabel make [op] = [op, make name] := by
  rw [insertAfterLabel, h]

/-- A reference that is not marked as the root becomes a leaf if it is not marked at all. -/
theorem decoratedReference_treeing {r : Reference} {mark : TreeMark} {op : Op} {name : String}
    (told : MarkedReference.IsTold ⟨r, mark⟩) (kind : op.kind = r.opKind)
    (label : op.label? = some name) :
    (treeing g target false).decoratedReference r [op] =
      if mark = .root then [op] else op :: (op.onTree mark).toList := by
  match r with
  | .rule r =>
      have marked : r.marked = mark.isSet := told
      have kind : op.kind = .invokeRule := kind
      change (if r.marked then [op] else insertAfterLabel .addLeaf [op]) = _
      rw [insertAfterLabel_singleton label, marked]
      cases mark <;> simp [TreeMark.isSet, Op.onTree, kind, label]
  | .token t =>
      have marked : t.marked = mark.isSet := told
      have kind : op.kind = .matchToken := kind
      change (if t.marked then [op] else insertAfterLabel .addLeaf [op]) = _
      rw [insertAfterLabel_singleton label, marked]
      cases mark <;> simp [TreeMark.isSet, Op.onTree, kind, label]
  | .literal l =>
      have kind : op.kind = .matchLiteral := kind
      change [op] = _
      cases mark <;> simp [Op.onTree, kind]

theorem decoratedRoot_treeing (r : Reference) (ops : List Op) :
    (treeing g target false).decoratedRoot r ops = insertAfterLabel .becomeRoot ops := by
  cases r <;> rfl

theorem graft_of_labels? {setup : Setup} {op : Op} (h : op.labels?.isSome) (mark : TreeMark)
    (later : List TreeMark) : Op.graftAll setup (mark :: later) [op] =
      (op.labeledAnyway setup :: ((op.labeledAnyway setup).onTree mark).toList, later) := by
  cases op <;> first | (simp [Op.graftAll, Op.graft, Op.labels?]; done) | cases h

theorem graftedTo_reference {refs : List String} {r : Reference} {label : Option Label}
    {mark : TreeMark} {ops : List Op} (told : MarkedReference.IsTold ⟨r, mark⟩)
    (other : mark ≠ .root) (h : (plain g target validate).referenceCode refs r label = .ok ops) :
    Op.GraftedTo (plain g target validate) [mark] ops
      ((treeing g target false).referenceCode refs r label = .ok ·) := by
  obtain ⟨op, name, rfl, held, kind, labeled, code⟩ := exists_referenceCode_treeing h
  rw [decoratedReference_treeing told kind labeled, if_neg other] at code
  exact ⟨_, code, graft_of_labels? held mark⟩

theorem graftedTo_rootReference {refs : List String} {r : Reference} {label : Option Label}
    {ops : List Op} (told : MarkedReference.IsTold ⟨r, .root⟩)
    (h : (plain g target validate).referenceCode refs r label = .ok ops) :
    Op.GraftedTo (plain g target validate) [.root] ops fun grafted => ∃ ops,
      (treeing g target false).referenceCode refs r label = .ok ops ∧
        grafted = (treeing g target false).decoratedRoot r ops := by
  obtain ⟨op, name, rfl, held, kind, labeled, code⟩ := exists_referenceCode_treeing h
  rw [decoratedReference_treeing told kind labeled, if_pos rfl] at code
  refine ⟨_, ⟨_, code, rfl⟩, fun later => ?_⟩
  rw [decoratedRoot_treeing, insertAfterLabel_singleton labeled, List.singleton_append,
    graft_of_labels? held]
  simp [Op.onTree, labeled]

end Setup

end RecognizerModel
