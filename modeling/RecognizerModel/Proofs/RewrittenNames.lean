import RecognizerModel.Proofs.BuiltParts
import RecognizerModel.Proofs.FirstOccurrences
import RecognizerModel.Proofs.TokenContents
import RecognizerModel.Proofs.TokenTypes
import RecognizerModel.Proofs.TreeTiling

/-! The names that rewrites refer to. An optional or repeated part of a rewrite lists those in its
syntax, and what is built inside of it refers to no others, however deep it stands. -/
namespace RecognizerModel

/-- Whether a text starts with the quote of a literal, which no name does. -/
def isQuoted (text : String) : Bool :=
  text.toList.head? == some '\''

/-- The name that a token is known by, if it is no literal. -/
def unquotedNames (token : String) : List String :=
  if isQuoted token then [] else [token]

/-- The name in a reference to a token or a rule. -/
def Node.refName? (n : Node) : Option String :=
  match n.kind with
  | .tokenRef | .ruleRef => n.inner.firstText? .word
  | _ => none

/-- The names in the references to tokens and rules in a row, in order. -/
def Forest.refNames (f : Forest) : List String :=
  f.descendants.filterMap Node.refName?

def Node.refNames (n : Node) : List String :=
  (Forest.ofNode n).refNames

theorem Forest.refNames_node (kind : NodeKind) (span : Span) (inner rest : Forest) :
    (node kind span inner rest).refNames =
      (Node.refName? ⟨kind, span, inner⟩).toList ++ (inner.refNames ++ rest.refNames) := by
  rw [refNames, descendants, List.filterMap_cons, List.filterMap_append]
  cases Node.refName? ⟨kind, span, inner⟩ <;> rfl

theorem Node.refNames_eq (n : Node) : n.refNames = n.refName?.toList ++ n.inner.refNames := by
  rw [refNames, Forest.ofNode, Forest.refNames_node]
  exact congrArg _ (List.append_nil _)

theorem Node.listsFirsts_referencedNames (n : Node) : ListsFirsts n.referencedNames n.refNames :=
  listsFirsts_eraseDups n.refNames

/-- A part of a rewrite that depends on the values of what it refers to. -/
structure GuardedRewrite where
  repeats : Bool
  referenced : List String
  ops : List Op

namespace Op

def guarded? : Op → Option GuardedRewrite
  | rewriteOptional r => some ⟨false, r.referenced, r.ops⟩
  | rewriteClosure r => some ⟨true, r.referenced, r.ops⟩
  | _ => none

/-- The optional and repeated parts of rewrites in code, wherever they stand, inner ones first. -/
def guardedIn (ops : List Op) : List GuardedRewrite :=
  (nestedIn ops).filterMap guarded?

/-- The names that an operation of a rewrite refers to: that of a rule or of a token that is no
literal, and those that an optional or repeated part lists. -/
def usedNames : Op → List String
  | rewriteRule rule .. => [rule]
  | rewriteToken token .. => unquotedNames token
  | rewriteOptional r => r.referenced
  | rewriteClosure r => r.referenced
  | _ => []

/-- The names that the operations in code refer to in rewrites, at any depth. -/
def usedIn (ops : List Op) : List String :=
  (nestedIn ops).flatMap usedNames

theorem usedIn_append (ops rest : List Op) : usedIn (ops ++ rest) = usedIn ops ++ usedIn rest := by
  simp [usedIn, nestedIn_append]

theorem usedIn_of_nested {op : Op} {ops : List Op} (same : op.nested = nestedIn ops ++ [op]) :
    usedIn [op] = usedIn ops ++ op.usedNames := by
  simp [usedIn, nestedIn_singleton, same]

theorem guardedIn_append (ops rest : List Op) :
    guardedIn (ops ++ rest) = guardedIn ops ++ guardedIn rest := by
  simp [guardedIn, nestedIn_append]

theorem guardedIn_of_nested {op : Op} {ops : List Op} (same : op.nested = nestedIn ops ++ [op]) :
    guardedIn [op] = guardedIn ops ++ op.guarded?.toList := by
  rw [guardedIn, nestedIn_singleton, same, List.filterMap_append, ← guardedIn]
  cases h : op.guarded? <;> simp [h]

/-- An optional or repeated part of a rewrite is a part of the rule. -/
theorem filterMap_partsIn (ops : List Op) : (partsIn ops).filterMap guarded? = guardedIn ops := by
  rw [partsIn, List.filterMap_filter, guardedIn]
  refine List.filterMap_congr fun op _ => ?_
  cases op <;> rfl

end Op

/-- Whether what an optional or repeated part holds refers to nothing else than what is listed. -/
def GuardedRewrite.Covers (r : GuardedRewrite) : Prop :=
  Op.usedIn r.ops ⊆ r.referenced

theorem Op.covers_of_guarded {op : Op} {r : GuardedRewrite} (guarded : op.guarded? = some r)
    (same : op.nested = nestedIn r.ops ++ [op]) (here : r.Covers)
    (below : ∀ inner ∈ guardedIn r.ops, inner.Covers) : ∀ inner ∈ guardedIn [op], inner.Covers := by
  rw [guardedIn_of_nested same, guarded]
  exact List.forall_mem_append.mpr ⟨below, List.forall_mem_singleton.mpr here⟩

/-- The name by which a rewrite refers to what a reference matched. -/
def Reference.usedNames (r : Reference) : List String :=
  match r with
  | .rule r => r.name.toList
  | .token t => t.name.toList.flatMap unquotedNames
  | .literal l => l.text.toList.flatMap unquotedNames

mutual

/-- The names that what is built from a rewrite element can refer to. -/
def RewriteElement.usedNames : RewriteElement → List String
  | .reference r => r.usedNames
  | .tree _ elements => RewriteElement.usedIn elements
  | .optional _ referenced elements | .closure _ referenced elements =>
    RewriteElement.usedIn elements ++ referenced

def RewriteElement.usedIn : List RewriteElement → List String
  | [] => []
  | element :: rest => element.usedNames ++ RewriteElement.usedIn rest

end

mutual

/-- Whether every optional or repeated part lists all that stands inside of it. -/
def RewriteElement.IsCovered : RewriteElement → Prop
  | .reference _ => True
  | .tree _ elements => RewriteElement.AllCovered elements
  | .optional _ referenced elements | .closure _ referenced elements =>
    RewriteElement.usedIn elements ⊆ referenced ∧ RewriteElement.AllCovered elements

def RewriteElement.AllCovered : List RewriteElement → Prop
  | [] => True
  | element :: rest => element.IsCovered ∧ RewriteElement.AllCovered rest

end

namespace Setup

variable {g : Grammar} {target : Target} {validate : Bool}

theorem used_of_rewriteReferenceCode {spot : Spot} {isRoot : Bool} {r : Reference} {ops : List Op}
    (h : (plain g target validate).rewriteReferenceCode spot isRoot r = .ok ops) :
    Op.usedIn ops = r.usedNames ∧ Op.guardedIn ops = [] := by
  match r with
  | .rule ⟨_, some _, _, _⟩ =>
      cases h
      exact ⟨rfl, rfl⟩
  | .token ⟨_, some name, _, _⟩ | .literal ⟨_, some name⟩ =>
      obtain ⟨ttype, _, h⟩ := bind_eq_ok.mp h
      cases h
      exact ⟨rfl, rfl⟩
  | .rule ⟨_, none, _, _⟩ | .token ⟨_, none, _, _⟩ | .literal ⟨_, none⟩ => cases h

/-- What is built in a rewrite refers to the names in its syntax, and each part that lists names
covers those inside of it if it does so in the syntax. -/
theorem rewriteCompositional_covers : RewriteCompositional g target validate
    (fun _ _ element ops => Op.usedIn ops = element.usedNames ∧
      (element.IsCovered → ∀ r ∈ Op.guardedIn ops, r.Covers))
    (fun _ elements ops => Op.usedIn ops = RewriteElement.usedIn elements ∧
      (RewriteElement.AllCovered elements → ∀ r ∈ Op.guardedIn ops, r.Covers)) where
  reference h := by
    obtain ⟨used, none⟩ := used_of_rewriteReferenceCode h
    rw [none]
    exact ⟨used, fun _ => nofun⟩
  tree hroot hchildren := by
    rw [Op.usedIn_of_nested (Op.nested_rewriteTree _ _ _ _), Op.usedIn_append, hroot.1,
      hchildren.1, Op.guardedIn_of_nested (Op.nested_rewriteTree _ _ _ _), Op.guardedIn_append]
    refine ⟨List.append_nil _, fun ⟨first, rest⟩ => ?_⟩
    simpa [Op.guarded?, or_imp, forall_and] using ⟨hroot.2 first, hchildren.2 rest⟩
  optional hops := by
    rw [Op.usedIn_of_nested rfl, hops.1]
    refine ⟨rfl, fun ⟨here, below⟩ => Op.covers_of_guarded rfl rfl ?_ (hops.2 below)⟩
    rwa [← hops.1] at here
  closure hops := by
    rw [Op.usedIn_of_nested rfl, hops.1]
    refine ⟨rfl, fun ⟨here, below⟩ => Op.covers_of_guarded rfl rfl ?_ (hops.2 below)⟩
    rwa [← hops.1] at here
  noElements := ⟨rfl, fun _ => nofun⟩
  elements hfirst hothers := by
    rw [Op.usedIn_append, hfirst.1, hothers.1, Op.guardedIn_append]
    refine ⟨rfl, fun ⟨first, rest⟩ => List.forall_mem_append.mpr ?_⟩
    exact ⟨hfirst.2 first, hothers.2 rest⟩

end Setup

/-- Whether no literal in the nodes of a row could be taken for a name. -/
def Forest.QuotesLiterals (f : Forest) : Prop :=
  ∀ n ∈ f.descendants, ∀ text, n.inner.firstText? .str = some text → isQuoted text = true

theorem unquotedNames_subset (text : Option String) :
    text.toList.flatMap unquotedNames ⊆ text.toList := by
  intro name h
  obtain ⟨token, htoken, h⟩ := List.mem_flatMap.mp h
  rw [unquotedNames] at h
  split at h
  · cases h
  · exact List.mem_singleton.mp h ▸ htoken

/-- What is made of a row in a rewrite refers to the names in the row, and its parts cover what they
hold. -/
theorem RewriteElement.covered_ofForest : ∀ f : Forest, f.QuotesLiterals →
    usedIn (ofForest f) ⊆ f.refNames ∧ AllCovered (ofForest f)
  | .nil, _ => ⟨nofun, trivial⟩
  | .token _ rest, quoted => covered_ofForest rest quoted
  | .node kind span inner rest, quoted => by
      obtain ⟨here, below⟩ := List.forall_mem_cons.mp quoted
      obtain ⟨hinner, hrest⟩ := List.forall_mem_append.mp below
      obtain ⟨inside, covered⟩ := covered_ofForest inner hinner
      obtain ⟨others, allCovered⟩ := covered_ofForest rest hrest
      have listed := (Node.listsFirsts_referencedNames ⟨kind, span, inner⟩).mem_iff
      rw [Node.refNames_eq] at listed
      rw [Forest.refNames_node, ← List.append_assoc]
      have behind : usedIn (ofForest rest) ⊆
          (Node.refName? ⟨kind, span, inner⟩).toList ++ inner.refNames ++ rest.refNames :=
        List.subset_append_of_subset_right _ others
      have first {element : RewriteElement}
          (h : element.usedNames ⊆ (Node.refName? ⟨kind, span, inner⟩).toList ++ inner.refNames) :
          usedIn (element :: ofForest rest) ⊆
            (Node.refName? ⟨kind, span, inner⟩).toList ++ inner.refNames ++ rest.refNames :=
        List.append_subset.mpr ⟨List.subset_append_of_subset_left _ h, behind⟩
      cases kind with
      | rewriteTree =>
          refine ⟨first ?_, covered, allCovered⟩
          exact List.subset_append_of_subset_right _ inside
      | rewriteOptional | rewriteClosure =>
          have lists : usedIn (ofForest inner) ⊆ Node.referencedNames _ := fun name h =>
            (listed name).mpr (List.mem_append_right _ (inside h))
          refine ⟨first (List.append_subset.mpr ⟨?_, ?_⟩), ⟨lists, covered⟩, allCovered⟩
          · exact List.subset_append_of_subset_right _ inside
          · exact fun name h => (listed name).mp h
      | ruleRef =>
          exact ⟨first (List.subset_append_left _ _), trivial, allCovered⟩
      | tokenRef =>
          refine ⟨first (List.subset_append_of_subset_left _ ?_), trivial, allCovered⟩
          exact unquotedNames_subset (inner.firstText? .word)
      | stringLiteral =>
          refine ⟨first ?_, trivial, allCovered⟩
          intro name h
          obtain ⟨text, htext, h⟩ := List.mem_flatMap.mp h
          rw [unquotedNames, if_pos (here text (Option.mem_toList.mp htext))] at h
          cases h
      | _ => exact ⟨behind, allCovered⟩

/-- Whether every part that lists names covers what it holds. -/
def Rewrite.IsCovered (rewrite : Rewrite) : Prop :=
  RewriteElement.AllCovered rewrite.elements

mutual

/-- Whether all rewrites at or below an element are covered. -/
def Element.RewritesCovered : Element → Prop
  | .block b => b.RewritesCovered
  | .ebnf _ _ _ (some b) => b.RewritesCovered
  | .root _ (some operand) | .bang _ (some operand) | .labeled _ (some operand) =>
    operand.RewritesCovered
  | _ => True

def Element.AllRewritesCovered : List Element → Prop
  | [] => True
  | element :: rest => element.RewritesCovered ∧ Element.AllRewritesCovered rest

def Block.RewritesCovered : Block → Prop
  | ⟨_, _, alts⟩ => Alt.AllRewritesCovered alts

def Alt.AllRewritesCovered : List Alt → Prop
  | [] => True
  | alt :: rest => alt.RewritesCovered ∧ Alt.AllRewritesCovered rest

def Alt.RewritesCovered : Alt → Prop
  | ⟨_, elements, rewrite, _, _⟩ =>
    Element.AllRewritesCovered elements ∧ ∀ r, rewrite = some r → r.IsCovered

end

theorem Element.allRewritesCovered_iff {elements : List Element} :
    AllRewritesCovered elements ↔ ∀ e ∈ elements, e.RewritesCovered := by
  induction elements with
  | nil => exact iff_of_true trivial nofun
  | cons e rest ih => rw [AllRewritesCovered, ih, List.forall_mem_cons]

theorem Alt.allRewritesCovered_iff {alts : List Alt} :
    AllRewritesCovered alts ↔ ∀ a ∈ alts, a.RewritesCovered := by
  induction alts with
  | nil => exact iff_of_true trivial nofun
  | cons a rest ih => rw [AllRewritesCovered, ih, List.forall_mem_cons]

namespace Forest.QuotesLiterals

theorem of_mem_nodes {f : Forest} {m : Node} (h : f.QuotesLiterals) (hm : m ∈ f.nodes) :
    m.inner.QuotesLiterals :=
  fun d hd => h d (descendants_of_mem_nodes hm (m.descendants_inner hd))

theorem of_made {f : Forest} {p : Prop} (h : f.QuotesLiterals)
    (made : ∃ m ∈ f.nodes, m.inner.QuotesLiterals → p) : p := by
  obtain ⟨m, hm, made⟩ := made
  exact made (h.of_mem_nodes hm)

end Forest.QuotesLiterals

/-- The rewrites in what is made of nodes are covered. -/
theorem hereditary_covered : Hereditary
    (fun n e => n.inner.QuotesLiterals → e.RewritesCovered)
    (fun n b => n.inner.QuotesLiterals → b.RewritesCovered)
    (fun n a => n.inner.QuotesLiterals → a.RewritesCovered) where
  reference _ _ := trivial
  action _ _ := trivial
  forcedAction _ _ := trivial
  predicate _ _ := trivial
  epsilon _ := trivial
  block b h := b h
  ebnf {_ _ body} _ made h := by
    cases body with
    | none => trivial
    | some b => exact h.of_made (made b rfl)
  root {_ operand} made h := by
    cases operand with
    | none => trivial
    | some e => simpa only [Element.RewritesCovered] using h.of_made (made e rfl)
  bang {_ operand} made h := by
    cases operand with
    | none => trivial
    | some e => simpa only [Element.RewritesCovered] using h.of_made (made e rfl)
  labeled {_ _ operand} _ made h := by
    cases operand with
    | none => trivial
    | some e => simpa only [Element.RewritesCovered] using h.of_made (made e rfl)
  alts made h := Alt.allRewritesCovered_iff.mpr fun a ha => h.of_made (made a ha)
  elements _ elements rewrite _ h := by
    refine ⟨Element.allRewritesCovered_iff.mpr fun e he => h.of_made (elements e he), ?_⟩
    intro r hr
    obtain ⟨m, hm, rfl⟩ := rewrite r hr
    exact (RewriteElement.covered_ofForest m.inner (h.of_mem_nodes hm)).2

namespace Setup

variable {g : Grammar} {target : Target} {validate : Bool}

theorem guardedIn_of_labeledReferenceCode {refs : List String} {element : Element}
    {built : Reference × List Op}
    (h : (plain g target validate).labeledReferenceCode refs element = .ok built) :
    Op.guardedIn built.2 = [] := by
  obtain ⟨label, _, hcode⟩ := exists_reference_of_labeledReferenceCode h
  rw [← Op.filterMap_partsIn, partsIn_of_referenceCode hcode]
  rfl

theorem covers_of_rewriteCode {spot : Spot} {rewrite : Option Rewrite} {ops : List Op}
    (h : (plain g target validate).rewriteCode spot rewrite = .ok ops)
    (covered : ∀ r, rewrite = some r → r.IsCovered) : ∀ r ∈ Op.guardedIn ops, r.Covers := by
  obtain ⟨_, rfl⟩ | ⟨r, body, hr, ⟨_, covers⟩, rfl⟩ :=
    rewriteCompositional_covers.of_rewriteCode h
  · nofun
  · rw [Op.guardedIn_of_nested rfl]
    simpa [Op.guarded?] using covers (covered r hr)

theorem guardedIn_of_choiceAt {site : ChoiceSite} {alts : List Alternative} {c : Choice}
    (h : (plain g target validate).choiceAt site alts = .ok c) :
    Op.guardedIn [.choice c] = (Alternative.partsIn alts).filterMap Op.guarded? := by
  rw [← Op.filterMap_partsIn, partsIn_of_choiceAt h, List.filterMap_append]
  exact List.append_nil _

/-- In all that is built the parts that list names cover what they hold. -/
theorem compositional_covers : Compositional g target validate
    (fun _ element ops => element.RewritesCovered → ∀ r ∈ Op.guardedIn ops, r.Covers)
    (fun _ elements ops =>
      Element.AllRewritesCovered elements → ∀ r ∈ Op.guardedIn ops, r.Covers)
    (fun _ block ops => block.RewritesCovered → ∀ r ∈ Op.guardedIn ops, r.Covers)
    (fun _ _ alt ops => alt.RewritesCovered → ∀ r ∈ Op.guardedIn ops, r.Covers)
    (fun _ _ alts built => Alt.AllRewritesCovered alts →
      ∀ r ∈ (Alternative.partsIn built).filterMap Op.guarded?, r.Covers) where
  reference h _ := by
    rw [← Op.filterMap_partsIn, partsIn_of_referenceCode h]
    nofun
  action _ := nofun
  forcedAction _ := nofun
  predicate _ := nofun
  epsilon _ := nofun
  block hops covered := hops covered
  ebnf _ halts hc covered := by
    rw [guardedIn_of_choiceAt hc]
    exact halts covered
  root hbuilt _ := by
    rw [guardedIn_of_labeledReferenceCode hbuilt]
    nofun
  bang hops covered := hops covered
  labeled hbuilt _ := by
    rw [guardedIn_of_labeledReferenceCode hbuilt]
    nofun
  noElements _ := nofun
  elements hfirst hothers := fun ⟨first, others⟩ => by
    rw [Op.guardedIn_append]
    exact List.forall_mem_append.mpr ⟨hfirst first, hothers others⟩
  inlined hops := fun ⟨alt, _⟩ => hops alt
  choice _ halts hc covered := by
    rw [guardedIn_of_choiceAt hc]
    exact halts covered
  alt _ hops hrewritten := fun ⟨elements, rewrite⟩ => by
    rw [Op.guardedIn_append]
    exact List.forall_mem_append.mpr ⟨hops elements, covers_of_rewriteCode hrewritten rewrite⟩
  noAlts _ := nofun
  alts hops hothers := fun ⟨alt, others⟩ => by
    unfold Alternative.partsIn
    rw [Alternative.nestedIn, List.filter_append, List.filterMap_append]
    refine List.forall_mem_append.mpr ⟨?_, hothers others⟩
    rw [← Op.partsIn, Op.filterMap_partsIn]
    exact hops alt

end Setup

namespace Grammar.Loaded

variable {g : Grammar} (loaded : g.Loaded) {n : Node} (hn : n ∈ g.root.descendants) {text : String}
include loaded hn

theorem isQuoted_literal (h : n.inner.firstText? .str = some text) : isQuoted text = true := by
  obtain ⟨t, ht, kind, rfl⟩ := Forest.exists_token_of_firstText? h
  have pattern := loaded.mem_pattern hn (Forest.mem_leaves_of_mem_tokens ht) (by simp [kind])
    (by simp [kind])
  rw [kind] at pattern
  obtain ⟨others, split, -⟩ := Lexeme.mem_singleton_mul.mp pattern
  rw [isQuoted, split]
  rfl

theorem isQuoted_name (h : n.inner.firstText? .word = some text) : isQuoted text = false := by
  obtain ⟨t, ht, kind, rfl⟩ := Forest.exists_token_of_firstText? h
  have pattern := loaded.mem_pattern hn (Forest.mem_leaves_of_mem_tokens ht) (by simp [kind])
    (by simp [kind])
  rw [kind] at pattern
  obtain ⟨c, others, split, letter, -⟩ := Lexeme.exists_cons_of_mem_oneOf_mul pattern
  have other : c ≠ '\'' := by
    rintro rfl
    exact absurd (Lexeme.isWordStart_iff.mpr letter) (by decide)
  rw [isQuoted, split]
  simpa using other

theorem isQuoted_refNames : ∀ name ∈ n.refNames, isQuoted name = false := by
  have below : n.descendants ⊆ g.root.descendants :=
    List.cons_subset.mpr ⟨hn, List.append_subset.mpr
      ⟨Forest.descendants_inner_of_mem hn, List.nil_subset _⟩⟩
  intro name hname
  obtain ⟨d, hd, hname⟩ := List.mem_filterMap.mp hname
  rw [Node.refName?] at hname
  split at hname
  · exact loaded.isQuoted_name (below hd) hname
  · exact loaded.isQuoted_name (below hd) hname
  · cases hname

end Grammar.Loaded

/-- Whether an optional or repeated part of a rewrite is what becomes of a node: it lists the names
that stand in the node, none of them like a literal, and whatever operation is inside of it refers
to no others. -/
structure GuardedRewrite.MadeOf (n : Node) (r : GuardedRewrite) : Prop where
  kind : n.kind = if r.repeats then .rewriteClosure else .rewriteOptional
  referenced : ListsFirsts r.referenced n.refNames
  names : ∀ name ∈ r.referenced, isQuoted name = false
  inside : ∀ op ∈ Op.nestedIn r.ops, ∀ name ∈ op.usedNames, name ∈ r.referenced

/-- What is said of a part of a rewrite that lists names. -/
def RewritePart.guard? (part : RewritePart) : Option (Bool × List String) :=
  match part.item with
  | .optional referenced => some (false, referenced)
  | .closure referenced => some (true, referenced)
  | _ => none

def Position.isGuarded (p : Position) : Bool :=
  p.node.kind == .rewriteOptional || p.node.kind == .rewriteClosure

theorem Position.guard?_rewritePart? (p : Position) : p.rewritePart?.bind RewritePart.guard? =
    if p.isGuarded then some (p.node.kind == .rewriteClosure, p.node.referencedNames) else none := by
  obtain ⟨⟨kind, span, inner⟩, above⟩ := p
  cases kind with
  | ruleRef | tokenRef | stringLiteral =>
      cases inside : inRewrite above <;> simp [rewritePart?, item?, inside, isGuarded, RewritePart.guard?]
  | _ => rfl

namespace Setup

variable {g : Grammar} {target : Target} {validate : Bool}

theorem covers_of_ruleCode {n : Node} {code : List Op} (quoted : n.inner.QuotesLiterals)
    (h : (plain g target validate).ruleCode (.ofNode n) = .ok code) :
    ∀ r ∈ Op.guardedIn code, r.Covers := by
  obtain ⟨block, hblock, covers⟩ := compositional_covers.of_ruleCode h
  have made := hereditary_covered.body n.inner block (List.mem_of_head? hblock)
  exact covers (quoted.of_made made)

/-- The parts of rewrites that list names are those of the positions, in order. -/
theorem guarded_of_ruleCode {n : Node} {code : List Op} (rule : n.kind = .rule)
    (h : (plain g target validate).ruleCode (.ofNode n) = .ok code) :
    List.Forall₂ (fun p r => r.repeats = (p.node.kind == .rewriteClosure) ∧
        r.referenced = p.node.referencedNames)
      (n.walked.filter Position.isGuarded) (Op.guardedIn code) := by
  have each : Relator.LiftFun RewritePart.BuiltAs
      (Option.Rel fun (guard : Bool × List String) r => r.repeats = guard.1 ∧
        r.referenced = guard.2) RewritePart.guard? Op.guarded? := by
    rintro _ _ made
    cases made <;> first | exact .none | exact .some ⟨rfl, rfl⟩
  have guarded := List.rel_filterMap each (rewrites_of_ruleCode rule h)
  have positions : (n.walked.filterMap Position.rewritePart?).filterMap RewritePart.guard? =
      (n.walked.filter Position.isGuarded).map fun p =>
        (p.node.kind == .rewriteClosure, p.node.referencedNames) := by
    rw [List.filterMap_filterMap, ← List.filterMap_eq_map, List.filterMap_filter]
    exact List.filterMap_congr fun p _ => p.guard?_rewritePart?
  have ops : (Op.rewritesIn code).filterMap Op.guarded? = Op.guardedIn code := by
    rw [Op.rewritesIn, List.filterMap_filter, Op.guardedIn]
    refine List.filterMap_congr fun op _ => ?_
    cases op <;> rfl
  rwa [positions, ops, List.forall₂_map_left_iff] at guarded

/-- Without extensions each optional or repeated part of a rewrite in the code of a built rule is
made of a node of the rule, inner ones first, and lists the names in that node. It lists every name
that an operation inside of it refers to, at whatever depth. -/
theorem guarded_of_built (loaded : g.Loaded) (target : Target) (validate : Bool) {index : Nat}
    {n : Node} {rule : Rule} (hn : n ∈ g.root.inner.nodes) (made : n.rule? = some rule)
    (hrule : (g.rulesFor .parser)[index]? = some rule) :
    ∃ f outcome, (plain g target validate).Makes index f outcome ∧
      (outcome.isBuilt → List.Forall₂ (fun p r => r.MadeOf p.node)
        (n.walked.filter Position.isGuarded) (Op.guardedIn f.code)) := by
  obtain ⟨kind, rfl⟩ := Node.rule?_eq_some_iff.mp made
  obtain ⟨f, outcome, makes, code⟩ := plain_makes_code g target validate hrule
  refine ⟨f, outcome, makes, fun built => ?_⟩
  have below : n.descendants ⊆ g.root.descendants := Node.descendants_of_mem_inner hn
  have covers := covers_of_ruleCode (fun d hd text => loaded.isQuoted_literal
    (below (n.descendants_inner hd))) (code built)
  have placed := (List.forall₂_and_left _ _).mpr
    ⟨fun p (hp : p ∈ n.walked.filter Position.isGuarded) => List.mem_filter.mp hp,
      guarded_of_ruleCode kind (code built)⟩
  have both := (List.forall₂_and_left _ _).mpr ⟨covers, placed.flip⟩
  refine both.flip.imp fun p r ⟨hcovers, ⟨hp, guarded⟩, repeats, referenced⟩ => ?_
  have lists : ListsFirsts r.referenced p.node.refNames :=
    referenced ▸ p.node.listsFirsts_referencedNames
  have hnode := below (Node.mem_descendants_of_mem_walked hp)
  exact {
    kind := by
      rw [Position.isGuarded, Bool.or_eq_true, beq_iff_eq, beq_iff_eq] at guarded
      rcases guarded with same | same <;> simp [repeats, same]
    referenced := lists
    names := fun name hname => loaded.isQuoted_refNames hnode name ((lists.mem_iff name).mp hname)
    inside := fun op hop name hname => hcovers (List.mem_flatMap.mpr ⟨op, hop, hname⟩) }

end Setup

/-- A rule with a rewrite that repeats a part with a name that stands twice, a literal and a part
inside that may be left out. -/
def Grammar.guardedTwice : Grammar :=
  (load ("(PARSER_GRAMMAR P(RULE a(BLOCK(ALT(EPSILON)(REWRITE(REWRITE_CLOSURE(TOKEN_REF X)" ++
    "(STRING_LITERAL 'y')(REWRITE_OPTIONAL(RULE_REF a)(TOKEN_REF X))))))))")).toOption.get
      (by decide +kernel)

namespace Setup

theorem guarded_of_guardedTwice : Grammar.guardedTwice.Loaded ∧ ∃ (n : Node) (rule : Rule)
    (f : RuleFunction) (outcome : RuleOutcome), n ∈ Grammar.guardedTwice.root.inner.nodes ∧
    n.rule? = some rule ∧ (Grammar.guardedTwice.rulesFor .parser)[0]? = some rule ∧
      (plain .guardedTwice .java true).Makes 0 f outcome ∧ outcome.isBuilt ∧
      (Op.guardedIn f.code).map GuardedRewrite.referenced = [["a", "X"], ["X", "a"]] ∧
      List.Forall₂ (fun p r => r.MadeOf p.node) (n.walked.filter Position.isGuarded)
        (Op.guardedIn f.code) := by
  have loaded : Grammar.guardedTwice.Loaded := Grammar.loaded_get _
  have evaluated : ((Grammar.guardedTwice.rulesFor .parser)[0]?.bind fun rule =>
      ((plain .guardedTwice .java true).ruleCode rule).toOption.map fun code =>
        (Op.guardedIn code).map GuardedRewrite.referenced) =
          some [["a", "X"], ["X", "a"]] := by decide +kernel
  obtain ⟨n, rule, f, outcome, hn, same, hrule, makes, built, seen⟩ :=
    exists_node_makes_of_map evaluated
  obtain ⟨f', outcome', makes', guarded⟩ := guarded_of_built loaded .java true hn same hrule
  obtain ⟨rfl, rfl⟩ := makes.unique makes'
  exact ⟨loaded, n, rule, f, outcome, hn, same, hrule, makes, built, seen, guarded built⟩

end Setup

end RecognizerModel
