import RecognizerModel.Proofs.CodeLeaves
import RecognizerModel.Proofs.PlainTranslation
import RecognizerModel.Proofs.ReadTokens

/-! The token types in code. Every name with a type is at the place of its type in the table of
token names, and the name at place 0 is none that a grammar can give. -/
namespace RecognizerModel

namespace Vocabulary

theorem mem_of_mem_names_define {v : Vocabulary} {name next : String}
    (h : name ∈ (v.define next).2.names) : name = next ∨ name ∈ v.names := by
  rw [names_define] at h
  split at h
  · exact .inr h
  · rcases List.mem_append.mp h with h | h
    · exact .inr h
    · exact .inl (List.mem_singleton.mp h)

theorem mem_of_mem_names_defineAll {names : List String} {v : Vocabulary} {name : String}
    (h : name ∈ (v.defineAll names).names) : name ∈ names ∨ name ∈ v.names := by
  induction names generalizing v with
  | nil => exact .inr h
  | cons first rest ih =>
      rcases ih h with h | h
      · exact .inl (List.mem_cons_of_mem _ h)
      · rcases mem_of_mem_names_define h with rfl | h
        · exact .inl (List.mem_cons_self ..)
        · exact .inr h

theorem nodup_tokenNames {v : Vocabulary} (h : invalidName ∉ v.names) : v.tokenNames.Nodup :=
  List.nodup_cons.mpr ⟨h, v.nodup⟩

end Vocabulary

/-- Whether a type is that of a name by a table of token names: the end of input has none of the
places, and place 0 is no type. -/
def IsTokenType (names : List String) (name : String) (ttype : Int) : Prop :=
  ttype = Vocabulary.eofType ∧ name = Vocabulary.eofName ∨
    1 ≤ ttype ∧ ttype < names.length ∧ names[ttype.toNat]? = some name

theorem Vocabulary.isTokenType_of_type? {v : Vocabulary} {name : String} {ttype : Int}
    (h : v.type? name = some ttype) : IsTokenType v.tokenNames name ttype := by
  rw [type?_eq] at h
  split at h
  · next eof =>
    cases h
    exact .inl ⟨rfl, eof⟩
  · split at h
    · next known =>
      cases h
      have bound : v.names.idxOf name < v.names.length := List.idxOf_lt_length_iff.mpr known
      refine .inr ⟨by omega, ?_, ?_⟩
      · rw [tokenNames, List.length_cons]
        omega
      · have place : ((v.names.idxOf name : Int) + 1).toNat = v.names.idxOf name + 1 := by omega
        rw [place, tokenNames, List.getElem?_cons_succ, List.getElem?_eq_getElem bound,
          List.getElem_idxOf]
    · cases h

/-- Whether the type that an operation tests or makes is that of its name. -/
def Op.IsTyped (names : List String) : Op → Prop
  | matchToken name ttype _ | matchLiteral name ttype _ | rewriteToken name ttype _ _ _ _ =>
    IsTokenType names name ttype
  | _ => True

namespace Lexeme

theorem head?_text_first (c : Char) (rest : List Char) : (first c rest).text.head? = some c := by
  unfold first
  repeat' split
  all_goals first | rfl | (dsimp only; split <;> rfl)

/-- The name of type 0 begins with a bracket, which no word and no literal does. -/
theorem IsScanned.ne_invalidName {lexeme : Lexeme} (h : lexeme.IsScanned)
    (kind : lexeme.kind = .word ∨ lexeme.kind = .str) :
    String.ofList lexeme.text ≠ Vocabulary.invalidName := by
  intro invalid
  rcases h with error | ⟨c, rest, rfl⟩
  · simp [error] at kind
  · have text : (first c rest).text = '<' :: "INVALID>".toList := by
      rw [← String.toList_ofList (l := (first c rest).text), invalid]
      rfl
    have front := head?_text_first c rest
    rw [text] at front
    obtain rfl : '<' = c := Option.some.inj front
    have given : first '<' rest = ⟨.error, ['<']⟩ := rfl
    simp [given] at kind

end Lexeme

namespace Forest

theorem exists_token_of_firstText? {f : Forest} {kind : TokenKind} {name : String}
    (h : f.firstText? kind = some name) : ∃ t ∈ f.tokens, t.kind = kind ∧ t.text = name := by
  obtain ⟨t, ht, rfl⟩ := Option.map_eq_some_iff.mp h
  exact ⟨t, List.mem_of_find?_eq_some ht, by simpa using List.find?_some ht, rfl⟩

theorem mem_descendants_of_mem_nodes {f : Forest} {n : Node} (h : n ∈ f.nodes) :
    n ∈ f.descendants :=
  descendants_of_mem_nodes h n.mem_descendants_self

end Forest

namespace Grammar

/-- A name that gets a type is the text of a word or literal. -/
theorem exists_token_of_mem_definedNames {root : Node} {name : String}
    (h : name ∈ definedNames root) : ∃ n ∈ root.descendants, ∃ t ∈ n.inner.tokens,
      (t.kind = .word ∨ t.kind = .str) ∧ t.text = name := by
  rcases List.mem_append.mp h with h | h
  · obtain ⟨rule, hrule, hname⟩ := List.mem_filterMap.mp (List.mem_filter.mp h).1
    obtain ⟨n, hn, made⟩ := List.mem_filterMap.mp hrule
    obtain ⟨_, rfl⟩ := Node.rule?_eq_some_iff.mp made
    obtain ⟨t, ht, kind, text⟩ := Forest.exists_token_of_firstText? hname
    exact ⟨n, root.descendants_inner (Forest.mem_descendants_of_mem_nodes hn), t, ht,
      .inl kind, text⟩
  · obtain ⟨n, hn, hname⟩ := List.mem_filterMap.mp h
    refine ⟨n, hn, ?_⟩
    split at hname
    · obtain ⟨t, ht, kind, text⟩ := Forest.exists_token_of_firstText? hname
      exact ⟨t, ht, .inl kind, text⟩
    · obtain ⟨t, ht, kind, text⟩ := Forest.exists_token_of_firstText? hname
      exact ⟨t, ht, .inr kind, text⟩
    · cases hname

/-- No token of a loaded grammar has the name of type 0. -/
theorem Loaded.invalidName_not_mem {g : Grammar} (loaded : g.Loaded) :
    Vocabulary.invalidName ∉ g.vocabulary.names := by
  obtain ⟨_, _, hvocabulary⟩ := loaded.exists_read
  intro mem
  rw [hvocabulary] at mem
  have defined := (Vocabulary.mem_of_mem_names_defineAll mem).resolve_right List.not_mem_nil
  obtain ⟨n, hn, t, ht, kind, text⟩ := exists_token_of_mem_definedNames defined
  have other : t.kind ≠ .head := by rcases kind with kind | kind <;> simp [kind]
  obtain ⟨lexeme, scanned, same, textSame⟩ :=
    loaded.exists_lexeme hn (Forest.mem_leaves_of_mem_tokens ht) other
  rw [same] at kind
  exact scanned.ne_invalidName kind (textSame.symm.trans text)

theorem Loaded.nodup_tokenNames {g : Grammar} (loaded : g.Loaded) :
    g.vocabulary.tokenNames.Nodup :=
  Vocabulary.nodup_tokenNames loaded.invalidName_not_mem

end Grammar

namespace Op

theorem isTyped_addLabel {names : List String} {op : Op} {label : String} :
    (op.addLabel label).IsTyped names ↔ op.IsTyped names := by
  cases op <;> rfl

theorem leaves_addLabel {op : Op} (h : op.leaves = [op]) (label : String) :
    (op.addLabel label).leaves = [op.addLabel label] := by
  cases op <;> first | rfl | exact h

/-- Whether all types in code are those of their names. -/
def AllTyped (names : List String) (ops : List Op) : Prop :=
  ∀ op ∈ leavesIn ops, op.IsTyped names

namespace AllTyped

variable {names : List String} {op : Op} {ops rest : List Op}

theorem append (h : AllTyped names ops) (h' : AllTyped names rest) :
    AllTyped names (ops ++ rest) := by
  unfold AllTyped
  rw [leavesIn_append]
  exact List.forall_mem_append.mpr ⟨h, h'⟩

theorem singleton (leaf : op.leaves = [op]) (h : op.IsTyped names) : AllTyped names [op] := by
  unfold AllTyped
  rw [leavesIn_singleton, leaf]
  exact List.forall_mem_singleton.mpr h

/-- What holds other operations has no type itself. -/
theorem of_leaves (same : op.leaves = leavesIn ops) (h : AllTyped names ops) :
    AllTyped names [op] := by
  unfold AllTyped
  rwa [leavesIn_singleton, same]

end AllTyped

end Op

/-- Whether all types in alternatives are those of their names. -/
def Alternative.AllTyped (names : List String) (alts : List Alternative) : Prop :=
  ∀ op ∈ leavesIn alts, op.IsTyped names

namespace Setup

variable {g : Grammar} {target : Target} {validate : Bool}

theorem isTyped_of_plainOp {r : Reference} {op : Op}
    (h : (plain g target validate).plainOp r = .ok op) :
    op.leaves = [op] ∧ op.IsTyped g.vocabulary.tokenNames := by
  match r with
  | .rule ⟨_, some _, _, _⟩ =>
      cases h
      exact ⟨rfl, trivial⟩
  | .token ⟨_, some _, _, _⟩ | .literal ⟨_, some _⟩ =>
      obtain ⟨ttype, htype, h⟩ := bind_eq_ok.mp h
      cases h
      exact ⟨rfl, Vocabulary.isTokenType_of_type? (type?_of_typeOf htype)⟩
  | .rule ⟨_, none, _, _⟩ | .token ⟨_, none, _, _⟩ | .literal ⟨_, none⟩ => cases h

theorem allTyped_of_referenceCode {refs : List String} {r : Reference} {label : Option Label}
    {ops : List Op} (h : (plain g target validate).referenceCode refs r label = .ok ops) :
    Op.AllTyped g.vocabulary.tokenNames ops := by
  obtain ⟨op, labeled, hop, hlabeled, rfl⟩ := exists_of_referenceCode h
  obtain ⟨leaf, typed⟩ := isTyped_of_plainOp hop
  rcases hlabeled with rfl | ⟨name, rfl⟩
  · exact .singleton leaf typed
  · exact .singleton (Op.leaves_addLabel leaf name) (Op.isTyped_addLabel.mpr typed)

theorem allTyped_of_labeledReferenceCode {refs : List String} {element : Element}
    {built : Reference × List Op}
    (h : (plain g target validate).labeledReferenceCode refs element = .ok built) :
    Op.AllTyped g.vocabulary.tokenNames built.2 := by
  obtain ⟨label, _, hcode⟩ := exists_reference_of_labeledReferenceCode h
  exact allTyped_of_referenceCode hcode

theorem allTyped_of_rewriteReferenceCode {spot : Spot} {isRoot : Bool} {r : Reference}
    {ops : List Op} (h : (plain g target validate).rewriteReferenceCode spot isRoot r = .ok ops) :
    Op.AllTyped g.vocabulary.tokenNames ops := by
  match r with
  | .rule ⟨_, some _, _, _⟩ =>
      cases h
      exact .singleton rfl trivial
  | .token ⟨_, some _, _, _⟩ | .literal ⟨_, some _⟩ =>
      obtain ⟨ttype, htype, h⟩ := bind_eq_ok.mp h
      cases h
      exact .singleton rfl (Vocabulary.isTokenType_of_type? (type?_of_typeOf htype))
  | .rule ⟨_, none, _, _⟩ | .token ⟨_, none, _, _⟩ | .literal ⟨_, none⟩ => cases h

theorem rewriteCompositional_allTyped : RewriteCompositional g target validate
    (fun _ _ _ ops => Op.AllTyped g.vocabulary.tokenNames ops)
    (fun _ _ ops => Op.AllTyped g.vocabulary.tokenNames ops) where
  reference := allTyped_of_rewriteReferenceCode
  tree hroot hchildren := (hroot.append hchildren).of_leaves (Op.leavesIn_append _ _).symm
  optional hops := hops.of_leaves rfl
  closure hops := hops.of_leaves rfl
  noElements := nofun
  elements hfirst hothers := hfirst.append hothers

theorem allTyped_of_rewriteCode {spot : Spot} {rewrite : Option Rewrite} {ops : List Op}
    (h : (plain g target validate).rewriteCode spot rewrite = .ok ops) :
    Op.AllTyped g.vocabulary.tokenNames ops := by
  obtain ⟨_, rfl⟩ | ⟨r, body, _, hbody, rfl⟩ := rewriteCompositional_allTyped.of_rewriteCode h
  · nofun
  · exact hbody.of_leaves rfl

/-- A test is of types that are known as they are. -/
theorem allTyped_of_choiceAt {site : ChoiceSite} {alts : List Alternative} {c : Choice}
    (inside : Alternative.AllTyped g.vocabulary.tokenNames alts)
    (h : (plain g target validate).choiceAt site alts = .ok c) :
    Op.AllTyped g.vocabulary.tokenNames [.choice c] := by
  obtain ⟨rfl, _⟩ := eq_of_choiceAt h
  unfold Op.AllTyped
  rw [Op.leavesIn_singleton, Op.leaves, Op.leavesInEach_map_singleton fun _ => rfl]
  refine List.forall_mem_append.mpr ⟨inside, List.forall_mem_append.mpr ⟨?_, nofun⟩⟩
  exact List.forall_mem_map.mpr fun _ _ => trivial

/-- Whatever is built names its token types as the vocabulary does. -/
theorem compositional_allTyped : Compositional g target validate
    (fun _ _ ops => Op.AllTyped g.vocabulary.tokenNames ops)
    (fun _ _ ops => Op.AllTyped g.vocabulary.tokenNames ops)
    (fun _ _ ops => Op.AllTyped g.vocabulary.tokenNames ops)
    (fun _ _ _ ops => Op.AllTyped g.vocabulary.tokenNames ops)
    (fun _ _ _ built => Alternative.AllTyped g.vocabulary.tokenNames built) where
  reference := allTyped_of_referenceCode
  action := .singleton rfl trivial
  forcedAction := .singleton rfl trivial
  predicate := .singleton rfl trivial
  epsilon := .singleton rfl trivial
  block hops := hops
  ebnf _ halts hc := allTyped_of_choiceAt halts hc
  root := allTyped_of_labeledReferenceCode
  bang hops := hops
  labeled := allTyped_of_labeledReferenceCode
  noElements := nofun
  elements hfirst hothers := hfirst.append hothers
  inlined hops := hops
  choice _ halts hc := allTyped_of_choiceAt halts hc
  alt _ hops hrewritten := hops.append (allTyped_of_rewriteCode hrewritten)
  noAlts := nofun
  alts hops hothers := List.forall_mem_append.mpr ⟨hops, hothers⟩

/-- A token type in the code of a rule that is built is that of its name. -/
theorem allTyped_of_ruleCode {rule : Rule} {code : List Op}
    (h : (plain g target validate).ruleCode rule = .ok code) :
    Op.AllTyped g.vocabulary.tokenNames code := by
  obtain ⟨_, _, typed⟩ := compositional_allTyped.of_ruleCode h
  exact typed

end Setup

end RecognizerModel
