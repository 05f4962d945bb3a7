import RecognizerModel.Proofs.FilledFunctions
import RecognizerModel.Proofs.TreeBuilding

/-! The context fields of implicit labels. Labels for tokens, literals and rules are made in three
ways and share the names of a context with the attributes and the explicit labels of the rule. Of
two fields with a name the first is kept, whatever it holds. -/
namespace RecognizerModel

namespace Op

/-- The usual implicit label of an operation without the underscore in front of it. -/
def labelStem? : Op → Option String
  | invokeRule name _ _ _ => some name
  | matchToken name _ _ => some (Text.lower name)
  | matchLiteral _ ttype _ => some (Text.lower s!"T__{ttype}")
  | _ => none

def invokes : Op → Bool
  | invokeRule .. => true
  | _ => false

@[simp] theorem labelStem?_addLabel (op : Op) (label : String) :
    (op.addLabel label).labelStem? = op.labelStem? := by
  cases op <;> rfl

@[simp] theorem invokes_addLabel (op : Op) (label : String) :
    (op.addLabel label).invokes = op.invokes := by
  cases op <;> rfl

@[simp] theorem field_addLabel (isList : Bool) (name label : String) (op : Op) :
    (op.addLabel label).field isList name = op.field isList name := by
  cases op <;> rfl

end Op

namespace Setup

variable {setup : Setup} {language extension : String}

theorem implicitLabel?_eq (usual : setup.labelTarget = .generic language extension) (op : Op) :
    setup.implicitLabel? op = op.labelStem?.map ("_" ++ ·) := by
  cases op <;> simp only [implicitLabel?, usual] <;> rfl

@[simp] theorem implicitLabel?_addLabel (setup : Setup) (op : Op) (label : String) :
    setup.implicitLabel? (op.addLabel label) = setup.implicitLabel? op := by
  cases op <;> rfl

/-- A usual implicit label tells what it was made of. -/
theorem labelStem?_of_implicitLabel? (usual : setup.labelTarget = .generic language extension)
    {op other : Op} {label : String} (h : setup.implicitLabel? op = some label)
    (h' : setup.implicitLabel? other = some label) : op.labelStem? = other.labelStem? := by
  rw [implicitLabel?_eq usual, Option.map_eq_some_iff] at h h'
  obtain ⟨stem, hstem, rfl⟩ := h
  obtain ⟨stem', hstem', same⟩ := h'
  rw [hstem, hstem', (String.append_right_inj _).mp same]

/-- Implicit labels of one sort hold the same: of two rules only if these have one name, and of
tokens and literals in any case. -/
theorem field_eq_of_plainOp {r r' : Reference} {op op' : Op} (h : setup.plainOp r = .ok op)
    (h' : setup.plainOp r' = .ok op') (sort : op.invokes = op'.invokes)
    (stem : op.labelStem? = op'.labelStem?) (label : String) :
    op.field false label = op'.field false label := by
  have known {r : Reference} {op : Op} (h : setup.plainOp r = .ok op) :
      op.invokes = false ∧ op.field false label = .token label ∨ op.invokes = true ∧
        ∃ name, op.labelStem? = some name ∧
          op.field false label = .ruleContext label (setup.labelTarget.contextType name) := by
    match r with
    | .rule ⟨_, some name, _, _⟩ =>
        cases h
        exact .inr ⟨rfl, name, rfl, rfl⟩
    | .token ⟨_, some _, _, _⟩ | .literal ⟨_, some _⟩ =>
        obtain ⟨ttype, _, h⟩ := bind_eq_ok.mp h
        cases h
        exact .inl ⟨rfl, rfl⟩
    | .rule ⟨_, none, _, _⟩ | .token ⟨_, none, _, _⟩ | .literal ⟨_, none⟩ => cases h
  obtain ⟨other, kind⟩ | ⟨invoked, name, hname, kind⟩ := known h
  · obtain ⟨_, kind'⟩ | ⟨invoked', _⟩ := known h'
    · rw [kind, kind']
    · rw [other, invoked'] at sort
      cases sort
  · obtain ⟨other', _⟩ | ⟨_, name', hname', kind'⟩ := known h'
    · rw [invoked, other'] at sort
      cases sort
    · rw [hname, hname', Option.some.injEq] at stem
      rw [kind, kind', stem]

theorem MatchesAt.exists_unlabeled {site : ReferenceSite} {op : Op}
    (h : setup.MatchesAt site op) : ∃ unlabeled, setup.plainOp site.reference = .ok unlabeled ∧
      unlabeled.invokes = op.invokes ∧ unlabeled.labelStem? = op.labelStem? ∧
      ∀ label, unlabeled.field false label = op.field false label := by
  obtain ⟨unlabeled, hop, hlabeled⟩ := h
  refine ⟨unlabeled, hop, ?_⟩
  obtain rfl | ⟨name, rfl⟩ := eq_or_eq_addLabel_of_labeled hlabeled
  · exact ⟨rfl, rfl, fun _ => rfl⟩
  · simp

/-- An operation with an implicit label has its field declared. -/
theorem MatchesAt.field?_of_implicit {site : ReferenceSite} {op : Op} {label : String}
    (h : setup.MatchesAt site op) (bare : site.label = none) (held : op.labels? = some [label]) :
    setup.implicitLabel? op = some label ∧
      setup.field? site = some (op.field false label) := by
  obtain ⟨unlabeled, hop, hlabeled⟩ := h
  have fresh := setup.labels?_of_plainOp hop
  rw [bare, labeled, Except.ok.injEq] at hlabeled
  unfold field? labelField?
  rw [hop, bare]
  dsimp only
  split at hlabeled
  · next needed =>
    rw [if_pos needed]
    rw [withImplicitLabel] at hlabeled
    cases implicit : setup.implicitLabel? unlabeled with
    | none =>
        rw [implicit] at hlabeled
        rw [← hlabeled, fresh] at held
        cases held
    | some name =>
        rw [implicit] at hlabeled
        subst hlabeled
        rw [Op.labels?_addLabel fresh] at held
        cases held
        simp [implicit]
  · rw [← hlabeled, fresh] at held
    cases held

/-- A field that is declared at a site is that of the explicit label or of the implicit one. -/
theorem exists_of_field? {site : ReferenceSite} {field : Field}
    (h : setup.field? site = some field) :
    (∃ label, site.label = some label ∧ label.name = some field.name) ∨
      site.label = none ∧ ∃ op, setup.MatchesAt site op ∧
        setup.implicitLabel? op = some field.name ∧ field = op.field false field.name := by
  unfold field? at h
  split at h
  · next op hop =>
    unfold labelField? at h
    split at h
    · next label hlabel =>
      obtain ⟨name, hname, rfl⟩ := Option.map_eq_some_iff.mp h
      exact .inl ⟨label, hlabel, by rw [Op.name_field, hname]⟩
    · next hlabel =>
      split at h
      · next needed =>
        obtain ⟨label, implicit, rfl⟩ := Option.map_eq_some_iff.mp h
        refine .inr ⟨hlabel, op.addLabel label, ⟨op, hop, ?_⟩, ?_, ?_⟩
        · rw [hlabel, labeled, if_pos needed, withImplicitLabel, implicit]
        · rw [implicitLabel?_addLabel, implicit, Op.name_field]
        · rw [Op.name_field, Op.field_addLabel]
      · cases h
  · cases h

end Setup

/-- What is declared for a rule that is built: its attributes and, behind them, the labels of its
references in order. -/
def Rule.declarations (setup : Setup) (rule : Rule) : List Field :=
  rule.attributes.map .ofAttribute ++ rule.sites.filterMap setup.field?

/-- Whether a field was declared under the name of an operation's implicit label by something else:
an attribute, an explicit label, or the implicit label of a rule for a token or literal and the
other way round. -/
inductive Setup.Forestalls (setup : Setup) (rule : Rule) (op : Op) (field : Field) : Prop
  | ofAttribute {a : Attribute} : a ∈ rule.attributes → field = .ofAttribute a →
      Forestalls setup rule op field
  | ofExplicit {site : ReferenceSite} {label : Label} : site ∈ rule.sites →
      setup.field? site = some field → site.label = some label → label.name = some field.name →
        Forestalls setup rule op field
  | ofImplicit {site : ReferenceSite} {other : Op} : site ∈ rule.sites →
      setup.field? site = some field → site.label = none → setup.MatchesAt site other →
        other.invokes ≠ op.invokes → other.labelStem? = op.labelStem? →
          Forestalls setup rule op field

namespace Setup

variable {setup : Setup} {language extension : String}

/-- The first declaration under a usual implicit label is the one that the operation needs, unless
something else made it. -/
theorem MatchesAt.exists_field (usual : setup.labelTarget = .generic language extension)
    {rule : Rule} {site : ReferenceSite} {op : Op} {label : String}
    (h : setup.MatchesAt site op) (hsite : site ∈ rule.sites) (unlabeled : site.label = none)
    (held : op.labels? = some [label]) :
    ∃ field, (rule.declarations setup).find? (·.name == label) = some field ∧
      (field = op.field false label ∨ setup.Forestalls rule op field) := by
  obtain ⟨implicit, own⟩ := h.field?_of_implicit unlabeled held
  have declared : op.field false label ∈ rule.declarations setup :=
    List.mem_append_right _ (List.mem_filterMap.mpr ⟨site, hsite, own⟩)
  cases hfind : (rule.declarations setup).find? (·.name == label) with
  | none => simpa using List.find?_eq_none.mp hfind _ declared
  | some field =>
      have named : field.name = label := by simpa using List.find?_some hfind
      refine ⟨field, rfl, ?_⟩
      rcases List.mem_append.mp (List.mem_of_find?_eq_some hfind) with here | here
      · obtain ⟨a, ha, rfl⟩ := List.mem_map.mp here
        exact .inr (.ofAttribute ha rfl)
      · obtain ⟨first, hfirst, hfield⟩ := List.mem_filterMap.mp here
        obtain ⟨l, hlabel, hname⟩ | ⟨hlabel, other, matched, implicit', same⟩ :=
          exists_of_field? hfield
        · exact .inr (.ofExplicit hfirst hfield hlabel hname)
        · rw [named] at implicit' same
          have stem := labelStem?_of_implicitLabel? usual implicit' implicit
          by_cases sort : other.invokes = op.invokes
          · obtain ⟨_, hop, invokes, stem₁, field₁⟩ := matched.exists_unlabeled
            obtain ⟨_, hop', invokes', stem₂, field₂⟩ := h.exists_unlabeled
            rw [← invokes, ← invokes'] at sort
            rw [← stem₁, ← stem₂] at stem
            rw [same, ← field₁, ← field₂]
            exact .inl (field_eq_of_plainOp hop hop' sort stem label)
          · exact .inr (.ofImplicit hfirst hfield hlabel matched sort stem)

/-- A rule that is built has what is declared for it as its fields, each name where it comes
first. -/
theorem KeepsContracts.fields_of_built (keeps : setup.KeepsContracts)
    (leaves : setup.LeavesFunctions) {index : Nat} {rule : Rule}
    (hrule : (setup.grammar.rulesFor .parser)[index]? = some rule)
    (matched : ∀ code, setup.ruleCode rule = .ok code →
      List.Forall₂ setup.MatchesAt rule.sites (Op.matchedIn code)) :
    ∃ f outcome, setup.Makes index f outcome ∧ (outcome.isBuilt →
      f.fields = Field.firsts (rule.declarations setup) ∧
        List.Forall₂ setup.MatchesAt rule.sites (Op.matchedIn f.code)) := by
  refine ⟨_, _, keeps.makes_function leaves hrule, fun built => ?_⟩
  cases hcode : setup.ruleCode rule with
  | ok code =>
      refine ⟨?_, matched code hcode⟩
      have all := (setup.covers_rule rule).whole code hcode
      rw [Rule.declarations, ← all]
      exact rule.fields_emptyFunction setup.target index _
  | error construct =>
      rw [hcode] at built
      cases built

variable {g : Grammar} {target : Target} {validate : Bool}

/-- Tree building labels what has no label without it. -/
theorem MatchesAt.treeing {site : ReferenceSite} {op : Op}
    (h : (plain g target validate).MatchesAt site op) :
    (treeing g target false).MatchesAt site (op.labeledAnyway (plain g target validate)) := by
  obtain ⟨unlabeled, hop, hlabeled⟩ := h
  obtain ⟨name, same, labels⟩ := labeled_treeing (labels?_of_plainOp _ hop) hlabeled
  rw [same]
  exact ⟨unlabeled, hop, labels⟩

theorem treeing_leavesFunctions (g : Grammar) (target : Target) (validate : Bool) :
    (treeing g target validate).LeavesFunctions :=
  ⟨fun _ => rfl, fun _ => rfl, fun _ => rfl⟩

theorem matchesAt_of_ruleCode_treeing {index : Nat} {rule : Rule} {code : List Op}
    (hrule : (g.rulesFor .parser)[index]? = some rule)
    (h : (treeing g target false).ruleCode rule = .ok code) :
    List.Forall₂ (treeing g target false).MatchesAt rule.sites (Op.matchedIn code) := by
  obtain ⟨f, makes, _⟩ := plain_makes g target false hrule
  have makes' := (treeing_keepsContracts g target).makes_function
    (treeing_leavesFunctions g target false) hrule
  have same := makes.outcome_eq (reports_of_treeing g target false) makes'
  cases hplain : (plain g target false).ruleCode rule with
  | error construct =>
      rw [h, hplain] at same
      cases same
  | ok before =>
      obtain ⟨n, _, made⟩ :=
        List.mem_filterMap.mp (List.mem_filter.mp (List.mem_of_getElem? hrule)).1
      obtain ⟨kind, rfl⟩ := Node.rule?_eq_some_iff.mp made
      obtain ⟨grafted, hgrafted, grafts⟩ := graftAll_of_ruleCode kind hplain
      obtain rfl : code = grafted := Except.ok.inj (h.symm.trans hgrafted)
      have matched := Op.matchedIn_graftAll (plain g target false) before
        (n.markedReferences.map MarkedReference.mark)
      rw [grafts] at matched
      rw [matched, List.forall₂_map_right_iff]
      exact (matchesAt_of_ruleCode hplain).imp fun _ _ => MatchesAt.treeing

theorem labelTarget_of_ofConfig {setup : Setup} {treeBuilding : Bool}
    (h : ofConfig g ⟨some target, validate, treeBuilding⟩ [] = .ok setup) :
    setup.labelTarget = target := by
  cases treeBuilding with
  | false =>
      rw [ofConfig_plain, Except.ok.injEq] at h
      rw [← h]
      rfl
  | true =>
      rw [ofConfig_treeing, Except.ok.injEq] at h
      rw [← h]
      rfl

/-- Without extensions or with tree building, what a rule that is built matches has its fields. -/
theorem fields_of_ofConfig {setup : Setup} {treeBuilding : Bool} {index : Nat} {rule : Rule}
    (h : ofConfig g ⟨some target, validate, treeBuilding⟩ [] = .ok setup)
    (hrule : (g.rulesFor .parser)[index]? = some rule) :
    ∃ f outcome, setup.Makes index f outcome ∧ (outcome.isBuilt →
      f.fields = Field.firsts (rule.declarations setup) ∧
        List.Forall₂ setup.MatchesAt rule.sites (Op.matchedIn f.code)) := by
  cases treeBuilding with
  | false =>
      rw [ofConfig_plain, Except.ok.injEq] at h
      subst h
      exact (plain_keepsContracts g target validate).fields_of_built
        (plain_leavesFunctions g target validate) hrule fun _ => matchesAt_of_ruleCode
  | true =>
      rw [ofConfig_treeing, Except.ok.injEq] at h
      subst h
      obtain ⟨f, outcome, makes, built⟩ := (treeing_keepsContracts g target).fields_of_built
        (treeing_leavesFunctions g target false) hrule
          fun _ => matchesAt_of_ruleCode_treeing hrule
      exact ⟨f, outcome, makes.of_same_model (treeing_unvalidated g target validate), built⟩

/-- In a rule that is built for a target with the usual names, without extensions or with tree
building, each operation with an implicit label has one field of that name in the context, the one
that is declared first. It is of the kind and type that the operation needs unless an attribute, an
explicit label or an implicit label of the other sort came before. -/
theorem field_of_implicitLabel (g : Grammar) (language extension : String)
    (validate treeBuilding : Bool) {setup : Setup}
    (h : ofConfig g ⟨some (.generic language extension), validate, treeBuilding⟩ [] = .ok setup)
    {index : Nat} {rule : Rule} (hrule : (g.rulesFor .parser)[index]? = some rule) :
    ∃ f outcome, setup.Makes index f outcome ∧ (outcome.isBuilt →
      List.Forall₂ (fun site op => setup.MatchesAt site op ∧
          ∀ label, site.label = none → op.labels? = some [label] →
            ∃ ctx field, f.context = some ctx ∧ ctx.fields.filter (·.name == label) = [field] ∧
              (rule.declarations setup).find? (·.name == label) = some field ∧
              (field = op.field false label ∨ setup.Forestalls rule op field))
        rule.sites (Op.matchedIn f.code)) := by
  have usual : setup.labelTarget = .generic language extension := labelTarget_of_ofConfig h
  obtain ⟨f, outcome, makes, fields⟩ := fields_of_ofConfig h hrule
  refine ⟨f, outcome, makes, fun built => ?_⟩
  obtain ⟨hfields, matched⟩ := fields built
  refine ((List.forall₂_and_left _ _).mpr ⟨fun site hsite => hsite, matched⟩).imp ?_
  rintro site op ⟨hsite, here⟩
  refine ⟨here, fun label unlabeled held => ?_⟩
  obtain ⟨field, first, needed⟩ := here.exists_field usual hsite unlabeled held
  have single := Field.filter_firsts label (rule.declarations setup)
  rw [first, ← hfields, RuleFunction.fields] at single
  cases context : f.context with
  | none =>
      rw [context] at single
      cases single
  | some ctx =>
      rw [context] at single
      exact ⟨ctx, field, rfl, single, first, needed⟩

end Setup

/-- A rule that invokes three others, whose implicit labels are taken already: one by a token, one
by an argument and one by an explicit label. -/
def Grammar.takenNames : Grammar :=
  (load ("(PARSER_GRAMMAR P(RULE a(ARG_ACTION[int _b])(BLOCK(ALT(TOKEN_REF D)(RULE_REF d)" ++
    "(RULE_REF b)(ASSIGN _c(TOKEN_REF D))(RULE_REF c)(ACTION\x7b$D$d$b$c\x7d))))" ++
    "(RULE b(BLOCK(ALT(EPSILON))))(RULE c(BLOCK(ALT(EPSILON))))" ++
    "(RULE d(BLOCK(ALT(EPSILON)))))")).toOption.get (by decide +kernel)

namespace Setup

theorem matched_takenNames : ∃ rule code,
    (Grammar.takenNames.rulesFor .parser)[0]? = some rule ∧
      (plain .takenNames .java true).ruleCode rule = .ok code ∧
      rule.sites.map (·.label.isNone) = [true, true, true, false, true] ∧
      (Op.matchedIn code).map Op.labels? =
        [some ["_d"], some ["_d"], some ["_b"], some ["_c"], some ["_c"]] ∧
      List.zipWith (Op.field false) ["_d", "_d", "_b", "_c", "_c"] (Op.matchedIn code) =
        [.token "_d", .ruleContext "_d" "DContext", .ruleContext "_b" "BContext", .token "_c",
          .ruleContext "_c" "CContext"] ∧
      (rule.emptyFunction .java 0 (rule.declared (plain .takenNames .java true))).context =
        some ⟨"AContext", [⟨.value, "_b", some "int"⟩, .token "_d", .token "_c"]⟩ := by
  have evaluated : ((Grammar.takenNames.rulesFor .parser)[0]?.bind fun rule =>
      ((plain .takenNames .java true).ruleCode rule).toOption.map fun code =>
        (rule.sites.map (·.label.isNone), (Op.matchedIn code).map Op.labels?,
          List.zipWith (Op.field false) ["_d", "_d", "_b", "_c", "_c"] (Op.matchedIn code),
          (rule.emptyFunction .java 0 (rule.declared (plain .takenNames .java true))).context)) =
      some ([true, true, true, false, true],
        [some ["_d"], some ["_d"], some ["_b"], some ["_c"], some ["_c"]],
        [.token "_d", .ruleContext "_d" "DContext", .ruleContext "_b" "BContext", .token "_c",
          .ruleContext "_c" "CContext"],
        some ⟨"AContext", [⟨.value, "_b", some "int"⟩, .token "_d", .token "_c"]⟩) := by
    decide +kernel
  obtain ⟨rule, hrule, evaluated⟩ := Option.bind_eq_some_iff.mp evaluated
  obtain ⟨code, hcode, seen⟩ := Option.map_eq_some_iff.mp evaluated
  simp only [Prod.mk.injEq] at seen
  exact ⟨rule, code, hrule, eq_ok_of_toOption hcode, seen⟩

/-- The token comes first, so that it has the field that it needs. -/
theorem field_of_implicitLabel_takenNames : ∃ rule f outcome op ctx field,
    (Grammar.takenNames.rulesFor .parser)[0]? = some rule ∧
      (plain .takenNames .java true).Makes 0 f outcome ∧ outcome.isBuilt ∧
      (Op.matchedIn f.code).head? = some op ∧ op.labels? = some ["_d"] ∧
      f.context = some ctx ∧ ctx.fields.filter (·.name == "_d") = [field] ∧
      (rule.declarations (plain .takenNames .java true)).find? (·.name == "_d") =
        some field ∧
      (field = op.field false "_d" ∨
        (plain .takenNames .java true).Forestalls rule op field) := by
  obtain ⟨rule, code, hrule, hcode, labels, held, _⟩ := matched_takenNames
  obtain ⟨f, outcome, makes, fields⟩ := field_of_implicitLabel .takenNames "Java" "java" true
    false (ofConfig_plain .takenNames .java true) hrule
  have made := plain_makes_function .takenNames .java true hrule
  rw [hcode] at made
  obtain ⟨hf, houtcome⟩ := makes.unique made
  have built : outcome.isBuilt := by
    rw [houtcome]
    rfl
  have same : f.code = code := by
    rw [hf]
    rfl
  -- the first site and the operation there
  obtain ⟨site, _, hsites, unlabeled, _⟩ := List.map_eq_cons_iff.mp labels
  obtain ⟨op, _, hops, held, _⟩ := List.map_eq_cons_iff.mp held
  rw [← same] at hops
  have all := fields built
  rw [hsites, hops] at all
  obtain ⟨_, here⟩ := (List.forall₂_cons.mp all).1
  obtain ⟨ctx, field, context, single, first, needed⟩ :=
    here "_d" (Option.isNone_iff_eq_none.mp unlabeled) held
  exact ⟨rule, f, outcome, op, ctx, field, hrule, makes, built, congrArg List.head? hops, held,
    context, single, first, needed⟩

/-- Each of the rules that are invoked has its implicit label, but none has a field of its own. -/
theorem takenNames_collide : Grammar.takenNames.Loaded ∧ ∃ rule f outcome ctx,
    (Grammar.takenNames.rulesFor .parser)[0]? = some rule ∧
      (plain .takenNames .java true).Makes 0 f outcome ∧ outcome.isBuilt ∧
      rule.sites.map (·.label.isNone) = [true, true, true, false, true] ∧
      (Op.matchedIn f.code).map Op.labels? =
        [some ["_d"], some ["_d"], some ["_b"], some ["_c"], some ["_c"]] ∧
      List.zipWith (Op.field false) ["_d", "_d", "_b", "_c", "_c"] (Op.matchedIn f.code) =
        [.token "_d", .ruleContext "_d" "DContext", .ruleContext "_b" "BContext", .token "_c",
          .ruleContext "_c" "CContext"] ∧
      f.context = some ctx ∧
      ctx.fields = [⟨.value, "_b", some "int"⟩, .token "_d", .token "_c"] := by
  obtain ⟨rule, code, hrule, hcode, unlabeled, held, kinds, context⟩ := matched_takenNames
  have makes := plain_makes_function .takenNames .java true hrule
  rw [hcode] at makes
  exact ⟨Grammar.loaded_get _, rule, _, _, _, hrule, makes, rfl, unlabeled, held, kinds, context,
    rfl⟩

end Setup

end RecognizerModel
