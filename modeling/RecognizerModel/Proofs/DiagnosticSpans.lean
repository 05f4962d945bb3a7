import RecognizerModel.Proofs.Accounts

/-! Where the diagnostics of a parser job point. Whatever extensions took part and however the job
ended, each span in a diagnostic is the span of a node of the grammar's tree. -/
namespace RecognizerModel

/-- All spans that a diagnostic points at. -/
def Diagnostic.spans (d : Diagnostic) : List Span :=
  d.span :: d.related.map RelatedPlace.span

/-- Whether a span is that of a node at or below another. -/
def Node.HasSpan (root : Node) (span : Span) : Prop :=
  ∃ n ∈ root.descendants, span = n.span

theorem Node.HasSpan.of_mem_inner {root n : Node} (hn : n ∈ root.inner.nodes) {span : Span}
    (h : n.HasSpan span) : root.HasSpan span := by
  obtain ⟨d, hd, same⟩ := h
  exact ⟨d, root.descendants_of_mem_inner hn hd, same⟩

/-- Whether a diagnostic points at nodes at or below another. -/
def Diagnostic.PointsInto (root : Node) (d : Diagnostic) : Prop :=
  ∀ span ∈ d.spans, root.HasSpan span

theorem Diagnostic.pointsInto_ofMalformed {root : Node} (rule : String) {c : Malformed}
    (h : root.HasSpan c.place.span) : (ofMalformed rule c).PointsInto root := by
  simpa [PointsInto, spans, ofMalformed] using h

theorem Node.pointsInto_of_mem_warnings {g : Grammar} {root n : Node} (hn : n ∈ root.inner.nodes)
    {name : String} {d : Diagnostic} (h : d ∈ n.warnings g name) : d.PointsInto root := by
  obtain ⟨p, hp, detail, rfl⟩ := exists_of_mem_warnings h
  have here : root.HasSpan p.node.span :=
    .of_mem_inner hn ⟨p.node, n.mem_descendants_of_mem_walked hp, rfl⟩
  simpa [Diagnostic.PointsInto, Diagnostic.spans, Diagnostic.ofUnclassified] using here

namespace Job

/-- Whether a job leaves only diagnostics with a property, if there were only such before it, and
answers in a certain way if it comes to its end. -/
def Tells (P : Diagnostic → Prop) (job : Job α) (Q : α → Prop) : Prop :=
  ∀ s, (∀ d ∈ s.diagnostics, P d) →
    (∀ d ∈ (job s).2.diagnostics, P d) ∧ ∀ a, (job s).1 = .ok a → Q a

variable {P : Diagnostic → Prop}

theorem tells_pure {Q : α → Prop} {a : α} (h : Q a) : (Pure.pure a : Job α).Tells P Q := by
  intro s told
  refine ⟨told, fun b same => ?_⟩
  cases same
  exact h

theorem tells_fatal {Q : α → Prop} (error : BuildError) : (Job.fatal error : Job α).Tells P Q :=
  fun _ told => ⟨told, nofun⟩

theorem Tells.bind {job : Job α} {next : α → Job β} {Q : α → Prop} {R : β → Prop}
    (hjob : job.Tells P Q) (hnext : ∀ a, Q a → (next a).Tells P R) :
    (job >>= next).Tells P R := by
  intro s told
  obtain ⟨told', answers⟩ := hjob s told
  rw [bind_run]
  rcases hrun : job s with ⟨failure | a, t⟩ <;> rw [hrun] at told' answers
  · exact ⟨told', nofun⟩
  · exact hnext a (answers a rfl) t told'

theorem tells_modifyContext (change : Context → Context) :
    (Job.modifyContext change).Tells P fun _ => True :=
  fun _ told => ⟨told, fun _ _ => trivial⟩

theorem tells_modifyRule (change : RuleFunction → RuleFunction) :
    (Job.modifyRule change).Tells P fun _ => True := by
  intro s told
  unfold modifyRule
  split
  · exact ⟨told, fun _ _ => trivial⟩
  · exact ⟨told, nofun⟩

theorem tells_popRule : Job.popRule.Tells P fun _ => True := by
  intro s told
  unfold popRule
  split
  · exact ⟨told, fun _ _ => trivial⟩
  · exact ⟨told, nofun⟩

theorem tells_report {d : Diagnostic} (h : P d) : (Job.report d).Tells P fun _ => True := by
  intro s told
  refine ⟨?_, fun _ _ => trivial⟩
  exact List.forall_mem_append.mpr ⟨told, by simpa using h⟩

theorem tells_takeDiagnostics : Job.takeDiagnostics.Tells P fun ds => ∀ d ∈ ds, P d := by
  intro s told
  refine ⟨nofun, fun ds same => ?_⟩
  cases same
  exact told

/-- What is reported while a rule is under construction, whatever that rule is called, is told; and
so is the fault of a failure that is attempted. -/
theorem tells_attempt {job : Job α} {Fault : Malformed → Prop} {told : String → List Diagnostic}
    (hjob : ∀ rule, job.Reports rule Fault (told rule)) (h : ∀ rule, ∀ d ∈ told rule, P d) :
    job.attempt.Tells P fun result => ∀ c, result = .error c → Fault c := by
  intro s before
  have run := hjob s.context.ruleName s rfl
  have each := h s.context.ruleName
  unfold attempt
  rcases hrun : job s with ⟨(error | construct) | a, t⟩ <;> rw [hrun] at run
  · obtain ⟨⟨first, isFirst, ht⟩, -⟩ := run
    constructor
    · rw [ht]
      exact List.forall_mem_append.mpr ⟨before, fun d hd => each d (isFirst.subset hd)⟩
    · intro result same
      cases same
  · obtain ⟨⟨first, isFirst, ht⟩, fault⟩ := run
    constructor
    · rw [ht]
      exact List.forall_mem_append.mpr ⟨before, fun d hd => each d (isFirst.subset hd)⟩
    · intro result same c failed
      cases same
      cases failed
      exact fault construct rfl
  · obtain ⟨-, ht⟩ := run
    constructor
    · rw [ht]
      exact List.forall_mem_append.mpr ⟨before, each⟩
    · intro result same c failed
      cases same
      cases failed

end Job

namespace Setup

variable {setup : Setup} {P : Diagnostic → Prop}

theorem tells_visit (p : Point) (node : p.Node) : (setup.visit p node).Tells P fun _ => True := by
  have recorded (count : Nat) : (Job.recordVisits p count).Tells P fun _ => True :=
    fun _ told => ⟨told, fun _ _ => trivial⟩
  refine (recorded _).bind fun _ _ => ?_
  split
  · exact Job.tells_pure trivial
  · exact Job.tells_fatal _

theorem tells_checkJob : (setup.checkJob .parser).Tells P fun _ => True := by
  unfold checkJob
  dsimp only
  by_cases supported : setup.grammar.kind.supports .parser
  · by_cases empty : (setup.grammar.rulesFor .parser).isEmpty
    · simpa [supported, empty] using Job.tells_fatal _
    · simpa [supported, empty] using Job.tells_pure (α := Unit) trivial
  · simpa [supported] using Job.tells_fatal _

section

variable (loaded : setup.grammar.Loaded)
include loaded

/-- The walk over a rule stays with the nodes of the rule. -/
theorem tells_walkRule {n : Node} (hn : n ∈ setup.grammar.ruleNodes .parser) :
    (setup.walkRule (.ofNode n)).attempt.Tells (·.PointsInto setup.grammar.root)
      fun result => ∀ c, result = .error c → setup.grammar.root.HasSpan c.place.span := by
  have inRoot : n ∈ setup.grammar.root.inner.nodes := (List.mem_filter.mp hn).1
  have hrule : Rule.ofNode n ∈ setup.grammar.rulesFor .parser := by
    rw [Grammar.rulesFor_eq]
    exact List.mem_map_of_mem hn
  have spans (block : Block) (hblock : (Rule.ofNode n).block = some block) :
      block.AllSpans setup.grammar.root.HasSpan := by
    obtain ⟨m, hm, made⟩ := (hereditary_allSpans setup.grammar.root.HasSpan).body n.inner block
      (List.mem_of_head? hblock)
    exact made fun d hd => .of_mem_inner inRoot ⟨d, n.descendants_of_mem_inner hm hd, rfl⟩
  have here : setup.grammar.root.HasSpan (Rule.ofNode n).span :=
    .of_mem_inner inRoot ⟨n, n.mem_descendants_self, rfl⟩
  have walk (name : String) : (setup.walkRule (.ofNode n)).Reports name
      (Malformed.FaultIn setup.grammar.root.HasSpan) (n.warnings setup.grammar name) := by
    rw [← Rule.warnings_parts setup.grammar (Grammar.kind_of_mem_ruleNodes hn)]
    exact setup.reports_walkRule (fun _ => loaded.covers hrule) here spans
  intro s told
  obtain ⟨told', fault⟩ :=
    Job.tells_attempt walk (fun _ _ => Node.pointsInto_of_mem_warnings inRoot) s told
  exact ⟨told', fun result same c failed => (fault result same c failed).span⟩

omit loaded in
theorem tells_settle {root : Node} (name : String) {result : Except Malformed (List Op)}
    (h : ∀ c, result = .error c → root.HasSpan c.place.span) :
    (settle name result).Tells (·.PointsInto root) fun _ => True := by
  cases result with
  | ok code => exact (Job.tells_modifyRule _).bind fun _ _ => Job.tells_pure trivial
  | error construct =>
    have points := Diagnostic.pointsInto_ofMalformed name (h construct rfl)
    exact (Job.tells_report points).bind fun _ _ => Job.tells_pure trivial

theorem tells_buildRule {n : Node} (hn : n ∈ setup.grammar.ruleNodes .parser) (index : Nat) :
    (setup.buildRule setup.walkRule (.ofNode n) index).Tells (·.PointsInto setup.grammar.root)
      fun _ => True := by
  rw [buildRule_eq]
  refine (tells_visit .rule _).bind fun f _ => ?_
  refine (Job.tells_modifyContext _).bind fun _ _ => ?_
  refine (tells_walkRule loaded hn).bind fun result fault => ?_
  refine (tells_settle _ fault).bind fun outcome _ => ?_
  refine (Job.tells_modifyContext _).bind fun _ _ => ?_
  refine (tells_visit .rulePostamble _).bind fun postamble _ => ?_
  exact Job.tells_popRule.bind fun f _ => Job.tells_pure trivial

theorem tells_buildRules {nodes : List Node} (inGrammar : nodes ⊆ setup.grammar.ruleNodes .parser)
    (index : Nat) : (setup.buildRules setup.walkRule index (nodes.map .ofNode)).Tells
      (·.PointsInto setup.grammar.root) fun _ => True := by
  induction nodes generalizing index with
  | nil => exact Job.tells_pure trivial
  | cons n rest ih =>
    obtain ⟨hn, others⟩ := List.cons_subset.mp inGrammar
    refine (tells_buildRule loaded hn index).bind fun built _ => ?_
    exact (ih others (index + 1)).bind fun _ _ => Job.tells_pure trivial

/-- A parser job points at nodes of the grammar, in the diagnostics of the model that it makes and
in those that stay behind if it breaks off. -/
theorem tells_parserModel : setup.parserModel.Tells (·.PointsInto setup.grammar.root)
    fun model => ∀ d ∈ model.diagnostics, d.PointsInto setup.grammar.root := by
  refine tells_checkJob.bind fun _ _ => ?_
  refine (tells_visit .parserFile _).bind fun file _ => ?_
  refine (Job.tells_modifyContext _).bind fun _ _ => ?_
  refine (tells_visit .parser _).bind fun table _ => ?_
  rw [Grammar.rulesFor_eq]
  refine (tells_buildRules loaded (List.Subset.refl _) 0).bind fun built _ => ?_
  exact Job.tells_takeDiagnostics.bind fun ds told => Job.tells_pure told

end

end Setup

end RecognizerModel
