import RecognizerModel.Build.Job

/-! What an extension owes to the nodes that it is shown. A chain fails only through an extension
that changes the role of a node or takes away the operation that has to stay, and only if it is
validated. -/
namespace RecognizerModel

/-- Whether a node is a list with an operation of a kind. -/
def Subject.Holds (kind : OpKind) : (s : Subject) → s.Node → Prop
  | ops, list => ∃ op ∈ list, op.kind = kind
  | _, _ => False

/-- Whether a node holds the operation that has to stay in it at a point, if there is one. -/
def Point.Anchored (p : Point) (node : p.Node) : Prop :=
  ∀ kind, p.anchor? = some kind → p.subject.Holds kind node

namespace Extension

def ChangesRole (e : Extension) (p : Point) (node : p.Node) : Prop :=
  p.subject.role (e.hook p node) ≠ p.subject.role node

/-- Whether an extension takes away the operation that has to stay. -/
def RemovesAnchor (e : Extension) (p : Point) (node : p.Node) : Prop :=
  p.Anchored node ∧ ¬p.Anchored (e.hook p node)

end Extension

/-- The errors by which a validated job says that an extension broke its contract for a node. -/
inductive Setup.Breach (setup : Setup) : BuildError → Prop
  | intro {e : Extension} {p : Point} {node : p.Node} {expected found : String} :
      setup.chain.validate = true → e ∈ setup.chain.extensions →
        e.ChangesRole p node ∨ e.RemovesAnchor p node →
          Contract.ofSubject p.anchor? p.subject node (e.hook p node) = some (expected, found) →
            Breach setup (.contractViolation e.name p expected found)

namespace Contract

variable {anchor : Option OpKind}

/-- What keeps the contract still holds the operation that has to stay. -/
theorem holds_of_kept {s : Subject} {before after : s.Node}
    (held : ∀ kind, anchor = some kind → s.Holds kind before)
    (kept : ofSubject anchor s before after = none) :
    ∀ kind, anchor = some kind → s.Holds kind after := by
  rintro kind rfl
  cases s with
  | ops =>
      by_cases stays : List.any after (·.kind == kind)
      · simpa [Subject.Holds] using stays
      · simp [ofSubject, keepsAnchor, stays] at kept
  | _ => exact (held kind rfl).elim

theorem role_of_kept {s : Subject} {before after : s.Node}
    (kept : ofSubject anchor s before after = none) : s.role after = s.role before := by
  have same (h : keepsRole before after = none) : s.role after = s.role before := by
    unfold keepsRole at h
    split at h
    · assumption
    · cases h
  cases s with
  | ops => rfl
  | _ => exact same kept

/-- A contract is about the role of a node or about the operation that has to stay. -/
theorem cause_of_broken {s : Subject} {before after : s.Node} {expected found : String}
    (broken : ofSubject anchor s before after = some (expected, found)) :
    s.role after ≠ s.role before ∨ ¬∀ kind, anchor = some kind → s.Holds kind after := by
  have changed (h : keepsRole before after = some (expected, found)) :
      s.role after ≠ s.role before := by
    unfold keepsRole at h
    split at h
    · cases h
    · assumption
  cases s with
  | ops =>
      right
      intro held
      cases anchor with
      | none => cases broken
      | some kind =>
          have stays : List.any after (·.kind == kind) := by
            simpa [Subject.Holds] using held kind rfl
          simp [ofSubject, keepsAnchor, stays] at broken
  | _ => exact .inl (changed broken)

end Contract

namespace Chain

/-- An extension on the way gets a node that holds the operation that has to stay, since those
before it left that operation in. -/
theorem breach_of_pass {p : Point} {extensions : List Extension} {node : p.Node}
    {error : BuildError} (held : p.Anchored node)
    (h : (pass p (.ofSubject p.anchor? p.subject) (·.hook p) extensions node).outcome =
      .error error) :
    ∃ e ∈ extensions, ∃ (node : p.Node) (expected found : String),
      (e.ChangesRole p node ∨ e.RemovesAnchor p node) ∧
      Contract.ofSubject p.anchor? p.subject node (e.hook p node) = some (expected, found) ∧
      error = .contractViolation e.name p expected found := by
  induction extensions generalizing node with
  | nil => cases h
  | cons e rest ih =>
      unfold pass at h
      dsimp only at h
      split at h
      · next expected found broken =>
        refine ⟨e, List.mem_cons_self .., node, expected, found, ?_, broken,
          (Except.error.inj h).symm⟩
        exact (Contract.cause_of_broken broken).imp id fun lost => ⟨held, lost⟩
      · next kept =>
        obtain ⟨e', he', breach⟩ := ih (Contract.holds_of_kept held kept) h
        exact ⟨e', List.mem_cons_of_mem _ he', breach⟩

/-- What every extension keeps that keeps the contract is kept by a pass that finds no breach. -/
theorem of_pass_ok {p : Point} {contract : Contract p.Node} {extensions : List Extension}
    {P : p.Node → Prop} {node after : p.Node}
    (step : ∀ e ∈ extensions, ∀ node, P node → contract node (e.hook p node) = none →
      P (e.hook p node))
    (start : P node)
    (h : (pass p contract (·.hook p) extensions node).outcome = .ok after) : P after := by
  induction extensions generalizing node with
  | nil =>
      cases h
      exact start
  | cons e rest ih =>
      unfold pass at h
      dsimp only at h
      split at h
      · cases h
      · next kept =>
        exact ih (fun e he => step e (List.mem_cons_of_mem _ he))
          (step e (List.mem_cons_self ..) node start kept) h

/-- Without validation nothing is found. -/
theorem exists_ok_of_pass_free (p : Point) (hook : Extension → N → N)
    (extensions : List Extension) (node : N) :
    ∃ after, (pass p .free hook extensions node).outcome = .ok after := by
  induction extensions generalizing node with
  | nil => exact ⟨node, rfl⟩
  | cons e rest ih => exact ih (hook e node)

end Chain

namespace Setup

variable {setup : Setup} {p : Point} {node : p.Node}

/-- A node shown to the extensions of a setup comes back unless one of them breaks a contract. -/
theorem breach_of_fold {error : BuildError} (held : setup.chain.validate = true → p.Anchored node)
    (h : (setup.chain.fold p p.anchor? node).outcome = .error error) : setup.Breach error := by
  unfold Chain.fold at h
  by_cases validate : setup.chain.validate = true
  · rw [if_pos validate] at h
    obtain ⟨e, he, node, expected, found, cause, broken, rfl⟩ :=
      Chain.breach_of_pass (held validate) h
    exact .intro validate he cause broken
  · rw [if_neg validate] at h
    obtain ⟨after, hafter⟩ := Chain.exists_ok_of_pass_free p _ setup.chain.extensions node
    rw [hafter] at h
    cases h

theorem anchored_of_fold {after : p.Node} (validate : setup.chain.validate = true)
    (held : p.Anchored node)
    (h : (setup.chain.fold p p.anchor? node).outcome = .ok after) : p.Anchored after := by
  unfold Chain.fold at h
  rw [if_pos validate] at h
  exact Chain.of_pass_ok (P := p.Anchored) (fun _ _ _ held => Contract.holds_of_kept held) held h

/-- A validated node that comes back plays the part that it played before. -/
theorem role_of_fold {after : p.Node} (validate : setup.chain.validate = true)
    (h : (setup.chain.fold p p.anchor? node).outcome = .ok after) :
    p.subject.role after = p.subject.role node := by
  unfold Chain.fold at h
  rw [if_pos validate] at h
  exact Chain.of_pass_ok (P := fun after => p.subject.role after = p.subject.role node)
    (fun _ _ _ same kept => (Contract.role_of_kept kept).trans same) rfl h

end Setup

theorem mem_insertAfterLabel {make : String → Op} {op : Op} {ops : List Op} (h : op ∈ ops) :
    op ∈ insertAfterLabel make ops := by
  induction ops with
  | nil => cases h
  | cons first rest ih =>
      unfold insertAfterLabel
      split
      · exact ((List.sublist_cons_self _ rest).cons_cons first).mem h
      · rcases List.mem_cons.mp h with rfl | h
        · exact List.mem_cons_self ..
        · exact List.mem_cons_of_mem _ (ih h)

/-- Tree building only adds operations. -/
theorem Extension.treeBuilding_anchored {p : Point} {node : p.Node} (held : p.Anchored node) :
    p.Anchored (treeBuilding.hook p node) := by
  cases p with
  | leafRule | leafToken =>
      intro kind hkind
      obtain ⟨op, hop, same⟩ := held kind hkind
      exact ⟨op, mem_insertAfterLabel hop, same⟩
  | rootRule | rootToken => exact nofun
  | _ => exact held

theorem Setup.not_breach_of_treeBuilding {setup : Setup}
    (stock : ∀ e ∈ setup.chain.extensions, e = .treeBuilding) (error : BuildError) :
    ¬setup.Breach error := by
  rintro @⟨e, p, node, _, _, _, he, cause, _⟩
  obtain rfl := stock e he
  rcases cause with changed | ⟨held, lost⟩
  · exact changed (by cases p <;> rfl)
  · exact lost (Extension.treeBuilding_anchored held)

end RecognizerModel
