import RecognizerModel.Proofs.Contracts

/-! The way of a node along a chain. It comes out as the extensions make it, one after the other, up
to the first that validation stops at; a longer chain goes on where a shorter one ends. -/
namespace RecognizerModel

namespace Subject

/-- Whether validation lets through what an extension makes of a node: it has the role of the node
that it was made from and, if it is a list that needs an anchor, holds an operation of that kind. -/
def Allows (anchor : Option OpKind) (s : Subject) (before after : s.Node) : Prop :=
  s.role after = s.role before ∧ (s = .ops → ∀ kind, anchor = some kind → s.Holds kind after)

/-- What an error says that should have come of a node. -/
def expected (anchor : Option OpKind) : (s : Subject) → s.Node → String
  | ops, before =>
    match anchor with
    | some kind => s!"operation list containing {kind.name}"
    | none => (ops.role before).describe
  | s, before => (s.role before).describe

/-- What an error says that came of it: operations by their kinds, any other node by its role. -/
def found : (s : Subject) → s.Node → String
  | ops, after => Contract.describeOps after
  | s, after => (s.role after).describe

/-- Operations that need no anchor are let through whatever they are. -/
theorem allows_of_ops {s : Subject} (h : s = .ops) (before after : s.Node) :
    s.Allows none before after := by
  subst h
  exact ⟨rfl, nofun⟩

end Subject

namespace Contract

variable {anchor : Option OpKind} {s : Subject} {before after : s.Node}

theorem ofSubject_eq_none (h : s.Allows anchor before after) :
    ofSubject anchor s before after = none := by
  obtain ⟨role, anchored⟩ := h
  have same : keepsRole before after = none := if_pos role
  cases s with
  | ops =>
      cases anchor with
      | none => rfl
      | some kind =>
          obtain ⟨op, hop, same⟩ := anchored rfl kind rfl
          exact if_pos (List.any_eq_true.mpr ⟨op, hop, by simpa using same⟩)
  | _ => exact same

theorem ofSubject_eq_some (h : ¬s.Allows anchor before after) :
    ofSubject anchor s before after = some (s.expected anchor before, s.found after) := by
  have changed (h : s.role after ≠ s.role before) : keepsRole before after =
      some ((s.role before).describe, (s.role after).describe) := if_neg h
  cases s with
  | ops =>
      cases anchor with
      | none => exact absurd ⟨rfl, nofun⟩ h
      | some kind =>
          refine if_neg fun stays => h ⟨rfl, fun _ _ same => ?_⟩
          cases same
          obtain ⟨op, hop, same⟩ := List.any_eq_true.mp stays
          exact ⟨op, hop, beq_iff_eq.mp same⟩
  | _ => exact changed fun role => h ⟨role, nofun⟩

end Contract

/-- Goes on with a node that came through. -/
def Passage.andThen (passage : Passage N) (next : N → Passage N) : Passage N :=
  match passage.outcome with
  | .ok node => { next node with seen := passage.seen + (next node).seen }
  | .error error => ⟨passage.seen, .error error⟩

namespace Chain

/-- What the first `count` extensions make of a node. -/
def stage (p : Point) (extensions : List Extension) (node : p.Node) (count : Nat) : p.Node :=
  (extensions.take count).foldl (fun node e => e.hook p node) node

section

variable {p : Point} {contract : Contract p.Node} {e : Extension} {rest : List Extension}
  {node : p.Node}

theorem pass_cons_of_none (kept : contract node (e.hook p node) = none) :
    pass p contract (·.hook p) (e :: rest) node =
      { pass p contract (·.hook p) rest (e.hook p node) with
        seen := (pass p contract (·.hook p) rest (e.hook p node)).seen + 1 } := by
  rw [pass]
  dsimp only
  rw [kept]

theorem pass_cons_of_some {expected found : String}
    (broken : contract node (e.hook p node) = some (expected, found)) :
    pass p contract (·.hook p) (e :: rest) node =
      ⟨1, .error (.contractViolation e.name p expected found)⟩ := by
  rw [pass]
  dsimp only
  rw [broken]

/-- Where every extension keeps the contract all of them see the node. -/
theorem pass_of_kept {extensions : List Extension}
    (kept : ∀ k < extensions.length,
      contract (stage p extensions node k) (stage p extensions node (k + 1)) = none) :
    pass p contract (·.hook p) extensions node =
      ⟨extensions.length, .ok (stage p extensions node extensions.length)⟩ := by
  induction extensions generalizing node with
  | nil => rfl
  | cons e rest ih =>
      have first : contract node (e.hook p node) = none := kept 0 (Nat.zero_lt_succ _)
      have others := ih fun k hk => kept (k + 1) (Nat.succ_lt_succ hk)
      rw [pass_cons_of_none first, others]
      rfl

/-- The first extension that breaks the contract is the last that sees the node. -/
theorem pass_of_broken {extensions : List Extension} {k : Nat} {expected found : String}
    (he : extensions[k]? = some e)
    (kept : ∀ j < k,
      contract (stage p extensions node j) (stage p extensions node (j + 1)) = none)
    (broken : contract (stage p extensions node k) (stage p extensions node (k + 1)) =
      some (expected, found)) :
    pass p contract (·.hook p) extensions node =
      ⟨k + 1, .error (.contractViolation e.name p expected found)⟩ := by
  induction extensions generalizing node k with
  | nil => cases he
  | cons first rest ih =>
      cases k with
      | zero =>
          cases he
          exact pass_cons_of_some broken
      | succ k =>
          have here : contract node (first.hook p node) = none := kept 0 (Nat.zero_lt_succ _)
          have later := ih he (fun j hj => kept (j + 1) (Nat.succ_lt_succ hj)) broken
          rw [pass_cons_of_none here, later]

theorem pass_append (first second : List Extension) :
    pass p contract (·.hook p) (first ++ second) node =
      (pass p contract (·.hook p) first node).andThen (pass p contract (·.hook p) second) := by
  induction first generalizing node with
  | nil => simp [pass, Passage.andThen]
  | cons e rest ih =>
      rw [List.cons_append]
      rcases h : contract node (e.hook p node) with _ | ⟨expected, found⟩
      · rw [pass_cons_of_none h, pass_cons_of_none h, ih]
        unfold Passage.andThen
        dsimp only
        split
        · simp only [Nat.add_right_comm]
        · rfl
      · rw [pass_cons_of_some h, pass_cons_of_some h]
        rfl

end

/-- A node comes out of a chain as all extensions make it, in their order, if nothing is validated
or validation lets every stage through. Otherwise the first stage that it does not let through is
the last, and the error names its extension and what the node was and became there. A chain behind
another goes on with what comes out of that. -/
theorem fold_along (c : Chain) (p : Point) (anchor : Option OpKind) (node : p.Node) :
    (c.validate = false ∨ p.subject = .ops ∧ anchor = none ∨
        (∀ k < c.extensions.length, p.subject.Allows anchor (stage p c.extensions node k)
          (stage p c.extensions node (k + 1))) →
      c.fold p anchor node =
        ⟨c.extensions.length, .ok (stage p c.extensions node c.extensions.length)⟩) ∧
    (∀ k e, c.validate = true → c.extensions[k]? = some e →
      (∀ j < k, p.subject.Allows anchor (stage p c.extensions node j)
        (stage p c.extensions node (j + 1))) →
      ¬p.subject.Allows anchor (stage p c.extensions node k) (stage p c.extensions node (k + 1)) →
      c.fold p anchor node = ⟨k + 1, .error (.contractViolation e.name p
        (p.subject.expected anchor (stage p c.extensions node k))
        (p.subject.found (stage p c.extensions node (k + 1))))⟩) ∧
    ∀ more, (Chain.mk (c.extensions ++ more) c.validate).fold p anchor node =
      (c.fold p anchor node).andThen ((Chain.mk more c.validate).fold p anchor) := by
  obtain ⟨extensions, validate⟩ := c
  refine ⟨fun sound => ?_, fun k e checked he kept broken => ?_, fun more => ?_⟩
  · refine pass_of_kept fun k hk => ?_
    dsimp only
    split
    · next checked =>
      rcases sound with unchecked | ⟨isOps, rfl⟩ | kept
      · cases unchecked.symm.trans checked
      · exact Contract.ofSubject_eq_none (Subject.allows_of_ops isOps _ _)
      · exact Contract.ofSubject_eq_none (kept k hk)
    · rfl
  · obtain rfl : validate = true := checked
    exact pass_of_broken he (fun j hj => Contract.ofSubject_eq_none (kept j hj))
      (Contract.ofSubject_eq_some broken)
  · exact pass_append extensions more

/-- Three extensions on the way of a choice: the first puts code in front of it, the second makes
another kind of choice of it, and the third turns it back. -/
def thereAndBack : List Extension :=
  [{ name := "lead"
     hook := fun
       | .choiceBlock, c => { c with preamble := c.preamble ++ [.action "lead();"] }
       | _, node => node },
   { name := "turn"
     hook := fun
       | .choiceBlock, c => { c with kind := ⟨.ll1, false⟩ }
       | _, node => node },
   { name := "return"
     hook := fun
       | .choiceBlock, c => { c with kind := ⟨.generic, false⟩ }
       | _, node => node }]

/-- Every stage counts by itself: that the kind comes back in the end does not help, and without
validation nobody asks. -/
theorem fold_along_thereAndBack :
    Subject.choice.Allows none (stage .choiceBlock thereAndBack default 0)
        (stage .choiceBlock thereAndBack default 1) ∧
      ¬Subject.choice.Allows none (stage .choiceBlock thereAndBack default 1)
        (stage .choiceBlock thereAndBack default 2) ∧
      (Chain.mk thereAndBack true).fold .choiceBlock none default =
        ⟨2, .error (.contractViolation "turn" .choiceBlock "choice" "ll1 choice")⟩ ∧
      (Chain.mk thereAndBack false).fold .choiceBlock none default =
        ⟨3, .ok { (default : Choice) with preamble := [.action "lead();"] }⟩ := by
  have first : Subject.choice.Allows none (stage .choiceBlock thereAndBack default 0)
      (stage .choiceBlock thereAndBack default 1) := ⟨rfl, nofun⟩
  have second : ¬Subject.choice.Allows none (stage .choiceBlock thereAndBack default 1)
      (stage .choiceBlock thereAndBack default 2) := fun h => absurd h.1 (by decide)
  obtain ⟨-, stops, -⟩ := fold_along ⟨thereAndBack, true⟩ .choiceBlock none default
  obtain ⟨passes, -, -⟩ := fold_along ⟨thereAndBack, false⟩ .choiceBlock none default
  refine ⟨first, second, stops 1 _ rfl rfl (fun j hj => ?_) second, passes (.inl rfl)⟩
  obtain rfl : j = 0 := Nat.lt_one_iff.mp hj
  exact first

end Chain

end RecognizerModel
