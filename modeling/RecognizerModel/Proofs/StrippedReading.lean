import RecognizerModel.Proofs.ReadTokens
import RecognizerModel.Proofs.StrippedSyntax

/-! Reading without layout. The reader passes over blanks, so that what it reads hangs on the other
tokens alone, and on their kinds and texts. -/
namespace RecognizerModel

/-- The kinds and texts of the tokens that are no blanks. -/
def significant (tokens : List Token) : List (TokenKind × String) :=
  (tokens.filter (!·.isTrivia)).map fun t => (t.kind, t.text)

/-- Tokens without their layout. -/
def Token.strippedAll (tokens : List Token) : List Token :=
  (tokens.filter (!·.isTrivia)).map Token.stripped

theorem Token.strippedAll_eq_of_significant {tokens tokens' : List Token}
    (h : significant tokens = significant tokens') : strippedAll tokens = strippedAll tokens' := by
  have token : Token.stripped = fun t => (⟨t.kind, t.text, 0⟩ : Token) := rfl
  have each (tokens : List Token) : strippedAll tokens =
      (significant tokens).map fun (kind, text) => ⟨kind, text, 0⟩ := by
    simp [strippedAll, significant, token]
  rw [each, each, h]

theorem Token.strippedAll_cons {t : Token} (rest : List Token) (h : t.kind ≠ .whitespace) :
    strippedAll (t :: rest) = t.stripped :: strippedAll rest := by
  simp [strippedAll, isTrivia, h]

theorem Token.strippedAll_cons_of_trivia {t : Token} (rest : List Token)
    (h : t.kind = .whitespace) : strippedAll (t :: rest) = strippedAll rest := by
  simp [strippedAll, isTrivia, h]

namespace OpenNode

def stripped (n : OpenNode) : OpenNode :=
  ⟨n.kind, 0, n.done.stripped⟩

theorem stripped_push_of_trivia {n : OpenNode} {t : Token} (h : t.kind = .whitespace) :
    (n.push t).stripped = n.stripped := by
  simp [stripped, push, Forest.stripped_token_of_trivia, h]

theorem stripped_push {n n' : OpenNode} {t : Token} (same : n'.stripped = n.stripped)
    (h : t.kind ≠ .whitespace) : (n'.push t.stripped).stripped = (n.push t).stripped := by
  obtain ⟨kind, start, done⟩ := n
  obtain ⟨kind', start', done'⟩ := n'
  simp only [stripped, mk.injEq, true_and] at same
  obtain ⟨rfl, same⟩ := same
  have here : t.stripped.kind ≠ .whitespace := h
  simp only [stripped, push]
  rw [Forest.stripped_token _ h, Forest.stripped_token _ here, same]
  rfl

theorem stripped_close {n n' : OpenNode} {t : Token} (same : n'.stripped = n.stripped)
    (h : t.kind = .rparen) : (n'.close t.stripped).stripped = (n.close t).stripped := by
  have pushed : (n'.push t.stripped).stripped = (n.push t).stripped :=
    stripped_push same (by simp [h])
  have kind : n'.kind = n.kind := (mk.inj same).1
  have done := (mk.inj pushed).2.2
  simp only [close, Node.stripped, Forest.stripped_reverseOnto, done, kind]

theorem stripped_pushNode {n n' : OpenNode} {inner inner' : Node}
    (same : n'.stripped = n.stripped) (sameInner : inner'.stripped = inner.stripped) :
    (n'.pushNode inner').stripped = (n.pushNode inner).stripped := by
  simp only [stripped, mk.injEq, true_and] at same
  simp only [Node.stripped, Node.mk.injEq, true_and] at sameInner
  simp [stripped, pushNode, Forest.stripped, same, sameInner]

theorem stripped_opening (kind : NodeKind) {lparen word : Token} (h : lparen.kind = .lparen) :
    (opening kind lparen.stripped word.stripped).stripped =
      (opening kind lparen word).stripped := by
  simp [stripped, opening, Forest.stripped, Token.isTrivia, h, Token.stripped]

end OpenNode

theorem readNode_open (stack : List OpenNode) (lparen word : Token) (rest : List Token)
    {kind : NodeKind} (opens : lparen.kind = .lparen) (names : word.kind = .word)
    (head : NodeKind.ofHead? word.text = some kind) :
    readNode stack (lparen :: word :: rest) =
      readNode (.opening kind lparen word :: stack) rest := by
  rw [readNode.eq_def]
  simp [opens, names, head]

theorem readNode_closeLast (n : OpenNode) (t : Token) (rest : List Token) (h : t.kind = .rparen) :
    readNode [n] (t :: rest) = .ok (n.close t, rest) := by
  rw [readNode.eq_def]
  simp [h]

theorem readNode_closeInner (n parent : OpenNode) (outer : List OpenNode) (t : Token)
    (rest : List Token) (h : t.kind = .rparen) : readNode (n :: parent :: outer) (t :: rest) =
      readNode (parent.pushNode (n.close t) :: outer) rest := by
  rw [readNode.eq_def]
  simp [h]

theorem readNode_push (n : OpenNode) (outer : List OpenNode) (t : Token) (rest : List Token)
    (opens : t.kind ≠ .lparen) (closes : t.kind ≠ .rparen) (known : t.kind ≠ .error) :
    readNode (n :: outer) (t :: rest) = readNode (n.push t :: outer) rest := by
  rw [readNode.eq_def]
  cases h : t.kind <;> simp_all

/-- What is read of tokens is read of the tokens without layout, but for the layout. -/
theorem exists_readNode_stripped {stack stack' : List OpenNode} {tokens rest : List Token}
    {node : Node} (h : readNode stack tokens = .ok (node, rest))
    (same : stack'.map OpenNode.stripped = stack.map OpenNode.stripped) :
    ∃ node' rest', readNode stack' (Token.strippedAll tokens) = .ok (node', rest') ∧
      node'.stripped = node.stripped := by
  fun_induction readNode stack tokens generalizing stack' with
  -- an opening parenthesis and its head word
  | case4 stack lparen opens word rest names kind head ih =>
      rw [Token.strippedAll_cons _ (by simp [opens]), Token.strippedAll_cons _ (by simp [names]),
        readNode_open _ lparen.stripped word.stripped _ opens names head]
      refine ih h ?_
      rw [List.map_cons, List.map_cons, same, OpenNode.stripped_opening kind opens]
  -- the parenthesis that closes the whole node
  | case8 rparen rest closes n =>
      cases h
      obtain ⟨n', _, rfl, hn, nil⟩ := List.map_eq_cons_iff.mp same
      obtain rfl := List.map_eq_nil_iff.mp nil
      rw [Token.strippedAll_cons _ (by simp [closes]),
        readNode_closeLast _ rparen.stripped _ closes]
      exact ⟨_, _, rfl, OpenNode.stripped_close hn closes⟩
  -- a parenthesis that closes a node inside another
  | case9 rparen rest closes n parent outer ih =>
      obtain ⟨n', _, rfl, hn, same⟩ := List.map_eq_cons_iff.mp same
      obtain ⟨parent', outer', rfl, hparent, houter⟩ := List.map_eq_cons_iff.mp same
      rw [Token.strippedAll_cons _ (by simp [closes]),
        readNode_closeInner _ _ _ rparen.stripped _ closes]
      refine ih h ?_
      rw [List.map_cons, List.map_cons, houter,
        OpenNode.stripped_pushNode hparent (OpenNode.stripped_close hn closes)]
  -- any other token goes to the innermost open node, unless it is blank
  | case12 t rest n outer opens closes known ih =>
      obtain ⟨n', outer', rfl, hn, houter⟩ := List.map_eq_cons_iff.mp same
      by_cases blank : t.kind = .whitespace
      · rw [Token.strippedAll_cons_of_trivia _ blank]
        refine ih h ?_
        rw [List.map_cons, List.map_cons, houter, OpenNode.stripped_push_of_trivia blank, hn]
      · rw [Token.strippedAll_cons _ blank, readNode_push _ _ t.stripped _ opens closes known]
        refine ih h ?_
        rw [List.map_cons, List.map_cons, houter, OpenNode.stripped_push hn blank]
  | _ => cases h

/-- Texts that say the same but for blanks are read as the same tree but for its layout. -/
theorem stripped_eq_of_read {source source' : String} {root root' : Node}
    (h : read source = .ok root) (h' : read source' = .ok root')
    (same : significant (tokenize source) = significant (tokenize source')) :
    root.stripped = root'.stripped := by
  obtain ⟨rest, hrun⟩ := readNode_of_read h
  obtain ⟨rest', hrun'⟩ := readNode_of_read h'
  have none : ([] : List OpenNode).map OpenNode.stripped = [].map OpenNode.stripped := rfl
  obtain ⟨node, _, hnode, hroot⟩ := exists_readNode_stripped hrun none
  obtain ⟨node', _, hnode', hroot'⟩ := exists_readNode_stripped hrun' none
  rw [← Token.strippedAll_eq_of_significant same, hnode] at hnode'
  cases hnode'
  rw [← hroot, hroot']

end RecognizerModel
