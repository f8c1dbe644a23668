import QueryLang.Proofs.Halving
import QueryLang.Proofs.Syntax.Viewing
import QueryLang.Syntax.Tree.Search

/-!
# Searching well-formed trees

A search by position finds a token of the tree, or none, and stays within the tree on the way.
-/

namespace QueryLang

namespace SyntaxTree

variable {tree : SyntaxTree} {damaged : Prop} {id : Nat}

/-- A token that is found is one of the tree. -/
def HasToken (tree : SyntaxTree) (found : Option TokenId) : Prop :=
  ∀ id ∈ found, id < tree.tokens.size

theorem token_eq_ok (inRange : id < tree.tokens.size) :
    ∃ token, tree.tokens[id]? = some token ∧ tree.token id = .ok token := by
  refine ⟨tree.tokens[id], Array.getElem?_eq_getElem inRange, ?_⟩
  rw [SyntaxTree.token, Array.getElem?_eq_getElem inRange]

theorem firstRealToken?_gives {count start : Nat} (bound : start + count ≤ tree.tokens.size) :
    (firstRealToken? tree.tokens count start).Gives tree.HasToken := by
  rcases firstRealToken?_eq_ok bound with ⟨found, foundEq, range, _⟩
  exact ⟨found, foundEq, fun id isFound => Nat.lt_of_lt_of_le (range id isFound).2 bound⟩

theorem lastRealToken?_gives {count start : Nat} (bound : start + count ≤ tree.tokens.size) :
    (lastRealToken? tree.tokens count start).Gives tree.HasToken := by
  rcases lastRealToken?_eq_ok bound with ⟨found, foundEq, range, _⟩
  exact ⟨found, foundEq, fun id isFound => Nat.lt_of_lt_of_le (range id isFound).2 bound⟩

namespace WellFormed

variable (wellFormed : tree.WellFormed damaged)

include wellFormed

theorem tokenFrom?_gives (position : Nat) :
    (tree.tokenFrom? position).Gives tree.HasToken := by
  have answers : ∀ id < tree.tokens.size, ∃ answer, tree.endsBy position id = .ok answer := by
    intro id inRange
    rcases token_eq_ok inRange with ⟨token, found, tokenEq⟩
    have stopEq := (wellFormed.token_within found).stop_eq_ok wellFormed.text_fits
    exact ⟨_, by rw [endsBy, tokenEq, Checked.ok_bind, stopEq]; rfl⟩
  refine Checked.Gives.bind
    (partitionIndexFrom_gives answers wellFormed.tokens_pos (by omega)) ?_
  exact fun start startBound => firstRealToken?_gives (by omega)

theorem findToken_gives (position : Nat) :
    (tree.findToken position).Gives fun id => id < tree.tokens.size := by
  have nonempty := wellFormed.tokens_pos
  refine Checked.Gives.bind (wellFormed.tokenFrom?_gives position) fun found inRange => ?_
  cases found with
  | none =>
      rw [endOfFileToken, if_neg (by omega)]
      exact .ok (by show tree.tokens.size - 1 < tree.tokens.size; omega)
  | some id => exact .pure (inRange id rfl)

omit wellFormed in
theorem previousToken?_gives (inRange : id < tree.tokens.size) :
    (tree.previousToken? id).Gives tree.HasToken :=
  lastRealToken?_gives (by omega)

theorem tokenLeftOf?_gives (position : Nat) :
    (tree.tokenLeftOf? position).Gives tree.HasToken := by
  refine Checked.Gives.bind (wellFormed.findToken_gives position) fun id inRange => ?_
  rcases token_eq_ok inRange with ⟨token, _, tokenEq⟩
  rw [tokenEq, Checked.ok_bind]
  split
  · exact previousToken?_gives inRange
  · exact .pure (by rintro _ ⟨⟩; exact inRange)

theorem touches_gives {token : TreeToken} (found : tree.tokens[id]? = some token)
    (position : Nat) : (token.span.touches position).Gives fun _ => True := by
  rcases (wellFormed.token_within found).touches_eq_ok wellFormed.text_fits position with
    ⟨answer, answerEq⟩
  exact ⟨answer, answerEq, trivial⟩

/-! ### Going up -/

omit wellFormed in
theorem nodeOf_eq_ok (inRange : id < tree.nodes.size) :
    ∃ node, tree.nodes[id]? = some node ∧ tree.node id = .ok node := by
  refine ⟨tree.nodes[id], Array.getElem?_eq_getElem inRange, ?_⟩
  rw [SyntaxTree.node, Array.getElem?_eq_getElem inRange]

omit wellFormed in
theorem kind_gives (inRange : id < tree.nodes.size) :
    ∃ kind, tree.kind id = .ok kind := by
  rcases nodeOf_eq_ok inRange with ⟨node, found, _⟩
  exact ⟨node.kind, kind_eq_ok found⟩

theorem parent_gives (inRange : id < tree.nodes.size) :
    (tree.parent id).Gives fun parent => ∀ outer ∈ parent, outer < tree.nodes.size := by
  rcases nodeOf_eq_ok inRange with ⟨node, found, nodeEq⟩
  rw [SyntaxTree.parent, nodeEq, Checked.ok_bind]
  exact .pure fun outer isParent => wellFormed.node_parent found isParent

theorem ancestorsWithin_gives (limit : Nat) (inRange : id < tree.nodes.size) :
    (tree.ancestorsWithin limit id).Gives fun ids => ∀ id ∈ ids, id < tree.nodes.size := by
  induction limit generalizing id with
  | zero => exact .ok (by simpa using inRange)
  | succ limit ih =>
      rw [ancestorsWithin]
      refine Checked.Gives.bind (wellFormed.parent_gives inRange) fun parent outerInRange => ?_
      cases parent with
      | none => exact .pure (by simpa using inRange)
      | some outer =>
          refine Checked.Gives.bind (ih (outerInRange outer rfl)) fun ids idsInRange => ?_
          exact .pure (by simpa using ⟨inRange, idsInRange⟩)

omit wellFormed in
theorem findKind?_gives (kind : Kind) {ids : List NodeId}
    (inRange : ∀ id ∈ ids, id < tree.nodes.size) :
    (tree.findKind? kind ids).Gives fun found => ∀ id ∈ found, tree.kind id = .ok kind := by
  induction ids with
  | nil => exact .ok (by simp)
  | cons id rest ih =>
      rw [List.forall_mem_cons] at inRange
      rcases kind_gives inRange.1 with ⟨own, ownEq⟩
      rw [findKind?, ownEq, Checked.ok_bind]
      split
      · next isKind => exact .pure (by rintro _ ⟨⟩; rw [ownEq, isKind])
      · exact ih inRange.2

/-- The nearest node of a kind around a token has that kind. -/
theorem ancestorOfKind?_gives (kind : Kind) (inRange : id < tree.tokens.size) :
    (tree.ancestorOfKind? id kind).Gives fun found => ∀ id ∈ found, tree.kind id = .ok kind := by
  rcases token_eq_ok inRange with ⟨token, found, tokenEq⟩
  rw [ancestorOfKind?, tokenEq, Checked.ok_bind]
  refine Checked.Gives.bind (wellFormed.ancestorsWithin_gives _ (wellFormed.token_parent found)) ?_
  exact fun ids idsInRange => findKind?_gives kind idsInRange

/-! ### Nodes of a kind -/

/-- A node has parts as its kind demands, in whatever role it stands. -/
theorem partsOf {kind : Kind} (kindEq : tree.kind id = .ok kind) :
    ∃ lower role roles, tree.nodes.size = lower + 1 ∧ Production damaged role kind roles ∧
      tree.PartsAt damaged lower id roles := by
  rcases node_eq_ok kindEq with ⟨node, found, _⟩
  rcases Array.getElem?_eq_some_iff.mp found with ⟨inRange, _⟩
  rcases wellFormed.formed id inRange with ⟨role, formed⟩
  rcases formed.parts with ⟨lower, own, roles, sizeEq, ownEq, production, parts⟩
  rw [kindEq] at ownEq
  cases ownEq
  exact ⟨lower, role, roles, sizeEq, production, parts⟩

end WellFormed

end SyntaxTree

end QueryLang
