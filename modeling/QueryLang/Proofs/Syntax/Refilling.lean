import QueryLang.Proofs.Syntax.Locality
import QueryLang.Proofs.Syntax.Nesting
import QueryLang.Proofs.Syntax.Trivia

/-!
# Refilling a skipped block

Two files are parsed that differ in the content of one block. Both runs are in step up to the brace
that opens it. Where the block is nested too deep, both skip the content, and they are in step again
from the brace that closes it: `Crossed` says what they have made by then. The relation `Met`
carries this through sequences and repetitions of parsers.
-/

namespace QueryLang

/-- A block and what stands behind it, with its content and with another one. Both contents are
balanced, and the block ends behind them. -/
structure Refilling where
  brace : Token
  content : List Token
  filling : List Token
  back : List Token
  isOpen : brace.kind = .openBraceToken
  once : brace ∉ content ++ back
  balanced : Balanced content
  balancedFilling : Balanced filling
  closes : ∀ token ∈ back.head?, token.kind = .closeBraceToken

namespace Refilling

variable {refilling : Refilling}

/-- Two runs of parsing stand in front of the block, with the tokens `before` in between. -/
structure Ahead (refilling : Refilling) (before : List Token) (state twin : ParseState) : Prop where
  facing : state.Facing refilling.brace (refilling.content ++ refilling.back)
    (refilling.filling ++ refilling.back) before twin
  sound : state.Sound
  fresh : refilling.brace ∉ before

/-- Two runs of parsing have got behind the content of the block. What they have made is the same
around it, and they stand alike. -/
structure Crossed (refilling : Refilling) (pieces others : List ParseTree)
    (state twin : ParseState) : Prop where
  filled : ∃ before frame after,
    pieces = before ++ ParseTree.Frame.fill (refilling.brace :: refilling.content) frame :: after ∧
      List.Forall₂ ParseTree.Alike
        (before ++ frame.fill (refilling.brace :: refilling.filling) :: after) others
  alike : state.Alike twin
  behind : state.rest.length ≤ refilling.back.length

/-- How far two runs of parsing have got over pieces of source. If the block was opened with
`levels` blocks around it, they have crossed its content. -/
inductive Met (refilling : Refilling) (levels : Nat) (pieces others : List ParseTree)
    (state twin : ParseState) : Prop
  | ahead {left} (same : others = pieces) (free : refilling.brace ∉ ParseTree.tokensOfAll pieces)
      (ahead : refilling.Ahead left state twin)
  | past (behind : state.Behind refilling.brace)
      (crossed : ParseTree.OpensDeep refilling.brace levels pieces →
        refilling.Crossed pieces others state twin)

variable {levels : Nat} {before : List Token} {pieces others more otherMore : List ParseTree}
  {state twin after otherAfter : ParseState}

namespace Ahead

theorem rest_eq (ahead : refilling.Ahead before state twin) :
    state.rest = before ++ refilling.brace :: (refilling.content ++ refilling.back) :=
  ahead.facing.left

end Ahead

theorem behind_of_not_mem (sound : state.Sound) (consumed : refilling.brace ∉ state.rest) :
    state.Behind refilling.brace := by
  refine ⟨consumed, fun isEnd => ?_⟩
  have isOpen := refilling.isOpen
  rw [← isEnd, sound.endOfFile_kind] at isOpen
  cases isOpen

namespace Crossed

theorem others_ne_nil (crossed : refilling.Crossed pieces others state twin) : others ≠ [] := by
  obtain ⟨before, frame, after, _, alike⟩ := crossed.filled
  rintro rfl
  exact List.append_ne_nil_of_right_ne_nil _ (List.cons_ne_nil _ _)
    (List.forall₂_nil_right_iff.mp alike)

theorem prepend (crossed : refilling.Crossed more otherMore state twin)
    (pieces : List ParseTree) :
    refilling.Crossed (pieces ++ more) (pieces ++ otherMore) state twin := by
  obtain ⟨before, frame, after, rfl, alike⟩ := crossed.filled
  refine ⟨⟨pieces ++ before, frame, after, (List.append_assoc ..).symm, ?_⟩, crossed.alike,
    crossed.behind⟩
  have same : List.Forall₂ ParseTree.Alike pieces pieces := List.forall₂_same.mpr fun _ _ => rfl
  rw [List.append_assoc]
  exact List.rel_append same alike

/-- Behind the content both runs go on alike. -/
theorem append (crossed : refilling.Crossed pieces others state twin)
    (alikeMore : List.Forall₂ ParseTree.Alike more otherMore) (alike : after.Alike otherAfter)
    (shorter : after.rest.length ≤ state.rest.length) :
    refilling.Crossed (pieces ++ more) (others ++ otherMore) after otherAfter := by
  obtain ⟨before, frame, rest, rfl, alikeFirst⟩ := crossed.filled
  refine ⟨⟨before, frame, rest ++ more, by simp, ?_⟩, alike,
    Nat.le_trans shorter crossed.behind⟩
  rw [← List.cons_append, ← List.append_assoc]
  exact List.rel_append alikeFirst alikeMore

theorem node (crossed : refilling.Crossed pieces others state twin) (kind : Kind) :
    refilling.Crossed [.node kind pieces] [.node kind others] state twin := by
  obtain ⟨before, frame, rest, rfl, alike⟩ := crossed.filled
  refine ⟨⟨[], .inside kind before frame rest, [], rfl, .cons ?_ .nil⟩, crossed.alike,
    crossed.behind⟩
  exact congrArg (ParseTree.node kind) (ParseTree.unplacedAll_eq alike)

end Crossed

end Refilling

namespace Parser

open ParseTree (OpensDeep tokensOfAll)

variable {α β : Type} {refilling : Refilling} {levels : Nat} {parser : Parser α}
  {piecesOf : α → List ParseTree} {state twin : ParseState} {before : List Token}
  {pieces others : List ParseTree}

/-- Where the block is opened with `levels` blocks around it, two runs of the parser cross its
content. -/
def Crosses (refilling : Refilling) (levels : Nat) (parser : Parser α)
    (piecesOf : α → List ParseTree) : Prop :=
  ∀ {before : List Token} {state twin : ParseState}, refilling.Ahead before state twin →
    LeadBoth parser parser state twin fun value other after otherAfter =>
      OpensDeep refilling.brace levels (piecesOf value) →
        refilling.Crossed (piecesOf value) (piecesOf other) after otherAfter

/-- A parser crosses the content of the block, and does elsewhere what every parser does. -/
structure Refills (refilling : Refilling) (levels : Nat) (parser : Parser α)
    (piecesOf : α → List ParseTree) : Prop where
  agrees : ∀ {states trees}, KeptByParsing states trees →
    Agree states (fun value other => List.Forall₂ trees (piecesOf value) (piecesOf other))
      parser parser
  takes : ∀ {state : ParseState}, state.Sound → state.rest ≠ [] →
    parser.Leads state fun value after =>
      after.Sound ∧ state.rest = tokensOfAll (piecesOf value) ++ after.rest
  crosses : parser.Crosses refilling levels piecesOf

theorem LeadBoth.and {other : Parser β} {left right : α → β → ParseState → ParseState → Prop}
    (lead : LeadBoth parser other state twin left)
    (leadRight : LeadBoth parser other state twin right) :
    LeadBoth parser other state twin fun value otherValue after otherAfter =>
      left value otherValue after otherAfter ∧ right value otherValue after otherAfter :=
  ⟨lead, leadRight⟩

/-- What the first parser does the second does from the same state. -/
theorem LeadBoth.trans {first second : Parser α} {third : Parser β}
    {post : α → β → ParseState → ParseState → Prop}
    (same : LeadBoth first second state state fun value other after otherAfter =>
      other = value ∧ otherAfter = after)
    (lead : LeadBoth second third state twin post) : LeadBoth first third state twin post := by
  have runs : (second.run state : α × ParseState) = first.run state := Prod.ext same.1 same.2
  dsimp only [LeadBoth, Leads] at lead ⊢
  rwa [runs] at lead

/-- What opens no block crosses nothing. -/
theorem LeadBoth.of_closed {other : Parser α}
    (closed : parser.Leads state fun value _ =>
      ¬OpensDeep refilling.brace levels (piecesOf value)) :
    LeadBoth parser other state twin fun value other after otherAfter =>
      OpensDeep refilling.brace levels (piecesOf value) →
        refilling.Crossed (piecesOf value) (piecesOf other) after otherAfter :=
  closed.mono fun _ _ closed deep => absurd deep closed

theorem LeadBoth.of_unopened {parser other : Parser ParseTree}
    (closed : parser.Leads state fun piece _ => ∀ count, ¬piece.Opens refilling.brace count) :
    LeadBoth parser other state twin fun piece other after otherAfter =>
      OpensDeep refilling.brace levels [piece] →
        refilling.Crossed [piece] [other] after otherAfter := by
  refine closed.mono fun piece _ closed deep => ?_
  obtain ⟨count, _, opens⟩ := ParseTree.OpensDeep.singleton_iff.mp deep
  exact absurd opens (closed count)

/-- Behind a token no parser gives it. -/
theorem Agree.free {target : Token}
    (agree : Agree (fun state twin => state = twin ∧ state.Behind target)
      (fun value other => List.Forall₂ (fun piece _ => ∀ token ∈ piece.tokens, token ≠ target)
        (piecesOf value) (piecesOf other)) parser parser) (behind : state.Behind target) :
    parser.Leads state fun value after =>
      target ∉ tokensOfAll (piecesOf value) ∧ after.Behind target := by
  refine (agree.leads behind).mono fun value after kept => ⟨fun isToken => ?_, kept.2⟩
  obtain ⟨piece, isPiece, inPiece⟩ := ParseTree.mem_tokensOfAll.mp isToken
  exact forall_left_of_forall₂ kept.1 piece isPiece _ inPiece rfl

namespace Refills

variable (refills : Refills refilling levels parser piecesOf)

include refills

theorem behind (behind : state.Behind refilling.brace) : parser.Leads state fun value after =>
    refilling.brace ∉ tokensOfAll (piecesOf value) ∧ after.Behind refilling.brace :=
  (refills.agrees (kept_behind refilling.brace)).free behind

variable [localParser : Local parser]

/-- Run in front of the block, the parser stays there or meets it. -/
theorem met (ahead : refilling.Ahead before state twin) :
    LeadBoth parser parser state twin fun value other =>
      refilling.Met levels (piecesOf value) (piecesOf other) := by
  have takes := refills.takes ahead.sound ahead.facing.rest_ne_nil
  have stays := (localParser.stays ahead.facing refilling.once).and_left takes
  refine (stays.and (refills.crosses ahead)).mono fun value other after otherAfter => ?_
  rintro ⟨⟨stays, sound, consumed⟩, crossed⟩
  by_cases isLeft : refilling.brace ∈ after.rest
  · obtain ⟨rfl, left, facing⟩ := stays isLeft
    have split : before = tokensOfAll (piecesOf other) ++ left := by
      rw [ahead.rest_eq, facing.left, ← List.append_assoc] at consumed
      exact List.append_cancel_right consumed
    have fresh := ahead.fresh
    rw [split, List.mem_append, not_or] at fresh
    exact .ahead rfl fresh.1 ⟨facing, sound, fresh.2⟩
  · exact .past (refilling.behind_of_not_mem sound isLeft) crossed

end Refills

end Parser

namespace Refilling

open ParseTree (OpensDeep tokensOfAll)

variable {α : Type} {refilling : Refilling} {levels : Nat} {before : List Token}
  {pieces others : List ParseTree} {state twin : ParseState} {parser : Parser α}
  {piecesOf : α → List ParseTree}

namespace Met

theorem start (ahead : refilling.Ahead before state twin) :
    refilling.Met levels [] [] state twin :=
  .ahead rfl List.not_mem_nil ahead

theorem crosses (met : refilling.Met levels pieces others state twin)
    (deep : OpensDeep refilling.brace levels pieces) :
    refilling.Crossed pieces others state twin := by
  cases met with
  | ahead _ free => exact absurd deep.mem_tokens free
  | past _ crossed => exact crossed deep

/-- A further parser is run. -/
theorem next [localParser : Parser.Local parser]
    (met : refilling.Met levels pieces others state twin)
    (refills : Parser.Refills refilling levels parser piecesOf) :
    Parser.LeadBoth parser parser state twin fun value other =>
      refilling.Met levels (pieces ++ piecesOf value) (others ++ piecesOf other) := by
  cases met with
  | ahead same free ahead =>
    refine (refills.met ahead).mono fun value other after otherAfter metNext => ?_
    subst same
    cases metNext with
    | ahead sameNext freeNext aheadNext =>
      refine .ahead (by rw [sameNext]) ?_ aheadNext
      rw [ParseTree.tokensOfAll_append, List.mem_append, not_or]
      exact ⟨free, freeNext⟩
    | past behind crossed =>
      refine .past behind fun deep => ?_
      obtain deep | deep := ParseTree.OpensDeep.append_iff.mp deep
      · exact absurd deep.mem_tokens free
      · exact (crossed deep).prepend others
  | past behind crossed =>
    -- If the block was opened deep, it stands in the pieces so far, and both runs go on alike.
    have alike : Parser.LeadBoth parser parser state twin fun value other after otherAfter =>
        OpensDeep refilling.brace levels pieces →
          List.Forall₂ ParseTree.Alike (piecesOf value) (piecesOf other) ∧
            after.Alike otherAfter :=
      fun deep => refills.agrees Parser.kept_unplaced state twin (crossed deep).alike
    have leads := (refills.behind behind).and (localParser.shrinks state)
    refine (alike.and_left leads).mono fun value other after otherAfter => ?_
    rintro ⟨alike, ⟨free, behindAfter⟩, shrinks⟩
    refine .past behindAfter fun deep => ?_
    have deep := (ParseTree.OpensDeep.append_iff.mp deep).resolve_right
      fun deep => free deep.mem_tokens
    exact (crossed deep).append (alike deep).1 (alike deep).2 shrinks.length_le

/-- A node that is no block is put around the pieces. -/
theorem node {kind : Kind} (met : refilling.Met levels pieces others state twin)
    (notBlock : kind ≠ .block) :
    refilling.Met levels [.node kind pieces] [.node kind others] state twin := by
  cases met with
  | ahead same free ahead =>
    exact .ahead (by rw [same]) ((ParseTree.tokensOfAll_singleton _).symm ▸ free) ahead
  | past behind crossed =>
    exact .past behind fun deep => (crossed (deep.of_other notBlock)).node kind

/-- A block is put around the pieces. -/
theorem block (met : refilling.Met levels pieces others state twin) :
    refilling.Met (levels + 1) [.node .block pieces] [.node .block others] state twin := by
  cases met with
  | ahead same free ahead =>
    exact .ahead (by rw [same]) ((ParseTree.tokensOfAll_singleton _).symm ▸ free) ahead
  | past behind crossed =>
    exact .past behind fun deep => (crossed deep.of_block).node .block

end Met

end Refilling

end QueryLang
