/-
  Trees and their tokens.

  `Tree.tokens` spells a tree with nothing to spare.  The builder makes the tree of its tokens again
  (`ofTokens?_tokens`): where a value is wanted, the tokens of a tree end with the tree delivered to
  the innermost open container, whatever the stack and whatever follows (`run?_tokens`).  The induction
  is over the tree, together with what happens inside an array behind the items already there
  (`run?_items`) and inside an object behind the members already there (`run?_members`).
-/
import FragmentGraph.Json.Tree
import Mathlib.Data.List.Basic

namespace FragmentGraph.Json

namespace Tree

mutual

/-- The tokens that spell a tree. -/
def tokens : Tree → List Token
  | .null => [.null]
  | .bool b => [.bool b]
  | .numeral n => [.numeral n]
  | .text content => [.text content]
  | .array items => .openArray :: ([Token.comma].intercalate (itemTokens items) ++ [.closeArray])
  | .object members => .openObject :: ([Token.comma].intercalate (memberTokens members) ++ [.closeObject])

/-- The tokens of the items of an array. -/
def itemTokens : List Tree → List (List Token)
  | [] => []
  | item :: rest => item.tokens :: itemTokens rest

/-- The tokens of the members of an object. -/
def memberTokens : List (Option String × Tree) → List (List Token)
  | [] => []
  | (name, item) :: rest => (.text name :: .colon :: item.tokens) :: memberTokens rest

end

/-- No tree begins with the end of an array. -/
theorem tokens_eq_cons (t : Tree) : ∃ token rest, t.tokens = token :: rest ∧ token ≠ .closeArray := by
  cases t <;> exact ⟨_, _, by rw [tokens], by simp⟩

end Tree

namespace Builder

open FragmentGraph.Json.Tree

theorem run?_cons (state : Builder) (token : Token) (rest : List Token) :
    state.run? (token :: rest) = (state.next? token).bind fun next => next.run? rest := by
  simp only [run?]
  cases state.next? token <;> rfl

/-- Unless an array ends at once, its first item is read like any other. -/
theorem run?_firstItem (stack : List Frame) {token : Token} (htoken : token ≠ .closeArray)
    (rest : List Token) :
    (firstItem stack).run? (token :: rest) = (value (.items [] :: stack)).run? (token :: rest) := by
  rw [run?_cons, run?_cons, next?, next?, if_neg htoken]

mutual

/-- Where a value is wanted, the tokens of a tree deliver the tree. -/
theorem run?_tokens (t : Tree) (stack : List Frame) (rest : List Token) :
    (value stack).run? (t.tokens ++ rest) = (deliver t stack).bind fun next => next.run? rest := by
  cases t with
  | null => exact run?_cons ..
  | bool b => exact run?_cons ..
  | numeral n => exact run?_cons ..
  | text content => exact run?_cons ..
  | array items =>
    rw [tokens, List.cons_append, List.append_assoc, run?_cons]
    show (firstItem stack).run? _ = _
    cases items with
    | nil => exact run?_cons ..
    | cons item items =>
      obtain ⟨token, behind, hitem, htoken⟩ := tokens_eq_cons item
      have hfirst : [Token.comma].intercalate (itemTokens (item :: items))
          = token :: [Token.comma].intercalate (behind :: itemTokens items) := by
        rw [itemTokens, hitem, List.intercalate_cons_cons_left]
      rw [hfirst, List.cons_append, run?_firstItem stack htoken, ← List.cons_append, ← hfirst]
      exact run?_items item items [] stack rest
  | object members =>
    rw [tokens, List.cons_append, List.append_assoc, run?_cons]
    show (firstKey stack).run? _ = _
    cases members with
    | nil => exact run?_cons ..
    | cons member members =>
      -- The first key is read like any other, since it is a text and not the end of the object.
      have hfirst : (firstKey stack).run?
            ([Token.comma].intercalate (memberTokens (member :: members)) ++ .closeObject :: rest)
          = (key [] stack).run?
            ([Token.comma].intercalate (memberTokens (member :: members)) ++ .closeObject :: rest) := by
        rw [memberTokens, List.intercalate_cons_cons_left]
        rfl
      exact hfirst.trans (run?_members member members [] stack rest)
termination_by sizeOf t

/-- The rest of an array, behind the items in `done`. -/
theorem run?_items (item : Tree) (items done : List Tree) (stack : List Frame) (rest : List Token) :
    (value (.items done :: stack)).run?
        ([Token.comma].intercalate (itemTokens (item :: items)) ++ .closeArray :: rest)
      = (deliver (.array (done.reverse ++ item :: items)) stack).bind fun next => next.run? rest := by
  cases items with
  | nil =>
    rw [itemTokens, itemTokens, List.intercalate_singleton, run?_tokens item, List.append_cons done.reverse,
      List.append_nil, ← List.reverse_cons]
    exact run?_cons ..
  | cons next items =>
    rw [itemTokens, itemTokens, List.intercalate_cons_cons, ← itemTokens, List.append_assoc,
      List.append_assoc, run?_tokens item, List.append_cons done.reverse, ← List.reverse_cons]
    exact run?_items next items (item :: done) stack rest
termination_by sizeOf (item :: items)

/-- The rest of an object, behind the members in `done`. -/
theorem run?_members (member : Option String × Tree) (members done : List (Option String × Tree))
    (stack : List Frame) (rest : List Token) :
    (key done stack).run?
        ([Token.comma].intercalate (memberTokens (member :: members)) ++ .closeObject :: rest)
      = (deliver (.object (done.reverse ++ member :: members)) stack).bind fun next => next.run? rest := by
  obtain ⟨name, item⟩ := member
  cases members with
  | nil =>
    rw [memberTokens, memberTokens, List.intercalate_singleton, List.cons_append, List.cons_append]
    show (value (.member done name :: stack)).run? _ = _
    rw [run?_tokens item, List.append_cons done.reverse, List.append_nil, ← List.reverse_cons]
    exact run?_cons ..
  | cons next members =>
    rw [memberTokens, memberTokens, List.intercalate_cons_cons, ← memberTokens, List.append_assoc,
      List.append_assoc, List.cons_append, List.cons_append]
    show (value (.member done name :: stack)).run? _ = _
    rw [run?_tokens item, List.append_cons done.reverse, ← List.reverse_cons]
    exact run?_members next members ((name, item) :: done) stack rest
termination_by sizeOf (member :: members)

end

end Builder

/-- The tokens of a tree spell the tree. -/
theorem Tree.ofTokens?_tokens (t : Tree) : ofTokens? t.tokens = some t := by
  have hrun := Builder.run?_tokens t [] []
  rw [List.append_nil] at hrun
  rw [ofTokens?, hrun]
  rfl

end FragmentGraph.Json
