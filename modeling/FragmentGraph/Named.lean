/-
  Finite types whose members are known by name.

  Documents and messages name the members of the parameter types by short words.  `Named` lists them in
  their fixed order and gives each its word; `Named.find?` is the way back.
-/
namespace FragmentGraph

/-- A type with finitely many members, each with a word of its own. -/
class Named (α : Type) where
  all : List α
  name : α → String
  /-- The first member with the word of `a` is `a`. -/
  find_name : ∀ a, all.find? (fun b => name b = name a) = some a

namespace Named

variable {α : Type} [Named α]

/-- The words of all members, in order. -/
def names (α : Type) [Named α] : List String := (all : List α).map name

/-- The member with the given word. -/
def find? (word : String) : Option α := all.find? fun a => name a = word

/-- A member is found by its word. -/
theorem find?_name (a : α) : find? (name a) = some a := find_name a

end Named

end FragmentGraph
