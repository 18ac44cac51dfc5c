/-
  The kinds that can be read.

  A kind that is read from an entry has the entry's name and keeps the limits on types that reading
  imposes (`Kind.documented_of_read`): some kinds have no booleans, and some have floats only.
-/
import FragmentGraph.Kind.Reader

namespace FragmentGraph

open Glsl Json

/-- If there is a result, it has the property. -/
def Yields {ε α : Type} (x : Except ε α) (P : α → Prop) : Prop := ∀ a, x = .ok a → P a

namespace Yields

variable {ε α β : Type} {x : Except ε α} {f : α → Except ε β} {P : β → Prop}

@[simp] theorem pure_iff {b : β} : Yields (pure b : Except ε β) P ↔ P b :=
  ⟨fun h => h b rfl, fun h _ hb => Except.ok.inj hb ▸ h⟩

@[simp] theorem error_iff {e : ε} : Yields (.error e) P ↔ True :=
  ⟨fun _ => trivial, fun _ _ hb => by cases hb⟩

@[simp] theorem bind_iff : Yields (x >>= f) P ↔ ∀ a, x = .ok a → Yields (f a) P := by
  cases x with
  | error e => exact ⟨fun _ _ h => (by cases h), fun _ _ h => (by cases h)⟩
  | ok a => exact ⟨fun h _ ha => Except.ok.inj ha ▸ h, fun h => h a rfl⟩

end Yields

namespace Kind

/-- The kinds that an entry can have. -/
def Documented : Kind → Prop
  | output => False
  | clamp ty => ty ≠ .bool
  | step ty | smoothStep ty | mix ty => ty ≠ .bool ∧ ty.isIntegral = false
  | compare ty op _ => ty = .bool → op.isOrdering = false
  | _ => True

theorem ne_bool_of_numeric {type : String} {ty ty' : Ty} (h : numeric type ty = .ok ty') :
    ty' ≠ .bool := by
  rw [numeric] at h
  split at h
  · cases h
  · next hty =>
    rwa [← Except.ok.inj h]

/-- A type that is accepted where floats are asked for is neither boolean nor integral. -/
theorem of_floatBased {type : String} {ty ty' : Ty} (h : floatBased type ty = .ok ty') :
    ty' ≠ .bool ∧ ty'.isIntegral = false := by
  rw [floatBased] at h
  split at h
  · cases h
  · next hintegral =>
    refine ⟨ne_bool_of_numeric h, ?_⟩
    rw [numeric] at h
    split at h
    · cases h
    · rw [← Except.ok.inj h]
      exact Bool.not_eq_true _ ▸ hintegral

theorem isOrdering_comparable {ty : Ty} (op : Comparison) (hty : ty = .bool) :
    (comparable ty op).isOrdering = false := by
  rw [comparable]
  split
  · rfl
  · next h => simpa [hty] using h

/-- What is read has the name of the entry and is a kind for documents. -/
theorem documented_of_read (type : String) (params : Members) :
    Yields (read type params) fun k => k.name = type ∧ k.Documented := by
  unfold read
  split <;>
    simp only [Yields.bind_iff, Yields.pure_iff, Yields.error_iff, name, Documented, true_and,
      implies_true]
  -- left are `clamp`, the three kinds of floats only, and `compare`
  · exact fun _ _ _ hty => ne_bool_of_numeric hty
  · exact fun _ _ _ hty => of_floatBased hty
  · exact fun _ _ _ hty => of_floatBased hty
  · exact fun _ _ _ hty => of_floatBased hty
  · exact fun _ _ op _ _ _ => isOrdering_comparable op

end Kind

end FragmentGraph
