/-
  Every kind for documents can be written down.

  Reading gives a kind of the entry's own name that keeps the limits on types (`documented_of_read`).  Here
  is the way back: every such kind has parameters that it is read from.

  1. **Values** — a named parameter is spelled by its word, an integer by itself, and a float by the double
     that has its value.  A reader gives back what was spelled (`readNamed_word`, `readInt_spelling`,
     `readUInt_spelling`, `readSingles_spelling`).  A float must be finite, since there is no JSON number
     for any other.

  2. **Parameters** — `Kind.params` spells all parameters of a kind, in the order of their keys, and so
     leaves nothing to the defaults.  They are such as an object of a document can have (`fits_params`,
     `finite_params`), and reading them gives the kind (`read_params`).
-/
import FragmentGraph.Proofs.Json.Value
import FragmentGraph.Proofs.Kind.Documented
import FragmentGraph.Proofs.Numeric.Exact

namespace FragmentGraph

open Glsl Json Numeric

/-! ## Values -/

/-- The value that spells a named parameter. -/
def word {α : Type} [Named α] (a : α) : Value := .text (Named.name a)

/-- The number is an integer or a finite double, as every number of a JSON value is. -/
def Json.Number.IsFinite : Number → Prop
  | int _ => True
  | float x => x.magnitude < Format.double.infinity

/-- The value that spells a float. -/
def Numeric.Single.spelling (x : Single) : Value := .number (.float x.widen)

theorem readNamed_word {α : Type} [Named α] (a : α) : readNamed (word a) = .ok a := by
  rw [word, readNamed, readWord, Named.find?_name]

theorem readSingle_spelling {x : Single} (hx : x.isFinite = true) : readSingle x.spelling = .ok x := by
  rw [Single.spelling, readSingle, (Single.toSingle_widen hx).2]

theorem readInt_spelling (i : Int32) : readInt (.number (.int i.toInt)) = .ok i := by
  have hlow := i.le_toInt
  have hhigh := i.toInt_lt
  rw [readInt, if_pos ⟨by omega, by omega⟩, Int32.ofInt_toInt]

theorem readUInt_spelling (n : UInt32) : readUInt (.number (.int n.toNat)) = .ok n := by
  have hhigh := n.toNat_lt
  rw [readUInt, if_pos ⟨by omega, by omega⟩, Int.toNat_natCast, UInt32.ofNat_toNat]

theorem readBool_spelling (b : Bool) : readBool (.bool b) = .ok b := rfl

theorem mapM_readSingle {parts : List Single} (hparts : ∀ x ∈ parts, x.isFinite = true) :
    (parts.map Single.spelling).mapM readSingle = .ok parts := by
  induction parts with
  | nil => rfl
  | cons x parts ih =>
    obtain ⟨hx, hrest⟩ := List.forall_mem_cons.mp hparts
    rw [List.map_cons, List.mapM_cons, readSingle_spelling hx, ih hrest]
    rfl

theorem readSingles_spelling {parts : List Single} (hparts : ∀ x ∈ parts, x.isFinite = true) :
    readSingles parts.length (.array (parts.map Single.spelling)) = .ok parts := by
  have htake : (parts.map Single.spelling).take parts.length = parts.map Single.spelling :=
    List.take_of_length_le (by rw [List.length_map])
  rw [readSingles, htake, mapM_readSingle hparts, List.length_map]
  simp [bind, Except.bind]

/-! ## Constants -/

namespace Constant

/-- The floats of a constant. -/
def parts : Constant → List Single
  | float x => [x]
  | vec2 x y => [x, y]
  | vec3 x y z => [x, y, z]
  | vec4 x y z w => [x, y, z, w]
  | _ => []

/-- The value that spells a constant. -/
def spelling : Constant → Value
  | float x => x.spelling
  | int i => .number (.int i.toInt)
  | uint n => .number (.int n.toNat)
  | bool b => .bool b
  | value => .array (value.parts.map Single.spelling)

/-- The value that spells a constant is one that can be read: a scalar, or an array of scalars. -/
theorem fits_spelling (c : Constant) : c.spelling.Fits 1 := by
  have hfloats : ∀ parts : List Single, Value.Fits 1 (.array (parts.map Single.spelling)) := by
    intro parts
    refine .array fun item hitem => ?_
    obtain ⟨x, _, rfl⟩ := List.mem_map.mp hitem
    exact .number trivial
  cases c with
  | float x => exact .number trivial
  | int i =>
    have hlow := i.le_toInt
    have hhigh := i.toInt_lt
    exact .number ⟨by omega, by omega⟩
  | uint n =>
    have hhigh := n.toNat_lt
    exact .number ⟨by omega, by omega⟩
  | bool b => exact .bool b
  | vec2 x y | vec3 x y z | vec4 x y z w => exact hfloats _

/-- If the floats of a constant are finite, so are the numbers that spell it. -/
theorem finite_spelling {c : Constant} (hparts : ∀ x ∈ c.parts, x.isFinite = true) :
    ∀ n ∈ c.spelling.numbers, n.IsFinite := by
  have hfloat : ∀ x ∈ c.parts, ∀ n ∈ x.spelling.numbers, n.IsFinite := by
    intro x hx
    exact List.forall_mem_singleton.mpr (Single.toSingle_widen (hparts x hx)).1
  have hfloats : ∀ n ∈ (Value.array (c.parts.map Single.spelling)).numbers, n.IsFinite := by
    rw [Value.forall_mem_numbers_array]
    exact List.forall_mem_map.mpr hfloat
  cases c with
  | float x => exact hfloat x (List.mem_singleton.mpr rfl)
  | int i | uint n => exact List.forall_mem_singleton.mpr trivial
  | bool b => exact nofun
  | vec2 x y | vec3 x y z | vec4 x y z w => exact hfloats

end Constant

/-! ## Parameters -/

section

variable {α : Type} {params : Members} {key : String} {value : Value} {default a : α}

/-- A parameter that is there is read. -/
theorem parameter_of_get? {read : Value → Except Mismatch α} (hget : params.get? key = some value)
    (hread : read value = .ok a) : parameter params key read default = .ok a := by
  simp only [parameter, hget, hread]

theorem choice_of_get? [Named α] (hget : params.get? key = some (word a)) :
    Kind.choice params key default = .ok a :=
  parameter_of_get? hget (readNamed_word a)

end

/-- A constant is read from its type and its value. -/
theorem Constant.readConstant_params (c : Constant) (hparts : ∀ x ∈ c.parts, x.isFinite = true) :
    Kind.readConstant [("type", word c.ty), ("value", c.spelling)] = .ok c := by
  have hfloats : ∀ count, c.parts.length = count → c.spelling = .array (c.parts.map Single.spelling) →
      Kind.floatParts [("type", word c.ty), ("value", c.spelling)] count = .ok c.parts := by
    rintro _ rfl hspelling
    exact parameter_of_get? rfl (hspelling ▸ readSingles_spelling hparts)
  rw [Kind.readConstant, Kind.typeChoice, choice_of_get? (a := c.ty) rfl]
  cases c with
  | float x =>
    rw [parameter_of_get? rfl (readSingle_spelling (hparts x (List.mem_singleton.mpr rfl)))]
    rfl
  | int i =>
    rw [parameter_of_get? rfl (readInt_spelling i)]
    rfl
  | uint n =>
    rw [parameter_of_get? rfl (readUInt_spelling n)]
    rfl
  | bool b =>
    rw [parameter_of_get? rfl (readBool_spelling b)]
    rfl
  | vec2 x y =>
    rw [hfloats 2 rfl rfl]
    rfl
  | vec3 x y z =>
    rw [hfloats 3 rfl rfl]
    rfl
  | vec4 x y z w =>
    rw [hfloats 4 rfl rfl]
    rfl

namespace Kind

/-- The parameters that spell a kind out. -/
def params : Kind → Members
  | input source => [("input", word source)]
  | constant value => [("type", word value.ty), ("value", value.spelling)]
  | scalarOp op scalar => [("op", word op), ("scalar", word scalar)]
  | vectorOp op vector => [("op", word op), ("vector", word vector)]
  | scalarFunc fn => [("func", word fn)]
  | vectorFunc fn vector => [("func", word fn), ("vector", word vector)]
  | dot vector | length vector | distance vector | compose vector | decompose vector =>
    [("vector", word vector)]
  | clamp ty | step ty | smoothStep ty | mix ty | switch ty => [("type", word ty)]
  | floatTest test => [("check", word test)]
  | compare ty op quantifier => [("condition", word quantifier), ("op", word op), ("type", word ty)]
  | output | noise _ | branch => []

/-- The floats of a kind. -/
def parts : Kind → List Single
  | constant value => value.parts
  | _ => []

theorem sorted_params (k : Kind) : k.params.Sorted := by
  rw [Members.sorted_iff_keys]
  cases k <;> simp only [params, List.map_cons, List.map_nil] <;> decide

/-- The parameters are those of an object that a document can hold. -/
theorem fits_params (k : Kind) : Value.Fits 2 (.object k.params) := by
  refine .object k.sorted_params ?_
  cases k with
  | constant value =>
    exact List.forall_mem_cons.mpr ⟨.text _, List.forall_mem_singleton.mpr value.fits_spelling⟩
  | _ => simp [params, word, Value.Fits.text]

theorem finite_params {k : Kind} (hparts : ∀ x ∈ k.parts, x.isFinite = true) :
    ∀ n ∈ (Value.object k.params).numbers, n.IsFinite := by
  rw [Value.forall_mem_numbers_object]
  cases k with
  | constant value =>
    refine List.forall_mem_cons.mpr ⟨nofun, List.forall_mem_singleton.mpr ?_⟩
    exact Constant.finite_spelling hparts
  | _ => simp [params, word, Value.numbers]

/-- A comparison that booleans allow is made as it is asked for. -/
theorem comparable_self {ty : Ty} {op : Comparison} (h : ty = .bool → op.isOrdering = false) :
    comparable ty op = op := by
  rw [comparable, if_neg]
  rintro ⟨hty, hop⟩
  rw [h hty] at hop
  cases hop

theorem numeric_self {type : String} {ty : Ty} (h : ty ≠ .bool) : numeric type ty = .ok ty := if_neg h

theorem floatBased_self {type : String} {ty : Ty} (h : ty ≠ .bool ∧ ty.isIntegral = false) :
    floatBased type ty = .ok ty := by
  rw [floatBased, h.2, numeric_self h.1]
  rfl

/-- **A kind for documents is read from its parameters.** -/
theorem read_params {k : Kind} (hk : k.Documented) (hparts : ∀ x ∈ k.parts, x.isFinite = true) :
    read k.name k.params = .ok k := by
  cases k with
  | input source =>
    rw [params, name, read, choice_of_get? (a := source) rfl]
    rfl
  | output => exact hk.elim
  | constant value =>
    rw [params, name, read, value.readConstant_params hparts]
    rfl
  | scalarOp op scalar =>
    rw [params, name, read, choice_of_get? (a := op) rfl, choice_of_get? (a := scalar) rfl]
    rfl
  | vectorOp op vector =>
    rw [params, name, read, choice_of_get? (a := op) rfl, vectorChoice, choice_of_get? (a := vector) rfl]
    rfl
  | scalarFunc fn =>
    rw [params, name, read, choice_of_get? (a := fn) rfl]
    rfl
  | vectorFunc fn vector =>
    rw [params, name, read, choice_of_get? (a := fn) rfl, vectorChoice, choice_of_get? (a := vector) rfl]
    rfl
  | noise flavour => cases flavour <;> rfl
  | dot vector | length vector | distance vector | compose vector | decompose vector =>
    rw [params, name, read, vectorChoice, choice_of_get? (a := vector) rfl]
    rfl
  | clamp ty =>
    rw [params, name, read, typeChoice, choice_of_get? (a := ty) rfl]
    show (numeric _ ty >>= fun ty => _) = _
    rw [numeric_self hk]
    rfl
  | step ty | smoothStep ty | mix ty =>
    rw [params, name, read, typeChoice, choice_of_get? (a := ty) rfl]
    show (floatBased _ ty >>= fun ty => _) = _
    rw [floatBased_self hk]
    rfl
  | branch => rfl
  | switch ty =>
    rw [params, name, read, typeChoice, choice_of_get? (a := ty) rfl]
    rfl
  | floatTest test =>
    rw [params, name, read, choice_of_get? (a := test) rfl]
    rfl
  | compare ty op quantifier =>
    rw [params, name, read, typeChoice, choice_of_get? (a := ty) rfl, choice_of_get? (a := op) rfl,
      choice_of_get? (a := quantifier) rfl]
    show Except.ok (compare ty (comparable ty op) quantifier) = _
    rw [comparable_self hk]

/-- **The kinds that can be read are the kinds for documents.**  Reading gives a kind of the name it is
    given, and one that documents can have: not the output, no clamp of booleans, no step, smooth step or
    mix of booleans or integers, and no ordering of booleans.  Conversely, every such kind whose floats are
    finite is read, under its own name, from the members of an object that a document can hold. -/
theorem read_range (k : Kind) :
    (∀ type params, read type params = .ok k → k.name = type ∧ k.Documented) ∧
    (k.Documented → (∀ x ∈ k.parts, x.isFinite = true) →
      ∃ params : Members, Value.Fits 2 (.object params) ∧
        (∀ n ∈ (Value.object params).numbers, n.IsFinite) ∧ read k.name params = .ok k) :=
  ⟨fun type params h => documented_of_read type params k h, fun hk hparts =>
    ⟨k.params, k.fits_params, finite_params hparts, read_params hk hparts⟩⟩

/-- The negative zero and the least positive float can be written down. -/
theorem read_range_tinyFloats :
    ∃ params : Members, (∀ n ∈ (Value.object params).numbers, n.IsFinite) ∧
      read "Constant" params = .ok (.constant (.vec2 ⟨0x80000000⟩ ⟨1⟩)) := by
  obtain ⟨params, _, hnumbers, hread⟩ :=
    (read_range (.constant (.vec2 ⟨0x80000000⟩ ⟨1⟩))).2 trivial (by decide)
  exact ⟨params, hnumbers, hread⟩

end Kind

end FragmentGraph
