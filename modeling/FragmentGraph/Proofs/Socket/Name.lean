/-
  Names of variables.

  A shader knows its variables by name only, so a name must tell its variable.  It does:

  1. digits hold no underscore, so the first one in a suffix ends the node's number and the second
     number is the port's (`suffix_inj`);
  2. the two sorts of variables begin differently, behind the common `var_` (`name_inj`);
  3. no name without that beginning is taken (`name_ne_of_not_isPrefixOf`), the colour's among them.

  The other names of a shader begin otherwise.  Those of functions are not listed anywhere: they are read
  off the texts that define them (`definedFunctions`), so a definition that is changed is read again.
-/
import FragmentGraph.Glsl.Expr
import FragmentGraph.Glsl.Noise
import FragmentGraph.Proofs.Text.Lines
import FragmentGraph.Socket
import Mathlib.Data.List.Basic

namespace FragmentGraph

open Numeric

namespace Socket

theorem toList_suffix (s : Socket) :
    s.suffix.toList
      = 'n' :: ((decimal s.node.toNat).toList ++ '_' :: 'p' :: (decimal s.port.toNat).toList) := by
  simp [suffix]

/-- The suffix tells the socket. -/
theorem suffix_inj {s t : Socket} : s.suffix = t.suffix ↔ s = t := by
  constructor
  · intro h
    have hchars := congrArg String.toList h
    rw [toList_suffix, toList_suffix, List.cons_inj_right] at hchars
    have hport : '_' ∉ 'p' :: (decimal s.port.toNat).toList := by
      simp [underscore_not_mem_decimal]
    obtain ⟨hnode, _, hrest⟩ :=
      (List.append_cons_inj_of_notMem (underscore_not_mem_decimal _) hport).mp hchars
    rw [List.cons_inj_right] at hrest
    have hn := UInt32.toNat_inj.mp (decimal_inj.mp (String.toList_inj.mp hnode))
    have hp := UInt32.toNat_inj.mp (decimal_inj.mp (String.toList_inj.mp hrest))
    cases s
    cases t
    rw [Socket.mk.injEq]
    exact ⟨hn, hp⟩
  · exact congrArg suffix

end Socket

namespace Variable

theorem toList_name_value (s : Socket) :
    (value s).name.toList
      = 'v' :: 'a' :: 'r' :: '_' :: 'f' :: 'r' :: 'o' :: 'm' :: '_' :: s.suffix.toList := by
  simp [name]

theorem toList_name_standIn (s : Socket) :
    (standIn s).name.toList = 'v' :: 'a' :: 'r' :: '_' :: 't' :: 'o' :: '_' :: s.suffix.toList := by
  simp [name]

/-- The name tells the variable. -/
theorem name_inj {x y : Variable} : x.name = y.name ↔ x = y := by
  constructor
  · intro h
    have hchars := congrArg String.toList h
    cases x with
    | value s =>
      cases y with
      | value t =>
        simp only [toList_name_value, List.cons_inj_right] at hchars
        rw [Socket.suffix_inj.mp (String.toList_inj.mp hchars)]
      | standIn t => simp [toList_name_value, toList_name_standIn] at hchars
    | standIn s =>
      cases y with
      | value t => simp [toList_name_value, toList_name_standIn] at hchars
      | standIn t =>
        simp only [toList_name_standIn, List.cons_inj_right] at hchars
        rw [Socket.suffix_inj.mp (String.toList_inj.mp hchars)]
  · exact congrArg name

/-- Every variable's name begins the same way. -/
theorem isPrefixOf_name (x : Variable) : ['v', 'a', 'r', '_'].isPrefixOf x.name.toList := by
  cases x with
  | value s => simp [toList_name_value]
  | standIn s => simp [toList_name_standIn]

/-- A text that begins otherwise names no variable. -/
theorem name_ne_of_not_isPrefixOf {text : String} (x : Variable)
    (h : ['v', 'a', 'r', '_'].isPrefixOf text.toList = false) : x.name ≠ text := by
  intro heq
  rw [← heq, isPrefixOf_name x] at h
  cases h

/-- The colour is no variable of a node. -/
theorem name_ne_colorVariable (x : Variable) : x.name ≠ Glsl.colorVariable :=
  name_ne_of_not_isPrefixOf x (by decide)

end Variable

/-! ## Names that are taken -/

namespace Glsl

/-- The function that a line begins to define.  The line is not indented and ends with a brace, and the
    name stands between the type of the result and the parameters. -/
def definedFunction? (line : List Char) : Option String :=
  if line.head? ≠ some '\t' ∧ line.getLast? = some '\x7b' then
    some (String.ofList (((line.dropWhile (· ≠ ' ')).drop 1).takeWhile (· ≠ '(')))
  else none

/-- The functions that a text defines, in order. -/
def definedFunctions (code : String) : List String := Text.collect definedFunction? code

/-- Every flavour defines two functions, one of them for use by the other alone. -/
theorem Noise.definedFunctions_definition (n : Noise) : definedFunctions n.definition =
    match n with
    | value => ["value_noise_hash", "value_noise"]
    | gradient => ["gradient_noise_dir", "gradient_noise"]
    | simplex => ["simplex_noise_permute", "simplex_noise"] := by
  rw [definedFunctions, Text.collect]
  cases n with
  | value =>
    unfold definition valueDefinition
    rw [String.toList_ofList]
    decide +kernel
  | gradient =>
    unfold definition gradientDefinition
    rw [String.toList_ofList]
    decide +kernel
  | simplex =>
    unfold definition simplexDefinition
    rw [String.toList_ofList]
    decide +kernel

end Glsl

namespace Variable

open Glsl

/-- No input of the whole shader is a variable of a node. -/
theorem name_ne_identifier (x : Variable) (i : ShaderInput) : x.name ≠ i.identifier := by
  apply name_ne_of_not_isPrefixOf
  cases i <;> decide

/-- No function of noise is a variable of a node. -/
theorem name_ne_definedFunction (x : Variable) {n : Noise} {function : String}
    (h : function ∈ definedFunctions n.definition) : x.name ≠ function := by
  apply name_ne_of_not_isPrefixOf
  rw [Noise.definedFunctions_definition] at h
  revert function
  cases n <;> decide

/-- **Names identify sockets.**  Two outputs have one name only if they are the same socket, and so have
    two stand-ins; an output and a stand-in never share a name.  No variable takes the name of an input of
    the whole shader, of the colour, or of a function that some flavour of noise defines. -/
theorem name_identifies (s t : Socket) :
    ((value s).name = (value t).name ↔ s = t) ∧
    ((standIn s).name = (standIn t).name ↔ s = t) ∧
    (value s).name ≠ (standIn t).name ∧
    ∀ x : Variable, (∀ i : ShaderInput, x.name ≠ i.identifier) ∧ x.name ≠ colorVariable ∧
      ∀ n : Noise, ∀ function ∈ definedFunctions n.definition, x.name ≠ function := by
  refine ⟨?_, ?_, ?_, fun x => ⟨name_ne_identifier x, name_ne_colorVariable x, ?_⟩⟩
  · rw [name_inj, value.injEq]
  · rw [name_inj, standIn.injEq]
  · rw [Ne, name_inj]
    exact Variable.noConfusion
  · exact fun n function h => name_ne_definedFunction x h

/-- The same digits stand in both names, divided at another place. -/
theorem name_identifies_ones :
    (value ⟨1, 11⟩).name ≠ (value ⟨11, 1⟩).name ∧
    "simplex_noise_permute" ∈ definedFunctions Noise.simplex.definition ∧
    (value ⟨1, 11⟩).name ≠ "simplex_noise_permute" := by
  obtain ⟨hvalue, _, _, htaken⟩ := name_identifies ⟨1, 11⟩ ⟨11, 1⟩
  have hdefined : "simplex_noise_permute" ∈ definedFunctions Noise.simplex.definition := by
    rw [Noise.definedFunctions_definition]
    exact List.mem_cons_self
  exact ⟨fun h => absurd (hvalue.mp h) (by decide), hdefined,
    (htaken (value ⟨1, 11⟩)).2.2 .simplex _ hdefined⟩

end Variable

end FragmentGraph
