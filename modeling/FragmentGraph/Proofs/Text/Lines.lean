/-
  Lines of texts.

  A text is read line by line where a newline ends each line.  Putting texts together puts their lines
  together, if the first text ends with a newline; so a text can be read part by part (`collect_append`).

  1. `OneLine` texts hold no newline.
  2. `WholeLines` texts are empty or end with a newline.
  3. `Indented` texts are whole lines that all begin with a tab.
-/
import FragmentGraph.Proofs.Numeric.Digits

namespace FragmentGraph.Text

/-! ## Texts without newlines -/

/-- The text holds no newline. -/
def OneLine (text : String) : Prop := '\n' ∉ text.toList

instance (text : String) : Decidable (OneLine text) := inferInstanceAs (Decidable ('\n' ∉ text.toList))

@[simp] theorem oneLine_append {a b : String} : OneLine (a ++ b) ↔ OneLine a ∧ OneLine b := by
  rw [OneLine, String.toList_append, List.mem_append, not_or]
  rfl

/-- Texts without newlines stay so when they are joined by a separator without one. -/
theorem oneLine_intercalate {separator : String} {parts : List String} (hseparator : OneLine separator)
    (hparts : ∀ part ∈ parts, OneLine part) : OneLine (separator.intercalate parts) := by
  rw [OneLine, String.toList_intercalate]
  induction parts with
  | nil => simp
  | cons first rest ih =>
    have hfirst : OneLine first := hparts first List.mem_cons_self
    have hrest := ih fun part hpart => hparts part (List.mem_cons_of_mem _ hpart)
    cases rest with
    | nil => simpa [OneLine] using hfirst
    | cons second rest =>
      rw [List.map_cons, List.map_cons, List.intercalate_cons_cons, List.mem_append, List.mem_append,
        not_or, not_or]
      exact ⟨⟨hfirst, hseparator⟩, hrest⟩

open Numeric

theorem newline_not_mem_toDigits (n : Nat) : '\n' ∉ Nat.toDigits 10 n :=
  fun h => absurd (isDigit_toDigits _ h) (by decide)

theorem oneLine_decimal (n : Nat) : OneLine (decimal n) := by
  rw [OneLine, toList_decimal]
  exact newline_not_mem_toDigits n

theorem oneLine_signedDecimal (i : Int) : OneLine (signedDecimal i) := by
  rw [signedDecimal]
  split
  · exact oneLine_append.mpr ⟨by decide, oneLine_decimal _⟩
  · exact oneLine_decimal _

theorem oneLine_padded (width n : Nat) : OneLine (padded width n) := by
  rw [OneLine, padded, String.toList_ofList, List.mem_append, List.mem_replicate]
  rintro (⟨_, h⟩ | h)
  · cases h
  · exact newline_not_mem_toDigits n h

theorem oneLine_fixed (x : Single) : OneLine x.fixed := by
  rw [Single.fixed]
  split
  · refine oneLine_append.mpr ⟨oneLine_append.mpr ⟨oneLine_append.mpr ⟨?_, oneLine_decimal _⟩,
      by decide⟩, oneLine_padded _ _⟩
    split <;> decide
  · decide

/-! ## Whole lines -/

/-- The text is empty or ends with a newline. -/
def WholeLines (text : String) : Prop := text.toList = [] ∨ ∃ front, text.toList = front ++ ['\n']

theorem wholeLines_of_getLast? {text : String} (h : text.toList.getLast? = some '\n') :
    WholeLines text := Or.inr (List.getLast?_eq_some_iff.mp h)

theorem wholeLines_of_newline (text : String) : WholeLines (text ++ "\n") := by
  refine Or.inr ⟨text.toList, ?_⟩
  rw [String.toList_append]
  rfl

theorem WholeLines.append {a b : String} (ha : WholeLines a) (hb : WholeLines b) :
    WholeLines (a ++ b) := by
  rcases hb with hb | ⟨front, hb⟩
  · rcases ha with ha | ⟨front, ha⟩
    · exact Or.inl (by rw [String.toList_append, ha, hb, List.append_nil])
    · exact Or.inr ⟨front, by rw [String.toList_append, ha, hb, List.append_nil]⟩
  · exact Or.inr ⟨a.toList ++ front, by rw [String.toList_append, hb, List.append_assoc]⟩

theorem WholeLines.join {parts : List String} (h : ∀ part ∈ parts, WholeLines part) :
    WholeLines (String.join parts) := by
  induction parts with
  | nil => exact Or.inl rfl
  | cons part parts ih =>
    rw [String.join_cons]
    exact (h part List.mem_cons_self).append (ih fun p hp => h p (List.mem_cons_of_mem _ hp))

/-! ## Reading line by line -/

/-- What a reader finds in the lines of a text. -/
def collect {α : Type} (read : List Char → Option α) (text : String) : List α :=
  (text.toList.splitOn '\n').filterMap read

section Collect

variable {α : Type} {read : List Char → Option α}

theorem collect_empty (hread : read [] = none) : collect read "" = [] := by
  rw [collect, String.toList_empty, List.splitOn_nil]
  simp [hread]

/-- Texts of whole lines are read one after the other. -/
theorem collect_append (hread : read [] = none) {a : String} (ha : WholeLines a) (b : String) :
    collect read (a ++ b) = collect read a ++ collect read b := by
  unfold collect
  rw [String.toList_append]
  rcases ha with ha | ⟨front, ha⟩
  · rw [ha, List.splitOn_nil]
    simp [hread]
  · rw [ha, List.append_assoc, List.singleton_append, List.splitOn_append_cons_self,
      List.splitOn_append_cons_self, List.splitOn_nil]
    simp [hread]

theorem collect_join (hread : read [] = none) {parts : List String}
    (hparts : ∀ part ∈ parts, WholeLines part) :
    collect read (String.join parts) = parts.flatMap (collect read) := by
  induction parts with
  | nil => exact collect_empty hread
  | cons part parts ih =>
    rw [String.join_cons, collect_append hread (hparts part List.mem_cons_self),
      ih fun p hp => hparts p (List.mem_cons_of_mem _ hp), List.flatMap_cons]

/-- A single line is read as a whole. -/
theorem collect_line (hread : read [] = none) {line : String} (hline : OneLine line) :
    collect read (line ++ "\n") = (read line.toList).toList := by
  have hnewline : "\n".toList = ['\n'] := rfl
  rw [collect, String.toList_append, hnewline, List.splitOn_append_cons_self,
    List.splitOn_eq_singleton hline, List.splitOn_nil]
  cases h : read line.toList <;> simp [h, hread]

end Collect

/-! ## Indented lines -/

/-- The text of lines that are each indented by a tab. -/
def indent (lines : List String) : String := String.join (lines.map fun line => "\t" ++ line ++ "\n")

theorem indent_nil : indent [] = "" := rfl

theorem indent_cons (line : String) (lines : List String) :
    indent (line :: lines) = "\t" ++ line ++ "\n" ++ indent lines := by
  rw [indent, List.map_cons, String.join_cons]
  rfl

/-- The text is whole lines, each beginning with a tab. -/
def Indented (text : String) : Prop := ∃ lines, (∀ line ∈ lines, OneLine line) ∧ text = indent lines

theorem Indented.append {a b : String} (ha : Indented a) (hb : Indented b) : Indented (a ++ b) := by
  obtain ⟨linesA, hlinesA, rfl⟩ := ha
  obtain ⟨linesB, hlinesB, rfl⟩ := hb
  refine ⟨linesA ++ linesB, fun line hline => ?_, ?_⟩
  · rcases List.mem_append.mp hline with h | h
    · exact hlinesA line h
    · exact hlinesB line h
  · rw [indent, indent, indent, List.map_append, String.join_append]

theorem Indented.join {parts : List String} (h : ∀ part ∈ parts, Indented part) :
    Indented (String.join parts) := by
  induction parts with
  | nil => exact ⟨[], List.forall_mem_nil _, rfl⟩
  | cons part parts ih =>
    rw [String.join_cons]
    exact (h part List.mem_cons_self).append (ih fun p hp => h p (List.mem_cons_of_mem _ hp))

theorem Indented.wholeLines {text : String} (h : Indented text) : WholeLines text := by
  obtain ⟨lines, _, rfl⟩ := h
  refine WholeLines.join fun part hpart => ?_
  obtain ⟨line, _, rfl⟩ := List.mem_map.mp hpart
  exact wholeLines_of_newline _

/-- Readers that pass over indented lines find nothing there. -/
theorem collect_indented {α : Type} {read : List Char → Option α} (hread : read [] = none)
    (htab : ∀ rest, read ('\t' :: rest) = none) {text : String} (h : Indented text) :
    collect read text = [] := by
  obtain ⟨lines, hlines, rfl⟩ := h
  have hline : ∀ line ∈ lines, collect read ("\t" ++ line ++ "\n") = [] := by
    intro line hmem
    rw [collect_line hread (oneLine_append.mpr ⟨by decide, hlines line hmem⟩), String.toList_append]
    exact congrArg Option.toList (htab _)
  rw [indent, collect_join hread]
  · rw [List.flatMap_map, List.flatMap_eq_nil_iff]
    exact hline
  · intro part hpart
    obtain ⟨line, _, rfl⟩ := List.mem_map.mp hpart
    exact wholeLines_of_newline _

end FragmentGraph.Text
