/-
  Values and their texts.

  A value that was read nests no deeper than it was allowed to, has its members in the order of their
  keys, and its integers fit 64 bits (`Value.Fits`, `fits_of_value?`).  Such a value is what its text
  spells, provided that its numbers are read back:

  1. the text is scanned as the tokens of `Value.tree` (`scans_render`), so it spells that tree
     (`parse?_render`);
  2. the tree has the value again (`value?_tree`), since members in the order of their keys stay as they
     are (`ofList_of_sorted`).
-/
import FragmentGraph.Proofs.Json.Scan
import FragmentGraph.Proofs.Json.Tree

namespace FragmentGraph.Json

open Scanner (Scans)

/-! ## Members -/

namespace Members

/-- The keys grow from member to member. -/
def Sorted (members : Members) : Prop := members.Pairwise fun a b => a.1 < b.1

theorem sorted_iff_keys {members : Members} :
    members.Sorted ↔ (members.map Prod.fst).Pairwise (· < ·) :=
  List.pairwise_map.symm

/-- Inserting brings in no member but the new one. -/
theorem mem_insert {key : String} {value : Value} {members : Members} {member : String × Value}
    (h : member ∈ insert key value members) : member = (key, value) ∨ member ∈ members := by
  induction members with
  | nil => exact .inl (List.mem_singleton.mp h)
  | cons first rest ih =>
    simp only [insert] at h
    split at h
    · exact List.mem_cons.mp h
    · split at h
      · exact (List.mem_cons.mp h).imp_right (List.mem_cons_of_mem first)
      · rcases List.mem_cons.mp h with rfl | hrest
        · exact .inr List.mem_cons_self
        · exact (ih hrest).imp_right (List.mem_cons_of_mem first)

/-- Inserting keeps members sorted: a new key goes before the first one above it, and a key that is there
    keeps its place. -/
theorem sorted_insert {members : Members} (key : String) (value : Value) (h : Sorted members) :
    Sorted (insert key value members) := by
  induction members with
  | nil => exact List.pairwise_singleton _ _
  | cons first rest ih =>
    obtain ⟨hfirst, hrest⟩ := List.pairwise_cons.mp h
    simp only [insert]
    split
    next hlt =>
      refine List.pairwise_cons.mpr ⟨?_, h⟩
      refine List.forall_mem_cons.mpr ⟨hlt, fun member hmember => ?_⟩
      exact String.lt_trans hlt (hfirst member hmember)
    next hnlt =>
      split
      next heq =>
        refine List.pairwise_cons.mpr ⟨fun member hmember => ?_, hrest⟩
        exact heq ▸ hfirst member hmember
      next hne =>
        have hgt : first.1 < key := Std.lt_of_le_of_ne (Std.not_lt.mp hnlt) (Ne.symm hne)
        refine List.pairwise_cons.mpr ⟨fun member hmember => ?_, ih hrest⟩
        rcases mem_insert hmember with rfl | hold
        · exact hgt
        · exact hfirst member hold

theorem sorted_ofList (members : List (String × Value)) : Sorted (ofList members) :=
  List.foldlRecOn members _ List.Pairwise.nil
    fun _ hsorted member _ => sorted_insert member.1 member.2 hsorted

theorem mem_ofList {members : List (String × Value)} {member : String × Value}
    (h : member ∈ ofList members) : member ∈ members := by
  refine List.foldlRecOn (motive := fun sorted : Members => ∀ m ∈ sorted, m ∈ members) members _
    (by simp) ?_ member h
  intro sorted hsorted next hnext m hm
  rcases mem_insert hm with rfl | hold
  · exact hnext
  · exact hsorted m hold

/-- A key above all others goes to the end. -/
theorem insert_of_forall_lt {key : String} {value : Value} {members : Members}
    (h : ∀ member ∈ members, member.1 < key) :
    insert key value members = members ++ [(key, value)] := by
  induction members with
  | nil => rfl
  | cons first rest ih =>
    obtain ⟨hfirst, hrest⟩ := List.forall_mem_cons.mp h
    have hne : key ≠ first.1 := fun heq => String.lt_irrefl _ (heq ▸ hfirst)
    simp only [insert, if_neg (String.lt_asymm hfirst), if_neg hne, ih hrest, List.cons_append]

/-- Members that are sorted are left as they are. -/
theorem ofList_of_sorted {members : Members} (h : Sorted members) : ofList members = members := by
  -- Behind members that are already sorted, the others are added one by one at the end.
  have hfold : ∀ (rest front : Members), Sorted (front ++ rest) →
      rest.foldl (fun sorted member => insert member.1 member.2 sorted) front = front ++ rest := by
    intro rest
    induction rest with
    | nil => simp
    | cons next rest ih =>
      intro front hsorted
      have hlast : ∀ member ∈ front, member.1 < next.1 := fun member hmember =>
        (List.pairwise_append.mp hsorted).2.2 member hmember next List.mem_cons_self
      rw [List.foldl_cons, insert_of_forall_lt hlast, ih _ (by simpa using hsorted)]
      simp
  exact hfold members [] h

end Members

/-! ## What a read value is like -/

namespace Value

/-- The value nests at most `depth` containers, its members are sorted, and a numeral can be read as any
    of its numbers. -/
inductive Fits : Nat → Value → Prop where
  | null {depth : Nat} : Fits depth .null
  | bool {depth : Nat} (b : Bool) : Fits depth (.bool b)
  | number {depth : Nat} {n : Number} (hn : n.InRange) : Fits depth (.number n)
  | text {depth : Nat} (s : String) : Fits depth (.text s)
  | array {depth : Nat} {items : List Value} (hitems : ∀ item ∈ items, Fits depth item) :
      Fits (depth + 1) (.array items)
  | object {depth : Nat} {members : Members} (hsorted : members.Sorted)
      (hmembers : ∀ member ∈ members, Fits depth member.2) : Fits (depth + 1) (.object members)

mutual

/-- The numbers in a value. -/
def numbers : Value → List Number
  | .number n => [n]
  | .array items => itemNumbers items
  | .object members => memberNumbers members
  | _ => []

/-- The numbers in the items of an array. -/
def itemNumbers : List Value → List Number
  | [] => []
  | item :: rest => item.numbers ++ itemNumbers rest

/-- The numbers in the members of an object. -/
def memberNumbers : List (String × Value) → List Number
  | [] => []
  | (_, value) :: rest => value.numbers ++ memberNumbers rest

end

theorem forall_mem_numbers_array {P : Number → Prop} {items : List Value} :
    (∀ n ∈ (array items).numbers, P n) ↔ ∀ item ∈ items, ∀ n ∈ item.numbers, P n := by
  rw [numbers]
  induction items with
  | nil => simp [itemNumbers]
  | cons item rest ih => rw [itemNumbers, List.forall_mem_append, ih, List.forall_mem_cons]

theorem forall_mem_numbers_object {P : Number → Prop} {members : List (String × Value)} :
    (∀ n ∈ (object members).numbers, P n) ↔ ∀ member ∈ members, ∀ n ∈ member.2.numbers, P n := by
  rw [numbers]
  induction members with
  | nil => simp [memberNumbers]
  | cons member rest ih => rw [memberNumbers, List.forall_mem_append, ih, List.forall_mem_cons]

theorem inRange_numbers {depth : Nat} {v : Value} (hv : v.Fits depth) :
    ∀ n ∈ v.numbers, n.InRange := by
  induction hv with
  | null => simp [numbers]
  | bool b => simp [numbers]
  | number hn => simpa [numbers] using hn
  | text s => simp [numbers]
  | array hitems ih => exact forall_mem_numbers_array.mpr ih
  | object hsorted hmembers ih => exact forall_mem_numbers_object.mpr ih

/-- The numbers of a value that was read are read back if its doubles are. -/
theorem readsBack_of_float {depth : Nat} {v : Value} (hv : v.Fits depth)
    (hfloats : ∀ x, .float x ∈ v.numbers → (Number.float x).ReadsBack) :
    ∀ n ∈ v.numbers, n.ReadsBack := by
  intro n hn
  cases n with
  | int i => exact Number.readsBack_int (inRange_numbers hv _ hn)
  | float x => exact hfloats x hn

end Value

namespace Tree

mutual

/-- A value that was read fits. -/
theorem fits_of_value? {depth : Nat} {t : Tree} {v : Value} (h : t.value? depth = some v) :
    v.Fits depth := by
  cases t with
  | null =>
    cases h
    exact .null
  | bool b =>
    cases h
    exact .bool b
  | numeral n =>
    obtain ⟨x, hx, rfl⟩ := Option.map_eq_some_iff.mp h
    exact .number (Number.inRange_of_number? hx)
  | text content =>
    obtain ⟨s, -, rfl⟩ := Option.map_eq_some_iff.mp h
    exact .text s
  | array items =>
    cases depth with
    | zero => cases h
    | succ depth =>
      obtain ⟨values, hvalues, rfl⟩ := Option.map_eq_some_iff.mp h
      exact .array (fits_of_values? hvalues)
  | object members =>
    cases depth with
    | zero => cases h
    | succ depth =>
      obtain ⟨pairs, hpairs, rfl⟩ := Option.map_eq_some_iff.mp h
      exact .object (Members.sorted_ofList pairs)
        fun member hmember => fits_of_pairs? hpairs member (Members.mem_ofList hmember)

/-- So do values that were read one after the other. -/
theorem fits_of_values? {depth : Nat} {ts : List Tree} {vs : List Value}
    (h : values? depth ts = some vs) : ∀ v ∈ vs, v.Fits depth := by
  cases ts with
  | nil =>
    cases h
    simp
  | cons t ts =>
    simp only [values?, Option.bind_eq_bind, Option.bind_eq_some_iff] at h
    obtain ⟨value, hvalue, values, hvalues, hvs⟩ := h
    cases hvs
    exact List.forall_mem_cons.mpr ⟨fits_of_value? hvalue, fits_of_values? hvalues⟩

/-- So do the values of members that were read. -/
theorem fits_of_pairs? {depth : Nat} {ms : List (Option String × Tree)} {ps : List (String × Value)}
    (h : pairs? depth ms = some ps) : ∀ p ∈ ps, p.2.Fits depth := by
  cases ms with
  | nil =>
    cases h
    simp
  | cons m ms =>
    obtain ⟨name, t⟩ := m
    simp only [pairs?, Option.bind_eq_bind, Option.bind_eq_some_iff] at h
    obtain ⟨key, -, value, hvalue, pairs, hpairs, hps⟩ := h
    cases hps
    exact List.forall_mem_cons.mpr ⟨fits_of_value? hvalue, fits_of_pairs? hpairs⟩

end

end Tree

/-! ## The tree of a value -/

/-- The numeral that the text of a number is. -/
def Number.numeral (n : Number) : Numeral :=
  (Numeral.ofChars? n.render.toList).getD ⟨false, ['0'], [], none⟩

theorem Number.ReadsBack.numeral {n : Number} (h : n.ReadsBack) :
    Numeral.ofChars? n.render.toList = some n.numeral ∧ n.numeral.number? = some n := by
  obtain ⟨spelled, hspelled, hnumber⟩ := Option.bind_eq_some_iff.mp h
  have hnumeral : n.numeral = spelled := by rw [Number.numeral, hspelled, Option.getD_some]
  rw [hnumeral]
  exact ⟨hspelled, hnumber⟩

namespace Value

mutual

/-- The tree of the text of a value. -/
def tree : Value → Tree
  | .null => .null
  | .bool b => .bool b
  | .number n => .numeral n.numeral
  | .text s => .text (some s)
  | .array items => .array (itemTrees items)
  | .object members => .object (memberTrees members)

/-- The trees of the items of an array. -/
def itemTrees : List Value → List Tree
  | [] => []
  | item :: rest => item.tree :: itemTrees rest

/-- The trees of the members of an object. -/
def memberTrees : List (String × Value) → List (Option String × Tree)
  | [] => []
  | (key, value) :: rest => (some key, value.tree) :: memberTrees rest

end

theorem itemTrees_eq_map (items : List Value) : itemTrees items = items.map tree := by
  induction items with
  | nil => rfl
  | cons item rest ih => rw [itemTrees, ih, List.map_cons]

theorem values?_itemTrees {depth : Nat} {items : List Value}
    (h : ∀ item ∈ items, item.tree.value? depth = some item) :
    Tree.values? depth (itemTrees items) = some items := by
  induction items with
  | nil => rfl
  | cons item rest ih =>
    obtain ⟨hitem, hrest⟩ := List.forall_mem_cons.mp h
    simp [itemTrees, Tree.values?, hitem, ih hrest]

theorem pairs?_memberTrees {depth : Nat} {members : List (String × Value)}
    (h : ∀ member ∈ members, member.2.tree.value? depth = some member.2) :
    Tree.pairs? depth (memberTrees members) = some members := by
  induction members with
  | nil => rfl
  | cons member rest ih =>
    obtain ⟨hmember, hrest⟩ := List.forall_mem_cons.mp h
    simp [memberTrees, Tree.pairs?, hmember, ih hrest]

/-- The tree of a value has the value again. -/
theorem value?_tree {depth : Nat} {v : Value} (hv : v.Fits depth)
    (hnumbers : ∀ n ∈ v.numbers, n.ReadsBack) : v.tree.value? depth = some v := by
  induction hv with
  | null => rfl
  | bool b => rfl
  | @number depth n hn =>
    have hread : n.ReadsBack := hnumbers n (by simp [numbers])
    rw [tree, Tree.value?, hread.numeral.2]
    rfl
  | text s => rfl
  | @array depth items hitems ih =>
    have hnumbers := forall_mem_numbers_array.mp hnumbers
    have hvalues := values?_itemTrees fun item hitem => ih item hitem (hnumbers item hitem)
    rw [tree, Tree.value?, hvalues]
    rfl
  | @object depth members hsorted hmembers ih =>
    have hnumbers := forall_mem_numbers_object.mp hnumbers
    have hpairs := pairs?_memberTrees fun member hmember =>
      ih member hmember (hnumbers member hmember)
    rw [tree, Tree.value?, hpairs, Option.map_some, Members.ofList_of_sorted hsorted]

/-! ## The text of a value -/

theorem renderItems_eq_map (items : List Value) : renderItems items = items.map render := by
  induction items with
  | nil => rfl
  | cons item rest ih => rw [renderItems, ih, List.map_cons]

theorem renderMembers_eq_map (members : List (String × Value)) :
    renderMembers members = members.map fun member => renderText member.1 ++ ":" ++ render member.2 := by
  induction members with
  | nil => rfl
  | cons member rest ih => rw [renderMembers, ih, List.map_cons]

theorem itemTokens_itemTrees (items : List Value) :
    Tree.itemTokens (itemTrees items) = items.map fun item => item.tree.tokens := by
  induction items with
  | nil => rfl
  | cons item rest ih => rw [itemTrees, Tree.itemTokens, ih, List.map_cons]

theorem memberTokens_memberTrees (members : List (String × Value)) :
    Tree.memberTokens (memberTrees members)
      = members.map fun member => .text (some member.1) :: .colon :: member.2.tree.tokens := by
  induction members with
  | nil => rfl
  | cons member rest ih => rw [memberTrees, Tree.memberTokens, ih, List.map_cons]

/-- The text of a value is scanned as the tokens of its tree. -/
theorem scans_render {depth : Nat} {v : Value} (hv : v.Fits depth)
    (hnumbers : ∀ n ∈ v.numbers, n.ReadsBack) : Scans v.render.toList v.tree.tokens := by
  induction hv with
  | null => exact Scanner.scans_null
  | bool b =>
    cases b with
    | false => exact Scanner.scans_false
    | true => exact Scanner.scans_true
  | @number depth n hn =>
    have hread : n.ReadsBack := hnumbers n (by simp [numbers])
    exact Scanner.scans_numeral hread.numeral.1
  | text s => exact Scanner.scans_renderText s
  | @array depth items hitems ih =>
    have hnumbers := forall_mem_numbers_array.mp hnumbers
    have hinner : List.Forall₂ Scans (items.map fun item => item.render.toList)
        (items.map fun item => item.tree.tokens) := by
      rw [List.forall₂_map_left_iff, List.forall₂_map_right_iff, List.forall₂_same]
      exact fun item hitem => ih item hitem (hnumbers item hitem)
    have htext : (array items).render.toList
        = '[' :: ([','].intercalate (items.map fun item => item.render.toList) ++ [']']) := by
      simp [render, renderItems_eq_map, Function.comp_def]
    rw [htext, tree, Tree.tokens, itemTokens_itemTrees]
    exact Scans.enclosed rfl (Scans.intercalate hinner) rfl
  | @object depth members hsorted hmembers ih =>
    have hnumbers := forall_mem_numbers_object.mp hnumbers
    have hinner : List.Forall₂ Scans
        (members.map fun member => (renderText member.1).toList ++ ':' :: member.2.render.toList)
        (members.map fun member => .text (some member.1) :: .colon :: member.2.tree.tokens) := by
      rw [List.forall₂_map_left_iff, List.forall₂_map_right_iff, List.forall₂_same]
      intro member hmember
      have hvalue := ih member hmember (hnumbers member hmember)
      exact Scans.append_cons (Scanner.scans_renderText member.1) rfl hvalue
    have htext : (object members).render.toList
        = '\x7b' :: ([','].intercalate (members.map fun member =>
            (renderText member.1).toList ++ ':' :: member.2.render.toList) ++ ['\x7d']) := by
      simp [render, renderMembers_eq_map, Function.comp_def]
    rw [htext, tree, Tree.tokens, memberTokens_memberTrees]
    exact Scans.enclosed rfl (Scans.intercalate hinner) rfl

/-- The text of a value spells the tree of the value. -/
theorem parse?_render {depth : Nat} {v : Value} (hv : v.Fits depth)
    (hnumbers : ∀ n ∈ v.numbers, n.ReadsBack) : Tree.parse? v.render = some v.tree := by
  have hscan : Token.scan? v.render.toList = some v.tree.tokens := by
    have hrun := scans_render hv hnumbers [] [] (by simp [Scanner.Stops])
    rw [List.append_nil, List.append_nil] at hrun
    rw [Token.scan?, hrun]
    simp [Scanner.run?, Scanner.finish?]
  rw [Tree.parse?, hscan]
  exact Tree.ofTokens?_tokens v.tree

end Value

end FragmentGraph.Json
