/-
  Documents read back from their own text.

  Reading a text forgets how it was written: the order of keys, white space, escapes, records written as
  arrays, fields that nobody knows, members given twice.  What it keeps is written by `Document.render`,
  and reading that text gives the document again (`parse?_render`):

  1. the value of a document that was read fits the limits under which it was read
     (`fits_value_of_ofTree?`), so its text spells its tree;
  2. each record finds its fields in the tree of its own value (`ofTree?_tree`).
-/
import FragmentGraph.Document.Reader
import FragmentGraph.Proofs.Json.Value

namespace FragmentGraph

open Json

/-! ## Words and lists -/

theorem inRange_word (w : UInt32) : (Number.int w.toNat).InRange := by
  have hw := w.toNat_lt
  constructor <;> omega

theorem word?_tree (w : UInt32) : word? (natValue w.toNat).tree = some w := by
  have hread := (Number.readsBack_int (inRange_word w)).numeral.2
  have hw := w.toNat_lt
  simp only [natValue, Value.tree, word?, hread]
  rw [if_pos (by omega), Int.toNat_natCast, UInt32.ofNat_toNat]

/-- A list is read back if its items are. -/
theorem list?_tree {α : Type} {read : Tree → Option α} {write : α → Value} {xs : List α}
    (h : ∀ x ∈ xs, read (write x).tree = some x) :
    list? read (Value.array (xs.map write)).tree = some xs := by
  rw [Value.tree, list?, Value.itemTrees_eq_map]
  induction xs with
  | nil => rfl
  | cons x xs ih =>
    obtain ⟨hx, hxs⟩ := List.forall_mem_cons.mp h
    rw [List.map_cons, List.map_cons, List.mapM_cons, hx, ih hxs]
    rfl

/-- What holds of everything that is read as an item holds of all items of a list that was read. -/
theorem forall_mem_of_list? {α : Type} {read : Tree → Option α} {P : α → Prop}
    (hread : ∀ t x, read t = some x → P x) {t : Tree} {xs : List α} (h : list? read t = some xs) :
    ∀ x ∈ xs, P x := by
  cases t with
  | array items =>
    rw [list?] at h
    induction items generalizing xs with
    | nil =>
      cases h
      simp
    | cons item items ih =>
      simp only [List.mapM_cons, Option.bind_eq_bind, Option.bind_eq_some_iff] at h
      obtain ⟨x, hx, rest, hrest, hxs⟩ := h
      cases hxs
      exact List.forall_mem_cons.mpr ⟨hread item x hx, ih hrest⟩
  | _ => cases h

/-! ## Records read what they write -/

theorem Socket.ofTree?_tree (s : Socket) : Socket.ofTree? s.value.tree = some s := by
  have hfields : fields? ["node", "port"] s.value.tree
      = some [some (natValue s.node.toNat).tree, some (natValue s.port.toNat).tree] := by
    simp [Socket.value, Value.tree, Value.memberTrees, fields?, keyed?, uniqueMember?]
  simp [Socket.ofTree?, hfields, word?_tree]

theorem Link.ofTree?_tree (l : Link) : Link.ofTree? l.value.tree = some l := by
  have hfields : fields? ["from", "to"] l.value.tree
      = some [some l.source.value.tree, some l.target.value.tree] := by
    simp [Link.value, Value.tree, Value.memberTrees, fields?, keyed?, uniqueMember?]
  simp [Link.ofTree?, hfields, Socket.ofTree?_tree]

theorem params?_tree {params : Members} (hfits : (Value.object params).Fits (maxDepth - paramDepth + 1))
    (hnumbers : ∀ n ∈ (Value.object params).numbers, n.ReadsBack) :
    params? (Value.object params).tree = some params := by
  have hvalue := Value.value?_tree hfits hnumbers
  rw [Value.tree, Tree.value?] at hvalue
  obtain ⟨pairs, hpairs, hparams⟩ := Option.map_eq_some_iff.mp hvalue
  rw [Value.tree, params?, hpairs]
  exact congrArg some (Value.object.inj hparams)

/-- An entry is read back if its parameters nest within the depth that is left to them and its numbers are
    read back. -/
theorem Entry.ofTree?_tree {e : Entry} (hfits : e.value.Fits (maxDepth - paramDepth + 2))
    (hnumbers : ∀ n ∈ e.value.numbers, n.ReadsBack) : Entry.ofTree? e.value.tree = some e := by
  have hparams : params? (Value.object e.params).tree = some e.params := by
    cases hfits with
    | object hsorted hmembers =>
      have hnumbers := Value.forall_mem_numbers_object.mp hnumbers
      exact params?_tree (hmembers ("params", .object e.params) (by simp))
        (hnumbers ("params", .object e.params) (by simp))
  have hfields : fields? ["id", "type", "params"] e.value.tree
      = some [some (natValue e.id.toNat).tree, some (.text (some e.type)),
          some (Value.object e.params).tree] := by
    simp [Entry.value, Value.tree, Value.memberTrees, fields?, keyed?, uniqueMember?]
  simp [Entry.ofTree?, hfields, word?_tree, text?, hparams]

namespace Document

/-- The version as a JSON value. -/
def versionValue : Option String → Value
  | some v => .text v
  | none => .null

theorem value_eq (d : Document) :
    d.value = .object
      [("connections", .array (d.links.map Link.value)),
       ("nodes", .array (d.entries.map Entry.value)),
       ("version", versionValue d.version)] := by
  rw [value]
  cases d.version <;> rfl

theorem optionalText?_tree (version : Option String) :
    optionalText? (versionValue version).tree = some version := by
  cases version <;> rfl

/-- A document is read back from the tree of its value, where every key is found once: the version and the
    links are always read back, the entries if the value is within the limits and its numbers are read
    back. -/
theorem ofTree?_tree {d : Document} (hfits : d.value.Fits maxDepth)
    (hnumbers : ∀ n ∈ d.value.numbers, n.ReadsBack) : ofTree? d.value.tree = some d := by
  have hentries : list? Entry.ofTree? (Value.array (d.entries.map Entry.value)).tree
      = some d.entries := by
    have hnumbers := Value.forall_mem_numbers_array.mp
      (Value.forall_mem_numbers_object.mp hnumbers ("nodes", .array (d.entries.map Entry.value))
        (by simp))
    cases hfits with
    | object hsorted hmembers =>
      cases hmembers ("nodes", .array (d.entries.map Entry.value)) (by simp) with
      | array hitems =>
        refine list?_tree fun e he => ?_
        have hmem : e.value ∈ d.entries.map Entry.value := List.mem_map_of_mem he
        exact Entry.ofTree?_tree (hitems e.value hmem) (hnumbers e.value hmem)
  have hlinks : list? Link.ofTree? (Value.array (d.links.map Link.value)).tree = some d.links :=
    list?_tree fun l _ => l.ofTree?_tree
  have hfields : fields? ["version", "nodes", "connections"] d.value.tree
      = some [some (versionValue d.version).tree, some (Value.array (d.entries.map Entry.value)).tree,
          some (Value.array (d.links.map Link.value)).tree] := by
    simp [value_eq, Value.tree, Value.memberTrees, fields?, keyed?, uniqueMember?]
  simp [ofTree?, hfields, optionalText?_tree, hentries, hlinks]

end Document

/-! ## What a read document is like -/

theorem fits_natValue (w : UInt32) {depth : Nat} : (natValue w.toNat).Fits depth :=
  .number (inRange_word w)

theorem Socket.fits_value (s : Socket) {depth : Nat} : s.value.Fits (depth + 1) := by
  have hkeys : ["node", "port"].Pairwise (· < ·) := by decide
  refine .object (Members.sorted_iff_keys.mpr hkeys) ?_
  simp [fits_natValue]

theorem Link.fits_value (l : Link) {depth : Nat} : l.value.Fits (depth + 2) := by
  have hkeys : ["from", "to"].Pairwise (· < ·) := by decide
  refine .object (Members.sorted_iff_keys.mpr hkeys) ?_
  simp [Socket.fits_value]

theorem fits_params {t : Tree} {params : Members} (h : params? t = some params) :
    (Value.object params).Fits (maxDepth - paramDepth + 1) := by
  cases t with
  | object members =>
    obtain ⟨pairs, hpairs, rfl⟩ := Option.map_eq_some_iff.mp h
    exact .object (Members.sorted_ofList pairs) fun member hmember =>
      Tree.fits_of_pairs? hpairs member (Members.mem_ofList hmember)
  | _ => cases h

/-- An entry that was read has a value within the limits.  Parameters that were left out are an empty
    object. -/
theorem Entry.fits_value {t : Tree} {e : Entry} (h : Entry.ofTree? t = some e) :
    e.value.Fits (maxDepth - paramDepth + 2) := by
  have hparams : (Value.object e.params).Fits (maxDepth - paramDepth + 1) := by
    simp only [Entry.ofTree?, Option.bind_eq_bind, Option.bind_eq_some_iff] at h
    obtain ⟨fields, -, h⟩ := h
    split at h
    next id type params =>
      simp only [Option.bind_eq_some_iff] at h
      obtain ⟨id, -, type, -, params', hparams, he⟩ := h
      cases he
      split at hparams
      · exact fits_params hparams
      · cases hparams
        exact .object .nil (by simp)
    · cases h
  have hkeys : ["id", "params", "type"].Pairwise (· < ·) := by decide
  refine .object (Members.sorted_iff_keys.mpr hkeys) ?_
  simp [fits_natValue, hparams, Value.Fits.text]

namespace Document

/-- A document that was read has a value within the limits: its own keys are sorted, and what nests deeper
    than a link are parameters, which were read within the depth that was left. -/
theorem fits_value_of_ofTree? {t : Tree} {d : Document} (h : ofTree? t = some d) :
    d.value.Fits maxDepth := by
  have hentries : ∀ e ∈ d.entries, e.value.Fits (maxDepth - paramDepth + 2) := by
    simp only [ofTree?, Option.bind_eq_bind, Option.bind_eq_some_iff] at h
    obtain ⟨fields, -, h⟩ := h
    split at h
    next version entries links =>
      simp only [Option.bind_eq_some_iff] at h
      obtain ⟨version', -, entries', hentries, links', -, hd⟩ := h
      cases hd
      exact forall_mem_of_list? (fun _ _ => Entry.fits_value) hentries
    · cases h
  have hversion : ∀ {depth : Nat}, (versionValue d.version).Fits depth := by
    cases d.version with
    | none => exact .null
    | some v => exact .text v
  rw [value_eq]
  have hkeys : ["connections", "nodes", "version"].Pairwise (· < ·) := by decide
  refine .object (Members.sorted_iff_keys.mpr hkeys) ?_
  simp only [List.forall_mem_cons]
  refine ⟨.array ?_, .array ?_, hversion, by simp⟩
  · exact List.forall_mem_map.mpr fun l _ => l.fits_value
  · exact List.forall_mem_map.mpr hentries

theorem fits_value {text : String} {d : Document} (h : parse? text = some d) : d.value.Fits maxDepth := by
  obtain ⟨t, -, ht⟩ := Option.bind_eq_some_iff.mp h
  exact fits_value_of_ofTree? ht

/-- The text of a document with a value that fits is read as the document. -/
theorem parse?_render {d : Document} (hfits : d.value.Fits maxDepth)
    (hnumbers : ∀ n ∈ d.value.numbers, n.ReadsBack) : parse? d.render = some d := by
  rw [parse?, render, Value.parse?_render hfits hnumbers]
  exact ofTree?_tree hfits hnumbers

/-- Reading undoes writing: a document that was read from any text is written with sorted keys at every
    level, within the limits for reading, as a text that is read as the same document and is therefore
    written the same again.  The doubles among its parameters have to be ones that are read back. -/
theorem parse?_undoes_render {text : String} {d : Document} (hd : parse? text = some d)
    (hfloats : ∀ x, .float x ∈ d.value.numbers → (Number.float x).ReadsBack) :
    d.value.Fits maxDepth
      ∧ parse? d.render = some d
      ∧ (parse? d.render).map render = some d.render := by
  have hfits : d.value.Fits maxDepth := fits_value hd
  have hread : parse? d.render = some d := parse?_render hfits (Value.readsBack_of_float hfits hfloats)
  refine ⟨hfits, hread, ?_⟩
  rw [hread, Option.map_some]

/-- A text with records as arrays, keys out of order and given twice, an escape, a minus zero, a field
    that nobody knows, and fields left out. -/
def looseText : String :=
  "\x7b\"nodes\": [[7, \"Tim\\u0065\", \x7b\"b\": -0, \"a\": -0, \"b\": 0.1\x7d]], \"connections\": "
    ++ "[\x7b\"x\": 1e999, \"to\": [0, 1], \"from\": \x7b\"port\": 2, \"node\": 7\x7d\x7d]\x7d"

def looseDocument : Document where
  version := none
  entries :=
    [⟨7, "Time", [("a", .number (.float ⟨0x8000000000000000⟩)),
                  ("b", .number (.float ⟨0x3fb999999999999a⟩))]⟩]
  links := [⟨⟨7, 2⟩, ⟨0, 1⟩⟩]

/-- Of the key given twice the last value counts, the minus zero keeps its sign, and the fields left out
    are written out; the text has changed, and is read as the same document. -/
theorem parse?_undoes_render_loose :
    parse? looseText = some looseDocument
      ∧ looseDocument.render
          = "\x7b\"connections\":[\x7b\"from\":\x7b\"node\":7,\"port\":2\x7d,\"to\":\x7b\"node\":0,"
            ++ "\"port\":1\x7d\x7d],\"nodes\":[\x7b\"id\":7,\"params\":\x7b\"a\":-0.0,\"b\":0.1\x7d,"
            ++ "\"type\":\"Time\"\x7d],\"version\":null\x7d"
      ∧ parse? looseDocument.render = some looseDocument := by
  have hread : parse? looseText = some looseDocument := by
    unfold looseText parse? Tree.parse?
    rw [String.toList_append, String.toList_ofList, String.toList_ofList]
    rfl
  refine ⟨hread, by decide +kernel, ?_⟩
  refine (parse?_undoes_render hread fun x hx => ?_).2.1
  have hx : x ∈ ([⟨0x8000000000000000⟩, ⟨0x3fb999999999999a⟩] : List Numeric.Double) := by
    simpa [looseDocument, value, Value.numbers, Value.itemNumbers, Value.memberNumbers, Entry.value,
      Link.value, Socket.value, natValue] using hx
  rcases List.mem_pair.mp hx with rfl | rfl <;> decide +kernel

end Document

end FragmentGraph
