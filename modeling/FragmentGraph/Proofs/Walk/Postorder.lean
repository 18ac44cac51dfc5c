/-
  The walk follows the recursive post-order.

  The order of a shader's blocks is best said by recursion: to visit a node, mark it as in progress,
  visit what feeds its inputs in the order of its ports, then emit it and mark it as done.  `visit` says
  just that.  It takes the depth to which visits may nest and ends in `none` if that is too small, so an
  equation `visit .. = some r` for all large depths says that the recursion ends, and with `r`.

  The stack walk is a machine for the same recursion:

  1. `resume` is what is left of a visit at some port; `visit` is `resume` at port 0 (`visit_eq_resume`).
  2. `Answers` relates an outcome of `resume` to the machine: a cycle is met, or the top frame is gone
     and marks and order agree.
  3. `resume_answers` is the simulation, by induction on the work that is left, which also bounds the
     depth.  An ENTER is where the two differ: the recursion calls itself, and the machine runs until
     the new frame is gone again, so the hypothesis is used once for the new frame and once for the rest
     of the old one.

  With the invariant of the walk the order is then known in full: it lists what the root reaches, each
  node once, sources before the nodes they feed and the root last.
-/
import FragmentGraph.Proofs.Walk.Invariant

namespace FragmentGraph

open Std (ExtTreeMap)
open Relation (ReflTransGen)

/-! ## The recursion -/

/-- The marks set and the nodes emitted so far, in order. -/
structure Trail where
  marks : ExtTreeMap NodeId Mark
  order : List NodeId

namespace Trail

/-- Nothing is visited. -/
def empty : Trail := ⟨∅, []⟩

/-- The visit of a node begins. -/
def enter (t : Trail) (id : NodeId) : Trail := { t with marks := t.marks.insert id .inProgress }

/-- The node is emitted, and its visit ends. -/
def leave (t : Trail) (id : NodeId) : Trail := ⟨t.marks.insert id .done, t.order ++ [id]⟩

end Trail

namespace Circuit

/-- Visits a node: everything that feeds it in the order of its ports, then the node itself.  Fails with
    a node that is in progress when it is met again; `none` if visits nest deeper than `depth`. -/
def visit (c : Circuit) : (depth : Nat) → NodeId → Trail → ExceptT NodeId Option Trail
  | 0, _, _ => none
  | depth + 1, id, t => do
    let passed ← List.foldlM
      (fun (t : Trail) port =>
        match c.feeder? id port with
        | none => pure t
        | some source =>
          match t.marks[source]? with
          | some .inProgress => throw source
          | some .done => pure t
          | none => visit c depth source t)
      (t.enter id) (List.range (c.inputCount id))
    return passed.leave id

/-- The order in which the recursion emits nodes, or the node at which it fails; `none` if it nests
    deeper than `depth`. -/
def postorder (c : Circuit) (depth : Nat) (root : NodeId) : Option (Except NodeId (List NodeId)) :=
  (c.visit depth root .empty).run.map fun r => r.map Trail.order

/-- One port of a visit. -/
def follow (c : Circuit) (depth : Nat) (id : NodeId) (t : Trail) (port : Nat) :
    ExceptT NodeId Option Trail :=
  match c.feeder? id port with
  | none => pure t
  | some source =>
    match t.marks[source]? with
    | some .inProgress => throw source
    | some .done => pure t
    | none => c.visit depth source t

/-- The rest of a visit from some port on. -/
def resume (c : Circuit) (depth : Nat) (id : NodeId) (port : Nat) (t : Trail) :
    ExceptT NodeId Option Trail := do
  let passed ← List.foldlM (c.follow depth id) t (List.range' port (c.inputCount id - port))
  return passed.leave id

variable {c : Circuit} {depth : Nat} {id : NodeId} {port : Nat} {t : Trail}

theorem visit_eq_resume (c : Circuit) (depth : Nat) (id : NodeId) (t : Trail) :
    c.visit (depth + 1) id t = c.resume depth id 0 (t.enter id) := by
  rw [visit, resume, Nat.sub_zero, ← List.range_eq_range']
  rfl

theorem resume_of_lt (hp : port < c.inputCount id) :
    c.resume depth id port t = (c.follow depth id t port >>= c.resume depth id (port + 1)) := by
  have hcount : c.inputCount id - port = (c.inputCount id - (port + 1)) + 1 := by omega
  simp only [resume, hcount, List.range'_succ, List.foldlM_cons, bind_assoc]
  rfl

theorem resume_of_le (hp : c.inputCount id ≤ port) :
    c.resume depth id port t = pure (t.leave id) := by
  have hcount : c.inputCount id - port = 0 := by omega
  simp only [resume, hcount, List.range'_zero, List.foldlM_nil, pure_bind]

theorem follow_pass (hd : ∀ source, c.feeder? id port = some source → t.marks[source]? = some .done) :
    c.follow depth id t port = pure t := by
  rw [follow]
  split
  · rfl
  · next source hf => rw [hd source hf]

theorem follow_enter {source : NodeId} (hf : c.feeder? id port = some source)
    (hm : t.marks[source]? = none) : c.follow depth id t port = c.visit depth source t := by
  simp only [follow, hf, hm]

theorem follow_meet {source : NodeId} (hf : c.feeder? id port = some source)
    (hm : t.marks[source]? = some .inProgress) : c.follow depth id t port = throw source := by
  simp only [follow, hf, hm]

end Circuit

/-! ## The machine -/

namespace Walk

variable {c : Circuit} {root : NodeId} {w w' : Walk}

/-- Some steps of unfinished walks lead from one state to another. -/
def Steps (c : Circuit) : Walk → Walk → Prop :=
  ReflTransGen fun w w' => w.finished = false ∧ w' = w.step c

/-- Steps never add work. -/
theorem Steps.work_le (root : NodeId) (h : Steps c w w') : w'.work c root ≤ w.work c root := by
  induction h with
  | refl => exact Nat.le_refl _
  | tail _ hstep ih =>
    obtain ⟨hw, rfl⟩ := hstep
    have hlt := work_step (c := c) root hw
    omega

/-- A run with enough fuel ends where the steps end. -/
theorem Steps.run_eq (root : NodeId) (h : Steps c w w') (hw' : w'.finished = true) :
    ∀ fuel, w.work c root ≤ fuel → w.run c fuel = w' := by
  induction h using ReflTransGen.head_induction_on with
  | refl =>
    intro fuel _
    cases fuel with
    | zero => rfl
    | succ fuel => rw [run, if_pos hw']
  | head hstep _ ih =>
    intro fuel hle
    obtain ⟨hw, rfl⟩ := hstep
    have hlt := work_step (c := c) root hw
    cases fuel with
    | zero => omega
    | succ fuel =>
      rw [run, if_neg (by simp [hw])]
      exact ih fuel (by omega)

/-- The marks and the order of a recursion agree with those of the machine. -/
def Agrees (t : Trail) (w : Walk) : Prop := t.marks = w.marks ∧ t.order = w.order

/-- `Answers c w below r` — the machine at `w` comes to the outcome `r` of the top frame's visit.  It
    stops with the same node, or goes on with the frames `below` the top. -/
def Answers (c : Circuit) (w : Walk) (below : List (NodeId × Nat)) : Except NodeId Trail → Prop
  | .error id => ∃ w', Steps c w w' ∧ w'.cycle = some id
  | .ok t => ∃ w', Steps c w w' ∧ w'.stack = below ∧ w'.cycle = none ∧ Agrees t w'

/-- Steps before the answer do not change it. -/
theorem Steps.answers {below : List (NodeId × Nat)} {r : Except NodeId Trail} (h : Steps c w w')
    (ha : Answers c w' below r) : Answers c w below r := by
  cases r with
  | error id =>
    obtain ⟨w'', hs, hc⟩ := ha
    exact ⟨w'', h.trans hs, hc⟩
  | ok t =>
    obtain ⟨w'', hs, hrest⟩ := ha
    exact ⟨w'', h.trans hs, hrest⟩

/-- **The simulation.**  What is left of the visit of the top frame ends, at every depth that the work
    left allows for, and the machine comes to the same outcome. -/
theorem resume_answers (root : NodeId) : ∀ (n : Nat) (w : Walk) (id : NodeId) (port : Nat)
    (below : List (NodeId × Nat)) (t : Trail), w.work c root ≤ n → w.cycle = none →
    w.stack = (id, port) :: below → Agrees t w →
    ∃ r, (∀ depth, n ≤ depth → c.resume depth id port t = some r) ∧ Answers c w below r := by
  intro n
  induction n with
  | zero =>
    intro w id port below t hle hc hs _
    have hw : w.finished = false := finished_eq_false.mpr ⟨by simp [hs], hc⟩
    have hlt := work_step (c := c) root hw
    omega
  | succ n ih =>
    intro w id port below t hle hc hs ht
    have hw : w.finished = false := finished_eq_false.mpr ⟨by simp [hs], hc⟩
    have hlt : (w.step c).work c root ≤ n := by
      have := work_step (c := c) root hw
      omega
    have hone : Steps c w (w.step c) := ReflTransGen.single ⟨hw, rfl⟩
    have hmove := move_step (c := c) (w := w) (by simp [hs])
    generalize w.step c = w' at hlt hone hmove
    cases hmove with
    | pass hs' hp hd =>
      obtain ⟨⟨rfl, rfl⟩, rfl⟩ := by simpa [hs] using hs'
      obtain ⟨r, hr, ha⟩ := ih _ id (port + 1) below t hlt hc rfl ht
      refine ⟨r, fun depth hdepth => ?_, hone.answers ha⟩
      rw [Circuit.resume_of_lt hp, Circuit.follow_pass (by rw [ht.1]; exact hd), pure_bind]
      exact hr depth (by omega)
    | @enter id' port' below' source hs' hp hf hm =>
      obtain ⟨⟨rfl, rfl⟩, rfl⟩ := by simpa [hs] using hs'
      -- the new frame first, from port 0 until it is gone
      obtain ⟨r, hr, ha⟩ := ih _ source 0 ((id, port + 1) :: below) (t.enter source) hlt hc rfl
        ⟨by rw [Trail.enter, ht.1], ht.2⟩
      have hfollow : ∀ depth, n + 1 ≤ depth → c.follow depth id t port = some r := by
        intro depth hdepth
        obtain ⟨inner, rfl⟩ : ∃ inner, depth = inner + 1 := ⟨depth - 1, by omega⟩
        rw [Circuit.follow_enter hf (by rw [ht.1]; exact hm), Circuit.visit_eq_resume]
        exact hr inner (by omega)
      cases r with
      | error k =>
        refine ⟨.error k, fun depth hdepth => ?_, hone.answers ha⟩
        rw [Circuit.resume_of_lt hp, hfollow depth hdepth]
        rfl
      | ok t₁ =>
        -- then the old frame, from the port behind the one that was followed
        obtain ⟨w₁, hs₁, hstack, hc₁, ht₁⟩ := ha
        obtain ⟨r, hr₁, ha₁⟩ := ih w₁ id (port + 1) below t₁
          (Nat.le_trans (hs₁.work_le root) hlt) hc₁ hstack ht₁
        refine ⟨r, fun depth hdepth => ?_, hone.answers (hs₁.answers ha₁)⟩
        rw [Circuit.resume_of_lt hp, hfollow depth hdepth]
        exact hr₁ depth (by omega)
    | meet hs' hp hf hm =>
      obtain ⟨⟨rfl, rfl⟩, rfl⟩ := by simpa [hs] using hs'
      refine ⟨.error _, fun depth _ => ?_, _, hone, rfl⟩
      rw [Circuit.resume_of_lt hp, Circuit.follow_meet hf (by rw [ht.1]; exact hm)]
      rfl
    | leave hs' hp =>
      obtain ⟨⟨rfl, rfl⟩, rfl⟩ := by simpa [hs] using hs'
      refine ⟨.ok (t.leave id), fun depth _ => Circuit.resume_of_le hp, _, hone, rfl, hc, ?_, ?_⟩
      · rw [Trail.leave, ht.1]
      · rw [Trail.leave, ht.2, order, order, List.reverse_cons]

/-- What a finished walk comes to: the nodes in the order of their emission, or the node at which a cycle
    is met. -/
def outcome (w : Walk) : Except NodeId (List NodeId) :=
  match w.cycle with
  | some id => .error id
  | none => .ok w.order

end Walk

/-! ## The order -/

namespace Circuit

variable {c : Circuit} {root id source : NodeId}

/-- The recursion ends, with the outcome of the walk, and nests no deeper than the walk's budget. -/
theorem postorder_eq (c : Circuit) (root : NodeId) {depth : Nat} (hdepth : c.budget root < depth) :
    c.postorder depth root = some (c.walk root).outcome := by
  obtain ⟨r, hr, ha⟩ := Walk.resume_answers (c := c) root _ (Walk.start root) root 0 []
    (Trail.empty.enter root) (Walk.work_start_le c root) rfl rfl ⟨rfl, rfl⟩
  have hvisit : c.visit depth root .empty = some r := by
    obtain ⟨inner, rfl⟩ : ∃ inner, depth = inner + 1 := ⟨depth - 1, by omega⟩
    rw [visit_eq_resume]
    exact hr inner (by omega)
  have hwalk : ∀ w', Walk.Steps c (Walk.start root) w' → w'.finished = true → c.walk root = w' :=
    fun w' hs hw' => hs.run_eq root hw' _ (Walk.work_start_le c root)
  rw [postorder, hvisit]
  cases r with
  | error k =>
    obtain ⟨w', hs, hc⟩ := ha
    rw [hwalk w' hs (by simp [Walk.finished, hc]), Walk.outcome, hc]
    rfl
  | ok t =>
    obtain ⟨w', hs, hstack, hc, ht⟩ := ha
    rw [hwalk w' hs (by simp [Walk.finished, hstack]), Walk.outcome, hc, ← ht.2]
    rfl

/-- A walk without a cycle emits no node twice. -/
theorem walk_order_nodup (h : (c.walk root).cycle = none) : (c.walk root).order.Nodup :=
  List.pairwise_reverse.mpr ((walk_sound h).1.emitted_nodup.imp Ne.symm)

/-- What a node of the order depends on stands before it. -/
theorem mem_before_of_dependsOn (h : (c.walk root).cycle = none) {before after : List NodeId}
    (hsplit : (c.walk root).order = before ++ id :: after) (hdep : c.DependsOn id source) :
    source ∈ before := by
  have hemitted : (c.walk root).emitted = after.reverse ++ id :: before.reverse := by
    rw [← List.reverse_reverse (c.walk root).emitted]
    show (c.walk root).order.reverse = _
    rw [hsplit]
    simp
  exact List.mem_reverse.mp ((walk_sound h).1.closed _ id _ hemitted source hdep)

/-- The root is emitted last. -/
theorem walk_order_getLast? (h : (c.walk root).cycle = none) :
    (c.walk root).order.getLast? = some root := by
  obtain ⟨hsound, hstack⟩ := walk_sound h
  rcases hsound.bottom with hlast | ⟨_, hhead⟩
  · rw [hstack] at hlast
    simp at hlast
  · rw [Walk.order, List.getLast?_reverse]
    exact hhead

/-- A walk without a cycle emits the root and all that it depends on, and nothing else. -/
theorem mem_walk_order_iff (h : (c.walk root).cycle = none) :
    id ∈ (c.walk root).order ↔ c.Reaches root id := by
  constructor
  · intro hid
    have hmark := ((walk_sound h).1.done_iff id).mpr (List.mem_reverse.mp hid)
    exact (walk_sound h).1.reached id _ hmark
  · -- the emitted nodes are closed under dependence, and the root is one of them
    intro hreach
    induction hreach with
    | refl => exact List.mem_of_getLast? (walk_order_getLast? h)
    | tail _ hdep ih =>
      obtain ⟨before, after, hsplit⟩ := List.append_of_mem ih
      rw [hsplit]
      exact List.mem_append_left _ (mem_before_of_dependsOn h hsplit hdep)

/-- **The walk refines the recursive post-order**: at every depth beyond the walk's budget the recursion
    ends with the outcome of the walk, the same order or the same node on a cycle.  An order lists what
    the root reaches, each node once, every source before the nodes it feeds and the root last. -/
theorem walk_refines_postorder (c : Circuit) (root : NodeId) :
    (∀ depth, c.budget root < depth → c.postorder depth root = some (c.walk root).outcome) ∧
    ∀ order, (c.walk root).outcome = .ok order →
      (∀ id, id ∈ order ↔ c.Reaches root id) ∧ order.Nodup ∧
      (∀ before id after, order = before ++ id :: after →
        ∀ source, c.DependsOn id source → source ∈ before) ∧
      order.getLast? = some root := by
  refine ⟨fun depth hdepth => postorder_eq c root hdepth, fun order horder => ?_⟩
  rw [Walk.outcome] at horder
  split at horder
  · simp at horder
  · next h =>
    obtain rfl : (c.walk root).order = order := by simpa using horder
    exact ⟨fun id => mem_walk_order_iff h, walk_order_nodup h,
      fun _ _ _ hsplit _ hdep => mem_before_of_dependsOn h hsplit hdep, walk_order_getLast? h⟩

/-- The time feeds a sum twice and a product once; the sum feeds the product, which is the colour. -/
def timeTwice : Circuit :=
  let nodes : Nodes := [⟨0, .output⟩, ⟨1, .input .time⟩, ⟨2, .scalarOp .add .float⟩,
    ⟨3, .scalarOp .mul .float⟩].foldl (fun nodes (node : Node) => nodes.insert node.id node) ∅
  let links : List Link := [⟨⟨1, 0⟩, ⟨2, 0⟩⟩, ⟨⟨1, 0⟩, ⟨2, 1⟩⟩, ⟨⟨2, 0⟩, ⟨3, 0⟩⟩, ⟨⟨1, 0⟩, ⟨3, 1⟩⟩,
    ⟨⟨3, 0⟩, ⟨0, 0⟩⟩]
  ⟨nodes, nodes.emitters, links.foldl Wiring.insert .empty⟩

/-- The time is reached on three ways and listed once, before all that it feeds. -/
theorem walk_refines_postorder_timeTwice :
    (timeTwice.walk 0).outcome = .ok [1, 2, 3, 0] ∧
    timeTwice.budget 0 < 100 ∧ timeTwice.postorder 100 0 = some (.ok [1, 2, 3, 0]) ∧
    (∀ id, id ∈ [1, 2, 3, 0] ↔ timeTwice.Reaches 0 id) := by
  have houtcome : (timeTwice.walk 0).outcome = .ok [1, 2, 3, 0] := by rfl
  have hdepth : timeTwice.budget 0 < 100 := by decide
  obtain ⟨hrec, horder⟩ := walk_refines_postorder timeTwice 0
  exact ⟨houtcome, hdepth, houtcome ▸ hrec 100 hdepth, (horder _ houtcome).1⟩

end Circuit

end FragmentGraph
