/-
  A walk reads only what its root reaches.

  Two circuits may have quite different nodes and links and still agree on a part that dependence does
  not lead out of.  A walk that begins in such a part never looks at anything else, so both circuits give
  the same order, or fail at the same node.  The part may even have other ids in the second circuit: then
  the second walk is the first one under the new ids.

  1. **Copies** — `Copies c c' name part` says that `c'` has the part of `c` under the ids that `name`
     gives.  A part is its own copy as soon as it is closed under dependence (`copies_self`).

  2. **Visits** — the recursion is compared, not the stack.  Two trails `Follows` each other when their
     marks agree on the part and their orders are the same under `name`; marks outside the part do not
     matter.  Visits of a node and of its copy then come to outcomes that are `Alike` (`Copies.visit`),
     by induction on the depth.

  3. **Walks** — so the walks come to the same outcome (`Copies.outcome_walk`).  And as marks outside the
     part do not matter, a walk through a node with a single input is the walk from the source of that
     input with the node at its end, unless the source leads back (`outcome_walk_single`).
-/
import FragmentGraph.Proofs.Walk.Postorder

namespace FragmentGraph

open Std (ExtTreeMap)
open Relation (ReflTransGen)

/-! ## Copies -/

namespace Circuit

/-- `Copies c c' name part` — dependence does not lead out of the part, and `c'` has every node of it
    under a new id, with as many inputs, fed by the copies of the same nodes. -/
structure Copies (c c' : Circuit) (name : NodeId → NodeId) (part : NodeId → Prop) : Prop where
  closed : ∀ id source, part id → c.DependsOn id source → part source
  inj : ∀ id id', part id → part id' → name id = name id' → id = id'
  inputCount : ∀ id, part id → c'.inputCount (name id) = c.inputCount id
  feeder? : ∀ id port, part id → port < c.inputCount id →
    c'.feeder? (name id) port = (c.feeder? id port).map name

/-- A part that dependence does not lead out of is its own copy. -/
theorem copies_self {c : Circuit} {part : NodeId → Prop}
    (hclosed : ∀ id source, part id → c.DependsOn id source → part source) :
    c.Copies c id part where
  closed := hclosed
  inj _ _ _ _ h := h
  inputCount _ _ := rfl
  feeder? _ _ _ _ := by rw [Option.map_id]; rfl

/-- What a node of the part reaches is in the part. -/
theorem Copies.of_reaches {c c' : Circuit} {name : NodeId → NodeId} {part : NodeId → Prop}
    (h : c.Copies c' name part) {root id : NodeId} (hroot : part root) (hreach : c.Reaches root id) :
    part id := by
  induction hreach with
  | refl => exact hroot
  | tail _ hdep ih => exact h.closed _ _ ih hdep

end Circuit

/-! ## Trails and outcomes -/

namespace Trail

variable {name : NodeId → NodeId} {part : NodeId → Prop} {t t' : Trail}

/-- `Follows name part t t'` — the trails agree on the part: `t'` has the marks of `t` there and lists
    the same nodes, all under new ids. -/
structure Follows (name : NodeId → NodeId) (part : NodeId → Prop) (t t' : Trail) : Prop where
  marks : ∀ id, part id → t'.marks[name id]? = t.marks[id]?
  order : t'.order = t.order.map name

theorem follows_empty (name : NodeId → NodeId) (part : NodeId → Prop) :
    Follows name part .empty .empty where
  marks _ _ := by simp [empty]
  order := rfl

/-- Marking a node of the part and its copy keeps the marks in agreement. -/
theorem Follows.mark (hinj : ∀ id id', part id → part id' → name id = name id' → id = id')
    (ht : Follows name part t t') {id : NodeId} (hid : part id) (mark : Mark) :
    ∀ id', part id' →
      (t'.marks.insert (name id) mark)[name id']? = (t.marks.insert id mark)[id']? := by
  intro id' hid'
  rw [Walk.getElem?_insert_mark, Walk.getElem?_insert_mark]
  by_cases h : id = id'
  · rw [if_pos h, if_pos (by rw [h])]
  · have hname : name id ≠ name id' := fun hname => h (hinj id id' hid hid' hname)
    rw [if_neg h, if_neg hname]
    exact ht.marks id' hid'

/-- What becomes of two visits that go side by side: both nest too deep, both fail at a node and its
    copy, or both end with trails that agree. -/
inductive Alike (name : NodeId → NodeId) (part : NodeId → Prop) :
    ExceptT NodeId Option Trail → ExceptT NodeId Option Trail → Prop where
  | deep : Alike name part none none
  | cycle (id : NodeId) : Alike name part (throw id) (throw (name id))
  | trail {t t' : Trail} (h : Follows name part t t') : Alike name part (pure t) (pure t')

variable {x x' : ExceptT NodeId Option Trail} {f f' : Trail → ExceptT NodeId Option Trail}

theorem Alike.bind (hx : Alike name part x x')
    (hf : ∀ t t', Follows name part t t' → Alike name part (f t) (f' t')) :
    Alike name part (x >>= f) (x' >>= f') := by
  cases hx with
  | deep => exact .deep
  | cycle id => exact .cycle id
  | trail ht => exact hf _ _ ht

/-- Passing ports one after the other keeps two visits side by side if passing one does. -/
theorem alike_foldlM {g g' : Trail → Nat → ExceptT NodeId Option Trail} {ports : List Nat}
    (hg : ∀ port ∈ ports, ∀ t t', Follows name part t t' → Alike name part (g t port) (g' t' port))
    (ht : Follows name part t t') :
    Alike name part (ports.foldlM g t) (ports.foldlM g' t') := by
  induction ports generalizing t t' with
  | nil => exact .trail ht
  | cons port ports ih =>
    rw [List.foldlM_cons, List.foldlM_cons]
    have hhead := hg port List.mem_cons_self t t' ht
    refine hhead.bind fun u u' hu => ih (fun p hp => ?_) hu
    exact hg p (List.mem_cons_of_mem _ hp)

end Trail

/-! ## Visits -/

namespace Circuit

open Trail

variable {c c' : Circuit} {name : NodeId → NodeId} {part : NodeId → Prop}

/-- One port of a node and the same port of its copy, if visits at the depth below go side by side. -/
theorem Copies.follow (h : c.Copies c' name part) {depth : Nat}
    (hvisit : ∀ source t t', part source → Follows name part t t' →
      Alike name part (c.visit depth source t) (c'.visit depth (name source) t'))
    {id : NodeId} {port : Nat} (hid : part id) (hport : port < c.inputCount id) {t t' : Trail}
    (ht : Follows name part t t') :
    Alike name part (c.follow depth id t port) (c'.follow depth (name id) t' port) := by
  have hfeeder := h.feeder? id port hid hport
  rw [Circuit.follow, Circuit.follow, hfeeder]
  cases hf : c.feeder? id port with
  | none => exact .trail ht
  | some source =>
    have hsource : part source := h.closed id source hid (dependsOn_of_feeder? hport hf)
    have hmark := ht.marks source hsource
    simp only [Option.map_some, hmark]
    cases hm : t.marks[source]? with
    | none => exact hvisit source t t' hsource ht
    | some mark =>
      cases mark with
      | inProgress => exact .cycle source
      | done => exact .trail ht

/-- **Visits go side by side.**  The visits of a node of the part and of its copy, with trails that agree
    on the part, nest equally deep and come to outcomes that agree again. -/
theorem Copies.visit (h : c.Copies c' name part) : ∀ (depth : Nat) (id : NodeId) (t t' : Trail),
    part id → Follows name part t t' →
    Alike name part (c.visit depth id t) (c'.visit depth (name id) t') := by
  intro depth
  induction depth with
  | zero => exact fun id t t' _ _ => .deep
  | succ depth ih =>
    intro id t t' hid ht
    have hentered : Follows name part (t.enter id) (t'.enter (name id)) :=
      ⟨ht.mark h.inj hid .inProgress, ht.order⟩
    have hports : Alike name part
        ((List.range (c.inputCount id)).foldlM (c.follow depth id) (t.enter id))
        ((List.range (c.inputCount id)).foldlM (c'.follow depth (name id)) (t'.enter (name id))) := by
      refine alike_foldlM (fun port hport u u' hu => ?_) hentered
      exact h.follow ih hid (List.mem_range.mp hport) hu
    rw [visit_eq_resume, visit_eq_resume, resume, resume, h.inputCount id hid, Nat.sub_zero,
      ← List.range_eq_range']
    refine hports.bind fun u u' hu => .trail ⟨hu.mark h.inj hid .done, ?_⟩
    show u'.order ++ [name id] = (u.order ++ [id]).map name
    rw [hu.order, List.map_append, List.map_singleton]

/-! ## Walks -/

/-- A walk that comes to an order has met no cycle, and lists what the root reaches. -/
theorem mem_order_of_outcome {root id : NodeId} {order : List NodeId}
    (h : (c.walk root).outcome = .ok order) : id ∈ order ↔ c.Reaches root id := by
  rw [Walk.outcome] at h
  cases hcycle : (c.walk root).cycle with
  | some met => simp [hcycle] at h
  | none =>
    obtain rfl : (c.walk root).order = order := by simpa [hcycle] using h
    exact mem_walk_order_iff hcycle

/-- The walk from the copy of a root is the walk from the root under the new ids. -/
theorem Copies.outcome_walk (h : c.Copies c' name part) {root : NodeId} (hroot : part root) :
    (c'.walk (name root)).outcome
      = ((c.walk root).outcome.map (List.map name)).mapError name := by
  -- a depth that is enough for both
  obtain ⟨depth, hdepth, hdepth'⟩ :
      ∃ depth, c.budget root < depth ∧ c'.budget (name root) < depth :=
    ⟨c.budget root + c'.budget (name root) + 1, by omega, by omega⟩
  have hwalk := postorder_eq c root hdepth
  have hwalk' := postorder_eq c' (name root) hdepth'
  have halike := h.visit depth root .empty .empty hroot (follows_empty name part)
  rw [postorder] at hwalk hwalk'
  generalize c.visit depth root .empty = x at hwalk halike
  generalize c'.visit depth (name root) .empty = x' at hwalk' halike
  cases halike with
  | deep => cases hwalk
  | cycle id =>
    rw [← Option.some.inj hwalk, ← Option.some.inj hwalk']
    rfl
  | trail ht =>
    rw [← Option.some.inj hwalk, ← Option.some.inj hwalk']
    exact congrArg Except.ok ht.order

/-- Walks in circuits that have a part in common come to the same outcome from every root in it. -/
theorem outcome_walk_of_common (h : c.Copies c' id part) {root : NodeId} (hroot : part root) :
    (c'.walk root).outcome = (c.walk root).outcome := by
  have houtcome := h.outcome_walk hroot
  rw [id_eq] at houtcome
  rw [houtcome]
  cases (c.walk root).outcome with
  | error id => rfl
  | ok order => exact congrArg Except.ok (List.map_id order)

/-- A visit of a node with a single input is the visit of the input's source, and then the node. -/
theorem visit_single {root source : NodeId} (hcount : c.inputCount root = 1)
    (hf : c.feeder? root 0 = some source) (hne : root ≠ source) (depth : Nat) :
    c.visit (depth + 1) root .empty
      = (c.visit depth source (Trail.empty.enter root) >>= fun t => pure (t.leave root)) := by
  have hmark : (Trail.empty.enter root).marks[source]? = none := by
    rw [Trail.enter, Trail.empty, Walk.getElem?_insert_mark, if_neg hne]
    exact ExtTreeMap.getElem?_empty
  have hrest : c.resume depth root 1 = fun t => pure (t.leave root) := by
    funext t
    exact resume_of_le (by omega)
  rw [visit_eq_resume, resume_of_lt (by omega), follow_enter hf hmark, hrest]

/-- The walk from a node with a single input is the walk from the input's source and then the node, if
    the source does not lead back to it. -/
theorem outcome_walk_single {root source : NodeId} (hcount : c.inputCount root = 1)
    (hf : c.feeder? root 0 = some source) (hback : ¬ c.Reaches source root) :
    (c.walk root).outcome = (c.walk source).outcome.map (· ++ [root]) := by
  have hself : c.Copies c id (c.Reaches source) := copies_self fun _ _ hreach hdep => hreach.tail hdep
  have hne : ∀ id, c.Reaches source id → root ≠ id := fun id hreach heq => hback (heq ▸ hreach)
  -- the walk from the root has marked the root, which the source does not reach
  have hfollows : Trail.Follows id (c.Reaches source) .empty (Trail.empty.enter root) := by
    refine ⟨fun id hreach => ?_, rfl⟩
    rw [Trail.enter, Walk.getElem?_insert_mark, id_eq, if_neg (hne id hreach)]
  obtain ⟨depth, hdepth, hdepth'⟩ : ∃ depth, c.budget source < depth ∧ c.budget root < depth + 1 :=
    ⟨c.budget source + c.budget root + 1, by omega, by omega⟩
  have hwalk := postorder_eq c source hdepth
  have hwalk' := postorder_eq c root hdepth'
  have halike := hself.visit depth source _ _ ReflTransGen.refl hfollows
  rw [postorder] at hwalk hwalk'
  rw [visit_single hcount hf (hne source ReflTransGen.refl)] at hwalk'
  rw [id_eq] at halike
  generalize c.visit depth source .empty = x at hwalk halike
  generalize c.visit depth source (Trail.empty.enter root) = x' at hwalk' halike
  cases halike with
  | deep => cases hwalk
  | cycle id =>
    rw [← Option.some.inj hwalk, ← Option.some.inj hwalk']
    rfl
  | @trail t t' ht =>
    have horder : t'.order = t.order := ht.order.trans (List.map_id t.order)
    rw [← Option.some.inj hwalk, ← Option.some.inj hwalk']
    show Except.ok (t'.order ++ [root]) = Except.ok (t.order ++ [root])
    rw [horder]

end Circuit

end FragmentGraph
