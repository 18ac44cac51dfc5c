/-
  What a walk keeps true, and that it ends.

  A node depends on the nodes that feed its inputs.  The walk from a root is to emit everything the root
  depends on, sources first, or to meet a node that depends on itself.

  1. **Moves** — `Move c w w'` lists the four things a step can do: it PASSES a port that leads nowhere
     new, ENTERS the node behind a port, MEETS a node that is still on the stack, or LEAVES a node whose
     ports are all passed.  `move_step` is the only place where `Walk.step` is opened.

  2. **The invariant** — `Sound c root w` ties stack, marks and emitted nodes together as long as no
     cycle is met.  Its crux is `Frames`: below the top, every passed port of a frame leads to an emitted
     node or to the frame above.  So when a frame is left, all its sources are emitted already, and the
     frames from a node of the stack up to the top form a path of dependence.

  3. **The end** — `Walk.work` counts the steps that can still follow.  Every step takes at least one
     away (`work_step`), and the budget covers the work of the start, so the walk is finished
     (`walk_finished`).

  Cycle or not, a walk visits only what the root reaches (`within_run`).

  Together: a finished walk either reports a node that the root reaches and that lies on a cycle
  (`walk_met`), or has an empty stack and a sound state (`walk_sound`).
-/
import FragmentGraph.Shader.Walk
import Mathlib.Algebra.GroupWithZero.Nat
import Mathlib.Logic.Relation

namespace FragmentGraph

open Std (ExtTreeMap)
open Relation (ReflTransGen TransGen)

/-! ## Dependence -/

namespace Circuit

/-- Some input of `n` is fed by an output of `m`. -/
def DependsOn (c : Circuit) (n m : NodeId) : Prop :=
  ∃ port : PortIndex, port.toNat < c.inputCount n ∧
    ∃ l, c.wiring.feeding? ⟨n, port⟩ = some l ∧ l.source.node = m

/-- `m` is `n` itself or something that it depends on, through any number of links. -/
def Reaches (c : Circuit) : NodeId → NodeId → Prop := ReflTransGen c.DependsOn

/-- The node depends on itself, through one link or more. -/
def OnCycle (c : Circuit) (n : NodeId) : Prop := TransGen c.DependsOn n n

variable {c : Circuit} {n m : NodeId}

theorem feeder?_eq_some {port : Nat} : c.feeder? n port = some m ↔
    ∃ l, c.wiring.feeding? ⟨n, UInt32.ofNat port⟩ = some l ∧ l.source.node = m := by
  rw [feeder?, Option.map_eq_some_iff]

/-- A port that the walk looks at stands for a port of the node.  The walk counts in `Nat`, so what does
    not fit a `PortIndex` stands for a smaller port. -/
theorem exists_port_of_feeder? {port : Nat} (hf : c.feeder? n port = some m) :
    ∃ index : PortIndex, index.toNat ≤ port ∧
      ∃ l, c.wiring.feeding? ⟨n, index⟩ = some l ∧ l.source.node = m := by
  refine ⟨UInt32.ofNat port, ?_, feeder?_eq_some.mp hf⟩
  rw [UInt32.toNat_ofNat']
  exact Nat.mod_le _ _

/-- A port that the walk looks at shows a dependence. -/
theorem dependsOn_of_feeder? {port : Nat} (hp : port < c.inputCount n)
    (hf : c.feeder? n port = some m) : c.DependsOn n m := by
  obtain ⟨index, hle, hl⟩ := exists_port_of_feeder? hf
  exact ⟨index, by omega, hl⟩

/-- Every dependence shows at a port that the walk looks at. -/
theorem DependsOn.exists_feeder? (h : c.DependsOn n m) :
    ∃ port, port < c.inputCount n ∧ c.feeder? n port = some m := by
  obtain ⟨port, hp, hl⟩ := h
  refine ⟨port.toNat, hp, feeder?_eq_some.mpr ?_⟩
  rwa [UInt32.ofNat_toNat]

end Circuit

/-! ## Moves -/

namespace Walk

/-- What one step of an unfinished walk can do. -/
inductive Move (c : Circuit) (w : Walk) : Walk → Prop where
  /-- The next port of the top is not fed, or is fed by an emitted node. -/
  | pass {id : NodeId} {port : Nat} {below : List (NodeId × Nat)}
      (hs : w.stack = (id, port) :: below) (hp : port < c.inputCount id)
      (hd : ∀ source, c.feeder? id port = some source → w.marks[source]? = some .done) :
      Move c w { w with stack := (id, port + 1) :: below }
  /-- The next port of the top is fed by a node that is not entered yet. -/
  | enter {id : NodeId} {port : Nat} {below : List (NodeId × Nat)} {source : NodeId}
      (hs : w.stack = (id, port) :: below) (hp : port < c.inputCount id)
      (hf : c.feeder? id port = some source) (hm : w.marks[source]? = none) :
      Move c w { w with
        stack := (source, 0) :: (id, port + 1) :: below
        marks := w.marks.insert source .inProgress }
  /-- The next port of the top is fed by a node of the stack. -/
  | meet {id : NodeId} {port : Nat} {below : List (NodeId × Nat)} {source : NodeId}
      (hs : w.stack = (id, port) :: below) (hp : port < c.inputCount id)
      (hf : c.feeder? id port = some source) (hm : w.marks[source]? = some .inProgress) :
      Move c w { w with stack := (id, port + 1) :: below, cycle := some source }
  /-- All ports of the top are passed. -/
  | leave {id : NodeId} {port : Nat} {below : List (NodeId × Nat)}
      (hs : w.stack = (id, port) :: below) (hp : c.inputCount id ≤ port) :
      Move c w { w with
        stack := below
        marks := w.marks.insert id .done
        emitted := id :: w.emitted }

/-- An unfinished walk has a top frame and has met no cycle. -/
theorem finished_eq_false {w : Walk} : w.finished = false ↔ w.stack ≠ [] ∧ w.cycle = none := by
  simp [finished]

/-- A step is one of the moves. -/
theorem move_step {c : Circuit} {w : Walk} (hw : w.stack ≠ []) : Move c w (w.step c) := by
  obtain ⟨⟨id, port⟩, below, hs⟩ := List.exists_cons_of_ne_nil hw
  rw [step, hs]
  dsimp only
  split
  · next hp =>
    split
    · next hf => exact .pass hs hp (fun source h => absurd (hf ▸ h) (by simp))
    · next source hf =>
      split
      · next hm => exact .meet hs hp hf hm
      · next hm =>
        refine .pass hs hp (fun source' h => ?_)
        obtain rfl : source = source' := Option.some.inj (hf.symm.trans h)
        exact hm
      · next hm => exact .enter hs hp hf hm
  · next hp => exact .leave hs (by omega)

/-! ## The invariant -/

theorem getElem?_insert_mark (marks : ExtTreeMap NodeId Mark) (id id' : NodeId) (mark : Mark) :
    (marks.insert id mark)[id']? = if id = id' then some mark else marks[id']? := by
  simp only [ExtTreeMap.getElem?_insert, Std.compare_eq_iff_eq]

/-- `Frames c done above stack` — every passed port of a frame leads to an emitted node or to the frame
    above it, and one of them does lead to the frame above.  `above` is the node of that frame, `none`
    over the top. -/
def Frames (c : Circuit) (done : List NodeId) : Option NodeId → List (NodeId × Nat) → Prop
  | _, [] => True
  | above, (id, port) :: below =>
    (∀ p < port, ∀ source, c.feeder? id p = some source → source ∈ done ∨ above = some source) ∧
    (∀ source, above = some source →
      ∃ p < port, p < c.inputCount id ∧ c.feeder? id p = some source) ∧
    Frames c done (some id) below

/-- `Sound c root w` — what holds of a walk from `root` that has met no cycle. -/
structure Sound (c : Circuit) (root : NodeId) (w : Walk) : Prop where
  /-- The nodes of the stack are those in progress. -/
  open_iff : ∀ id, w.marks[id]? = some .inProgress ↔ id ∈ w.stack.map Prod.fst
  /-- No node is on the stack twice. -/
  stack_nodup : (w.stack.map Prod.fst).Nodup
  /-- The emitted nodes are those that are done. -/
  done_iff : ∀ id, w.marks[id]? = some .done ↔ id ∈ w.emitted
  /-- No node is emitted twice. -/
  emitted_nodup : w.emitted.Nodup
  /-- The passed ports lead to emitted nodes or up the stack. -/
  frames : Frames c w.emitted none w.stack
  /-- What an emitted node depends on is emitted before it. -/
  closed : ∀ later id earlier, w.emitted = later ++ id :: earlier →
    ∀ source, c.DependsOn id source → source ∈ earlier
  /-- The root is at the bottom of the stack, or is what was emitted last. -/
  bottom : (w.stack.map Prod.fst).getLast? = some root ∨
    (w.stack = [] ∧ w.emitted.head? = some root)
  /-- All nodes entered are the root or something it depends on. -/
  reached : ∀ id mark, w.marks[id]? = some mark → c.Reaches root id

variable {c : Circuit} {root : NodeId} {w : Walk}

/-- Emitting more nodes keeps the frames in order. -/
theorem Frames.mono {done more : List NodeId} (hsub : ∀ id ∈ done, id ∈ more) :
    ∀ {above : Option NodeId} {stack : List (NodeId × Nat)},
      Frames c done above stack → Frames c more above stack
  | _, [], _ => trivial
  | _, (_, _) :: _, ⟨hp, ha, hb⟩ =>
    ⟨fun p hlt source hf => (hp p hlt source hf).imp_left (hsub source), ha, Frames.mono hsub hb⟩

/-- Once the node above is emitted, the frame below is the top. -/
theorem Frames.drop {done : List NodeId} {id : NodeId} :
    ∀ {stack : List (NodeId × Nat)},
      Frames c done (some id) stack → Frames c (id :: done) none stack
  | [], _ => trivial
  | (_, _) :: _, ⟨hp, _, hb⟩ => by
    refine ⟨fun p hlt source hf => Or.inl ?_, fun _ h => absurd h (by simp),
      hb.mono (fun _ => List.mem_cons_of_mem _)⟩
    rcases hp p hlt source hf with h | h
    · exact List.mem_cons_of_mem _ h
    · obtain rfl := Option.some.inj h
      exact List.mem_cons_self

/-- A frame under `above` depends on it, and so does everything below that frame. -/
theorem Frames.reaches {done : List NodeId} {above : NodeId} :
    ∀ {stack : List (NodeId × Nat)}, Frames c done (some above) stack →
      ∀ id ∈ stack.map Prod.fst, TransGen c.DependsOn id above
  | [], _, id, hid => absurd hid List.not_mem_nil
  | (top, port) :: below, ⟨_, ha, hb⟩, id, hid => by
    obtain ⟨p, _, hp, hf⟩ := ha above rfl
    have hdep : c.DependsOn top above := Circuit.dependsOn_of_feeder? hp hf
    rcases List.mem_cons.mp hid with h | h
    · obtain rfl : id = top := h
      exact TransGen.single hdep
    · exact (hb.reaches id h).tail hdep

/-- A node of the stack reaches the node of the top frame. -/
theorem Frames.reaches_top {done : List NodeId} {top : NodeId} {port : Nat}
    {below : List (NodeId × Nat)} {above : Option NodeId}
    (hf : Frames c done above ((top, port) :: below)) :
    ∀ id ∈ ((top, port) :: below).map Prod.fst, c.Reaches id top := by
  intro id hid
  rcases List.mem_cons.mp hid with h | h
  · obtain rfl : id = top := h
    exact ReflTransGen.refl
  · exact (hf.2.2.reaches id h).to_reflTransGen

/-- The walk that has just entered the root is sound. -/
theorem sound_start (c : Circuit) (root : NodeId) : Sound c root (start root) where
  open_iff id := by
    simp only [start, getElem?_insert_mark]
    split
    · next h => simp [h]
    · next h => simp [Ne.symm h]
  stack_nodup := by simp [start]
  done_iff id := by
    simp only [start, getElem?_insert_mark]
    split <;> simp
  emitted_nodup := by simp [start]
  frames := ⟨fun p hp => absurd hp (Nat.not_lt_zero p), fun _ h => absurd h (by simp), trivial⟩
  closed later id earlier h := by simp [start] at h
  bottom := Or.inl rfl
  reached id mark h := by
    simp only [start, getElem?_insert_mark] at h
    split at h
    · next heq =>
      subst heq
      exact ReflTransGen.refl
    · simp at h

namespace Sound

variable {id source : NodeId} {port : Nat} {below : List (NodeId × Nat)}

/-- The frames of a sound walk, with its top in view. -/
theorem frames_top (h : Sound c root w) (hs : w.stack = (id, port) :: below) :
    Frames c w.emitted none ((id, port) :: below) := hs ▸ h.frames

/-- The node of the top frame is in progress. -/
theorem top_open (h : Sound c root w) (hs : w.stack = (id, port) :: below) :
    w.marks[id]? = some .inProgress := by
  rw [h.open_iff, hs]
  exact List.mem_cons_self

/-- The node of the top frame is on the stack only once. -/
theorem top_not_below (h : Sound c root w) (hs : w.stack = (id, port) :: below) :
    id ∉ below.map Prod.fst := by
  have hn := h.stack_nodup
  rw [hs] at hn
  exact (List.nodup_cons.mp hn).1

/-- A source behind a passed port of the top is emitted. -/
theorem passed (h : Sound c root w) (hs : w.stack = (id, port) :: below) {p : Nat} (hp : p < port)
    (hf : c.feeder? id p = some source) : source ∈ w.emitted := by
  rcases (h.frames_top hs).1 p hp source hf with h | h
  · exact h
  · simp at h

/-- A source behind the next port of the top is reached by the root. -/
theorem reaches_source (h : Sound c root w) (hs : w.stack = (id, port) :: below)
    (hp : port < c.inputCount id) (hf : c.feeder? id port = some source) : c.Reaches root source :=
  ReflTransGen.tail (h.reached id _ (h.top_open hs)) (Circuit.dependsOn_of_feeder? hp hf)

/-- Passing a port keeps a walk sound, if nothing is behind the port or a node that is done. -/
theorem pass (h : Sound c root w) (hs : w.stack = (id, port) :: below)
    (hd : ∀ source, c.feeder? id port = some source → w.marks[source]? = some .done) :
    Sound c root { w with stack := (id, port + 1) :: below } := by
  -- only the port of the top changes, so the nodes of the stack stay the same
  have hmap : ((id, port + 1) :: below).map Prod.fst = w.stack.map Prod.fst := by rw [hs]; rfl
  have hpassed : ∀ p < port + 1, ∀ source, c.feeder? id p = some source → source ∈ w.emitted := by
    intro p hp source hf
    rcases Nat.lt_or_eq_of_le (Nat.le_of_lt_succ hp) with hlt | rfl
    · exact h.passed hs hlt hf
    · exact (h.done_iff source).mp (hd source hf)
  exact {
    open_iff := fun id' => by rw [hmap]; exact h.open_iff id'
    stack_nodup := by rw [hmap]; exact h.stack_nodup
    done_iff := h.done_iff
    emitted_nodup := h.emitted_nodup
    frames := ⟨fun p hp source hf => Or.inl (hpassed p hp source hf), fun _ h => absurd h (by simp),
      (h.frames_top hs).2.2⟩
    closed := h.closed
    bottom := by
      rw [hmap]
      exact h.bottom.imp_right (fun hempty => absurd hempty.1 (by simp [hs]))
    reached := h.reached }

/-- Once its port is passed, the top is in order below the source behind the port. -/
theorem frames_below (h : Sound c root w) (hs : w.stack = (id, port) :: below)
    (hp : port < c.inputCount id) (hf : c.feeder? id port = some source) :
    Frames c w.emitted (some source) ((id, port + 1) :: below) := by
  refine ⟨fun p hlt source' hf' => ?_, fun source' habove => ?_, (h.frames_top hs).2.2⟩
  · rcases Nat.lt_or_eq_of_le (Nat.le_of_lt_succ hlt) with hlt' | rfl
    · exact Or.inl (h.passed hs hlt' hf')
    · exact Or.inr (hf.symm.trans hf')
  · obtain rfl := Option.some.inj habove
    exact ⟨port, Nat.lt_succ_self port, hp, hf⟩

/-- Entering a source without a mark keeps a walk sound.  The source is on the stack for the first time,
    and the frame below it has just passed the port that leads to it. -/
theorem enter (h : Sound c root w) (hs : w.stack = (id, port) :: below)
    (hp : port < c.inputCount id) (hf : c.feeder? id port = some source)
    (hm : w.marks[source]? = none) :
    Sound c root { w with
      stack := (source, 0) :: (id, port + 1) :: below
      marks := w.marks.insert source .inProgress } := by
  have hmap : ((source, 0) :: (id, port + 1) :: below).map Prod.fst
      = source :: w.stack.map Prod.fst := by rw [hs]; rfl
  have hstack : source ∉ w.stack.map Prod.fst := fun hin => by
    rw [← h.open_iff, hm] at hin
    simp at hin
  have hemitted : source ∉ w.emitted := fun hin => by
    rw [← h.done_iff, hm] at hin
    simp at hin
  exact {
    open_iff := fun id' => by
      rw [hmap, List.mem_cons, ← h.open_iff, getElem?_insert_mark]
      split
      · next heq => simp [heq]
      · next hne => simp [Ne.symm hne]
    stack_nodup := by
      rw [hmap]
      exact List.nodup_cons.mpr ⟨hstack, h.stack_nodup⟩
    done_iff := fun id' => by
      rw [getElem?_insert_mark]
      split
      · next heq => simpa [← heq] using hemitted
      · exact h.done_iff id'
    emitted_nodup := h.emitted_nodup
    frames := ⟨fun p hp0 => absurd hp0 (Nat.not_lt_zero p), fun _ habove => absurd habove (by simp),
      h.frames_below hs hp hf⟩
    closed := h.closed
    bottom := by
      rcases h.bottom with hlast | hempty
      · rw [hmap, List.getLast?_cons, hlast]
        exact Or.inl rfl
      · exact absurd hempty.1 (by simp [hs])
    reached := fun id' mark hmark => by
      rw [getElem?_insert_mark] at hmark
      split at hmark
      · next heq => exact heq ▸ h.reaches_source hs hp hf
      · exact h.reached id' mark hmark }

/-- All sources of a node whose ports are passed are emitted. -/
theorem sources_emitted (h : Sound c root w) (hs : w.stack = (id, port) :: below)
    (hp : c.inputCount id ≤ port) (hdep : c.DependsOn id source) : source ∈ w.emitted := by
  obtain ⟨p, hlt, hf⟩ := hdep.exists_feeder?
  exact h.passed hs (by omega) hf

/-- Leaving a node keeps a walk sound, if all its ports are passed: what it depends on is emitted, so it
    can be emitted next, and the frame below finds its last source emitted. -/
theorem leave (h : Sound c root w) (hs : w.stack = (id, port) :: below)
    (hp : c.inputCount id ≤ port) :
    Sound c root { w with
      stack := below
      marks := w.marks.insert id .done
      emitted := id :: w.emitted } := by
  have hbelow : id ∉ below.map Prod.fst := h.top_not_below hs
  have hemitted : id ∉ w.emitted := fun hin => by
    rw [← h.done_iff, h.top_open hs] at hin
    simp at hin
  have hstack : w.stack.map Prod.fst = id :: below.map Prod.fst := by rw [hs]; rfl
  have hnodup := h.stack_nodup
  rw [hstack] at hnodup
  exact {
    open_iff := fun id' => by
      rw [getElem?_insert_mark]
      split
      · next heq => simpa [← heq] using hbelow
      · next hne => rw [h.open_iff, hstack, List.mem_cons, or_iff_right (Ne.symm hne)]
    stack_nodup := (List.nodup_cons.mp hnodup).2
    done_iff := fun id' => by
      rw [getElem?_insert_mark]
      split
      · next heq => simp [heq]
      · next hne => rw [h.done_iff, List.mem_cons, or_iff_right (Ne.symm hne)]
    emitted_nodup := List.nodup_cons.mpr ⟨hemitted, h.emitted_nodup⟩
    frames := (h.frames_top hs).2.2.drop
    closed := fun later id' earlier hsplit source hdep => by
      -- the list grows at its head: a split is at the node just emitted, or one of the old list
      cases later with
      | nil =>
        obtain ⟨rfl, rfl⟩ := List.cons.inj hsplit
        exact h.sources_emitted hs hp hdep
      | cons _ later =>
        exact h.closed later id' earlier (List.cons.inj hsplit).2 source hdep
    bottom := by
      rcases h.bottom with hlast | hempty
      · rw [hstack] at hlast
        cases below with
        | nil => exact Or.inr ⟨rfl, by simpa using hlast⟩
        | cons frame rest => exact Or.inl (by simpa using hlast)
      · exact absurd hempty.1 (by simp [hs])
    reached := fun id' mark hmark => by
      rw [getElem?_insert_mark] at hmark
      split at hmark
      · next heq => exact heq ▸ h.reached id _ (h.top_open hs)
      · exact h.reached id' mark hmark }

/-- A node of the stack behind the next port of the top depends on itself. -/
theorem meet (h : Sound c root w) (hs : w.stack = (id, port) :: below)
    (hp : port < c.inputCount id) (hf : c.feeder? id port = some source)
    (hm : w.marks[source]? = some .inProgress) : c.Reaches root source ∧ c.OnCycle source := by
  refine ⟨h.reaches_source hs hp hf, ?_⟩
  -- from its frame the stack leads up to the top, and the port of the top leads back to it
  have hin : source ∈ ((id, port) :: below).map Prod.fst := hs ▸ (h.open_iff source).mp hm
  have hup : c.Reaches source id := (h.frames_top hs).reaches_top source hin
  exact TransGen.tail' hup (Circuit.dependsOn_of_feeder? hp hf)

end Sound

/-- `Fair c root w` — the walk is sound, or the node it reports is reached by the root and depends on
    itself. -/
def Fair (c : Circuit) (root : NodeId) (w : Walk) : Prop :=
  match w.cycle with
  | none => Sound c root w
  | some id => c.Reaches root id ∧ c.OnCycle id

theorem fair_of_sound (hc : w.cycle = none) (h : Sound c root w) : Fair c root w := by
  rw [Fair, hc]; exact h

/-- A move keeps a walk fair. -/
theorem Move.fair {w' : Walk} (hm : Move c w w') (hc : w.cycle = none) (h : Fair c root w) :
    Fair c root w' := by
  have hsound : Sound c root w := by rwa [Fair, hc] at h
  cases hm with
  | pass hs _ hd => exact fair_of_sound hc (hsound.pass hs hd)
  | enter hs hp hf hm => exact fair_of_sound hc (hsound.enter hs hp hf hm)
  | meet hs hp hf hm => exact hsound.meet hs hp hf hm
  | leave hs hp => exact fair_of_sound hc (hsound.leave hs hp)

/-- What every step of an unfinished walk keeps holds after any run. -/
theorem run_induction {P : Walk → Prop} (hstep : ∀ w, w.finished = false → P w → P (w.step c)) :
    ∀ fuel w, P w → P (w.run c fuel)
  | 0, _, h => h
  | fuel + 1, w, h => by
    rw [run]
    split
    · exact h
    · next hf => exact run_induction hstep fuel _ (hstep w (by simpa using hf) h)

/-- Every run from the start is fair. -/
theorem fair_run (c : Circuit) (root : NodeId) (fuel : Nat) :
    Fair c root ((start root).run c fuel) := by
  apply run_induction
  · intro w hw h
    obtain ⟨hs, hc⟩ := finished_eq_false.mp hw
    exact (move_step hs).fair hc h
  · exact fair_of_sound rfl (sound_start c root)

/-! ## What a walk visits -/

/-- `Within c root w` — all that the walk has entered or emitted is reached by the root.  Unlike `Sound`
    this also holds once a cycle is met. -/
structure Within (c : Circuit) (root : NodeId) (w : Walk) : Prop where
  stack : ∀ frame ∈ w.stack, c.Reaches root frame.1
  marks : ∀ id mark, w.marks[id]? = some mark → c.Reaches root id
  emitted : ∀ id ∈ w.emitted, c.Reaches root id

/-- The walk that has just entered the root has entered nothing else. -/
theorem within_start (c : Circuit) (root : NodeId) : Within c root (start root) where
  stack frame hframe := by
    rw [List.mem_singleton.mp hframe]
    exact ReflTransGen.refl
  marks id mark hmark := by
    simp only [start, getElem?_insert_mark] at hmark
    split at hmark
    · next heq => rw [← heq]; exact ReflTransGen.refl
    · simp at hmark
  emitted id hid := absurd hid List.not_mem_nil

/-- Marking a node that the root reaches leaves only such nodes marked. -/
theorem Within.mark (h : Within c root w) {id : NodeId} (hid : c.Reaches root id) (mark : Mark) :
    ∀ id' mark', (w.marks.insert id mark)[id']? = some mark' → c.Reaches root id' := by
  intro id' mark' hmark
  rw [getElem?_insert_mark] at hmark
  split at hmark
  · next heq => rw [← heq]; exact hid
  · exact h.marks id' mark' hmark

/-- A move goes on from the top frame, which the root reaches, to what that depends on. -/
theorem Move.within {w' : Walk} (hm : Move c w w') (h : Within c root w) : Within c root w' := by
  have htop : ∀ {id port below}, w.stack = (id, port) :: below →
      c.Reaches root id ∧ ∀ frame ∈ below, c.Reaches root frame.1 := by
    intro id port below hs
    have hstack := h.stack
    rw [hs] at hstack
    exact ⟨hstack _ List.mem_cons_self, fun frame hf => hstack frame (List.mem_cons_of_mem _ hf)⟩
  cases hm with
  | pass hs _ _ =>
    exact ⟨List.forall_mem_cons.mpr (htop hs), h.marks, h.emitted⟩
  | enter hs hp hf _ =>
    have hsource := (htop hs).1.tail (Circuit.dependsOn_of_feeder? hp hf)
    exact ⟨List.forall_mem_cons.mpr ⟨hsource, List.forall_mem_cons.mpr (htop hs)⟩,
      h.mark hsource _, h.emitted⟩
  | meet hs _ _ _ =>
    exact ⟨List.forall_mem_cons.mpr (htop hs), h.marks, h.emitted⟩
  | leave hs _ =>
    exact ⟨(htop hs).2, h.mark (htop hs).1 _, List.forall_mem_cons.mpr ⟨(htop hs).1, h.emitted⟩⟩

/-- However far a walk from the root goes, it visits only what the root reaches. -/
theorem within_run (c : Circuit) (root : NodeId) (fuel : Nat) :
    Within c root ((start root).run c fuel) := by
  apply run_induction
  · intro w hw h
    exact (move_step (finished_eq_false.mp hw).1).within h
  · exact within_start c root

end Walk

/-! ## The end -/

namespace Circuit

/-- The nodes that a walk from `root` can enter. -/
def candidates (c : Circuit) (root : NodeId) : List NodeId :=
  root :: c.wiring.links.map fun l => l.source.node

/-- The steps that a walk spends on a node: one for each port and one to leave it. -/
def cost (c : Circuit) (id : NodeId) : Nat := c.inputCount id + 1

/-- What feeds any input can be entered. -/
theorem mem_candidates_of_feeder? {c : Circuit} {root n m : NodeId} {port : Nat}
    (hf : c.feeder? n port = some m) : m ∈ c.candidates root := by
  obtain ⟨l, hl, rfl⟩ := feeder?_eq_some.mp hf
  apply List.mem_cons_of_mem
  refine List.mem_map.mpr ⟨l, ?_, rfl⟩
  exact List.mem_map.mpr ⟨(_, l), ExtTreeMap.mem_toList_iff_getElem?_eq_some.mpr hl, rfl⟩

theorem budget_eq_sum (c : Circuit) (root : NodeId) :
    c.budget root = ((c.candidates root).map c.cost).sum := by
  rw [budget, List.sum_eq_foldl, List.foldl_map]
  rfl

end Circuit

namespace Walk

variable {c : Circuit} {root : NodeId} {w : Walk}

/-- The steps that can still follow: those of the nodes not entered yet, and the rest of those on the
    stack. -/
def work (c : Circuit) (root : NodeId) (w : Walk) : Nat :=
  (((c.candidates root).filter fun id => w.marks[id]?.isNone).map c.cost).sum
    + (w.stack.map fun frame => c.inputCount frame.1 - frame.2 + 1).sum

/-- Marking a node takes it off the list of nodes without a mark. -/
theorem filter_unmarked_insert (marks : ExtTreeMap NodeId Mark) (source : NodeId) (mark : Mark)
    (ids : List NodeId) :
    ids.filter (fun id => (marks.insert source mark)[id]?.isNone)
      = (ids.filter fun id => marks[id]?.isNone).filter (· ≠ source) := by
  rw [List.filter_filter]
  apply List.filter_congr
  intro id _
  rw [getElem?_insert_mark]
  by_cases h : source = id
  · simp [h]
  · simp [h, Ne.symm h]

theorem sum_filter_ne_le (f : NodeId → Nat) (source : NodeId) (ids : List NodeId) :
    ((ids.filter (· ≠ source)).map f).sum ≤ (ids.map f).sum := by
  induction ids with
  | nil => exact Nat.le_refl _
  | cons id ids ih =>
    rw [List.filter_cons]
    split
    · simp only [List.map_cons, List.sum_cons]; omega
    · simp only [List.map_cons, List.sum_cons]; omega

/-- Taking a member off a list takes at least its own weight off the sum. -/
theorem sum_filter_ne_add_le (f : NodeId → Nat) (source : NodeId) (ids : List NodeId)
    (hin : source ∈ ids) :
    ((ids.filter (· ≠ source)).map f).sum + f source ≤ (ids.map f).sum := by
  induction ids with
  | nil => exact absurd hin List.not_mem_nil
  | cons id ids ih =>
    rw [List.filter_cons]
    by_cases h : id = source
    · have hle := sum_filter_ne_le f source ids
      simp only [h, ne_eq, not_true_eq_false, decide_false, Bool.false_eq_true, if_false,
        List.map_cons, List.sum_cons] at *
      omega
    · have hle := ih ((List.mem_cons.mp hin).resolve_left (Ne.symm h))
      simp only [h, ne_eq, not_false_eq_true, decide_true, if_true,
        List.map_cons, List.sum_cons] at *
      omega

/-- A move takes at least one step off the work. -/
theorem Move.work {w' : Walk} (hm : Move c w w') : w'.work c root + 1 ≤ w.work c root := by
  cases hm with
  | pass hs hp _ =>
    simp only [Walk.work, hs, List.map_cons, List.sum_cons]
    omega
  | @enter id port below source hs hp hf hm =>
    -- the node entered was counted among those without a mark, with the cost of its whole frame
    have hin : source ∈ (c.candidates root).filter fun id => w.marks[id]?.isNone :=
      List.mem_filter.mpr ⟨Circuit.mem_candidates_of_feeder? hf, by simp [hm]⟩
    have hle := sum_filter_ne_add_le c.cost source _ hin
    simp only [Walk.work, hs, filter_unmarked_insert, List.map_cons, List.sum_cons]
    simp only [Circuit.cost] at hle ⊢
    omega
  | meet hs hp _ _ =>
    simp only [Walk.work, hs, List.map_cons, List.sum_cons]
    omega
  | @leave id port below hs hp =>
    have hle := sum_filter_ne_le c.cost id ((c.candidates root).filter fun id => w.marks[id]?.isNone)
    simp only [Walk.work, hs, filter_unmarked_insert, List.map_cons, List.sum_cons]
    omega

/-- A step of an unfinished walk takes at least one step off the work. -/
theorem work_step (root : NodeId) (hw : w.finished = false) :
    (w.step c).work c root + 1 ≤ w.work c root :=
  (move_step (finished_eq_false.mp hw).1).work

/-- A run with fuel for all the work is finished. -/
theorem run_finished (root : NodeId) :
    ∀ fuel (w : Walk), w.work c root ≤ fuel → (w.run c fuel).finished = true
  | 0, w, hle => by
    cases hw : w.finished with
    | true => exact hw
    | false =>
      have hlt := work_step (c := c) root hw
      omega
  | fuel + 1, w, hle => by
    rw [run]
    cases hw : w.finished with
    | true => simpa using hw
    | false =>
      have hlt := work_step (c := c) root hw
      simpa using run_finished root fuel (w.step c) (by omega)

/-- The budget covers the work of the start. -/
theorem work_start_le (c : Circuit) (root : NodeId) :
    (start root).work c root ≤ c.budget root := by
  have hmarks : (start root).marks = (∅ : ExtTreeMap NodeId Mark).insert root .inProgress := rfl
  have hnone : (c.candidates root).filter (fun id => (∅ : ExtTreeMap NodeId Mark)[id]?.isNone)
      = c.candidates root := List.filter_eq_self.mpr (fun id _ => by simp)
  have hle := sum_filter_ne_add_le c.cost root (c.candidates root) List.mem_cons_self
  rw [Circuit.budget_eq_sum, work, hmarks, filter_unmarked_insert, hnone]
  simp only [Circuit.cost, start, List.map_cons, List.map_nil, List.sum_cons, List.sum_nil] at hle ⊢
  omega

end Walk

namespace Circuit

variable {c : Circuit} {root : NodeId}

/-- The walk from a root is finished. -/
theorem walk_finished (c : Circuit) (root : NodeId) : (c.walk root).finished = true :=
  Walk.run_finished root _ _ (Walk.work_start_le c root)

/-- A node that the walk reports is reached by the root and depends on itself. -/
theorem walk_met {id : NodeId} (h : (c.walk root).cycle = some id) :
    c.Reaches root id ∧ c.OnCycle id := by
  have hfair := Walk.fair_run c root (c.budget root)
  rw [Walk.Fair, show ((Walk.start root).run c (c.budget root)).cycle = some id from h] at hfair
  exact hfair

/-- A walk that reports no node is sound and has left every node it entered. -/
theorem walk_sound (h : (c.walk root).cycle = none) :
    Walk.Sound c root (c.walk root) ∧ (c.walk root).stack = [] := by
  have hfair := Walk.fair_run c root (c.budget root)
  rw [Walk.Fair, show ((Walk.start root).run c (c.budget root)).cycle = none from h] at hfair
  refine ⟨hfair, ?_⟩
  have hend := walk_finished c root
  simpa [Walk.finished, h] using hend

end Circuit

end FragmentGraph
