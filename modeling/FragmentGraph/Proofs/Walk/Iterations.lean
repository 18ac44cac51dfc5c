/-
  The iterations of a walk.

  `Sound` says what holds of a walk in the form that its proof needs, and only while no cycle is met.
  Here the same is said of every state between two iterations, the one in which a cycle is met among
  them, and the iterations are counted.

  1. **Between iterations** — `Coherent c w` ties the stack to the marks in progress, the emitted nodes
     to the marks that are done, and each frame to the one below it.  A step that meets a cycle only
     moves the port of the top, which no other frame looks at (`Coherent.advance`).

  2. **Pushes** — `pushes c root k` lists the nodes that the first `k` iterations put on the stack, told
     by its growth alone.  Only a node without mark is pushed, and it has a mark from then on, so none is
     pushed twice (`Ledger.nodup`).

  3. **The count** — a node that is pushed brings one iteration for each of its ports and one to leave
     it, and every iteration takes one of those away.  `Ledger.spent` is the balance: the iterations
     made and those still owed by the stack are what the pushed nodes have brought.

  So the loop ends, after at most as many iterations as the pushed nodes bring, and after just as many
  if it meets no cycle (`walk_iterations`).
-/
import FragmentGraph.Proofs.Walk.Postorder
import Mathlib.Data.List.Chain
import Mathlib.Data.Nat.Find

namespace FragmentGraph

open Std (ExtTreeMap)

namespace Walk

variable {c : Circuit} {root : NodeId} {w w' : Walk}

/-! ## Between iterations -/

/-- The node of the frame above feeds a port that the frame below has passed. -/
def Feeds (c : Circuit) (above below : NodeId × Nat) : Prop :=
  ∃ port : PortIndex, port.toNat < below.2 ∧ port.toNat < c.inputCount below.1 ∧
    ∃ l, c.wiring.feeding? ⟨below.1, port⟩ = some l ∧ l.source.node = above.1

/-- `Coherent c w` — stack, marks and emitted nodes of a walk agree. -/
structure Coherent (c : Circuit) (w : Walk) : Prop where
  /-- No node is on the stack twice. -/
  nodup_stack : (w.stack.map Prod.fst).Nodup
  /-- The nodes of the stack are those in progress. -/
  inProgress_iff : ∀ id, w.marks[id]? = some .inProgress ↔ id ∈ w.stack.map Prod.fst
  /-- Every frame is there for a passed port of the one below it. -/
  chain : w.stack.IsChain (Feeds c)
  /-- The emitted nodes are those that are done. -/
  done_iff : ∀ id, w.marks[id]? = some .done ↔ id ∈ w.emitted
  /-- What a node that is done depends on is done. -/
  closed : ∀ id source, w.marks[id]? = some .done → c.DependsOn id source →
    w.marks[source]? = some .done

/-- Frames in order form a chain. -/
theorem Frames.isChain {done : List NodeId} : ∀ {above : Option NodeId} {stack : List (NodeId × Nat)},
    Frames c done above stack → stack.IsChain (Feeds c)
  | _, [], _ => .nil
  | _, [_], _ => .singleton _
  | _, top :: next :: below, ⟨_, _, hbelow⟩ => by
    obtain ⟨port, hpassed, hport, hf⟩ := hbelow.2.1 top.1 rfl
    obtain ⟨index, hle, hl⟩ := Circuit.exists_port_of_feeder? hf
    exact .cons_cons ⟨index, by omega, by omega, hl⟩ hbelow.isChain

/-- A sound walk is coherent. -/
theorem Sound.coherent (h : Sound c root w) : Coherent c w where
  nodup_stack := h.stack_nodup
  inProgress_iff := h.open_iff
  chain := h.frames.isChain
  done_iff := h.done_iff
  closed id source hdone hdep := by
    obtain ⟨later, earlier, hsplit⟩ := List.append_of_mem ((h.done_iff id).mp hdone)
    rw [h.done_iff, hsplit]
    exact List.mem_append_right _ (List.mem_cons_of_mem _ (h.closed later id earlier hsplit source hdep))

/-- Moving the port of the top keeps a walk coherent, whatever it is about to report. -/
theorem Coherent.advance {id : NodeId} {port : Nat} {below : List (NodeId × Nat)}
    (h : Coherent c w) (hs : w.stack = (id, port) :: below) (report : Option NodeId) :
    Coherent c { w with stack := (id, port + 1) :: below, cycle := report } := by
  have hmap : ((id, port + 1) :: below).map Prod.fst = w.stack.map Prod.fst := by rw [hs]; rfl
  have hchain := h.chain
  rw [hs] at hchain
  refine ⟨?_, ?_, ?_, h.done_iff, h.closed⟩
  · rw [hmap]; exact h.nodup_stack
  · rw [hmap]; exact h.inProgress_iff
  · -- of the frame above, `Feeds` sees the node alone
    cases below with
    | nil => exact .singleton _
    | cons next below =>
      obtain ⟨hfeeds, hrest⟩ := List.isChain_cons_cons.mp hchain
      exact List.isChain_cons_cons.mpr ⟨hfeeds, hrest⟩

/-- A move from a sound walk leads to a coherent one. -/
theorem Move.coherent (hm : Move c w w') (h : Sound c root w) : Coherent c w' := by
  cases hm with
  | pass hs _ hd => exact (h.pass hs hd).coherent
  | enter hs hp hf hm => exact (h.enter hs hp hf hm).coherent
  | meet hs _ _ _ => exact h.coherent.advance hs _
  | leave hs hp => exact (h.leave hs hp).coherent

/-- After any number of iterations the walk is coherent. -/
theorem coherent_run (c : Circuit) (root : NodeId) (k : Nat) :
    Coherent c ((start root).run c k) := by
  have hboth : Fair c root ((start root).run c k) ∧ Coherent c ((start root).run c k) := by
    apply run_induction (P := fun w => Fair c root w ∧ Coherent c w)
    · rintro w hw ⟨hfair, _⟩
      obtain ⟨hs, hc⟩ := finished_eq_false.mp hw
      have hsound : Sound c root w := by rwa [Fair, hc] at hfair
      exact ⟨(move_step hs).fair hc hfair, (move_step hs).coherent hsound⟩
    · exact ⟨fair_of_sound rfl (sound_start c root), (sound_start c root).coherent⟩
  exact hboth.2

/-! ## Pushes -/

/-- One more iteration, if there is anything left to do. -/
theorem run_succ (c : Circuit) (k : Nat) (w : Walk) :
    w.run c (k + 1) = if (w.run c k).finished then w.run c k else (w.run c k).step c := by
  induction k generalizing w with
  | zero => rfl
  | succ k ih =>
    rw [run]
    split
    · next hw => rw [run, if_pos hw, if_pos hw]
    · next hw => rw [ih (w.step c), run, if_neg hw]

/-- A run that is finished stays as it is. -/
theorem run_of_finished {k m : Nat} (hk : (w.run c k).finished = true) (hle : k ≤ m) :
    w.run c m = w.run c k := by
  induction m, hle using Nat.le_induction with
  | base => rfl
  | succ m _ ih => rw [run_succ, ih, if_pos hk]

/-- The node that is pushed between two states: the stack has grown, and the node is on its top. -/
def pushed? (w w' : Walk) : Option NodeId :=
  if w.stack.length < w'.stack.length then w'.stack.head?.map Prod.fst else none

theorem pushed?_of_le (h : w'.stack.length ≤ w.stack.length) : w.pushed? w' = none :=
  if_neg (by omega)

/-- The nodes that a walk from `root` has pushed after `k` iterations, in order.  The root is pushed
    before the first of them. -/
def pushes (c : Circuit) (root : NodeId) (k : Nat) : List NodeId :=
  root :: (List.range k).filterMap fun i => ((start root).run c i).pushed? ((start root).run c (i + 1))

theorem pushes_succ (c : Circuit) (root : NodeId) (k : Nat) :
    pushes c root (k + 1) = pushes c root k
      ++ (((start root).run c k).pushed? ((start root).run c (k + 1))).toList := by
  rw [pushes, pushes, List.range_succ, List.filterMap_append, List.cons_append]
  rfl

/-! ## The count -/

/-- The iterations that the frames of a stack still owe. -/
def owed (c : Circuit) (stack : List (NodeId × Nat)) : Nat :=
  (stack.map fun frame => c.inputCount frame.1 - frame.2 + 1).sum

/-- `Ledger c ids k w` — the walk at `w` has pushed the nodes `ids` and made `k` iterations. -/
structure Ledger (c : Circuit) (ids : List NodeId) (k : Nat) (w : Walk) : Prop where
  /-- No node is pushed twice. -/
  nodup : ids.Nodup
  /-- The nodes pushed are those with a mark. -/
  marked : ∀ id, id ∈ ids ↔ w.marks[id]? ≠ none
  /-- No frame is beyond the ports of its node. -/
  ports : ∀ frame ∈ w.stack, frame.2 ≤ c.inputCount frame.1
  /-- The iterations made and those owed are what the pushed nodes have brought. -/
  spent : k + owed c w.stack = (ids.map c.cost).sum

/-- The walk that has just entered the root owes the iterations of the root. -/
theorem ledger_start (c : Circuit) (root : NodeId) : Ledger c [root] 0 (start root) where
  nodup := by simp
  marked id := by
    simp only [start, List.mem_singleton, getElem?_insert_mark]
    split
    · next h => simp [h]
    · next h => simp [Ne.symm h]
  ports frame hframe := by
    rw [List.mem_singleton.mp hframe]
    exact Nat.zero_le _
  spent := by simp [start, owed, Circuit.cost]

section Ledger

variable {ids : List NodeId} {k : Nat} {id : NodeId} {port : Nat} {below : List (NodeId × Nat)}

theorem owed_cons (c : Circuit) (frame : NodeId × Nat) (below : List (NodeId × Nat)) :
    owed c (frame :: below) = c.inputCount frame.1 - frame.2 + 1 + owed c below := by
  rw [owed, List.map_cons, List.sum_cons]
  rfl

/-- The balance with the top in view. -/
theorem Ledger.spent_top (h : Ledger c ids k w) (hs : w.stack = (id, port) :: below) :
    k + (c.inputCount id - port + 1 + owed c below) = (ids.map c.cost).sum := by
  rw [← h.spent, hs, owed_cons]

/-- The ports of the frames with the top in view. -/
theorem Ledger.ports_top (h : Ledger c ids k w) (hs : w.stack = (id, port) :: below) :
    port ≤ c.inputCount id ∧ ∀ frame ∈ below, frame.2 ≤ c.inputCount frame.1 := by
  have hports := h.ports
  rw [hs] at hports
  exact List.forall_mem_cons.mp hports

/-- Passing a port of the top uses up an iteration that it owes. -/
theorem Ledger.advance (h : Ledger c ids k w) (hs : w.stack = (id, port) :: below)
    (hp : port < c.inputCount id) (report : Option NodeId) :
    Ledger c ids (k + 1) { w with stack := (id, port + 1) :: below, cycle := report } := by
  refine ⟨h.nodup, h.marked, List.forall_mem_cons.mpr ⟨hp, (h.ports_top hs).2⟩, ?_⟩
  have hspent := h.spent_top hs
  rw [owed_cons]
  dsimp only
  omega

/-- Entering a node uses up an iteration of the top and adds what the node brings. -/
theorem Ledger.enter {source : NodeId} (h : Ledger c ids k w) (hs : w.stack = (id, port) :: below)
    (hp : port < c.inputCount id) (hm : w.marks[source]? = none) :
    Ledger c (ids ++ [source]) (k + 1) { w with
      stack := (source, 0) :: (id, port + 1) :: below
      marks := w.marks.insert source .inProgress } := by
  have hnew : source ∉ ids := fun hin => (h.marked source).mp hin hm
  refine ⟨?_, ?_, ?_, ?_⟩
  · refine List.nodup_append.mpr ⟨h.nodup, by simp, fun a ha b hb hab => ?_⟩
    rw [hab, List.mem_singleton.mp hb] at ha
    exact hnew ha
  · intro id'
    rw [List.mem_append, List.mem_singleton, h.marked, getElem?_insert_mark]
    split
    · next heq => simp [heq]
    · next hne => simp [Ne.symm hne]
  · refine List.forall_mem_cons.mpr ⟨Nat.zero_le _, List.forall_mem_cons.mpr ⟨hp, ?_⟩⟩
    exact (h.ports_top hs).2
  · have hspent := h.spent_top hs
    rw [owed_cons, owed_cons, List.map_append, List.sum_append, List.map_singleton,
      List.sum_singleton, ← hspent, Circuit.cost]
    dsimp only
    omega

/-- Leaving a node uses up the last iteration that it owes. -/
theorem Ledger.leave (h : Ledger c ids k w) (hc : Coherent c w) (hs : w.stack = (id, port) :: below)
    (hp : c.inputCount id ≤ port) :
    Ledger c ids (k + 1) { w with
      stack := below
      marks := w.marks.insert id .done
      emitted := id :: w.emitted } := by
  have hid : id ∈ ids := by
    have hopen : w.marks[id]? = some .inProgress := by
      rw [hc.inProgress_iff, hs]
      exact List.mem_cons_self
    rw [h.marked, hopen]
    exact Option.some_ne_none _
  obtain ⟨hport, hbelow⟩ := h.ports_top hs
  refine ⟨h.nodup, ?_, hbelow, ?_⟩
  · intro id'
    rw [getElem?_insert_mark]
    split
    · next heq => simpa [← heq] using hid
    · exact h.marked id'
  · have hspent := h.spent_top hs
    dsimp only
    omega

/-- A move makes one iteration and pushes at most one node. -/
theorem Move.ledger (hm : Move c w w') (hc : Coherent c w) (h : Ledger c ids k w) :
    Ledger c (ids ++ (w.pushed? w').toList) (k + 1) w' := by
  cases hm with
  | pass hs hp _ =>
    rw [pushed?_of_le (by simp [hs]), Option.toList_none, List.append_nil]
    exact h.advance hs hp w.cycle
  | @enter id port below source hs hp _ hm =>
    have hpushed : w.pushed? { w with
        stack := (source, 0) :: (id, port + 1) :: below
        marks := w.marks.insert source .inProgress } = some source := by
      simp [pushed?, hs]
    rw [hpushed, Option.toList_some]
    exact h.enter hs hp hm
  | meet hs hp _ _ =>
    rw [pushed?_of_le (by simp [hs]), Option.toList_none, List.append_nil]
    exact h.advance hs hp _
  | leave hs hp =>
    rw [pushed?_of_le (by simp [hs]), Option.toList_none, List.append_nil]
    exact h.leave hc hs hp

/-- The ledger of a walk, as long as it goes on. -/
theorem ledger_run (c : Circuit) (root : NodeId) :
    ∀ k, (∀ i < k, ((start root).run c i).finished = false) →
      Ledger c (pushes c root k) k ((start root).run c k)
  | 0, _ => ledger_start c root
  | k + 1, hgoes => by
    have hk := hgoes k (Nat.lt_succ_self k)
    have hledger := ledger_run c root k fun i hi => hgoes i (Nat.lt_succ_of_lt hi)
    have hmove := move_step (c := c) (finished_eq_false.mp hk).1
    rw [pushes_succ, run_succ, if_neg (by simp [hk])]
    exact hmove.ledger (coherent_run c root k) hledger

end Ledger

end Walk

namespace Circuit

open Walk (Coherent start pushes)

/-- **The loop of a walk.**  Before and after every iteration stack, marks and emitted nodes are coherent.
    The loop ends, with the state that `walk` gives; up to then no node is pushed twice, and there are at
    most as many iterations as the pushed nodes have ports and ends, just as many if no cycle is met. -/
theorem walk_iterations (c : Circuit) (root : NodeId) :
    (∀ k, Coherent c ((start root).run c k)) ∧
    ∃ n, (start root).run c n = c.walk root ∧ (c.walk root).finished = true ∧
      (∀ k < n, ((start root).run c k).finished = false) ∧
      (pushes c root n).Nodup ∧
      n ≤ ((pushes c root n).map c.cost).sum ∧
      ((c.walk root).cycle = none → n = ((pushes c root n).map c.cost).sum) := by
  refine ⟨Walk.coherent_run c root, ?_⟩
  have hend : ∃ n, ((start root).run c n).finished = true := ⟨c.budget root, walk_finished c root⟩
  have hgoes : ∀ k < Nat.find hend, ((start root).run c k).finished = false := fun k hk =>
    Bool.eq_false_iff.mpr (Nat.find_min hend hk)
  have hwalk : (start root).run c (Nat.find hend) = c.walk root :=
    (Walk.run_of_finished (Nat.find_spec hend)
      (Nat.find_min' hend (walk_finished c root))).symm
  have hledger := Walk.ledger_run c root _ hgoes
  refine ⟨Nat.find hend, hwalk, walk_finished c root, hgoes, hledger.nodup, ?_, fun hcycle => ?_⟩
  · exact Nat.le.intro hledger.spent
  · -- without a cycle the stack is empty at the end, so nothing is owed
    have hspent := hledger.spent
    rw [hwalk, (walk_sound hcycle).2] at hspent
    exact hspent

/-- After three iterations the stack leads from the output to the time.  No cycle is met, so the iterations
    are just as many as the pushed nodes have ports and ends. -/
theorem walk_iterations_timeTwice :
    ((start 0).run timeTwice 3).stack = [(1, 0), (2, 1), (3, 1), (0, 1)] ∧
    Coherent timeTwice ((start 0).run timeTwice 3) ∧
    (timeTwice.walk 0).cycle = none ∧
    ∃ n, (start 0).run timeTwice n = timeTwice.walk 0 ∧
      (∀ k < n, ((start 0).run timeTwice k).finished = false) ∧
      n = ((pushes timeTwice 0 n).map timeTwice.cost).sum := by
  have hcycle : (timeTwice.walk 0).cycle = none := by rfl
  obtain ⟨hcoherent, n, hwalk, _, hgoes, _, _, hcount⟩ := walk_iterations timeTwice 0
  exact ⟨by rfl, hcoherent 3, hcycle, n, hwalk, hgoes, hcount hcycle⟩

end Circuit

end FragmentGraph
