/-
  Compiling keeps the meaning of a graph.

  What the kinds of nodes do is left open.  A `Meaning` gives every type the value of its stand-ins and
  every kind a function of its arguments, and a graph then has a value at every output: that of its
  kind's function, applied to the values of the outputs that feed the inputs (`Graph.value`).  The
  recursion goes from input to output through the wiring and knows nothing of an order; it takes the
  depth to which it may go, and what it gives at all large depths is what the graph denotes.

  The shader knows nothing of the wiring.  Its main function is a list of steps, and a step finds its
  arguments under NAMES, in an environment that the steps before it have written (`Step.run`).

  1. `Knows depth env id`: every output of `id` stands in the environment under its name, with the value
     that it has from that depth on.
  2. One step makes the environment know its node, if it knows the nodes that feed it, and lets it know
     what it knew (`run_step`).  Names tell variables, so no step writes over another's.
  3. A walk emits a node after those that feed it, so by induction on its order every step finds its
     arguments, and in the end every node that was emitted is known (`run_steps`).  The depth grows by
     one with every step.
-/
import FragmentGraph.Proofs.Graph.Reach
import FragmentGraph.Proofs.Shader.Steps
import FragmentGraph.Proofs.Socket.Name
import Mathlib.Algebra.GroupWithZero.Nat

namespace FragmentGraph

open Glsl

/-- What the types and the kinds of nodes mean. -/
structure Meaning (V : Type) where
  /-- The value of an input that nothing feeds. -/
  standIn : Ty → V
  /-- The result of a kind at an output, from its arguments. -/
  apply : Kind → List V → Nat → V

variable {V : Type}

/-! ## What a graph denotes -/

namespace Graph

/-- The value of an output: the kind's result from the values of what feeds the inputs.  There is none
    if the output is not there, or if the recursion goes deeper than `depth`. -/
def value (m : Meaning V) (g : Graph) : (depth : Nat) → Socket → Option V
  | 0, _ => none
  | depth + 1, s => do
    let node ← g.node? s.node
    let args ← node.kind.inputs.zipIdx.mapM fun input =>
      match g.wiring.feeding? ⟨s.node, UInt32.ofNat input.2⟩ with
      | some l => value m g depth l.source
      | none => some (m.standIn input.1)
    if s.port.toNat < node.kind.outputs.length then
      some (m.apply node.kind args s.port.toNat)
    else none

/-- The value at an input: that of the output feeding it, or the stand-in of its type. -/
def argument (m : Meaning V) (g : Graph) (depth : Nat) (target : Socket) (ty : Ty) : Option V :=
  match g.wiring.feeding? target with
  | some l => g.value m depth l.source
  | none => some (m.standIn ty)

/-- The colour of the graph: the value at the input of the output node. -/
def color (m : Meaning V) (g : Graph) (depth : Nat) : Option V :=
  g.argument m depth ⟨outputId, 0⟩ .vec4

end Graph

/-! ## What a main function does -/

/-- The values of variables, by name. -/
abbrev Env (V : Type) := String → Option V

namespace Env

/-- No variable has a value. -/
def empty : Env V := fun _ => none

/-- Gives a variable a value. -/
def bind (env : Env V) (name : String) (v : V) : Env V :=
  fun x => if x = name then some v else env x

/-- Gives variables values in order. -/
def bindAll (env : Env V) (pairs : List (String × V)) : Env V :=
  pairs.foldl (fun env p => env.bind p.1 p.2) env

end Env

namespace Step

/-- The environment after the declarations of the step's stand-ins. -/
def declare (m : Meaning V) (env : Env V) (step : Step) : Env V :=
  env.bindAll (step.block.standIns.map fun o => (o.2.name, m.standIn o.1))

/-- The environment after the step's results, from its arguments. -/
def settle (m : Meaning V) (env : Env V) (step : Step) (args : List V) : Env V :=
  env.bindAll (step.block.results.zipIdx.map fun r => (r.1.name, m.apply step.kind args r.2))

/-- A step declares its stand-ins, reads its operands, and declares its results; that of the output
    writes the colour.  It is stuck if an operand has no value. -/
def run (m : Meaning V) (env : Env V) (step : Step) : Option (Env V) := do
  let declared := step.declare m env
  let args ← step.block.operands.mapM fun o => declared o.2.name
  let settled := step.settle m declared args
  if step.kind = .output then args.head?.map (settled.bind colorVariable) else some settled

/-- Steps one after the other. -/
def runAll (m : Meaning V) (env : Env V) (steps : List Step) : Option (Env V) :=
  steps.foldlM (run m) env

end Step

/-! ## Environments -/

namespace Env

variable {env : Env V} {pairs : List (String × V)} {x name : String} {v : V}

theorem bind_self : env.bind name v name = some v := if_pos rfl

theorem bind_of_ne (h : x ≠ name) : env.bind name v x = env x := if_neg h

/-- A name that is not bound keeps its value. -/
theorem bindAll_of_forall_ne (h : ∀ p ∈ pairs, p.1 ≠ x) : env.bindAll pairs x = env x := by
  induction pairs generalizing env with
  | nil => rfl
  | cons p pairs ih =>
    show (env.bind p.1 p.2).bindAll pairs x = env x
    rw [ih fun q hq => h q (List.mem_cons_of_mem p hq), bind_of_ne (h p List.mem_cons_self).symm]

/-- A name has the value it is bound to, if it is bound to one value only. -/
theorem bindAll_of_mem (hmem : (x, v) ∈ pairs) (hone : ∀ p ∈ pairs, p.1 = x → p.2 = v) :
    env.bindAll pairs x = some v := by
  induction pairs generalizing env with
  | nil => cases hmem
  | cons p pairs ih =>
    show (env.bind p.1 p.2).bindAll pairs x = some v
    by_cases hlater : (x, v) ∈ pairs
    · exact ih hlater fun q hq => hone q (List.mem_cons_of_mem p hq)
    · -- no later pair binds the name, or it would bind it to the same value
      have hp : (x, v) = p := (List.mem_cons.mp hmem).resolve_right hlater
      rw [bindAll_of_forall_ne, ← hp, bind_self]
      intro q hq hname
      refine hlater ?_
      rw [← hname, ← hone q (List.mem_cons_of_mem p hq) hname]
      exact hq

end Env

/-! ## One step -/

namespace Graph

variable {m : Meaning V} {g : Graph} {env : Env V} {id : NodeId} {node : Node} {ty : Ty} {i : Nat}
  {depth : Nat}

/-- Declaring stand-ins leaves the values of outputs alone. -/
theorem declare_value (m : Meaning V) (env : Env V) (step : Step) (s : Socket) :
    step.declare m env (Variable.value s).name = env (Variable.value s).name := by
  refine Env.bindAll_of_forall_ne fun p hp hname => ?_
  obtain ⟨o, ho, rfl⟩ := List.mem_map.mp hp
  have hstandIn := (List.mem_filter.mp ho).2
  rw [Variable.name_inj.mp hname] at hstandIn
  cases hstandIn

/-- An input that nothing feeds has its stand-in declared. -/
theorem declare_standIn (hi : node.kind.inputs[i]? = some ty)
    (hfree : g.wiring.feeding? ⟨id, UInt32.ofNat i⟩ = none) :
    (g.step id node).declare m env (Variable.standIn ⟨id, UInt32.ofNat i⟩).name
      = some (m.standIn ty) := by
  have hlt : ∀ {j : Nat} {ty' : Ty}, node.kind.inputs[j]? = some ty' → j < 2 ^ 32 := by
    intro j ty' hj
    have hlength := node.kind.length_inputs_le
    have hj := (List.getElem?_eq_some_iff.mp hj).1
    omega
  refine Env.bindAll_of_mem (List.mem_map.mpr ⟨(ty, .standIn ⟨id, UInt32.ofNat i⟩), ?_, rfl⟩) ?_
  · refine List.mem_filter.mpr ⟨mem_operands_step.mpr ⟨ty, i, hi, ?_⟩, rfl⟩
    rw [Circuit.operand_of_none hfree]
  · -- another input with this stand-in would have the same port
    intro p hp hname
    obtain ⟨o, ho, rfl⟩ := List.mem_map.mp hp
    obtain ⟨ty', j, hj, rfl⟩ := mem_operands_step.mp (List.mem_filter.mp ho).1
    have hvariable : g.circuit.operand ⟨id, UInt32.ofNat j⟩ = .standIn ⟨id, UInt32.ofNat i⟩ :=
      Variable.name_inj.mp hname
    cases hfed : g.wiring.feeding? ⟨id, UInt32.ofNat j⟩ with
    | some l =>
      rw [Circuit.operand_of_some hfed] at hvariable
      cases hvariable
    | none =>
      rw [Circuit.operand_of_none hfed] at hvariable
      have hport : UInt32.ofNat j = UInt32.ofNat i := by simpa using hvariable
      rw [(ofNat_inj_of_lt (hlt hj) (hlt hi)).mp hport, hi] at hj
      rw [Option.some.inj hj]

/-- The results stand under the names of the outputs. -/
theorem settle_self {args : List V} {port : PortIndex}
    (hport : port.toNat < node.kind.outputs.length) :
    (g.step id node).settle m env args (Variable.value ⟨id, port⟩).name
      = some (m.apply node.kind args port.toNat) := by
  refine Env.bindAll_of_mem (List.mem_map.mpr ⟨(.value ⟨id, port⟩, port.toNat), ?_, rfl⟩) ?_
  · refine mem_results_step.mpr ⟨hport, ?_⟩
    rw [UInt32.ofNat_toNat]
  · intro p hp hname
    obtain ⟨⟨x, j⟩, hmem, rfl⟩ := List.mem_map.mp hp
    obtain ⟨hj, rfl⟩ := mem_results_step.mp hmem
    have hvariable : Variable.value ⟨id, UInt32.ofNat j⟩ = .value ⟨id, port⟩ :=
      Variable.name_inj.mp hname
    have hindex : UInt32.ofNat j = port := by simpa using hvariable
    have hlength := node.kind.length_outputs_le
    rw [← hindex, UInt32.toNat_ofNat_of_lt' (show j < 2 ^ 32 by omega)]
    rfl

/-- A step settles its own results and no other name. -/
theorem settle_of_ne {args : List V} {x : String}
    (hx : ∀ port, (Variable.value ⟨id, port⟩).name ≠ x) :
    (g.step id node).settle m env args x = env x := by
  refine Env.bindAll_of_forall_ne fun p hp => ?_
  obtain ⟨⟨y, j⟩, hmem, rfl⟩ := List.mem_map.mp hp
  obtain ⟨_, rfl⟩ := mem_results_step.mp hmem
  exact hx _

/-! ## What an environment knows -/

/-- Every output of the node stands in the environment under its name, with its value from some depth
    on. -/
def Knows (m : Meaning V) (g : Graph) (depth : Nat) (env : Env V) (id : NodeId) : Prop :=
  ∀ node, g.node? id = some node → ∀ port : PortIndex, port.toNat < node.kind.outputs.length →
    ∃ v, env (Variable.value ⟨id, port⟩).name = some v ∧
      ∀ d, depth ≤ d → g.value m d ⟨id, port⟩ = some v

/-- An environment knows a node by the names of its outputs. -/
theorem Knows.congr {env' : Env V} (h : g.Knows m depth env id)
    (henv : ∀ port, env' (Variable.value ⟨id, port⟩).name = env (Variable.value ⟨id, port⟩).name) :
    g.Knows m depth env' id := by
  intro node hnode port hport
  obtain ⟨v, hv, hvalue⟩ := h node hnode port hport
  exact ⟨v, (henv port).trans hv, hvalue⟩

theorem Knows.succ (h : g.Knows m depth env id) : g.Knows m (depth + 1) env id := by
  intro node hnode port hport
  obtain ⟨v, hv, hvalue⟩ := h node hnode port hport
  exact ⟨v, hv, fun d hd => hvalue d (by omega)⟩

/-- The value of an output, from the arguments of its node. -/
theorem value_of_arguments {args : List V} {port : PortIndex} (hnode : g.node? id = some node)
    (hargs : (node.kind.inputs.zipIdx.mapM fun input =>
      g.argument m depth ⟨id, UInt32.ofNat input.2⟩ input.1) = some args)
    (hport : port.toNat < node.kind.outputs.length) :
    g.value m (depth + 1) ⟨id, port⟩ = some (m.apply node.kind args port.toNat) := by
  rw [value, hnode]
  show ((node.kind.inputs.zipIdx.mapM fun input =>
    g.argument m depth ⟨id, UInt32.ofNat input.2⟩ input.1).bind fun args =>
      if port.toNat < node.kind.outputs.length then some (m.apply node.kind args port.toNat)
      else none) = _
  rw [hargs, Option.bind_some, if_pos hport]

/-- A step reads under the name of its operand what the graph has at its input. -/
theorem read_operand (hg : g.WellFormed) (hnode : g.node? id = some node)
    (hfed : ∀ source, g.circuit.DependsOn id source → g.Knows m depth env source)
    (hi : node.kind.inputs[i]? = some ty) :
    ∃ v, (g.step id node).declare m env (g.circuit.operand ⟨id, UInt32.ofNat i⟩).name = some v ∧
      ∀ d, depth ≤ d → g.argument m d ⟨id, UInt32.ofNat i⟩ ty = some v := by
  cases hl : g.wiring.feeding? ⟨id, UInt32.ofNat i⟩ with
  | none =>
    refine ⟨m.standIn ty, ?_, fun d _ => by rw [argument, hl]⟩
    rw [Circuit.operand_of_none hl]
    exact declare_standIn hi hl
  | some l =>
    -- the feeding output is there, and its node is known
    obtain ⟨source, _, hsource, _, hport, _⟩ := hg.joined l (hg.wired.keyed.live hl)
    have hcount : i < g.circuit.inputCount id := by
      rw [inputCount_circuit hnode]
      exact (List.getElem?_eq_some_iff.mp hi).1
    have hdep : g.circuit.DependsOn id l.source.node :=
      Circuit.dependsOn_of_feeder? hcount (Circuit.feeder?_eq_some.mpr ⟨l, hl, rfl⟩)
    obtain ⟨v, hv, hvalue⟩ := hfed _ hdep source hsource l.source.port hport
    refine ⟨v, ?_, fun d hd => ?_⟩
    · rw [Circuit.operand_of_some hl, declare_value]
      exact hv
    · rw [argument, hl]
      exact hvalue d hd

/-- Functions that agree on a list, and are defined there, give the same list. -/
theorem mapM_eq_some_of_forall {α : Type} {f : α → Option V} {h : Nat → α → Option V} {xs : List α}
    (hall : ∀ x ∈ xs, ∃ v, f x = some v ∧ ∀ d, depth ≤ d → h d x = some v) :
    ∃ vs, xs.mapM f = some vs ∧ ∀ d, depth ≤ d → xs.mapM (h d) = some vs := by
  induction xs with
  | nil => exact ⟨[], rfl, fun _ _ => rfl⟩
  | cons x xs ih =>
    obtain ⟨v, hf, hh⟩ := hall x List.mem_cons_self
    obtain ⟨vs, hfs, hhs⟩ := ih fun y hy => hall y (List.mem_cons_of_mem x hy)
    refine ⟨v :: vs, by simp [List.mapM_cons, hf, hfs], fun d hd => ?_⟩
    simp [List.mapM_cons, hh d hd, hhs d hd]

/-- The arguments that a step reads are those of its node. -/
theorem read_operands (hg : g.WellFormed) (hnode : g.node? id = some node)
    (hfed : ∀ source, g.circuit.DependsOn id source → g.Knows m depth env source) :
    ∃ args, ((g.step id node).block.operands.mapM fun o =>
        (g.step id node).declare m env o.2.name) = some args ∧
      ∀ d, depth ≤ d → (node.kind.inputs.zipIdx.mapM fun input =>
        g.argument m d ⟨id, UInt32.ofNat input.2⟩ input.1) = some args := by
  rw [operands_step, List.mapM_map]
  exact mapM_eq_some_of_forall fun input hinput =>
    read_operand hg hnode hfed (List.mem_zipIdx_iff_getElem?.mp hinput)

/-- The only argument of the output is the colour. -/
theorem color_of_arguments {args : List V}
    (hargs : ∀ d, depth ≤ d → (Kind.output.inputs.zipIdx.mapM fun input =>
      g.argument m d ⟨outputId, UInt32.ofNat input.2⟩ input.1) = some args) :
    ∃ v, args = [v] ∧ ∀ d, depth ≤ d → g.color m d = some v := by
  have hone : ∀ d, depth ≤ d → ∃ v, g.color m d = some v ∧ [v] = args := by
    intro d hd
    have hbind : (g.color m d).bind (fun v => some [v]) = some args := by
      simpa [Kind.inputs, color] using hargs d hd
    obtain ⟨v, hv, hlist⟩ := Option.bind_eq_some_iff.mp hbind
    exact ⟨v, hv, Option.some.inj hlist⟩
  -- the list of arguments is the same at all depths, and so is the value in it
  obtain ⟨v, _, rfl⟩ := hone depth (Nat.le_refl _)
  refine ⟨v, rfl, fun d hd => ?_⟩
  obtain ⟨v', hv', hlist⟩ := hone d hd
  rw [hv', List.singleton_inj.mp hlist]

/-- **One step.**  If the nodes that feed a node are known, its step runs; then the node is known as
    well, all that was known still is, and the output's step leaves the colour of the graph. -/
theorem run_step (hg : g.WellFormed) (hnode : g.node? id = some node)
    (hfed : ∀ source, g.circuit.DependsOn id source → g.Knows m depth env source) :
    ∃ env', (g.step id node).run m env = some env' ∧ g.Knows m (depth + 1) env' id ∧
      (∀ id', id' ≠ id → g.Knows m depth env id' → g.Knows m depth env' id') ∧
      (id = outputId → ∃ v, env' colorVariable = some v ∧
        ∀ d, depth ≤ d → g.color m d = some v) := by
  obtain ⟨args, hread, hargs⟩ := read_operands hg hnode hfed
  let settled := (g.step id node).settle m ((g.step id node).declare m env) args
  -- the node's own names are bound last, all others keep what they had
  have hself : g.Knows m (depth + 1) settled id := by
    intro node' hnode' port hport
    obtain rfl : node = node' := Option.some.inj (hnode.symm.trans hnode')
    refine ⟨_, settle_self hport, fun d hd => ?_⟩
    obtain ⟨d, rfl⟩ : ∃ d', d = d' + 1 := ⟨d - 1, by omega⟩
    exact value_of_arguments hnode (hargs d (by omega)) hport
  have hother : ∀ id', id' ≠ id → g.Knows m depth env id' → g.Knows m depth settled id' := by
    intro id' hne hknown
    refine hknown.congr fun port => (settle_of_ne fun port' hname => ?_).trans (declare_value _ _ _ _)
    have hvariable : Variable.value ⟨id, port'⟩ = .value ⟨id', port⟩ := Variable.name_inj.mp hname
    have hid : id = id' ∧ port' = port := by simpa using hvariable
    exact hne hid.1.symm
  have hrun : (g.step id node).run m env
      = if node.kind = .output then args.head?.map (settled.bind colorVariable) else some settled := by
    rw [Step.run, hread]
    rfl
  by_cases hkind : node.kind = .output
  · -- the output has one input, so it reads the colour and nothing else
    obtain rfl : id = outputId := hg.only_output id node hnode hkind
    rw [hkind] at hargs
    obtain ⟨v, rfl, hv⟩ := color_of_arguments hargs
    have hbind : ∀ d id', g.Knows m d settled id' → g.Knows m d (settled.bind colorVariable v) id' :=
      fun d id' hknown => hknown.congr fun port => Env.bind_of_ne (Variable.name_ne_colorVariable _)
    refine ⟨settled.bind colorVariable v, ?_, hbind _ _ hself,
      fun id' hne hknown => hbind _ id' (hother id' hne hknown), fun _ => ⟨v, Env.bind_self, hv⟩⟩
    rw [hrun, if_pos hkind]
    rfl
  · refine ⟨settled, by rw [hrun, if_neg hkind], hself, hother, ?_⟩
    rintro rfl
    obtain rfl : node = ⟨outputId, .output⟩ := Option.some.inj (hnode.symm.trans hg.output)
    exact absurd rfl hkind

/-! ## All steps -/

theorem runAll_concat (m : Meaning V) (env : Env V) (steps : List Step) (step : Step) :
    Step.runAll m env (steps ++ [step]) = (Step.runAll m env steps).bind (Step.run m · step) := by
  rw [Step.runAll, List.foldlM_append]
  refine congrArg _ (funext fun env => ?_)
  rw [List.foldlM_cons]
  exact bind_pure _

section Run

variable {root : NodeId} {before after : List NodeId}

/-- The next node of a walk: its step finds what it reads, as the nodes that feed it came before. -/
theorem run_next (hg : g.WellFormed) (hroot : ∃ node, g.node? root = some node)
    (hcycle : (g.circuit.walk root).cycle = none)
    (hsplit : (g.circuit.walk root).order = before ++ id :: after)
    (hrun : Step.runAll m .empty (g.steps before) = some env)
    (hknown : ∀ id' ∈ before, g.Knows m before.length env id') :
    ∃ env', Step.runAll m .empty (g.steps (before ++ [id])) = some env' ∧
      (∀ id' ∈ before ++ [id], g.Knows m (before ++ [id]).length env' id') ∧
      (id = outputId → ∃ v, env' colorVariable = some v ∧
        ∀ d, before.length ≤ d → g.color m d = some v) := by
  -- the node is there, since the walk emits only what the root reaches
  have hmem : id ∈ (g.circuit.walk root).order := by rw [hsplit]; simp
  obtain ⟨node, hnode⟩ :=
    exists_node_of_reaches hg hroot ((Circuit.mem_walk_order_iff hcycle).mp hmem)
  obtain ⟨env', hstep, hself, hother, hcolor⟩ := run_step hg hnode fun source hdep =>
    hknown source (Circuit.mem_before_of_dependsOn hcycle hsplit hdep)
  have hfresh : id ∉ before := by
    have hnodup := Circuit.walk_order_nodup hcycle
    rw [hsplit] at hnodup
    exact fun h => (List.nodup_append.mp hnodup).2.2 id h id List.mem_cons_self rfl
  refine ⟨env', ?_, fun id' hid' => ?_, hcolor⟩
  · rw [steps_concat hnode, runAll_concat, hrun]
    exact hstep
  · rw [List.length_append, List.length_singleton]
    rcases List.mem_append.mp hid' with hold | hnew
    · exact (hother id' (fun heq => hfresh (heq ▸ hold)) (hknown id' hold)).succ
    · rw [List.mem_singleton.mp hnew]
      exact hself

/-- After the steps of a walk so far, all their nodes are known. -/
theorem run_steps (m : Meaning V) (hg : g.WellFormed) (hroot : ∃ node, g.node? root = some node)
    (hcycle : (g.circuit.walk root).cycle = none)
    (hsplit : (g.circuit.walk root).order = before ++ after) :
    ∃ env, Step.runAll m .empty (g.steps before) = some env ∧
      ∀ id' ∈ before, g.Knows m before.length env id' := by
  induction before using List.reverseRecOn generalizing after with
  | nil => exact ⟨.empty, rfl, fun _ h => absurd h List.not_mem_nil⟩
  | append_singleton before id ih =>
    rw [List.append_assoc, List.singleton_append] at hsplit
    obtain ⟨env, hrun, hknown⟩ := ih hsplit
    obtain ⟨env', hrun', hknown', _⟩ := run_next hg hroot hcycle hsplit hrun hknown
    exact ⟨env', hrun', hknown'⟩

/-- The main function of a walk runs, and in the end its root is known; if that is the output, the
    colour is that of the graph. -/
theorem run_main (m : Meaning V) (hg : g.WellFormed) (hroot : ∃ node, g.node? root = some node)
    (hcycle : (g.circuit.walk root).cycle = none) :
    ∃ env, Step.runAll m .empty (g.main root) = some env ∧
      g.Knows m (g.circuit.walk root).order.length env root ∧
      (root = outputId → ∃ v, env colorVariable = some v ∧
        ∀ d, (g.circuit.walk root).order.length ≤ d → g.color m d = some v) := by
  obtain ⟨before, hsplit⟩ := List.getLast?_eq_some_iff.mp (Circuit.walk_order_getLast? hcycle)
  obtain ⟨env, hrun, hknown⟩ := run_steps m hg hroot hcycle hsplit
  obtain ⟨env', hrun', hknown', hcolor⟩ := run_next hg hroot hcycle hsplit hrun hknown
  rw [main, hsplit]
  refine ⟨env', hrun', hknown' root (by simp), fun hid => ?_⟩
  obtain ⟨v, hv, hcolor⟩ := hcolor hid
  refine ⟨v, hv, fun d hd => hcolor d ?_⟩
  rw [List.length_append] at hd
  omega

end Run

/-- **Compiling keeps the meaning.**  Whatever the kinds mean: a shader of a reachable graph that
    compiles ends with the main function of the graph's steps, that function runs, and it leaves the
    colour that the graph denotes.  A preview that compiles leaves, under the name of the output it
    shows, the value that the graph denotes there.  The depth of the recursion is at most the count of
    nodes in the shader. -/
theorem compile_preserves_meaning (m : Meaning V) (hg : g.Reachable) :
    (∀ text, g.compile.result = .ok text →
      ∃ head env v, text = head ++ mainText (g.main outputId) "" ∧
        Step.runAll m .empty (g.main outputId) = some env ∧ env colorVariable = some v ∧
        ∀ depth, (g.circuit.walk outputId).order.length ≤ depth → g.color m depth = some v) ∧
    (∀ s text, (g.preview s).result = .ok text →
      ∃ head ty env v, text = head ++ mainText (g.main s.node) (Circuit.previewTail s ty) ∧
        Step.runAll m .empty (g.main s.node) = some env ∧ env (Variable.value s).name = some v ∧
        ∀ depth, (g.circuit.walk s.node).order.length ≤ depth → g.value m depth s = some v) := by
  have hwell := hg.wellFormed
  constructor
  · intro text htext
    obtain ⟨hcycle, head, hshape⟩ := compile_eq_ok htext
    obtain ⟨env, hrun, _, hcolor⟩ := run_main m hwell ⟨_, hwell.output⟩ hcycle
    obtain ⟨v, hv, hdenoted⟩ := hcolor rfl
    exact ⟨head, env, v, hshape, hrun, hv, hdenoted⟩
  · intro s text htext
    obtain ⟨hcycle, head, node, ty, hnode, hty, hshape⟩ := preview_eq_ok htext
    obtain ⟨env, hrun, hknown, _⟩ := run_main m hwell ⟨node, hnode⟩ hcycle
    obtain ⟨v, hv, hdenoted⟩ :=
      hknown node hnode s.port (List.getElem?_eq_some_iff.mp hty).1
    exact ⟨head, ty, env, v, hshape, hrun, hv, hdenoted⟩

/-- Twice the time is the red of the colour; its other parts are fed by nothing. -/
def redTime : Graph where
  nodes := ((Graph.new.nodes.insert 1 ⟨1, .input .time⟩).insert 2 ⟨2, .scalarOp .add .float⟩).insert
    3 ⟨3, .compose .vec4⟩
  wiring := (((Wiring.empty.insert ⟨⟨1, 0⟩, ⟨2, 0⟩⟩).insert ⟨⟨1, 0⟩, ⟨2, 1⟩⟩).insert
    ⟨⟨2, 0⟩, ⟨3, 0⟩⟩).insert ⟨⟨3, 0⟩, ⟨0, 0⟩⟩

theorem reachable_redTime : redTime.Reachable := by
  have h₁ := Reachable.new.edit
    (.addNode (show Graph.new.addNode 1 (.input .time) = .ok _ from rfl))
  have h₂ := h₁.edit (.addNode (show addNode _ 2 (.scalarOp .add .float) = .ok _ from rfl))
  have h₃ := h₂.edit (.addNode (show addNode _ 3 (.compose .vec4) = .ok _ from rfl))
  have h₄ := h₃.edit (.connect (show connect _ ⟨⟨1, 0⟩, ⟨2, 0⟩⟩ = .ok _ from rfl))
  have h₅ := h₄.edit (.connect (show connect _ ⟨⟨1, 0⟩, ⟨2, 1⟩⟩ = .ok _ from rfl))
  have h₆ := h₅.edit (.connect (show connect _ ⟨⟨2, 0⟩, ⟨3, 0⟩⟩ = .ok _ from rfl))
  exact h₆.edit (.connect (show connect _ ⟨⟨3, 0⟩, ⟨0, 0⟩⟩ = .ok _ from rfl))

/-- A meaning in numbers: stand-ins are 1, the inputs of the shader 5, and all else is summed. -/
def summing : Meaning Nat where
  standIn _ := 1
  apply
    | .input _, _, _ => 5
    | _, args, j => args.sum + j

/-- The sum is 5 + 5 and the colour has three stand-ins more, in the shader and so in the graph. -/
theorem compile_preserves_meaning_redTime :
    redTime.Reachable ∧
    (∃ text, redTime.compile.result = .ok text) ∧
    (∀ depth, 4 ≤ depth → redTime.color summing depth = some 13) ∧
    (∃ text, (redTime.preview ⟨2, 0⟩).result = .ok text) ∧
    (∀ depth, 2 ≤ depth → redTime.value summing depth ⟨2, 0⟩ = some 10) := by
  obtain ⟨hcompile, hpreview⟩ := compile_preserves_meaning summing reachable_redTime
  refine ⟨reachable_redTime, ⟨_, rfl⟩, ?_, ⟨_, rfl⟩, ?_⟩
  · obtain ⟨_, env, v, _, hrun, hv, hcolor⟩ := hcompile _ rfl
    have hleft : (Step.runAll summing .empty (redTime.main outputId)).bind (· colorVariable)
        = some 13 := by decide
    rw [hrun, Option.bind_some, hv] at hleft
    exact fun depth hdepth => (hcolor depth hdepth).trans hleft
  · obtain ⟨_, _, env, v, _, hrun, hv, hvalue⟩ := hpreview ⟨2, 0⟩ _ rfl
    have hleft : (Step.runAll summing .empty (redTime.main 2)).bind
        (· (Variable.value ⟨2, 0⟩).name) = some 10 := by decide
    rw [hrun, Option.bind_some, hv] at hleft
    exact fun depth hdepth => (hvalue depth hdepth).trans hleft

end Graph

end FragmentGraph
