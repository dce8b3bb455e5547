import Spirv.Proofs.Resolution

/-!
# The call graph of a module

What the graph of a module holds, said by its functions and what their instructions name. A module
has that graph and no other unless it is at fault, and the search of the graph stays within it
(`ofModule_exact`).
-/
namespace Spirv

namespace Module

structure LastAt (m : Module) (id : Ident) (position : Nat) : Prop where
  here : ∃ function, m.functions[position]? = some function ∧ function.id? = some id
  last : ∀ later function, m.functions[later]? = some function → function.id? = some id →
    later ≤ position

/-- The first two operands are the execution model and the id of a function at the position. -/
def StartsAt (m : Module) (inst : Instruction) (entry : Nat × ExecutionModel) : Prop :=
  ∃ id, inst.start? = some (entry.2, id) ∧ m.LastAt id entry.1

def CallsAt (m : Module) (inst : Instruction) (position : Nat) : Prop :=
  inst.opcode = .functionCall ∧ ∃ id, inst.idOperand? 0 = some id ∧ m.LastAt id position

def NamesFunction (m : Module) (inst : Instruction) : Prop :=
  ∃ model id, inst.start? = some (model, id) ∧ ∃ function ∈ m.functions, function.id? = some id

open Classical in
/-- Where in a function the one at `position` is first called. -/
noncomputable def firstCall (m : Module) (function : Function) (position : Nat) : Nat :=
  function.listing.findIdx fun inst => m.CallsAt inst position

structure Depicts (m : Module) (graph : CallGraph) : Prop where
  functions : m.functions.map Function.id? = graph.functions.map some
  entryPoints : List.Forall₂ m.StartsAt m.entryInstructions graph.entryPoints
  length_callees : graph.callees.length = m.functions.length
  callees : ∀ (position : Nat) function targets, m.functions[position]? = some function →
    graph.callees[position]? = some targets →
      (∀ target, target ∈ targets ↔ ∃ inst ∈ function.listing, m.CallsAt inst target) ∧
      targets.Pairwise fun a b => m.firstCall function a < m.firstCall function b

theorem startFault?_eq_some_iff {m : Module} {inst : Instruction} {fault : ModuleFault} :
    m.startFault? inst = some fault ↔
      inst.start? = none ∧ fault = .malformedEntryPoint ∨
      ∃ model id, inst.start? = some (model, id) ∧
        (∀ function ∈ m.functions, function.id? ≠ some id) ∧ fault = .entryPointNotFunction id := by
  unfold startFault?
  cases inst.start? with
  | none =>
    constructor
    · rintro ⟨⟩
      exact .inl ⟨rfl, rfl⟩
    · rintro (⟨-, rfl⟩ | ⟨_, _, named, -⟩)
      · rfl
      · cases named
  | some start =>
    obtain ⟨model, id⟩ := start
    dsimp only
    by_cases known : ∃ function ∈ m.functions, function.id? = some id
    · rw [if_pos (isSome_function?_iff.mpr known)]
      obtain ⟨function, member, named⟩ := known
      constructor
      · nofun
      · rintro (⟨⟨⟩, -⟩ | ⟨_, _, same, unknown, -⟩)
        cases same
        exact absurd named (unknown function member)
    · rw [if_neg (mt isSome_function?_iff.mp known)]
      constructor
      · rintro ⟨⟩
        exact .inr ⟨model, id, rfl, fun function member named => known ⟨function, member, named⟩, rfl⟩
      · rintro (⟨⟨⟩, -⟩ | ⟨_, _, same, -, rfl⟩)
        cases same
        rfl

end Module

namespace CallGraph

variable {m : Module} {graph : CallGraph} {ids : List Ident}

/-! ## Positions -/

theorem getElem?_ids_iff (named : m.functions.map Function.id? = ids.map some) {id : Ident}
    {position : Nat} : ids[position]? = some id ↔
      ∃ function, m.functions[position]? = some function ∧ function.id? = some id := by
  have same := congrArg (fun list : List (Option Ident) => list[position]?) named
  simp only [List.getElem?_map] at same
  rw [← Option.map_eq_some_iff, same]
  simp

theorem lastAt_iff (named : m.functions.map Function.id? = ids.map some) {id : Ident}
    {position : Nat} : m.LastAt id position ↔ lastPosition? id ids = some position := by
  rw [lastPosition?_eq_some_iff, getElem?_ids_iff named]
  constructor
  · intro last
    refine ⟨last.here, fun later found => ?_⟩
    obtain ⟨function, held, known⟩ := (getElem?_ids_iff named).mp found
    exact last.last later function held known
  · rintro ⟨here, last⟩
    exact ⟨here, fun later function held known =>
      last later ((getElem?_ids_iff named).mpr ⟨function, held, known⟩)⟩

/-! ## Entry points and calls -/

theorem entryPoint_eq_ok_iff (named : m.functions.map Function.id? = ids.map some)
    {inst : Instruction} {entry : Nat × ExecutionModel} :
    entryPoint ids inst = .ok entry ↔ m.StartsAt inst entry := by
  simp only [entryPoint_eq, Module.StartsAt, lastAt_iff named]
  cases inst.start? with
  | none => simp
  | some start =>
    obtain ⟨model, id⟩ := start
    obtain ⟨position, carried⟩ := entry
    cases located : lastPosition? id ids with
    | none => simp +contextual [located]
    | some other => simp [located, and_comm]

def callee? (ids : List Ident) (inst : Instruction) : Option Nat :=
  if inst.opcode = .functionCall then (inst.idOperand? 0).bind fun id => lastPosition? id ids
  else none

theorem callee?_eq_some_iff (named : m.functions.map Function.id? = ids.map some)
    {inst : Instruction} {target : Nat} :
    callee? ids inst = some target ↔ m.CallsAt inst target := by
  simp only [callee?, Module.CallsAt, lastAt_iff named]
  by_cases call : inst.opcode = .functionCall <;> simp [call, Option.bind_eq_some_iff]

theorem calleesOf_eq (ids : List Ident) (function : Function) :
    calleesOf ids function = (function.listing.filterMap (callee? ids)).eraseDups := by
  simp only [calleesOf, List.filterMap_filter, decide_eq_true_eq]
  rfl

theorem mem_calleesOf_iff (named : m.functions.map Function.id? = ids.map some)
    {function : Function} {target : Nat} :
    target ∈ calleesOf ids function ↔ ∃ inst ∈ function.listing, m.CallsAt inst target := by
  simp only [calleesOf_eq, List.mem_eraseDups, List.mem_filterMap, callee?_eq_some_iff named]

theorem pairwise_calleesOf (named : m.functions.map Function.id? = ids.map some)
    (function : Function) : (calleesOf ids function).Pairwise fun a b =>
      m.firstCall function a < m.firstCall function b := by
  have first (target : Nat) : m.firstCall function target =
      function.listing.findIdx fun inst => callee? ids inst == some target := by
    unfold Module.firstCall
    congr 1
    funext inst
    simp [← callee?_eq_some_iff named, beq_eq_decide]
  simp only [first, calleesOf_eq]
  exact pairwise_findIdx_eraseDups_filterMap (callee? ids) function.listing

/-- Positions in the order of their first calls are given by which positions they are. -/
theorem eq_calleesOf (named : m.functions.map Function.id? = ids.map some) {function : Function}
    {targets : List Nat}
    (members : ∀ target, target ∈ targets ↔ ∃ inst ∈ function.listing, m.CallsAt inst target)
    (ordered : targets.Pairwise fun a b => m.firstCall function a < m.firstCall function b) :
    targets = calleesOf ids function := by
  have called := pairwise_calleesOf named function
  have distinct {list : List Nat}
      (ordered : list.Pairwise fun a b => m.firstCall function a < m.firstCall function b) :
      list.Nodup := ordered.imp fun {a b} less same => by simp [same] at less
  have same : targets.Perm (calleesOf ids function) :=
    (List.perm_ext_iff_of_nodup (distinct ordered) (distinct called)).mpr fun target =>
      (members target).trans (mem_calleesOf_iff named).symm
  exact same.eq_of_pairwise (fun a b _ _ less more => absurd less (Nat.lt_asymm more)) ordered called

theorem ofModule_eq_ok_iff_depicts : ofModule m = .ok graph ↔ m.Depicts graph := by
  have started (named : m.functions.map Function.id? = graph.functions.map some) :
      m.entryInstructions.map (entryPoint graph.functions) = graph.entryPoints.map .ok ↔
        List.Forall₂ m.StartsAt m.entryInstructions graph.entryPoints := by
    rw [← List.forall₂_eq_eq_eq, List.forall₂_map_left_iff, List.forall₂_map_right_iff]
    simp only [entryPoint_eq_ok_iff named]
  rw [ofModule_eq_ok_iff]
  constructor
  · rintro ⟨named, entries, called⟩
    refine ⟨named, (started named).mp entries, by rw [← called, List.length_map], ?_⟩
    intro position function targets held listed
    rw [← called, List.getElem?_map, held, Option.map_some, Option.some.injEq] at listed
    subst listed
    exact ⟨fun target => mem_calleesOf_iff named, pairwise_calleesOf named function⟩
  · intro depicts
    have named := depicts.functions
    refine ⟨named, (started named).mpr depicts.entryPoints, ?_⟩
    refine List.ext_getElem (by rw [List.length_map, depicts.length_callees]) ?_
    intro position held listed
    rw [List.getElem_map]
    obtain ⟨members, ordered⟩ := depicts.callees position _ _ (List.getElem?_eq_getElem _)
      (List.getElem?_eq_getElem listed)
    exact (eq_calleesOf named members ordered).symm

/-! ## Faults -/

/-- What is wrong with the first entry point that does not name a function. -/
theorem entryFault?_eq_some_iff {fault : ModuleFault} : m.entryFault? = some fault ↔
    ∃ before inst after, m.entryInstructions = before ++ inst :: after ∧
      (inst.start? = none ∧ fault = .malformedEntryPoint ∨
        ∃ model id, inst.start? = some (model, id) ∧
          (∀ function ∈ m.functions, function.id? ≠ some id) ∧
          fault = .entryPointNotFunction id) ∧
      ∀ earlier ∈ before, m.NamesFunction earlier := by
  rw [Module.entryFault?, List.findSome?_eq_some_iff]
  simp only [Module.startFault?_eq_none_iff, Module.startFault?_eq_some_iff, Module.NamesFunction]

theorem entryFault?_eq_none_iff_names : m.entryFault? = none ↔
    ∀ inst ∈ m.entryInstructions, m.NamesFunction inst := by
  simp only [Module.entryFault?, List.findSome?_eq_none_iff, Module.startFault?_eq_none_iff,
    Module.NamesFunction]

theorem exists_ofModule_eq_error_iff : (∃ fault, ofModule m = .error fault) ↔
    (∃ function ∈ m.functions, function.id? = none) ∨
      ∃ inst ∈ m.entryInstructions, ¬m.NamesFunction inst := by
  have fails : (∃ fault, ofModule m = .error fault) ↔ ¬∃ graph, ofModule m = .ok graph := by
    cases ofModule m <;> simp
  rw [fails, exists_ofModule_iff, entryFault?_eq_none_iff_names, not_and_or]
  simp

/-! ## The graph of a module -/

/-- The search never leaves the graph of a module, so that every client of its result gets one. -/
theorem stays_of_depicts (depicts : m.Depicts graph) :
    (∀ entry ∈ graph.entryPoints, entry.1 < m.functions.length) ∧
    (∀ targets ∈ graph.callees, ∀ target ∈ targets, target < m.functions.length) ∧
    ∃ models, graph.reachingModels? = some models ∧ m.reachingModels = .ok models := by
  have built := ofModule_eq_ok_iff_depicts.mpr depicts
  have closed := closed_of_ofModule built
  rw [← depicts.length_callees]
  exact ⟨closed.entryPoints, closed.callees, graph.reachingModels closed,
    (Option.some_get _).symm, Module.reachingModels_eq built⟩

/-- A module has no graph exactly if a function has no id, which is reported first, or an entry point
does not name a function, the first of which is reported. Otherwise its graph tells what the module
does, stays within its functions, and is searched to the end. -/
theorem ofModule_exact (m : Module) :
    ((∃ fault, ofModule m = .error fault) ↔
      (∃ function ∈ m.functions, function.id? = none) ∨
        ∃ inst ∈ m.entryInstructions, ¬m.NamesFunction inst) ∧
    (∀ fault, ofModule m = .error fault ↔
      fault = .functionWithoutId ∧ (∃ function ∈ m.functions, function.id? = none) ∨
      (∀ function ∈ m.functions, function.id?.isSome) ∧
        ∃ before inst after, m.entryInstructions = before ++ inst :: after ∧
          (inst.start? = none ∧ fault = .malformedEntryPoint ∨
            ∃ model id, inst.start? = some (model, id) ∧
              (∀ function ∈ m.functions, function.id? ≠ some id) ∧
              fault = .entryPointNotFunction id) ∧
          ∀ earlier ∈ before, m.NamesFunction earlier) ∧
    (∀ graph, ofModule m = .ok graph ↔ m.Depicts graph) ∧
    ∀ graph, m.Depicts graph →
      (∀ entry ∈ graph.entryPoints, entry.1 < m.functions.length) ∧
      (∀ targets ∈ graph.callees, ∀ target ∈ targets, target < m.functions.length) ∧
      ∃ models, graph.reachingModels? = some models ∧ m.reachingModels = .ok models := by
  refine ⟨exists_ofModule_eq_error_iff, fun fault => ?_, fun graph => ofModule_eq_ok_iff_depicts,
    fun graph => stays_of_depicts⟩
  rw [ofModule_eq_error_iff, entryFault?_eq_some_iff]

end CallGraph

end Spirv
