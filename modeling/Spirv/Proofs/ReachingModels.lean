import Spirv.Proofs.Reachability
import Spirv.Validation

/-!
# The execution models that reach the functions of a module

Positions are turned back into ids at the end. Of several functions with one id only the last can be
reached, so an id never has two lists of models and none is overwritten (`get?_ofList_reached`).
-/
namespace Spirv

theorem Module.modelsReaching_ne_nil_iff {m : Module} {function : Ident} :
    m.modelsReaching function ≠ [] ↔ ∃ start ∈ m.starts, m.Reaches start.2 function := by
  rw [List.ne_nil_iff_exists_cons]
  constructor
  · intro nonempty
    obtain ⟨model, rest, listed⟩ := nonempty
    obtain ⟨id, member, reaches⟩ := mem_modelsReaching.mp (listed ▸ List.mem_cons_self)
    exact ⟨(model, id), member, reaches⟩
  · intro reached
    obtain ⟨⟨model, id⟩, member, reaches⟩ := reached
    exact List.exists_cons_of_ne_nil
      (List.ne_nil_of_mem (mem_modelsReaching.mpr ⟨id, member, reaches⟩))

namespace CallGraph

variable {m : Module} {graph : CallGraph} {marks : Marks}

theorem mem_reached_iff {function : Ident} {models : List ExecutionModel} :
    (function, models) ∈ graph.reached marks ↔ models ≠ [] ∧ ∃ position,
      graph.functions[position]? = some function ∧ position < graph.callees.length ∧
        modelsAt marks position = models := by
  have zipped (position : Nat) :
      (function, position) ∈ graph.functions.zip (List.range graph.callees.length) ↔
        graph.functions[position]? = some function ∧ position < graph.callees.length := by
    constructor
    · intro member
      obtain ⟨index, here⟩ := List.mem_iff_getElem?.mp member
      obtain ⟨named, counted⟩ := List.getElem?_zip_eq_some.mp here
      obtain ⟨bound, same⟩ := List.getElem?_eq_some_iff.mp counted
      obtain rfl : index = position := by simpa using same
      exact ⟨named, by simpa using bound⟩
    · intro found
      obtain ⟨named, bound⟩ := found
      exact List.mem_of_getElem? (List.getElem?_zip_eq_some.mpr ⟨named, List.getElem?_range bound⟩)
  simp only [reached, List.mem_filter, List.mem_map, Prod.exists, Prod.mk.injEq]
  constructor
  · intro member
    obtain ⟨⟨id, position, member, rfl, rfl⟩, nonempty⟩ := member
    obtain ⟨named, bound⟩ := (zipped position).mp member
    exact ⟨by simpa using nonempty, position, named, bound, rfl⟩
  · intro marked
    obtain ⟨nonempty, position, named, bound, rfl⟩ := marked
    exact ⟨⟨function, position, (zipped position).mpr ⟨named, bound⟩, rfl, rfl⟩,
      by simpa using nonempty⟩

theorem length_callees (built : ofModule m = .ok graph) :
    graph.callees.length = graph.functions.length := by
  obtain ⟨named, -, called⟩ := ofModule_eq_ok_iff.mp built
  rw [← called, List.length_map]
  simpa using congrArg List.length named

/-- Execution gets to the last function with an id only. -/
theorem position?_of_reached (built : ofModule m = .ok graph) {function : Ident} {position : Nat}
    (named : graph.functions[position]? = some function) {entry : Nat × ExecutionModel}
    (member : entry ∈ graph.entryPoints) (reaches : graph.Reaches entry.1 position) :
    graph.position? function = some position := by
  obtain ⟨start, -, begins⟩ := exists_start_of_mem built member
  obtain ⟨other, -, goal⟩ := (reaches_iff built begins).mp reaches
  have same : some function = some other := named.symm.trans (getElem?_of_lastPosition? goal)
  cases same
  exact goal

theorem isSome_function?_of_modelsReaching (built : ofModule m = .ok graph) {function : Ident}
    (nonempty : m.modelsReaching function ≠ []) : (m.function? function).isSome := by
  obtain ⟨start, member, reaches⟩ := Module.modelsReaching_ne_nil_iff.mp nonempty
  obtain ⟨-, clean⟩ := exists_ofModule_iff.mp ⟨graph, built⟩
  exact Module.isSome_function?_of_reaches (Module.isSome_function?_of_mem_starts clean member) reaches

/-- The pairs that are collected by id are right, whichever position they come from. -/
theorem reached_iff (built : ofModule m = .ok graph)
    (explored : graph.Explored graph.entryPoints marks) {function : Ident}
    {models : List ExecutionModel} :
    (function, models) ∈ graph.reached marks ↔
      models ≠ [] ∧ m.modelsReaching function = models := by
  rw [mem_reached_iff]
  refine and_congr_right fun nonempty => ?_
  constructor
  · intro marked
    obtain ⟨position, named, bound, rfl⟩ := marked
    rw [explored] at nonempty ⊢
    obtain ⟨model, carried⟩ := List.exists_mem_of_ne_nil _ nonempty
    obtain ⟨entry, member, reaches, -⟩ := mem_modelsReaching.mp carried
    have located := position?_of_reached built named member reaches
    exact (modelsReaching_eq built located).symm
  · rintro rfl
    have defined := isSome_function?_of_modelsReaching built nonempty
    rw [isSome_function?_eq built] at defined
    obtain ⟨position, located⟩ := Option.isSome_iff_exists.mp defined
    refine ⟨position, getElem?_of_lastPosition? located, ?_, ?_⟩
    · rw [length_callees built]
      exact lastPosition?_lt located
    · rw [explored, modelsReaching_eq built located]

/-- Collecting the pairs by id loses none of them. -/
theorem get?_ofList_reached (built : ofModule m = .ok graph)
    (explored : graph.Explored graph.entryPoints marks) (function : Ident) :
    (OrderedMap.ofList (graph.reached marks)).get? function =
      if m.modelsReaching function = [] then none else some (m.modelsReaching function) := by
  rw [OrderedMap.get?_ofList]
  cases found : (graph.reached marks).findRev? fun pair => pair.1 = function with
  | none =>
    rw [Option.map_none, if_pos]
    by_contra nonempty
    have member := (reached_iff built explored).mpr ⟨nonempty, rfl⟩
    simp only [List.findRev?_eq_find?_reverse, List.find?_eq_none, List.mem_reverse] at found
    simpa using found _ member
  | some pair =>
    rw [List.findRev?_eq_find?_reverse] at found
    have same := List.find?_some found
    have member := List.mem_reverse.mp (List.mem_of_find?_eq_some found)
    obtain ⟨id, models⟩ := pair
    obtain rfl : id = function := by simpa using same
    obtain ⟨nonempty, rfl⟩ := (reached_iff built explored).mp member
    rw [Option.map_some, if_neg nonempty]

/-- The search finds for each function the models of the entry points that reach it. -/
theorem get?_reachingModels (built : ofModule m = .ok graph) (function : Ident) :
    (graph.reachingModels (closed_of_ofModule built)).get? function =
      if m.modelsReaching function = [] then none else some (m.modelsReaching function) := by
  have found := Option.some_get (graph.isSome_reachingModels? (closed_of_ofModule built))
  obtain ⟨marks, searched, collected⟩ := Option.map_eq_some_iff.mp found.symm
  rw [reachingModels, ← collected, get?_ofList_reached built (explored_of_search? searched)]

end CallGraph

namespace Module

/-- The functions that have models are those that an entry point reaches. Their models are those of
the entry points that reach them, each once and in the order of the first such entry points. -/
theorem reachingModels_exact {m : Module} {graph : CallGraph}
    (built : CallGraph.ofModule m = .ok graph) (function : Ident) :
    (function ∈ (graph.reachingModels (CallGraph.closed_of_ofModule built)).keys ↔
      (m.function? function).isSome ∧ ∃ start ∈ m.starts, m.Reaches start.2 function) ∧
    (function ∈ (graph.reachingModels (CallGraph.closed_of_ofModule built)).keys → ∃ models,
      (graph.reachingModels (CallGraph.closed_of_ofModule built)).get? function = some models ∧
      (∀ model, model ∈ models ↔ ∃ id, (model, id) ∈ m.starts ∧ m.Reaches id function) ∧
      models.Pairwise fun a b => m.firstStart function a < m.firstStart function b) := by
  have listed := CallGraph.get?_reachingModels built function
  have isKey : function ∈ (graph.reachingModels (CallGraph.closed_of_ofModule built)).keys ↔
      m.modelsReaching function ≠ [] := by
    rw [OrderedMap.mem_keys_iff, listed]
    by_cases empty : m.modelsReaching function = [] <;> simp [empty]
  rw [isKey]
  constructor
  · rw [← modelsReaching_ne_nil_iff]
    exact ⟨fun nonempty => ⟨CallGraph.isSome_function?_of_modelsReaching built nonempty, nonempty⟩,
      And.right⟩
  · intro nonempty
    rw [if_neg nonempty] at listed
    exact ⟨_, listed, fun _ => mem_modelsReaching, m.pairwise_modelsReaching function⟩

def ofCalls (starts : List (ExecutionModel × Ident)) (calls : List (Ident × List Ident)) :
    Module where
  capabilities := []
  extensions := []
  extInstImports := []
  memoryModel := none
  entryPoints := starts.map fun start =>
    ⟨.entryPoint, none, none, [.executionModel start.1, .idRef start.2]⟩
  executionModes := []
  debugStringSource := []
  debugNames := []
  debugModuleProcessed := []
  annotations := []
  typesGlobalValues := []
  functions := calls.map fun function =>
    { definition := some ⟨.other "Function", none, some function.1, []⟩
      parameters := []
      blocks := [⟨none, function.2.map fun callee =>
        ⟨.functionCall, none, none, [.idRef callee]⟩⟩]
      ending := none }

/-- Functions 1 and 2 call each other; an earlier function 2 is out of reach and calls 4. -/
def mutualCalls : Module :=
  ofCalls [(.fragment, 1), (.glCompute, 2), (.fragment, 3)]
    [(2, [4]), (1, [2]), (2, [1, 3]), (3, []), (4, [])]

def mutualCallsGraph : CallGraph where
  functions := [2, 1, 2, 3, 4]
  entryPoints := [(1, .fragment), (2, .glCompute), (3, .fragment)]
  callees := [[4], [2], [1, 3], [], []]

theorem mutualCalls_reaches : mutualCalls.Reaches 2 3 ∧ mutualCalls.Reaches 1 3 := by
  have second : mutualCalls.Calls 1 2 :=
    ⟨⟨_, rfl, ⟨.functionCall, none, none, [.idRef 2]⟩, by decide, rfl, rfl⟩, rfl⟩
  have third : mutualCalls.Calls 2 3 :=
    ⟨⟨_, rfl, ⟨.functionCall, none, none, [.idRef 3]⟩, by decide, rfl, rfl⟩, rfl⟩
  exact ⟨.single third, .head second (.single third)⟩

theorem reachingModels_exact_mutualCalls :
    ∃ built : CallGraph.ofModule mutualCalls = .ok mutualCallsGraph, ∃ models,
      (mutualCallsGraph.reachingModels (CallGraph.closed_of_ofModule built)).get? 3 = some models ∧
        .glCompute ∈ models ∧ .fragment ∈ models := by
  have built : CallGraph.ofModule mutualCalls = .ok mutualCallsGraph := by rfl
  obtain ⟨isKey, listed⟩ := reachingModels_exact built 3
  obtain ⟨fromTwo, fromOne⟩ := mutualCalls_reaches
  have key := isKey.mpr ⟨by rfl, (.fragment, 1), by decide, fromOne⟩
  obtain ⟨models, found, members, -⟩ := listed key
  exact ⟨built, models, found, (members _).mpr ⟨2, by decide, fromTwo⟩,
    (members _).mpr ⟨1, by decide, fromOne⟩⟩

end Module

end Spirv
