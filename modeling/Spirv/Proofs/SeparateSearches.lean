import Spirv.Proofs.SearchRuns

/-!
# Searches on their own

Each entry point is searched from on its own, and what the searches find is put together. Where
execution stays within the graph this is the table that the pruned search makes, and it does not
depend on the order of calls (`reachingModels?_eq`).
-/
namespace Spirv.CallGraph

variable {graph : CallGraph}

/-- Goes through the positions that have an id and callees, and gives the id the execution models of
its position, if there are any. -/
def tabulate (graph : CallGraph) (models : Nat → List ExecutionModel) :
    OrderedMap Ident (List ExecutionModel) :=
  (List.range (min graph.functions.length graph.callees.length)).foldl (fun map position =>
    match graph.functions[position]?, models position with
    | some id, first :: others => map.insert id (first :: others)
    | _, _ => map) ∅

def startingAt (graph : CallGraph) (entry : Nat × ExecutionModel) : CallGraph :=
  { graph with entryPoints := [entry] }

/-- The marks of a search from each entry point, none of which knows of the others. -/
def separateMarks? (graph : CallGraph) : Option Marks :=
  (graph.entryPoints.mapM fun entry => (graph.startingAt entry).search?).map List.flatten

def separateModels? (graph : CallGraph) : Option (OrderedMap Ident (List ExecutionModel)) :=
  graph.separateMarks?.map fun marks => graph.tabulate fun position =>
    (modelsAt marks position).eraseDups

/-! ## The table -/

def row? (graph : CallGraph) (models : Nat → List ExecutionModel) (position : Nat) :
    Option (Ident × List ExecutionModel) :=
  (graph.functions[position]?.map fun id => (id, models position)).filter fun row => !row.2.isEmpty

theorem tabulate_eq_ofList (models : Nat → List ExecutionModel) : graph.tabulate models =
    .ofList ((List.range (min graph.functions.length graph.callees.length)).filterMap
      (graph.row? models)) := by
  rw [tabulate, OrderedMap.ofList, List.foldl_filterMap]
  congr 1
  funext map position
  unfold row?
  cases graph.functions[position]? with
  | none => rfl
  | some id => cases models position <;> rfl

theorem zip_range_eq_map (ids : List Ident) (bound : Nat) :
    ids.zip (List.range bound) =
      (List.range (min ids.length bound)).map fun position => (ids[position]?.getD 0, position) := by
  refine List.ext_getElem (by simp) fun position inZip _ => ?_
  have inIds : position < ids.length := by
    rw [List.length_zip] at inZip
    omega
  simp [inIds]

theorem reached_eq_filterMap (marks : Marks) : graph.reached marks =
    (List.range (min graph.functions.length graph.callees.length)).filterMap
      (graph.row? (modelsAt marks)) := by
  rw [reached, zip_range_eq_map, List.map_map, ← List.filterMap_eq_filter, List.filterMap_map]
  refine List.filterMap_congr fun position member => ?_
  have named : position < graph.functions.length := by
    rw [List.mem_range] at member
    omega
  simp [row?, named, Option.guard, Option.filter]

theorem ofList_reached (marks : Marks) :
    .ofList (graph.reached marks) = graph.tabulate (modelsAt marks) := by
  rw [tabulate_eq_ofList, reached_eq_filterMap]

/-! ## Separate searches -/

theorem modelsAt_append_marks (before after : Marks) (position : Nat) :
    modelsAt (before ++ after) position = modelsAt before position ++ modelsAt after position := by
  simp [modelsAt]

theorem Confined.startingAt (confined : graph.Confined) {entry : Nat × ExecutionModel}
    (member : entry ∈ graph.entryPoints) : (graph.startingAt entry).Confined := by
  intro other begins position reaches
  obtain rfl := List.mem_singleton.mp begins
  exact confined other member position reaches

open Classical in
/-- A search from one entry point marks what the entry point leads to. -/
theorem modelsAt_startingAt {entry : Nat × ExecutionModel} {marks : Marks}
    (searched : (graph.startingAt entry).search? = some marks) (position : Nat) :
    modelsAt marks position = if graph.Reaches entry.1 position then [entry.2] else [] := by
  have found : modelsAt marks position = graph.modelsReaching ([] ++ [entry]) position :=
    explored_of_search? searched position
  rw [found, modelsReaching_concat]
  simp [modelsReaching]

open Classical in
/-- The searches on their own find, for each position, the entry points that reach it in order. -/
theorem exists_separate_marks {entries : List (Nat × ExecutionModel)}
    (confined : ∀ entry ∈ entries, (graph.startingAt entry).Confined) :
    ∃ searches, entries.mapM (fun entry => (graph.startingAt entry).search?) = some searches ∧
      ∀ position, modelsAt searches.flatten position =
        (entries.filter fun entry => graph.Reaches entry.1 position).map Prod.snd := by
  induction entries with
  | nil => exact ⟨[], rfl, fun position => rfl⟩
  | cons entry rest step =>
    obtain ⟨here, there⟩ := List.forall_mem_cons.mp confined
    obtain ⟨marks, searched⟩ := Option.isSome_iff_exists.mp (isSome_search?_iff.mpr here)
    obtain ⟨searches, others, found⟩ := step there
    refine ⟨marks :: searches, by simp [List.mapM_cons, searched, others], fun position => ?_⟩
    rw [List.flatten_cons, modelsAt_append_marks, found, modelsAt_startingAt searched]
    by_cases reaches : graph.Reaches entry.1 position <;> simp [reaches]

theorem separateModels?_eq (confined : graph.Confined) : graph.separateModels? =
    some (graph.tabulate (graph.modelsReaching graph.entryPoints)) := by
  obtain ⟨searches, searched, found⟩ :=
    exists_separate_marks fun entry member => confined.startingAt member
  rw [separateModels?, separateMarks?, searched, Option.map_some, Option.map_some]
  simp only [found]
  rfl

/-! ## The order of calls -/

/-- Which positions are called decides what is reached. -/
theorem reaches_eq_of_sameCallees {other : CallGraph}
    (same : List.Forall₂ (fun a b => ∀ target, target ∈ a ↔ target ∈ b) other.callees graph.callees) :
    other.Reaches = graph.Reaches := by
  obtain ⟨sameLength, sameTargets⟩ := List.forall₂_iff_get.mp same
  have calls : other.Calls = graph.Calls := by
    funext caller callee
    apply propext
    by_cases bound : caller < graph.callees.length
    · have here := sameTargets caller (sameLength ▸ bound) bound callee
      simpa [Calls, bound, sameLength ▸ bound] using here
    · simp [Calls, bound, sameLength ▸ bound]
  exact congrArg Relation.ReflTransGen calls

theorem reachingModels?_eq_tabulate (confined : graph.Confined) :
    graph.reachingModels? = some (graph.tabulate (graph.modelsReaching graph.entryPoints)) := by
  obtain ⟨marks, searched⟩ := Option.isSome_iff_exists.mp (isSome_search?_iff.mpr confined)
  have found : modelsAt marks = graph.modelsReaching graph.entryPoints :=
    funext (explored_of_search? searched)
  rw [reachingModels?, searched, Option.map_some, ofList_reached, found]

theorem reachingModels?_congr {other : CallGraph} (confined : graph.Confined)
    (sameFunctions : other.functions = graph.functions)
    (sameEntries : other.entryPoints = graph.entryPoints)
    (sameCallees : List.Forall₂ (fun a b => ∀ target, target ∈ a ↔ target ∈ b)
      other.callees graph.callees) : other.reachingModels? = graph.reachingModels? := by
  have reaches := reaches_eq_of_sameCallees sameCallees
  have sameLength := sameCallees.length_eq
  have alsoConfined : other.Confined := by
    unfold Confined
    rw [sameEntries, sameLength, reaches]
    exact confined
  have models : other.modelsReaching graph.entryPoints = graph.modelsReaching graph.entryPoints := by
    funext position
    rw [modelsReaching, modelsReaching, reaches]
  rw [reachingModels?_eq_tabulate confined, reachingModels?_eq_tabulate alsoConfined, sameEntries,
    models, tabulate, tabulate, sameFunctions, sameLength]

/-- Where execution stays within the graph, the search finds the table of the execution models that
reach each position. So do searches from each entry point on its own, and the order in which a position
lists its calls does not matter. -/
theorem reachingModels?_eq (confined : graph.Confined) :
    graph.reachingModels? = some (graph.tabulate (graph.modelsReaching graph.entryPoints)) ∧
    graph.reachingModels? = graph.separateModels? ∧
    ∀ other : CallGraph, other.functions = graph.functions →
      other.entryPoints = graph.entryPoints →
      List.Forall₂ (fun a b => ∀ target, target ∈ a ↔ target ∈ b) other.callees graph.callees →
      other.reachingModels? = graph.reachingModels? :=
  ⟨reachingModels?_eq_tabulate confined,
    (reachingModels?_eq_tabulate confined).trans (separateModels?_eq confined).symm,
    fun _ => reachingModels?_congr confined⟩

/-- Positions 0 and 1 call each other and themselves, 0 and 2 have the same id, and 3, which has none,
calls outside the graph. -/
def unevenGraph : CallGraph where
  functions := [5, 7, 5]
  entryPoints := [(1, .fragment), (2, .vertex), (0, .glCompute), (0, .fragment)]
  callees := [[1, 0], [0, 1], [], [9]]

theorem reachingModels?_eq_unevenGraph :
    unevenGraph.Confined ∧
      unevenGraph.reachingModels? =
        some (unevenGraph.tabulate (unevenGraph.modelsReaching unevenGraph.entryPoints)) ∧
      unevenGraph.reachingModels? = unevenGraph.separateModels? ∧
      { unevenGraph with callees := [[0, 1], [1, 0], [], [9]] }.reachingModels? =
        unevenGraph.reachingModels? ∧
      unevenGraph.reachingModels?.map OrderedMap.entries =
        some [(5, [.vertex]), (7, [.fragment, .glCompute])] := by
  have searched : unevenGraph.search? = some
      [(1, .fragment), (0, .fragment), (2, .vertex), (0, .glCompute), (1, .glCompute)] := by
    simp [search?, unevenGraph, mark?]
  have confined : unevenGraph.Confined := isSome_search?_iff.mp (by rw [searched]; rfl)
  obtain ⟨table, separate, reordered⟩ := reachingModels?_eq confined
  have swapped (a b target : Nat) : target ∈ [a, b] ↔ target ∈ [b, a] := by simp [or_comm]
  have same : List.Forall₂ (fun a b => ∀ target, target ∈ a ↔ target ∈ b)
      [[0, 1], [1, 0], [], [9]] unevenGraph.callees :=
    .cons (swapped 0 1) (.cons (swapped 1 0) (.cons (fun _ => .rfl) (.cons (fun _ => .rfl) .nil)))
  refine ⟨confined, table, separate, reordered _ rfl rfl same, ?_⟩
  rw [reachingModels?, searched]
  decide

end Spirv.CallGraph
