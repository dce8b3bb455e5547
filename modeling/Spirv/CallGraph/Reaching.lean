import Spirv.CallGraph
import Spirv.OrderedMap

/-!
# Execution models that reach a function

From each entry point the graph is searched, and what is found is marked with the execution model.
A position that has the mark already is not searched again. The search gives up at a position
outside the graph, which a closed graph does not have (`isSome_reachingModels?`).
-/

namespace Spirv

namespace CallGraph

/-- Positions with the execution models that they have been marked with, in the order of
marking. -/
abbrev Marks := List (Nat × ExecutionModel)

def unmarked (graph : CallGraph) (model : ExecutionModel) (marks : Marks) : List Nat :=
  (List.range graph.callees.length).filter fun position => (position, model) ∉ marks

theorem unmarked_lt (graph : CallGraph) {model : ExecutionModel} {marks : Marks} {position : Nat}
    (bound : position < graph.callees.length) (fresh : (position, model) ∉ marks) :
    (graph.unmarked model (marks ++ [(position, model)])).length <
      (graph.unmarked model marks).length := by
  have smaller : graph.unmarked model (marks ++ [(position, model)]) =
      (graph.unmarked model marks).filter fun other => other ≠ position := by
    simp [unmarked, List.filter_filter, and_comm]
  rw [smaller, List.length_filter_lt_length_iff_exists]
  exact ⟨position, by simp [unmarked, bound, fresh], by simp⟩

/-- Marks with `model` the positions on the stack and all that they lead to. -/
def mark? (graph : CallGraph) (model : ExecutionModel) (marks : Marks) :
    List Nat → Option Marks
  | [] => some marks
  | position :: rest =>
    if bound : position < graph.callees.length then
      if (position, model) ∈ marks then graph.mark? model marks rest
      else graph.mark? model (marks ++ [(position, model)]) (graph.callees[position] ++ rest)
    else none
termination_by stack => ((graph.unmarked model marks).length, stack.length)
decreasing_by
  · exact Prod.Lex.right _ (by simp)
  next fresh => exact Prod.Lex.left _ _ (graph.unmarked_lt bound fresh)

def search? (graph : CallGraph) : Option Marks :=
  graph.entryPoints.foldlM (fun marks entry => graph.mark? entry.2 marks [entry.1]) []

def modelsAt (marks : Marks) (position : Nat) : List ExecutionModel :=
  (marks.filter fun mark => mark.1 = position).map Prod.snd

def reached (graph : CallGraph) (marks : Marks) : List (Ident × List ExecutionModel) :=
  ((graph.functions.zip (List.range graph.callees.length)).map fun function =>
    (function.1, modelsAt marks function.2)).filter fun function => !function.2.isEmpty

/-- The execution models that reach each function, in the order of the entry points, for the
functions that any reaches. -/
def reachingModels? (graph : CallGraph) : Option (OrderedMap Ident (List ExecutionModel)) :=
  graph.search?.map fun marks => .ofList (graph.reached marks)

theorem isSome_mark? (graph : CallGraph) (closed : graph.Closed) (model : ExecutionModel)
    (marks : Marks) (stack : List Nat)
    (bounds : ∀ position ∈ stack, position < graph.callees.length) :
    (graph.mark? model marks stack).isSome := by
  fun_induction mark? graph model marks stack with
  | case1 => rfl
  | case2 marks position rest bound marked step =>
    exact step fun other member => bounds other (List.mem_cons_of_mem _ member)
  | case3 marks position rest bound fresh step =>
    refine step fun other member => ?_
    rcases List.mem_append.mp member with called | waiting
    · exact closed.callees _ (List.getElem_mem bound) other called
    · exact bounds other (List.mem_cons_of_mem _ waiting)
  | case4 marks position rest outside =>
    exact absurd (bounds position List.mem_cons_self) outside

theorem isSome_reachingModels? (graph : CallGraph) (closed : graph.Closed) :
    graph.reachingModels?.isSome := by
  suffices searched : ∀ (entries : List (Nat × ExecutionModel)) (marks : Marks),
      (∀ entry ∈ entries, entry.1 < graph.callees.length) →
      (entries.foldlM (fun marks entry => graph.mark? entry.2 marks [entry.1]) marks).isSome by
    simpa [reachingModels?, search?] using searched graph.entryPoints [] closed.entryPoints
  intro entries
  induction entries with
  | nil => intros; rfl
  | cons entry rest step =>
    intro marks bounds
    obtain ⟨here, there⟩ := List.forall_mem_cons.mp bounds
    obtain ⟨next, marked⟩ := Option.isSome_iff_exists.mp
      (graph.isSome_mark? closed entry.2 marks [entry.1] (by simpa using here))
    simpa [List.foldlM_cons, marked] using step next there

/-- In a closed graph no search gives up. -/
def reachingModels (graph : CallGraph) (closed : graph.Closed) :
    OrderedMap Ident (List ExecutionModel) :=
  graph.reachingModels?.get (graph.isSome_reachingModels? closed)

end CallGraph

end Spirv
