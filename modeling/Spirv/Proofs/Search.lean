import Mathlib.Logic.Relation
import Spirv.CallGraph.Reaching

/-!
# The search of a call graph

Marks left by one search cut later searches with the same execution model short. Nothing is lost
by that, because the positions marked with a model are closed under calls once the search that
marked them is over (`Explored.pending`).
-/
namespace Spirv.CallGraph

variable {graph : CallGraph} {model : ExecutionModel} {marks after : Marks}

def Calls (graph : CallGraph) (caller callee : Nat) : Prop :=
  ∃ targets, graph.callees[caller]? = some targets ∧ callee ∈ targets

def Reaches (graph : CallGraph) : Nat → Nat → Prop := Relation.ReflTransGen graph.Calls

open Classical in
noncomputable def modelsReaching (graph : CallGraph) (entries : List (Nat × ExecutionModel))
    (position : Nat) : List ExecutionModel :=
  ((entries.filter fun entry => graph.Reaches entry.1 position).map Prod.snd).eraseDups

theorem calls_of_mem {caller callee : Nat} (bound : caller < graph.callees.length)
    (called : callee ∈ graph.callees[caller]) : graph.Calls caller callee :=
  ⟨_, List.getElem?_eq_getElem bound, called⟩

theorem mem_of_calls {caller callee : Nat} (bound : caller < graph.callees.length)
    (calls : graph.Calls caller callee) : callee ∈ graph.callees[caller] := by
  obtain ⟨targets, found, called⟩ := calls
  rw [List.getElem?_eq_getElem bound, Option.some.injEq] at found
  exact found ▸ called

theorem mem_modelsReaching {entries : List (Nat × ExecutionModel)} {position : Nat} :
    model ∈ graph.modelsReaching entries position ↔
      ∃ entry ∈ entries, graph.Reaches entry.1 position ∧ entry.2 = model := by
  simp [modelsReaching, List.mem_eraseDups, and_assoc]

theorem mem_modelsAt {position : Nat} : model ∈ modelsAt marks position ↔ (position, model) ∈ marks := by
  simp [modelsAt]

/-- What a search owes: a call from a marked position leads to a mark, or to a position that still
waits. -/
def Pending (graph : CallGraph) (model : ExecutionModel) (marks : Marks) (stack : List Nat) : Prop :=
  ∀ caller callee, (caller, model) ∈ marks → graph.Calls caller callee →
    (callee, model) ∈ marks ∨ callee ∈ stack

theorem Pending.skip {position : Nat} {rest : List Nat} (marked : (position, model) ∈ marks)
    (pending : graph.Pending model marks (position :: rest)) : graph.Pending model marks rest := by
  intro caller callee known calls
  rcases pending caller callee known calls with done | waiting
  · exact .inl done
  · rcases List.mem_cons.mp waiting with rfl | waiting
    · exact .inl marked
    · exact .inr waiting

theorem Pending.visit {position : Nat} {rest : List Nat} (bound : position < graph.callees.length)
    (pending : graph.Pending model marks (position :: rest)) :
    graph.Pending model (marks ++ [(position, model)]) (graph.callees[position] ++ rest) := by
  intro caller callee known calls
  rw [List.mem_append, List.mem_append]
  rcases List.mem_append.mp known with old | new
  · rcases pending caller callee old calls with done | waiting
    · exact .inl (.inl done)
    · rcases List.mem_cons.mp waiting with rfl | waiting
      · exact .inl (.inr List.mem_cons_self)
      · exact .inr (.inr waiting)
  · obtain ⟨rfl, -⟩ := Prod.mk.inj (List.mem_singleton.mp new)
    exact .inr (.inl (mem_of_calls bound calls))

/-- From a marked position on, only marks and what the stack leads to can be reached. -/
theorem Pending.marked_or_reached {stack : List Nat} {start position : Nat}
    (pending : graph.Pending model marks stack) (marked : (start, model) ∈ marks)
    (reaches : graph.Reaches start position) :
    (position, model) ∈ marks ∨ ∃ waiting ∈ stack, graph.Reaches waiting position := by
  induction reaches with
  | refl => exact .inl marked
  | tail _ calls step =>
    rcases step with known | ⟨waiting, member, reached⟩
    · rcases pending _ _ known calls with done | member
      · exact .inl done
      · exact .inr ⟨_, member, .refl⟩
    · exact .inr ⟨waiting, member, reached.tail calls⟩

/-- What a position and those after it lead to is the position and what it calls leads to. -/
theorem exists_reaches_cons_iff {position target : Nat} {rest : List Nat}
    (bound : position < graph.callees.length) :
    (∃ start ∈ position :: rest, graph.Reaches start target) ↔
      target = position ∨ ∃ start ∈ graph.callees[position] ++ rest, graph.Reaches start target := by
  simp only [List.mem_append, List.mem_cons]
  constructor
  · intro reached
    obtain ⟨start, here | waiting, reaches⟩ := reached
    · subst here
      rcases Relation.ReflTransGen.cases_head reaches with same | ⟨next, calls, reaches⟩
      · exact .inl same.symm
      · exact .inr ⟨next, .inl (mem_of_calls bound calls), reaches⟩
    · exact .inr ⟨start, .inr waiting, reaches⟩
  · intro reached
    rcases reached with same | ⟨start, called | waiting, reaches⟩
    · exact ⟨position, .inl rfl, same ▸ .refl⟩
    · exact ⟨position, .inl rfl, .head (calls_of_mem bound called) reaches⟩
    · exact ⟨start, .inr waiting, reaches⟩

/-- A search adds the mark of its model, once, to what the stack leads to and lacks it. -/
theorem exists_added_of_mark? {stack : List Nat} (pending : graph.Pending model marks stack)
    (searched : graph.mark? model marks stack = some after) :
    ∃ added : List Nat, after = marks ++ added.map (·, model) ∧ added.Nodup ∧
      ∀ position, position ∈ added ↔
        (position, model) ∉ marks ∧ ∃ start ∈ stack, graph.Reaches start position := by
  fun_induction mark? graph model marks stack with
  | case1 marks =>
    cases searched
    exact ⟨[], by simp, .nil, by simp⟩
  | case2 marks position rest bound marked step =>
    have owed := pending.skip marked
    obtain ⟨added, laid, distinct, covers⟩ := step owed searched
    refine ⟨added, laid, distinct, fun other => ?_⟩
    rw [covers other]
    apply and_congr_right
    intro unmarked
    constructor
    · intro reached
      obtain ⟨start, member, reaches⟩ := reached
      exact ⟨start, List.mem_cons_of_mem _ member, reaches⟩
    · intro reached
      obtain ⟨start, member, reaches⟩ := reached
      rcases List.mem_cons.mp member with rfl | member
      · exact (owed.marked_or_reached marked reaches).resolve_left unmarked
      · exact ⟨start, member, reaches⟩
  | case3 marks position rest bound fresh step =>
    obtain ⟨added, laid, distinct, covers⟩ := step (pending.visit bound) searched
    have notAgain : position ∉ added := by simp [covers]
    have distinct := List.nodup_cons.mpr ⟨notAgain, distinct⟩
    refine ⟨position :: added, by simp [laid], distinct, fun other => ?_⟩
    rw [List.mem_cons, covers other, exists_reaches_cons_iff bound]
    by_cases same : other = position
    · simp [same, fresh]
    · simp [same]
  | case4 => cases searched

/-- The marks are those of complete searches from `entries`, in order. -/
def Explored (graph : CallGraph) (entries : List (Nat × ExecutionModel)) (marks : Marks) : Prop :=
  ∀ position, modelsAt marks position = graph.modelsReaching entries position

theorem Explored.mem_iff {entries : List (Nat × ExecutionModel)}
    (explored : graph.Explored entries marks) {position : Nat} : (position, model) ∈ marks ↔
      ∃ entry ∈ entries, graph.Reaches entry.1 position ∧ entry.2 = model := by
  rw [← mem_modelsAt, explored, mem_modelsReaching]

/-- A finished search owes nothing. -/
theorem Explored.pending {entries : List (Nat × ExecutionModel)}
    (explored : graph.Explored entries marks) (model : ExecutionModel) :
    graph.Pending model marks [] := by
  intro caller callee known calls
  obtain ⟨entry, member, reaches, carries⟩ := explored.mem_iff.mp known
  exact .inl (explored.mem_iff.mpr ⟨entry, member, reaches.tail calls, carries⟩)

theorem Pending.weaken {stack : List Nat} (pending : graph.Pending model marks []) :
    graph.Pending model marks stack := by
  intro caller callee known calls
  exact .inl ((pending caller callee known calls).resolve_right List.not_mem_nil)

theorem modelsAt_append (added : List Nat) (distinct : added.Nodup) (position : Nat) :
    modelsAt (marks ++ added.map (·, model)) position =
      modelsAt marks position ++ if position ∈ added then [model] else [] := by
  have once : (added.map (·, model)).filter (fun mark => mark.1 = position) =
      if position ∈ added then [(position, model)] else [] := by
    induction added with
    | nil => rfl
    | cons first rest step =>
      obtain ⟨new, distinct⟩ := List.nodup_cons.mp distinct
      rw [List.map_cons, List.filter_cons, step distinct]
      by_cases same : first = position
      · subst same
        simp [new]
      · simp [same, Ne.symm same]
  rw [modelsAt, List.filter_append, List.map_append, once]
  by_cases member : position ∈ added <;> simp [member, modelsAt]

theorem eraseDups_concat [DecidableEq α] (list : List α) (last : α) :
    (list ++ [last]).eraseDups = list.eraseDups ++ if last ∈ list.eraseDups then [] else [last] := by
  rw [List.eraseDups_append]
  by_cases old : last ∈ list <;> simp [List.removeAll, List.mem_eraseDups, List.eraseDups_cons, old]

open Classical in
theorem modelsReaching_concat (entries : List (Nat × ExecutionModel)) (entry : Nat × ExecutionModel)
    (position : Nat) :
    graph.modelsReaching (entries ++ [entry]) position = graph.modelsReaching entries position ++
      if graph.Reaches entry.1 position then
        if entry.2 ∈ graph.modelsReaching entries position then [] else [entry.2]
      else [] := by
  unfold modelsReaching
  rw [List.filter_append, List.map_append]
  by_cases reaches : graph.Reaches entry.1 position
  · rw [List.filter_cons_of_pos (by simpa using reaches), if_pos reaches]
    exact eraseDups_concat _ entry.2
  · simp [reaches]

/-- One more entry point. -/
theorem Explored.step {entries : List (Nat × ExecutionModel)} {entry : Nat × ExecutionModel}
    (explored : graph.Explored entries marks)
    (searched : graph.mark? entry.2 marks [entry.1] = some after) :
    graph.Explored (entries ++ [entry]) after := by
  intro position
  obtain ⟨added, rfl, distinct, covers⟩ :=
    exists_added_of_mark? (explored.pending entry.2).weaken searched
  have isNew : position ∈ added ↔ entry.2 ∉ graph.modelsReaching entries position ∧
      graph.Reaches entry.1 position := by
    rw [covers, ← explored position, mem_modelsAt]
    simp
  rw [modelsAt_append added distinct, modelsReaching_concat, explored position]
  by_cases reaches : graph.Reaches entry.1 position
  · by_cases old : entry.2 ∈ graph.modelsReaching entries position <;> simp [isNew, reaches, old]
  · simp [isNew, reaches]

theorem explored_of_foldlM {done rest : List (Nat × ExecutionModel)}
    (explored : graph.Explored done marks)
    (searched : rest.foldlM (fun marks entry => graph.mark? entry.2 marks [entry.1]) marks =
      some after) : graph.Explored (done ++ rest) after := by
  induction rest generalizing done marks with
  | nil =>
    cases searched
    simpa using explored
  | cons entry rest step =>
    rw [List.foldlM_cons] at searched
    obtain ⟨next, marked, searched⟩ := Option.bind_eq_some_iff.mp searched
    simpa using step (explored.step marked) searched

/-- Sharing marks between searches loses no execution model and keeps their order. -/
theorem explored_of_search? (searched : graph.search? = some marks) :
    graph.Explored graph.entryPoints marks := by
  have start : graph.Explored [] [] := fun _ => rfl
  simpa using explored_of_foldlM start searched

end Spirv.CallGraph
