import Mathlib.Algebra.GroupWithZero.Nat
import Mathlib.Algebra.Order.BigOperators.Group.List
import Mathlib.Algebra.Order.Group.Nat
import Mathlib.Data.List.ProdSigma
import Spirv.Proofs.Search

/-!
# Runs of the search

A step may take any of the positions that wait, so the search proper is one run of many. What every
moment of a run keeps is `Consistent`, and the `potential` bounds the length of a run. All runs of a
graph end alike, with nothing left to do or outside the graph (`search_runs`).
-/
namespace Spirv.CallGraph

variable {graph : CallGraph}

/-- A moment of the search: the entry points that it has not come to, the marks that it has made, and
the positions that wait to be marked, each with the execution model to mark it with. -/
structure Moment where
  entries : List (Nat × ExecutionModel)
  marks : Marks
  waiting : List (Nat × ExecutionModel)

/-- The next entry point is come to when nothing waits. Of what waits any may be taken; it is passed
over if it has its mark, and otherwise marked, and what it calls waits from then on. -/
inductive Step (graph : CallGraph) : Moment → Moment → Prop where
  | enter (entry : Nat × ExecutionModel) (entries : List (Nat × ExecutionModel)) (marks : Marks) :
      Step graph ⟨entry :: entries, marks, []⟩ ⟨entries, marks, [entry]⟩
  | skip {entries : List (Nat × ExecutionModel)} {marks : Marks} {mark : Nat × ExecutionModel}
      (before after : List (Nat × ExecutionModel)) (bound : mark.1 < graph.callees.length)
      (known : mark ∈ marks) :
      Step graph ⟨entries, marks, before ++ mark :: after⟩ ⟨entries, marks, before ++ after⟩
  | visit {entries : List (Nat × ExecutionModel)} {marks : Marks} {mark : Nat × ExecutionModel}
      (before after : List (Nat × ExecutionModel)) (bound : mark.1 < graph.callees.length)
      (fresh : mark ∉ marks) :
      Step graph ⟨entries, marks, before ++ mark :: after⟩
        ⟨entries, marks ++ [mark], graph.callees[mark.1].map (·, mark.2) ++ (before ++ after)⟩

inductive Runs (graph : CallGraph) : Nat → Moment → Prop where
  | start : Runs graph 0 ⟨graph.entryPoints, [], []⟩
  | step {count : Nat} {moment next : Moment} (runs : Runs graph count moment)
      (step : Step graph moment next) : Runs graph (count + 1) next

def Moment.Finished (moment : Moment) : Prop := moment.entries = [] ∧ moment.waiting = []

/-- Something waits that is outside the graph. No step takes it, and the search gives up. -/
def Strays (graph : CallGraph) (moment : Moment) : Prop :=
  ∃ mark ∈ moment.waiting, graph.callees.length ≤ mark.1

def Confined (graph : CallGraph) : Prop :=
  ∀ entry ∈ graph.entryPoints, ∀ position, graph.Reaches entry.1 position →
    position < graph.callees.length

/-- A search can go on unless it is over. -/
theorem finished_or_strays_or_step (graph : CallGraph) (moment : Moment) :
    moment.Finished ∨ graph.Strays moment ∨ ∃ next, graph.Step moment next := by
  obtain ⟨entries, marks, waiting⟩ := moment
  cases waiting with
  | nil =>
    cases entries with
    | nil => exact .inl ⟨rfl, rfl⟩
    | cons entry rest => exact .inr (.inr ⟨_, .enter entry rest marks⟩)
  | cons mark rest =>
    by_cases bound : mark.1 < graph.callees.length
    · by_cases known : mark ∈ marks
      · exact .inr (.inr ⟨_, .skip [] rest bound known⟩)
      · exact .inr (.inr ⟨_, .visit [] rest bound known⟩)
    · exact .inr (.inl ⟨mark, List.mem_cons_self, Nat.not_lt.mp bound⟩)

/-! ## What a run keeps -/

def Moment.Holds (moment : Moment) (mark : Nat × ExecutionModel) : Prop :=
  mark ∈ moment.marks ∨ mark ∈ moment.waiting

theorem mem_middle_iff {before after : List α} {middle member : α} :
    member ∈ before ++ middle :: after ↔ member = middle ∨ member ∈ before ++ after := by
  simp only [List.mem_append, List.mem_cons]
  exact or_left_comm

/-- What is taken has its mark afterwards, and nothing else is taken away. -/
theorem Step.holds {moment next : Moment} (step : graph.Step moment next)
    {mark : Nat × ExecutionModel} (held : moment.Holds mark) : next.Holds mark := by
  cases step with
  | enter entry entries marks => exact held.imp_right nofun
  | skip before after bound known =>
    rcases held with marked | waits
    · exact .inl marked
    · rcases mem_middle_iff.mp waits with rfl | waits
      · exact .inl known
      · exact .inr waits
  | visit before after bound fresh =>
    rcases held with marked | waits
    · exact .inl (List.mem_append_left _ marked)
    · rcases mem_middle_iff.mp waits with rfl | waits
      · exact .inl List.mem_concat_self
      · exact .inr (List.mem_append_right _ waits)

/-- Whatever waits is reached from an entry point, and nothing that is reached is forgotten. -/
structure Consistent (graph : CallGraph) (moment : Moment) : Prop where
  entries : ∀ entry ∈ moment.entries, entry ∈ graph.entryPoints
  marks : ∀ mark ∈ moment.marks, mark.1 < graph.callees.length
  waiting : ∀ mark ∈ moment.waiting, ∃ entry ∈ graph.entryPoints,
    graph.Reaches entry.1 mark.1 ∧ entry.2 = mark.2
  started : ∀ entry ∈ graph.entryPoints, entry ∈ moment.entries ∨ moment.Holds entry
  called : ∀ mark ∈ moment.marks, ∀ callee, graph.Calls mark.1 callee →
    moment.Holds (callee, mark.2)

theorem consistent_start (graph : CallGraph) : graph.Consistent ⟨graph.entryPoints, [], []⟩ where
  entries _ member := member
  marks := nofun
  waiting := nofun
  started _ member := .inl member
  called := nofun

theorem Consistent.step {moment next : Moment} (consistent : graph.Consistent moment)
    (step : graph.Step moment next) : graph.Consistent next := by
  have kept (mark : Nat × ExecutionModel) (held : moment.Holds mark) : next.Holds mark :=
    step.holds held
  cases step with
  | enter entry entries marks =>
    refine ⟨?_, consistent.marks, ?_, ?_, ?_⟩
    · exact fun other member => consistent.entries other (List.mem_cons_of_mem entry member)
    · intro mark member
      obtain rfl := List.mem_singleton.mp member
      exact ⟨mark, consistent.entries mark List.mem_cons_self, .refl, rfl⟩
    · intro other member
      rcases consistent.started other member with later | held
      · rcases List.mem_cons.mp later with rfl | later
        · exact .inr (.inr List.mem_cons_self)
        · exact .inl later
      · exact .inr (kept other held)
    · exact fun mark member callee calls => kept _ (consistent.called mark member callee calls)
  | skip before after bound known =>
    refine ⟨consistent.entries, consistent.marks, ?_, ?_, ?_⟩
    · exact fun mark member => consistent.waiting mark (mem_middle_iff.mpr (.inr member))
    · exact fun entry member => (consistent.started entry member).imp_right (kept entry)
    · exact fun mark member callee calls => kept _ (consistent.called mark member callee calls)
  | @visit entries marks taken before after bound fresh =>
    obtain ⟨start, begins, reaches, carries⟩ :=
      consistent.waiting taken (mem_middle_iff.mpr (.inl rfl))
    refine ⟨consistent.entries, ?_, ?_, ?_, ?_⟩
    · intro mark member
      rcases List.mem_append.mp member with old | new
      · exact consistent.marks mark old
      · obtain rfl := List.mem_singleton.mp new
        exact bound
    · intro mark member
      rcases List.mem_append.mp member with called | waits
      · obtain ⟨callee, listed, rfl⟩ := List.mem_map.mp called
        exact ⟨start, begins, reaches.tail (calls_of_mem bound listed), carries⟩
      · exact consistent.waiting mark (mem_middle_iff.mpr (.inr waits))
    · exact fun entry member => (consistent.started entry member).imp_right (kept entry)
    · intro mark member callee calls
      rcases List.mem_append.mp member with old | new
      · exact kept _ (consistent.called mark old callee calls)
      · obtain rfl := List.mem_singleton.mp new
        exact .inr (List.mem_append_left _ (List.mem_map_of_mem (mem_of_calls bound calls)))

theorem Runs.consistent {count : Nat} {moment : Moment} (runs : graph.Runs count moment) :
    graph.Consistent moment := by
  induction runs with
  | start => exact consistent_start graph
  | step _ step ih => exact ih.step step

/-- When a search has finished, it has marked all that can be reached, and found it in the graph. -/
theorem Consistent.confined {moment : Moment} (consistent : graph.Consistent moment)
    (finished : moment.Finished) : graph.Confined := by
  obtain ⟨noEntries, noneWaits⟩ := finished
  have marked (mark : Nat × ExecutionModel) (held : moment.Holds mark) : mark ∈ moment.marks :=
    held.resolve_right (by simp [noneWaits])
  intro entry begins position reaches
  suffices reached : (position, entry.2) ∈ moment.marks from consistent.marks _ reached
  induction reaches with
  | refl => exact marked entry ((consistent.started entry begins).resolve_left (by simp [noEntries]))
  | tail _ calls step => exact marked _ (consistent.called _ step _ calls)

theorem Consistent.not_confined {moment : Moment} (consistent : graph.Consistent moment)
    (strays : graph.Strays moment) : ¬graph.Confined := by
  obtain ⟨mark, waits, outside⟩ := strays
  obtain ⟨entry, begins, reaches, -⟩ := consistent.waiting mark waits
  exact fun confined => absurd (confined entry begins mark.1 reaches) (Nat.not_lt.mpr outside)

/-! ## The length of a run -/

def callCount (graph : CallGraph) (position : Nat) : Nat := (graph.callees[position]?.getD []).length

def models (graph : CallGraph) : List ExecutionModel := (graph.entryPoints.map Prod.snd).eraseDups

def possibleMarks (graph : CallGraph) : Marks := (List.range graph.callees.length) ×ˢ graph.models

/-- What a mark may still cost: nothing once it is made. -/
def cost (graph : CallGraph) (marks : Marks) (mark : Nat × ExecutionModel) : Nat :=
  if marks.contains mark then 0 else graph.callCount mark.1

/-- How many steps may follow. An entry point takes one step to come to and one to take; each call
is made at most once for each execution model, and then waits for one step. -/
def potential (graph : CallGraph) (moment : Moment) : Nat :=
  2 * moment.entries.length + moment.waiting.length +
    (graph.possibleMarks.map (graph.cost moment.marks)).sum

/-- A sum of terms that do not grow is smaller by what one of them loses. -/
theorem sum_map_add_le {f g : α → Nat} {list : List α} {member : α} {loss : Nat}
    (listed : member ∈ list) (smaller : ∀ other, f other ≤ g other)
    (loses : f member + loss ≤ g member) : (list.map f).sum + loss ≤ (list.map g).sum := by
  induction list with
  | nil => cases listed
  | cons first rest step =>
    simp only [List.map_cons, List.sum_cons]
    rcases List.mem_cons.mp listed with rfl | later
    · have others : (rest.map f).sum ≤ (rest.map g).sum :=
        List.sum_le_sum fun other _ => smaller other
      omega
    · have others := step later
      have here := smaller first
      omega

theorem mem_possibleMarks_iff {mark : Nat × ExecutionModel} : mark ∈ graph.possibleMarks ↔
    mark.1 < graph.callees.length ∧ ∃ entry ∈ graph.entryPoints, entry.2 = mark.2 := by
  obtain ⟨position, model⟩ := mark
  simp [possibleMarks, models, List.mem_product, List.mem_eraseDups]

/-- Marking what was taken pays for the calls that wait from then on. -/
theorem sum_cost_visit {marks : Marks} {taken : Nat × ExecutionModel}
    (possible : taken ∈ graph.possibleMarks) (fresh : taken ∉ marks) :
    (graph.possibleMarks.map (graph.cost (marks ++ [taken]))).sum + graph.callCount taken.1 ≤
      (graph.possibleMarks.map (graph.cost marks)).sum := by
  refine sum_map_add_le possible (fun mark => ?_) ?_
  · by_cases known : mark ∈ marks
    · simp [cost, known]
    · have unspent : graph.cost marks mark = graph.callCount mark.1 := by simp [cost, known]
      rw [unspent, cost]
      split
      · exact Nat.zero_le _
      · exact Nat.le_refl _
  · simp [cost, fresh]

theorem Step.potential_lt {moment next : Moment} (step : graph.Step moment next)
    (consistent : graph.Consistent moment) : graph.potential next + 1 ≤ graph.potential moment := by
  cases step with
  | enter entry entries marks =>
    simp only [potential, List.length_cons, List.length_nil]
    omega
  | skip before after bound known =>
    simp only [potential, List.length_append, List.length_cons]
    omega
  | @visit entries marks taken before after bound fresh =>
    obtain ⟨start, begins, -, carries⟩ := consistent.waiting taken (mem_middle_iff.mpr (.inl rfl))
    have spent := sum_cost_visit (mem_possibleMarks_iff.mpr ⟨bound, start, begins, carries⟩) fresh
    have calls : graph.callCount taken.1 = graph.callees[taken.1].length := by
      rw [callCount, List.getElem?_eq_getElem bound, Option.getD_some]
    simp only [potential, List.length_append, List.length_cons, List.length_map]
    omega

/-- Twice the number of entry points, and the number of calls for each execution model. -/
def stepLimit (graph : CallGraph) : Nat :=
  2 * graph.entryPoints.length + (graph.callees.map List.length).sum * graph.models.length

theorem sum_callCount_product (graph : CallGraph) (positions : List Nat)
    (models : List ExecutionModel) :
    ((positions ×ˢ models).map fun mark => graph.callCount mark.1).sum =
      (positions.map graph.callCount).sum * models.length := by
  induction positions with
  | nil => simp
  | cons first rest step =>
    rw [List.product_cons, List.map_append, List.sum_append, step, List.map_map, List.map_cons,
      List.sum_cons, Nat.add_mul]
    simp [Function.comp_def, Nat.mul_comm]

theorem map_callCount_range (graph : CallGraph) :
    (List.range graph.callees.length).map graph.callCount = graph.callees.map List.length := by
  refine List.ext_getElem (by simp) fun position _ listed => ?_
  rw [List.length_map] at listed
  simp [callCount, listed]

theorem potential_start (graph : CallGraph) :
    graph.potential ⟨graph.entryPoints, [], []⟩ = graph.stepLimit := by
  have unspent : graph.cost [] = fun mark => graph.callCount mark.1 := by
    funext mark
    simp [cost]
  rw [potential, unspent, possibleMarks, sum_callCount_product, map_callCount_range, stepLimit]
  simp

theorem Runs.count_add_potential_le {count : Nat} {moment : Moment} (runs : graph.Runs count moment) :
    count + graph.potential moment ≤ graph.stepLimit := by
  induction runs with
  | start => rw [potential_start, Nat.zero_add]
  | step runs step ih =>
    have less := step.potential_lt runs.consistent
    omega

/-! ## The search proper -/

/-- A run gets to what a search has come to: marks, with some entry points left, or nothing because
something is outside the graph. -/
def ComesTo (graph : CallGraph) (entries : List (Nat × ExecutionModel)) : Option Marks → Prop
  | some marks => ∃ count, graph.Runs count ⟨entries, marks, []⟩
  | none => ∃ count moment, graph.Runs count moment ∧ graph.Strays moment

/-- The search of what one entry point leads to is part of a run. -/
theorem comesTo_mark? {count : Nat} {entries : List (Nat × ExecutionModel)} {marks : Marks}
    {model : ExecutionModel} {stack : List Nat}
    (runs : graph.Runs count ⟨entries, marks, stack.map (·, model)⟩) :
    graph.ComesTo entries (graph.mark? model marks stack) := by
  fun_induction mark? graph model marks stack generalizing count with
  | case1 marks => exact ⟨count, runs⟩
  | case2 marks position rest bound known step => exact step (runs.step (.skip [] _ bound known))
  | case3 marks position rest bound fresh step =>
    have visited := runs.step (.visit [] (rest.map (·, model)) bound fresh)
    rw [List.nil_append, ← List.map_append] at visited
    exact step visited
  | case4 marks position rest outside =>
    exact ⟨count, _, runs, (position, model), List.mem_cons_self, Nat.not_lt.mp outside⟩

theorem comesTo_search? (graph : CallGraph) : graph.ComesTo [] graph.search? := by
  suffices searched : ∀ (entries : List (Nat × ExecutionModel)) (marks : Marks) (count : Nat),
      graph.Runs count ⟨entries, marks, []⟩ → graph.ComesTo []
        (entries.foldlM (fun marks entry => graph.mark? entry.2 marks [entry.1]) marks) from
    searched graph.entryPoints [] 0 .start
  intro entries
  induction entries with
  | nil => exact fun marks count runs => ⟨count, runs⟩
  | cons entry rest step =>
    intro marks count runs
    have entered : graph.ComesTo rest (graph.mark? entry.2 marks [entry.1]) :=
      comesTo_mark? (runs.step (.enter entry rest marks))
    rw [List.foldlM_cons]
    cases searched : graph.mark? entry.2 marks [entry.1] with
    | none =>
      rw [searched] at entered
      exact entered
    | some after =>
      rw [searched] at entered
      obtain ⟨later, runs⟩ := entered
      exact step after later runs

/-- The search gives up exactly if execution can leave the graph. -/
theorem isSome_search?_iff : graph.search?.isSome ↔ graph.Confined := by
  have comes := comesTo_search? graph
  cases searched : graph.search? with
  | some marks =>
    rw [searched] at comes
    obtain ⟨count, runs⟩ := comes
    exact iff_of_true rfl (runs.consistent.confined ⟨rfl, rfl⟩)
  | none =>
    rw [searched] at comes
    obtain ⟨count, moment, runs, strays⟩ := comes
    exact iff_of_false nofun (runs.consistent.not_confined strays)

theorem reachingModels?_eq_none_iff : graph.reachingModels? = none ↔ ¬graph.Confined := by
  rw [reachingModels?, Option.map_eq_none_iff, ← isSome_search?_iff]
  cases graph.search? <;> simp

/-- Execution leaves the graph at an entry point or by a call. -/
theorem not_confined_iff : ¬graph.Confined ↔
    (∃ entry ∈ graph.entryPoints, graph.callees.length ≤ entry.1) ∨
    ∃ entry ∈ graph.entryPoints, ∃ caller callee, graph.Reaches entry.1 caller ∧
      graph.Calls caller callee ∧ graph.callees.length ≤ callee := by
  constructor
  · intro leaves
    simp only [Confined, not_forall, Nat.not_lt] at leaves
    obtain ⟨entry, begins, position, reaches, outside⟩ := leaves
    cases reaches with
    | refl => exact .inl ⟨entry, begins, outside⟩
    | tail reaches calls => exact .inr ⟨entry, begins, _, position, reaches, calls, outside⟩
  · rintro (⟨entry, begins, outside⟩ | ⟨entry, begins, caller, callee, reaches, calls, outside⟩) confined
    · exact absurd (confined entry begins entry.1 .refl) (Nat.not_lt.mpr outside)
    · exact absurd (confined entry begins callee (reaches.tail calls)) (Nat.not_lt.mpr outside)

/-- Where calls of reached positions are the same, the same positions are reached. -/
theorem reaches_iff_of_agree {other : CallGraph} {start : Nat}
    (agree : ∀ position, graph.Reaches start position →
      other.callees[position]? = graph.callees[position]?) {position : Nat} :
    other.Reaches start position ↔ graph.Reaches start position := by
  constructor
  · intro reaches
    induction reaches with
    | refl => exact .refl
    | tail _ calls reached =>
      obtain ⟨targets, listed, called⟩ := calls
      exact reached.tail ⟨targets, agree _ reached ▸ listed, called⟩
  · intro reaches
    induction reaches with
    | refl => exact .refl
    | tail reached calls step =>
      obtain ⟨targets, listed, called⟩ := calls
      exact step.tail ⟨targets, (agree _ reached).trans listed, called⟩

/-- A search gives up exactly if an entry point is outside the graph, or a call of a position that
execution gets to is. In whichever order it takes what waits, it is over within the limit of steps,
and gives up or not all the same. The ids of functions have no say in that, nor have the calls of
positions that execution does not get to. -/
theorem search_runs (graph : CallGraph) :
    (graph.reachingModels? = none ↔
      (∃ entry ∈ graph.entryPoints, graph.callees.length ≤ entry.1) ∨
      ∃ entry ∈ graph.entryPoints, ∃ caller callee, graph.Reaches entry.1 caller ∧
        graph.Calls caller callee ∧ graph.callees.length ≤ callee) ∧
    (∀ count moment, graph.Runs count moment → count ≤ graph.stepLimit ∧
      (moment.Finished ∧ graph.reachingModels? ≠ none ∨
        graph.Strays moment ∧ graph.reachingModels? = none ∨
        ∃ next, graph.Step moment next)) ∧
    graph.ComesTo [] graph.search? ∧
    ∀ other : CallGraph, other.entryPoints = graph.entryPoints →
      other.callees.length = graph.callees.length →
      (∀ entry ∈ graph.entryPoints, ∀ position, graph.Reaches entry.1 position →
        other.callees[position]? = graph.callees[position]?) →
      (other.reachingModels? = none ↔ graph.reachingModels? = none) := by
  refine ⟨reachingModels?_eq_none_iff.trans not_confined_iff, fun count moment runs => ?_,
    comesTo_search? graph, fun other sameEntries sameLength agree => ?_⟩
  · have short := runs.count_add_potential_le
    refine ⟨by omega, ?_⟩
    rw [ne_eq, reachingModels?_eq_none_iff, not_not]
    rcases graph.finished_or_strays_or_step moment with finished | strays | next
    · exact .inl ⟨finished, runs.consistent.confined finished⟩
    · exact .inr (.inl ⟨strays, runs.consistent.not_confined strays⟩)
    · exact .inr (.inr next)
  · rw [reachingModels?_eq_none_iff, reachingModels?_eq_none_iff, not_iff_not, Confined, Confined,
      sameEntries, sameLength]
    refine forall₃_congr fun entry begins position => ?_
    rw [reaches_iff_of_agree (agree entry begins)]

end Spirv.CallGraph
