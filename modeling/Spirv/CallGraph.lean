import Spirv.Fault

/-!
# Call graphs

Functions are numbered by their position in the module. Of several functions with one id, calls
and entry points mean the last. A call of an id that is no function's is no edge; an entry point
for such an id is a fault.
-/

namespace Spirv

def lastPosition? [DecidableEq α] (value : α) : List α → Option Nat
  | [] => none
  | first :: rest =>
    match lastPosition? value rest with
    | some position => some (position + 1)
    | none => if first = value then some 0 else none

theorem getElem?_of_lastPosition? [DecidableEq α] {value : α} {list : List α} {position : Nat}
    (found : lastPosition? value list = some position) : list[position]? = some value := by
  induction list generalizing position with
  | nil => simp [lastPosition?] at found
  | cons first rest step =>
    simp only [lastPosition?] at found
    split at found
    next later inRest =>
      cases found
      exact step inRest
    next =>
      split at found
      next same => cases found; simp [same]
      next => cases found

theorem lastPosition?_lt [DecidableEq α] {value : α} {list : List α} {position : Nat}
    (found : lastPosition? value list = some position) : position < list.length :=
  (List.getElem?_eq_some_iff.mp (getElem?_of_lastPosition? found)).1

theorem isSome_lastPosition? [DecidableEq α] {value : α} {list : List α} :
    (lastPosition? value list).isSome ↔ value ∈ list := by
  induction list with
  | nil => simp [lastPosition?]
  | cons first rest step =>
    rw [List.mem_cons, ← step, lastPosition?]
    cases lastPosition? value rest with
    | some position => simp
    | none =>
      by_cases same : first = value
      · simp [same]
      · simp [same, Ne.symm same]

theorem le_of_lastPosition? [DecidableEq α] {value : α} {list : List α} {position other : Nat}
    (found : lastPosition? value list = some position) (here : list[other]? = some value) :
    other ≤ position := by
  induction list generalizing position other with
  | nil => simp at here
  | cons first rest step =>
    cases other with
    | zero => exact Nat.zero_le position
    | succ other =>
      rw [List.getElem?_cons_succ] at here
      obtain ⟨later, inRest⟩ := Option.isSome_iff_exists.mp
        (isSome_lastPosition?.mpr (List.mem_of_getElem? here))
      rw [lastPosition?, inRest] at found
      cases found
      exact Nat.succ_le_succ (step inRest here)

/-- The last position of a value is one, and none is after it. -/
theorem lastPosition?_eq_some_iff [DecidableEq α] {value : α} {list : List α} {position : Nat} :
    lastPosition? value list = some position ↔
      list[position]? = some value ∧ ∀ other, list[other]? = some value → other ≤ position := by
  constructor
  · intro found
    exact ⟨getElem?_of_lastPosition? found, fun _ => le_of_lastPosition? found⟩
  · rintro ⟨here, last⟩
    obtain ⟨other, found⟩ := Option.isSome_iff_exists.mp
      (isSome_lastPosition?.mpr (List.mem_of_getElem? here))
    rw [found, Nat.le_antisymm (last other (getElem?_of_lastPosition? found))
      (le_of_lastPosition? found here)]

structure CallGraph where
  /-- The ids of the functions by position. -/
  functions : List Ident
  /-- The positions at which execution starts, in the order of the entry points. -/
  entryPoints : List (Nat × ExecutionModel)
  /-- The positions that each function calls, by its position. -/
  callees : List (List Nat)
  deriving DecidableEq, Repr

namespace CallGraph

/-- Every position in the graph has callees of its own. -/
structure Closed (graph : CallGraph) : Prop where
  entryPoints : ∀ entry ∈ graph.entryPoints, entry.1 < graph.callees.length
  callees : ∀ targets ∈ graph.callees, ∀ target ∈ targets, target < graph.callees.length

def functionIds (functions : List Function) : Except ModuleFault (List Ident) :=
  functions.mapM fun function =>
    match function.id? with
    | some id => .ok id
    | none => .error .functionWithoutId

def entryPoint (ids : List Ident) (inst : Instruction) :
    Except ModuleFault (Nat × ExecutionModel) :=
  match inst.operands with
  | .executionModel model :: .idRef id :: _ =>
    match lastPosition? id ids with
    | some position => .ok (position, model)
    | none => .error (.entryPointNotFunction id)
  | _ => .error .malformedEntryPoint

/-- The functions that a function calls, each once, in the order of the first call. -/
def calleesOf (ids : List Ident) (function : Function) : List Nat :=
  ((function.listing.filter fun inst => inst.opcode = .functionCall).filterMap fun inst =>
    (inst.idOperand? 0).bind fun id => lastPosition? id ids).eraseDups

def ofModule (m : Module) : Except ModuleFault CallGraph := do
  let ids ← functionIds m.functions
  let entryPoints ←
    (m.entryPoints.filter fun inst => inst.opcode = .entryPoint).mapM (entryPoint ids)
  return ⟨ids, entryPoints, m.functions.map (calleesOf ids)⟩

/-- A list is mapped to results exactly if each member is mapped to its result. -/
theorem mapM_eq_ok_iff {f : α → Except ε β} {list : List α} {results : List β} :
    list.mapM f = .ok results ↔ list.map f = results.map .ok := by
  induction list generalizing results with
  | nil => cases results <;> simp [pure, Except.pure]
  | cons first rest step =>
    rw [List.mapM_cons, List.map_cons]
    cases here : f first with
    | error fault => cases results <;> simp [bind, Except.bind]
    | ok result =>
      cases there : rest.mapM f with
      | error fault =>
        cases results with
        | nil => simp [bind, Except.bind]
        | cons head tail =>
          have apart := mt step.mpr (a := rest.map f = tail.map .ok) (by simp [there])
          simp [bind, Except.bind, apart]
      | ok others =>
        cases results with
        | nil => simp [bind, Except.bind, pure, Except.pure]
        | cons head tail => simp [bind, Except.bind, pure, Except.pure, ← step, there]

/-- The first fault of a list counts. -/
theorem mapM_eq_error_iff {f : α → Except ε β} (fault? : α → Option ε)
    (faults : ∀ member fault, f member = .error fault ↔ fault? member = some fault)
    {list : List α} {fault : ε} :
    list.mapM f = .error fault ↔ list.findSome? fault? = some fault := by
  induction list with
  | nil => simp [pure, Except.pure]
  | cons first rest step =>
    rw [List.mapM_cons, List.findSome?_cons]
    cases here : f first with
    | error found =>
      rw [(faults first found).mp here]
      simp [bind, Except.bind]
    | ok result =>
      have sound : fault? first = none := by
        cases found : fault? first with
        | none => rfl
        | some fault => cases here.symm.trans ((faults first fault).mpr found)
      rw [sound, ← step]
      cases rest.mapM f <;> simp [bind, Except.bind, pure, Except.pure]

theorem entryPoint_lt {ids : List Ident} {inst : Instruction} {entry : Nat × ExecutionModel}
    (found : entryPoint ids inst = .ok entry) : entry.1 < ids.length := by
  unfold entryPoint at found
  split at found
  · split at found
    next position located =>
      cases found
      exact lastPosition?_lt located
    next => cases found
  · cases found

theorem calleesOf_lt {ids : List Ident} {function : Function} {target : Nat}
    (called : target ∈ calleesOf ids function) : target < ids.length := by
  rw [calleesOf, List.mem_eraseDups, List.mem_filterMap] at called
  obtain ⟨inst, -, found⟩ := called
  obtain ⟨id, -, located⟩ := Option.bind_eq_some_iff.mp found
  exact lastPosition?_lt located

theorem functionIds_eq_ok_iff {functions : List Function} {ids : List Ident} :
    functionIds functions = .ok ids ↔ functions.map Function.id? = ids.map some := by
  rw [functionIds, mapM_eq_ok_iff]
  induction functions generalizing ids with
  | nil => cases ids <;> simp
  | cons first rest step =>
    cases ids with
    | nil => simp
    | cons id others => cases named : first.id? <;> simp [named, step]

/-- What the graph of a module is made of. -/
theorem ofModule_eq_ok_iff {m : Module} {graph : CallGraph} :
    ofModule m = .ok graph ↔ m.functions.map Function.id? = graph.functions.map some ∧
      (m.entryPoints.filter fun inst => inst.opcode = .entryPoint).map
        (entryPoint graph.functions) = graph.entryPoints.map .ok ∧
      m.functions.map (calleesOf graph.functions) = graph.callees := by
  obtain ⟨functions, entryPoints, callees⟩ := graph
  simp only [← functionIds_eq_ok_iff, ← mapM_eq_ok_iff]
  unfold ofModule
  cases named : functionIds m.functions with
  | error fault => simp [bind, Except.bind]
  | ok ids =>
    cases started :
        (m.entryPoints.filter fun inst => inst.opcode = .entryPoint).mapM (entryPoint ids) with
    | error fault =>
      simp only [bind, Except.bind, started, reduceCtorEq, Except.ok.injEq, false_iff]
      rintro ⟨rfl, other, -⟩
      simp [started] at other
    | ok entries =>
      simp only [bind, Except.bind, pure, Except.pure, started, Except.ok.injEq,
        CallGraph.mk.injEq]
      constructor
      · intro same
        obtain ⟨rfl, rfl, rfl⟩ := same
        exact ⟨rfl, started, rfl⟩
      · intro parts
        obtain ⟨rfl, again, rfl⟩ := parts
        exact ⟨rfl, Except.ok.inj (started.symm.trans again), rfl⟩

/-- The graph of a module mentions positions of its functions only. -/
theorem closed_of_ofModule {m : Module} {graph : CallGraph} (found : ofModule m = .ok graph) :
    graph.Closed := by
  obtain ⟨named, started, called⟩ := ofModule_eq_ok_iff.mp found
  have sameLength : graph.callees.length = graph.functions.length := by
    rw [← called, List.length_map]
    simpa using congrArg List.length named
  constructor
  · intro entry member
    have located : .ok entry ∈ graph.entryPoints.map (Except.ok (ε := ModuleFault)) :=
      List.mem_map_of_mem member
    rw [← started] at located
    obtain ⟨inst, -, found⟩ := List.mem_map.mp located
    exact sameLength ▸ entryPoint_lt found
  · intro targets member target reached
    rw [← called] at member
    obtain ⟨function, -, rfl⟩ := List.mem_map.mp member
    exact sameLength ▸ calleesOf_lt reached

end CallGraph

end Spirv
