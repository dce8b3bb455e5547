import Mathlib.Data.List.Forall2
import Spirv.Proofs.Search

/-!
# Functions and the calls between them

An id stands for the last function that has it. Calls and entry points are read off the ids alone;
`reaches_iff` and `modelsReaching_eq` say that positions in the call graph tell the same.
-/
namespace Spirv

/-- The execution model and the function that an entry point names, if it is well formed. -/
def Instruction.start? (inst : Instruction) : Option (ExecutionModel × Ident) :=
  match inst.operands[0]?, inst.operands[1]? with
  | some (Operand.executionModel model), some (Operand.idRef id) => some (model, id)
  | _, _ => none

theorem Instruction.operands_of_start? {inst : Instruction} {model : ExecutionModel} {id : Ident}
    (named : inst.start? = some (model, id)) :
    ∃ rest, inst.operands = .executionModel model :: .idRef id :: rest := by
  unfold start? at named
  split at named
  next first second =>
    cases named
    match operands : inst.operands with
    | [] => simp [operands] at first
    | [_] => simp [operands] at second
    | one :: two :: rest =>
      simp only [operands, List.getElem?_cons_zero, List.getElem?_cons_succ,
        Option.some.injEq] at first second
      exact ⟨rest, by rw [first, second]⟩
  next => cases named

/-- Values that are kept once stand in the order in which they first come. -/
theorem pairwise_findIdx_eraseDups_filterMap [DecidableEq α] (key? : β → Option α) (list : List β) :
    (list.filterMap key?).eraseDups.Pairwise fun a b =>
      list.findIdx (fun member => key? member == some a) <
        list.findIdx (fun member => key? member == some b) := by
  induction list generalizing key? with
  | nil => exact .nil
  | cons first rest step =>
    cases found : key? first with
    | none =>
      rw [List.filterMap_cons_none found]
      refine (step key?).imp fun {a b} less => ?_
      simpa [List.findIdx_cons, found] using less
    | some value =>
      -- After the first value the list goes on as if that value did not come again.
      let others (member : β) : Option α := (key? member).filter fun other => !other == value
      have later : (rest.filterMap key?).filter (fun other => !other == value) =
          rest.filterMap others := List.filter_filterMap
      have apart : ∀ other ∈ (rest.filterMap others).eraseDups, value ≠ other := by
        intro other member
        rw [List.mem_eraseDups, ← later, List.mem_filter] at member
        have differs : other ≠ value := by simpa using member.2
        exact Ne.symm differs
      rw [List.filterMap_cons_some found, List.eraseDups_cons, later]
      refine List.pairwise_cons.mpr ⟨fun other member => ?_, ?_⟩
      · simp [List.findIdx_cons, found, beq_false_of_ne (apart other member)]
      · refine (step others).imp_of_mem fun {a b} memberA memberB less => ?_
        have unchanged (other : α) (differs : value ≠ other) :
            (fun member => others member == some other) = fun member => key? member == some other := by
          funext member
          cases here : key? member with
          | none => simp [others, here]
          | some kept =>
            by_cases same : kept = value
            · simp [others, here, same, differs]
            · simp [others, here, Ne.symm differs]
        rw [unchanged a (apart a memberA), unchanged b (apart b memberB)] at less
        simpa [List.findIdx_cons, found, beq_false_of_ne (apart a memberA),
          beq_false_of_ne (apart b memberB)] using less

theorem pairwise_findIdx_eraseDups [DecidableEq α] (key : β → α) (keep : β → Bool) (list : List β) :
    ((list.filter keep).map key).eraseDups.Pairwise fun a b =>
      list.findIdx (fun member => keep member && key member == a) <
        list.findIdx (fun member => keep member && key member == b) := by
  have kept := pairwise_findIdx_eraseDups_filterMap
    (fun member => if keep member then some (key member) else none) list
  have listed : list.filterMap (fun member => if keep member then some (key member) else none) =
      (list.filter keep).map key := by
    rw [← List.filterMap_eq_map, List.filterMap_filter]
    rfl
  rw [listed] at kept
  refine kept.imp fun {a b} less => ?_
  have same (value : α) :
      (fun member => (if keep member then some (key member) else none) == some value) =
        fun member => keep member && key member == value := by
    funext member
    cases keep member <;> simp
  rwa [same, same] at less

namespace Module

/-- The last function with the id. -/
def function? (m : Module) (id : Ident) : Option Function :=
  m.functions.findRev? fun function => function.id? = some id

structure Calls (m : Module) (caller callee : Ident) : Prop where
  called : ∃ function, m.function? caller = some function ∧
    ∃ inst ∈ function.listing, inst.opcode = .functionCall ∧ inst.idOperand? 0 = some callee
  defined : (m.function? callee).isSome

/-- Zero or more calls lead from one function to the other. -/
def Reaches (m : Module) : Ident → Ident → Prop := Relation.ReflTransGen m.Calls

def entryInstructions (m : Module) : List Instruction :=
  m.entryPoints.filter fun inst => inst.opcode = .entryPoint

def starts (m : Module) : List (ExecutionModel × Ident) :=
  m.entryInstructions.filterMap Instruction.start?

def startFault? (m : Module) (inst : Instruction) : Option ModuleFault :=
  match inst.start? with
  | none => some .malformedEntryPoint
  | some (_, id) => if (m.function? id).isSome then none else some (.entryPointNotFunction id)

/-- The fault of the first entry point that has one. -/
def entryFault? (m : Module) : Option ModuleFault := m.entryInstructions.findSome? m.startFault?

open Classical in
/-- The execution models of the entry points that reach a function, each where it first comes. -/
noncomputable def modelsReaching (m : Module) (function : Ident) : List ExecutionModel :=
  ((m.starts.filter fun start => m.Reaches start.2 function).map Prod.fst).eraseDups

open Classical in
/-- The position of the first entry point with the execution model that reaches a function. -/
noncomputable def firstStart (m : Module) (function : Ident) (model : ExecutionModel) : Nat :=
  m.starts.findIdx fun start => m.Reaches start.2 function ∧ start.1 = model

theorem pairwise_modelsReaching (m : Module) (function : Ident) :
    (m.modelsReaching function).Pairwise fun a b =>
      m.firstStart function a < m.firstStart function b := by
  classical
  have models := pairwise_findIdx_eraseDups Prod.fst
    (fun start => decide (m.Reaches start.2 function)) m.starts
  refine models.imp fun {a b} less => ?_
  simpa [firstStart, beq_eq_decide] using less

theorem mem_modelsReaching {m : Module} {function : Ident} {model : ExecutionModel} :
    model ∈ m.modelsReaching function ↔ ∃ id, (model, id) ∈ m.starts ∧ m.Reaches id function := by
  simp [modelsReaching, List.mem_eraseDups]

theorem isSome_function?_iff {m : Module} {id : Ident} :
    (m.function? id).isSome ↔ ∃ function ∈ m.functions, function.id? = some id := by
  simp [function?]

theorem startFault?_eq_none_iff {m : Module} {inst : Instruction} : m.startFault? inst = none ↔
    ∃ model id, inst.start? = some (model, id) ∧ ∃ function ∈ m.functions, function.id? = some id := by
  unfold startFault?
  cases inst.start? with
  | none => simp
  | some start =>
    obtain ⟨model, id⟩ := start
    simp [isSome_function?_iff]

theorem entryFault?_eq_none_iff {m : Module} : m.entryFault? = none ↔
    ∀ inst ∈ m.entryPoints, inst.opcode = .entryPoint → ∃ model id, inst.start? = some (model, id) ∧
      ∃ function ∈ m.functions, function.id? = some id := by
  simp only [entryFault?, List.findSome?_eq_none_iff, entryInstructions, List.mem_filter,
    decide_eq_true_eq, and_imp, startFault?_eq_none_iff]

theorem isSome_function?_of_mem_starts {m : Module} {start : ExecutionModel × Ident}
    (clean : m.entryFault? = none) (member : start ∈ m.starts) : (m.function? start.2).isSome := by
  obtain ⟨inst, entry, named⟩ := List.mem_filterMap.mp member
  obtain ⟨model, id, same, known⟩ :=
    startFault?_eq_none_iff.mp (List.findSome?_eq_none_iff.mp clean inst entry)
  cases named.symm.trans same
  exact isSome_function?_iff.mpr known

theorem isSome_function?_of_reaches {m : Module} {start function : Ident}
    (defined : (m.function? start).isSome) (reaches : m.Reaches start function) :
    (m.function? function).isSome := by
  cases reaches with
  | refl => exact defined
  | tail _ calls => exact calls.defined

end Module

/-- The last position of an id holds the last function with that id. -/
theorem findRev?_eq_bind_lastPosition? {functions : List Function} {ids : List Ident}
    (named : functions.map Function.id? = ids.map some) (id : Ident) :
    functions.findRev? (fun function => function.id? = some id) =
      (lastPosition? id ids).bind fun position => functions[position]? := by
  induction functions generalizing ids with
  | nil =>
    cases ids with
    | nil => rfl
    | cons => cases named
  | cons function rest step =>
    cases ids with
    | nil => cases named
    | cons first others =>
      obtain ⟨here, there⟩ := List.cons.inj named
      rw [List.findRev?, step there, lastPosition?]
      cases located : lastPosition? id others with
      | none => by_cases same : first = id <;> simp [here, same]
      | some position =>
        have bound : position < rest.length := by
          rw [← List.length_map Function.id?, there, List.length_map]
          exact lastPosition?_lt located
        simp [List.getElem?_eq_getElem bound]

namespace CallGraph

def position? (graph : CallGraph) (id : Ident) : Option Nat := lastPosition? id graph.functions

variable {m : Module} {graph : CallGraph}

theorem position?_injective {a b : Ident} {position : Nat}
    (first : graph.position? a = some position) (second : graph.position? b = some position) :
    a = b :=
  Option.some.inj ((getElem?_of_lastPosition? first).symm.trans (getElem?_of_lastPosition? second))

theorem function?_eq (built : ofModule m = .ok graph) (id : Ident) :
    m.function? id = (graph.position? id).bind fun position => m.functions[position]? :=
  findRev?_eq_bind_lastPosition? (ofModule_eq_ok_iff.mp built).1 id

theorem isSome_function?_eq (built : ofModule m = .ok graph) (id : Ident) :
    (m.function? id).isSome = (graph.position? id).isSome := by
  obtain ⟨named, -, -⟩ := ofModule_eq_ok_iff.mp built
  rw [function?_eq built]
  cases located : graph.position? id with
  | none => rfl
  | some position =>
    have bound : position < m.functions.length := by
      rw [← List.length_map Function.id?, named, List.length_map]
      exact lastPosition?_lt located
    simp [bound]

theorem callees_eq (built : ofModule m = .ok graph) (position : Nat) :
    graph.callees[position]? = m.functions[position]?.map (calleesOf graph.functions) := by
  rw [← (ofModule_eq_ok_iff.mp built).2.2, List.getElem?_map]

theorem mem_calleesOf {function : Function} {target : Nat} :
    target ∈ calleesOf graph.functions function ↔
      ∃ inst ∈ function.listing, inst.opcode = .functionCall ∧
        ∃ id, inst.idOperand? 0 = some id ∧ graph.position? id = some target := by
  simp [calleesOf, List.mem_eraseDups, Option.bind_eq_some_iff, position?, and_assoc]

theorem calls_iff (built : ofModule m = .ok graph) {caller : Ident} {position target : Nat}
    (located : graph.position? caller = some position) :
    graph.Calls position target ↔
      ∃ callee, m.Calls caller callee ∧ graph.position? callee = some target := by
  have found : m.function? caller = m.functions[position]? := by
    rw [function?_eq built, located, Option.bind_some]
  unfold Calls
  rw [callees_eq built, ← found]
  constructor
  · intro calls
    obtain ⟨targets, calls, member⟩ := calls
    obtain ⟨function, here, rfl⟩ := Option.map_eq_some_iff.mp calls
    obtain ⟨inst, listed, opcode, callee, names, goal⟩ := mem_calleesOf.mp member
    refine ⟨callee, ⟨⟨function, here, inst, listed, opcode, names⟩, ?_⟩, goal⟩
    rw [isSome_function?_eq built, goal, Option.isSome_some]
  · intro called
    obtain ⟨callee, ⟨⟨function, here, inst, listed, opcode, names⟩, -⟩, goal⟩ := called
    exact ⟨_, by rw [here, Option.map_some],
      mem_calleesOf.mpr ⟨inst, listed, opcode, callee, names, goal⟩⟩

theorem exists_position?_of_calls (built : ofModule m = .ok graph) {caller callee : Ident}
    (calls : m.Calls caller callee) : ∃ target, graph.position? callee = some target := by
  rw [← Option.isSome_iff_exists, ← isSome_function?_eq built]
  exact calls.defined

/-- Positions are reached exactly as the ids of their functions are. -/
theorem reaches_iff (built : ofModule m = .ok graph) {start : Ident} {position target : Nat}
    (located : graph.position? start = some position) :
    graph.Reaches position target ↔
      ∃ function, m.Reaches start function ∧ graph.position? function = some target := by
  constructor
  · intro reaches
    induction reaches with
    | refl => exact ⟨start, .refl, located⟩
    | tail _ calls step =>
      obtain ⟨caller, reached, here⟩ := step
      obtain ⟨callee, called, goal⟩ := (calls_iff built here).mp calls
      exact ⟨callee, reached.tail called, goal⟩
  · intro reached
    obtain ⟨function, reaches, goal⟩ := reached
    induction reaches generalizing target with
    | refl =>
      cases located.symm.trans goal
      exact .refl
    | @tail middle last earlier calls step =>
      have known : ∃ between, graph.position? middle = some between := by
        cases earlier with
        | refl => exact ⟨position, located⟩
        | tail _ calls => exact exists_position?_of_calls built calls
      obtain ⟨between, here⟩ := known
      exact (step here).tail ((calls_iff built here).mpr ⟨last, calls, goal⟩)

theorem entryPoint_eq (ids : List Ident) (inst : Instruction) :
    entryPoint ids inst =
      match inst.start? with
      | none => .error .malformedEntryPoint
      | some (model, id) =>
        match lastPosition? id ids with
        | some position => .ok (position, model)
        | none => .error (.entryPointNotFunction id) := by
  unfold entryPoint
  split
  next model id rest operands =>
    have named : inst.start? = some (model, id) := by simp [Instruction.start?, operands]
    rewrite [named]
    rfl
  next other =>
    cases named : inst.start? with
    | none => rfl
    | some start =>
      obtain ⟨rest, operands⟩ := Instruction.operands_of_start? named
      exact absurd operands (other _ _ _)

theorem functionIds_eq_error_iff {functions : List Function} {fault : ModuleFault} :
    functionIds functions = .error fault ↔
      fault = .functionWithoutId ∧ ∃ function ∈ functions, function.id? = none := by
  rw [functionIds, mapM_eq_error_iff
    (fun function => if function.id? = none then some .functionWithoutId else none)
    fun function fault => by cases function.id? <;> simp]
  induction functions with
  | nil => simp
  | cons first rest step =>
    rw [List.findSome?_cons]
    cases named : first.id? with
    | none => simp [named, eq_comm]
    | some id => simpa [named] using step

theorem entryPoint_eq_error_iff {ids : List Ident}
    (named : m.functions.map Function.id? = ids.map some) (inst : Instruction)
    (fault : ModuleFault) :
    entryPoint ids inst = .error fault ↔ m.startFault? inst = some fault := by
  have located (id : Ident) : (m.function? id).isSome = (lastPosition? id ids).isSome := by
    have image : some id ∈ m.functions.map Function.id? ↔ id ∈ ids := by simp [named]
    rw [Bool.eq_iff_iff, isSome_lastPosition?, Module.isSome_function?_iff, ← image, List.mem_map]
  rw [Module.startFault?, entryPoint_eq]
  cases inst.start? with
  | none => simp
  | some start =>
    simp only [located]
    cases lastPosition? start.2 ids <;> simp

/-- A function without an id is reported before any fault of an entry point. -/
theorem ofModule_eq_error_iff {fault : ModuleFault} : ofModule m = .error fault ↔
    (fault = .functionWithoutId ∧ ∃ function ∈ m.functions, function.id? = none) ∨
      (∀ function ∈ m.functions, function.id?.isSome) ∧ m.entryFault? = some fault := by
  unfold ofModule
  cases named : functionIds m.functions with
  | error found =>
    obtain ⟨rfl, function, member, unnamed⟩ := functionIds_eq_error_iff.mp named
    have notAll : ¬∀ function ∈ m.functions, function.id?.isSome := fun all => by
      simpa [unnamed] using all function member
    simp only [bind, Except.bind, Except.error.injEq, notAll, false_and, or_false]
    exact ⟨fun same => ⟨same.symm, function, member, unnamed⟩, fun same => same.1.symm⟩
  | ok ids =>
    have listed := functionIds_eq_ok_iff.mp named
    have all (function : Function) (member : function ∈ m.functions) : function.id?.isSome := by
      have image : function.id? ∈ m.functions.map Function.id? := List.mem_map_of_mem member
      rw [listed] at image
      obtain ⟨id, -, same⟩ := List.mem_map.mp image
      simp [← same]
    have noneLacks : ¬∃ function ∈ m.functions, function.id? = none := by
      rintro ⟨function, member, unnamed⟩
      simpa [unnamed] using all function member
    rw [and_iff_right all, Module.entryFault?, ← mapM_eq_error_iff _ (entryPoint_eq_error_iff listed),
      Module.entryInstructions]
    simp only [bind, Except.bind, noneLacks, and_false, false_or]
    cases (m.entryPoints.filter fun inst => inst.opcode = .entryPoint).mapM (entryPoint ids) <;>
      simp [pure, Except.pure]

theorem exists_ofModule_iff : (∃ graph, ofModule m = .ok graph) ↔
    (∀ function ∈ m.functions, function.id?.isSome) ∧ m.entryFault? = none := by
  cases built : ofModule m with
  | error fault =>
    rcases ofModule_eq_error_iff.mp built with ⟨-, function, member, unnamed⟩ | ⟨-, found⟩
    · simp only [reduceCtorEq, exists_false, false_iff]
      exact fun ⟨all, _⟩ => by simpa [unnamed] using all function member
    · simp [found]
  | ok graph =>
    have sound (fault : ModuleFault) : ¬ofModule m = .error fault := by simp [built]
    have all : ∀ function ∈ m.functions, function.id?.isSome := by
      intro function member
      by_contra unnamed
      refine sound _ (ofModule_eq_error_iff.mpr (.inl ⟨rfl, function, member, ?_⟩))
      simpa using unnamed
    refine ⟨fun _ => ⟨all, ?_⟩, fun _ => ⟨graph, rfl⟩⟩
    cases found : m.entryFault? with
    | none => rfl
    | some fault => exact absurd (ofModule_eq_error_iff.mpr (.inr ⟨all, found⟩)) (sound fault)

/-- The entry points of the graph are those of the module, by position. -/
theorem entryPoints_starts (built : ofModule m = .ok graph) :
    List.Forall₂ (fun entry start => graph.position? start.2 = some entry.1 ∧ entry.2 = start.1)
      graph.entryPoints m.starts := by
  obtain ⟨-, started, -⟩ := ofModule_eq_ok_iff.mp built
  unfold Module.starts
  change m.entryInstructions.map _ = _ at started
  generalize graph.entryPoints = entries, m.entryInstructions = insts at started ⊢
  induction insts generalizing entries with
  | nil =>
    cases entries with
    | nil => exact .nil
    | cons => cases started
  | cons inst rest step =>
    cases entries with
    | nil => cases started
    | cons entry others =>
      obtain ⟨here, there⟩ := List.cons.inj started
      rw [entryPoint_eq] at here
      cases named : inst.start? with
      | none => simp [named] at here
      | some start =>
        rw [named] at here
        dsimp only at here
        split at here
        next position located =>
          cases here
          rw [List.filterMap_cons_some named]
          exact .cons ⟨located, rfl⟩ (step others there)
        next => cases here

theorem exists_start_of_mem (built : ofModule m = .ok graph) {entry : Nat × ExecutionModel}
    (member : entry ∈ graph.entryPoints) :
    ∃ start ∈ m.starts, graph.position? start.2 = some entry.1 := by
  have paired := entryPoints_starts built
  generalize graph.entryPoints = entries, m.starts = starts at paired member ⊢
  induction paired with
  | nil => cases member
  | @cons _ start _ _ here _ step =>
    rcases List.mem_cons.mp member with rfl | later
    · exact ⟨start, List.mem_cons_self, here.1⟩
    · obtain ⟨other, known, begins⟩ := step later
      exact ⟨other, List.mem_cons_of_mem _ known, begins⟩

/-- The execution models that reach a position are those that reach its function. -/
theorem modelsReaching_eq (built : ofModule m = .ok graph) {function : Ident} {position : Nat}
    (located : graph.position? function = some position) :
    graph.modelsReaching graph.entryPoints position = m.modelsReaching function := by
  classical
  have paired := entryPoints_starts built
  unfold modelsReaching Module.modelsReaching
  congr 1
  generalize graph.entryPoints = entries, m.starts = starts at paired ⊢
  induction paired with
  | nil => rfl
  | @cons entry start entries starts here _ step =>
    obtain ⟨begins, carries⟩ := here
    have same : graph.Reaches entry.1 position ↔ m.Reaches start.2 function := by
      rw [reaches_iff built begins]
      constructor
      · intro reached
        obtain ⟨other, reaches, goal⟩ := reached
        exact position?_injective goal located ▸ reaches
      · exact fun reaches => ⟨function, reaches, located⟩
    by_cases reached : m.Reaches start.2 function
    · simp [same.mpr reached, reached, step, carries]
    · simp [mt same.mp reached, reached, step]

end CallGraph

end Spirv
