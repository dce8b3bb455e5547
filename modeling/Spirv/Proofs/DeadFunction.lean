import Spirv.Proofs.Strictness

/-!
# Insertion of dead functions

A function whose ids nothing refers to may stand anywhere among the functions of a module, even
with control barriers and calls. The module is accepted as without it
(`validate_insertFunction`).
-/
namespace Spirv

theorem findRev?_insert {keep : α → Bool} (before : List α) {middle : List α} (after : List α)
    (skips : ∀ member ∈ middle, keep member = false) :
    (before ++ middle ++ after).findRev? keep = (before ++ after).findRev? keep := by
  have silent : middle.filter keep = [] :=
    List.filter_eq_nil_iff.mpr fun member known => by simp [skips member known]
  rw [← findRev?_filter, List.filter_append, List.filter_append, silent, List.append_nil,
    ← List.filter_append, findRev?_filter]

namespace Function

def resultIds (function : Function) : List Ident :=
  function.listing.filterMap Instruction.resultId

theorem id_mem_resultIds {function : Function} {id : Ident} (named : function.id? = some id) :
    id ∈ function.resultIds := by
  obtain ⟨inst, defined, hasId⟩ := Option.bind_eq_some_iff.mp named
  exact List.mem_filterMap.mpr ⟨inst, by simp [listing, defined], hasId⟩

theorem mem_listing_of_mem_body {function : Function} {inst : Instruction}
    (member : inst ∈ function.body) : inst ∈ function.listing := by
  obtain ⟨block, inFunction, inBlock⟩ := List.mem_flatMap.mp member
  have listed : inst ∈ function.blocks.flatMap Block.listing :=
    List.mem_flatMap.mpr ⟨block, inFunction, List.mem_append_right _ inBlock⟩
  exact List.mem_append_left _ (List.mem_append_right _ listed)

end Function

namespace Module

variable {m : Module} {target : Target} {options : Options} {position : Nat} {added : Function}

def references (m : Module) : List Ident := m.listing.flatMap Instruction.references

theorem mem_references {inst : Instruction} (listed : inst ∈ m.listing) {id : Ident}
    (refers : id ∈ inst.references) : id ∈ m.references :=
  List.mem_flatMap.mpr ⟨inst, listed, refers⟩

theorem mem_listing_of_mem_functions {function : Function} (known : function ∈ m.functions)
    {inst : Instruction} (member : inst ∈ function.listing) : inst ∈ m.listing :=
  List.mem_append_right _ (List.mem_flatMap.mpr ⟨function, known, member⟩)

theorem mem_references_of_starts {start : ExecutionModel × Ident} (member : start ∈ m.starts) :
    start.2 ∈ m.references := by
  obtain ⟨inst, entry, named⟩ := List.mem_filterMap.mp member
  have listed : inst ∈ m.listing := by
    simp [listing, (List.mem_filter.mp entry).1]
  obtain ⟨rest, operands⟩ := Instruction.operands_of_start? named
  apply mem_references listed
  simp [Instruction.references, operands, Operand.id?]

theorem mem_references_of_called {caller callee : Ident}
    (called : ∃ function, m.function? caller = some function ∧ ∃ inst ∈ function.listing,
      inst.opcode = .functionCall ∧ inst.idOperand? 0 = some callee) :
    callee ∈ m.references := by
  obtain ⟨function, found, inst, member, -, named⟩ := called
  exact mem_references (mem_listing_of_mem_functions (mem_of_findRev? found) member)
    (Instruction.mem_references_of_idOperand? named)

theorem mem_references_of_reaches {start function : Ident} (known : start ∈ m.references)
    (reaches : m.Reaches start function) : function ∈ m.references := by
  cases reaches with
  | refl => exact known
  | tail _ calls => exact mem_references_of_called calls.called

def insertFunction (m : Module) (position : Nat) (added : Function) : Module :=
  m.withFunctions (m.functions.take position ++ added :: m.functions.drop position)

theorem mem_functions_insertFunction {function : Function} :
    function ∈ (m.insertFunction position added).functions ↔
      function = added ∨ function ∈ m.functions := by
  have split : function ∈ m.functions ↔
      function ∈ m.functions.take position ∨ function ∈ m.functions.drop position := by
    rw [← List.mem_append, List.take_append_drop]
  rw [insertFunction, functions_withFunctions, List.mem_append, List.mem_cons, split]
  exact or_left_comm

theorem listing_withFunctions_append (first second : List Function) :
    (m.withFunctions (first ++ second)).listing =
      (m.withFunctions first).listing ++ second.flatMap Function.listing := by
  simp [listing, withFunctions]

theorem definition?_insertFunction {id : Ident} (other : id ∉ added.resultIds) :
    (m.insertFunction position added).definition? id = m.definition? id := by
  have skips : ∀ inst ∈ added.listing, decide (inst.resultId = some id) = false := by
    intro inst member
    exact decide_eq_false fun hasId => other (List.mem_filterMap.mpr ⟨inst, member, hasId⟩)
  have split := findRev?_insert (m.withFunctions (m.functions.take position)).listing
    ((m.functions.drop position).flatMap Function.listing) skips
  rw [← listing_withFunctions_append, List.take_append_drop, List.append_assoc,
    ← List.flatMap_cons, ← listing_withFunctions_append] at split
  exact split

theorem function?_insertFunction {id : Ident} (other : added.id? ≠ some id) :
    (m.insertFunction position added).function? id = m.function? id := by
  have skips : ∀ function ∈ [added], decide (function.id? = some id) = false := by
    simpa using other
  have split := findRev?_insert (m.functions.take position) (m.functions.drop position) skips
  rw [List.take_append_drop, List.append_assoc] at split
  exact split

/-- Nothing in the module refers to an id that the function defines, though the module may define it
too. -/
def IsDead (m : Module) (function : Function) : Prop :=
  ∀ id ∈ function.resultIds, id ∉ m.references

instance (m : Module) (function : Function) : Decidable (m.IsDead function) :=
  List.decidableBAll (· ∉ m.references) function.resultIds

namespace IsDead

variable (dead : m.IsDead added)
include dead

theorem not_mem_resultIds {id : Ident} (known : id ∈ m.references) : id ∉ added.resultIds :=
  fun defined => dead id defined known

theorem id?_ne {id : Ident} (known : id ∈ m.references) : added.id? ≠ some id :=
  fun named => dead id (Function.id_mem_resultIds named) known

theorem facts_agreeOn (target : Target) : (m.facts target).AgreeOn (· ∉ added.resultIds)
    ((m.insertFunction position added).facts target) := by
  refine Module.facts_agreeOn (fun id other => ?_) (fun id type _ typed => ?_) target target
  · exact congrArg (Option.map Instruction.meaning) (definition?_insertFunction other)
  · obtain ⟨meaning, found, typed⟩ := Option.bind_eq_some_iff.mp typed
    obtain ⟨inst, defined, rfl⟩ := Option.map_eq_some_iff.mp found
    exact dead.not_mem_resultIds (mem_references (mem_of_findRev? defined)
      (Instruction.mem_references_of_resultType typed))

/-- The functions of the module pass with the other function as they pass without it. -/
theorem passes_iff {function : Function} (known : function ∈ m.functions) :
    function.Passes ((m.insertFunction position added).facts target) options ↔
      function.Passes (m.facts target) options := by
  have agree : (m.facts target).AgreeOn (· ∉ added.resultIds)
      ((m.insertFunction position added).facts target) := dead.facts_agreeOn target
  have refers (inst : Instruction) (member : inst ∈ function.body) (id : Ident)
      (refers : id ∈ inst.references) : id ∉ added.resultIds := by
    have listed := mem_listing_of_mem_functions known (Function.mem_listing_of_mem_body member)
    exact dead.not_mem_resultIds (mem_references listed refers)
  constructor
  · intro passes
    exact passes.of_laxer (.of_same rfl rfl rfl) agree.symm refers
  · intro passes
    exact passes.of_laxer (.of_same rfl rfl rfl) agree refers

theorem calls_iff {caller callee : Ident} (known : caller ∈ m.references) :
    (m.insertFunction position added).Calls caller callee ↔ m.Calls caller callee := by
  have sameCaller : (m.insertFunction position added).function? caller = m.function? caller :=
    function?_insertFunction (dead.id?_ne known)
  have sameCallee (named : callee ∈ m.references) :
      (m.insertFunction position added).function? callee = m.function? callee :=
    function?_insertFunction (dead.id?_ne named)
  constructor
  · intro calls
    have called := sameCaller ▸ calls.called
    exact ⟨called, sameCallee (mem_references_of_called called) ▸ calls.defined⟩
  · intro calls
    exact ⟨sameCaller ▸ calls.called,
      (sameCallee (mem_references_of_called calls.called)).symm ▸ calls.defined⟩

/-- From a function that the module refers to, calls lead where they led. -/
theorem reaches_iff {start function : Ident} (known : start ∈ m.references) :
    (m.insertFunction position added).Reaches start function ↔ m.Reaches start function := by
  constructor
  · intro reaches
    induction reaches with
    | refl => exact .refl
    | tail _ calls step =>
      exact step.tail ((dead.calls_iff (mem_references_of_reaches known step)).mp calls)
  · intro reaches
    induction reaches with
    | refl => exact .refl
    | tail earlier calls step =>
      exact step.tail ((dead.calls_iff (mem_references_of_reaches known earlier)).mpr calls)

theorem excludes_iff {limitation : Limitation} {function : Ident} :
    (m.insertFunction position added).Excludes limitation function ↔
      m.Excludes limitation function := by
  refine exists_congr fun start => and_congr_right fun member => and_congr_left fun _ => ?_
  exact dead.reaches_iff (mem_references_of_starts member)

/-- No entry point reaches a dead function. -/
theorem not_excludes {limitation : Limitation} {id : Ident} (named : added.id? = some id) :
    ¬m.Excludes limitation id := by
  intro excluded
  obtain ⟨start, member, reaches, -⟩ := excluded
  exact dead.id?_ne (mem_references_of_reaches (mem_references_of_starts member) reaches) named

theorem deferred_iff (clean : m.entryFault? = none) (isNamed : added.id?.isSome)
    (named : ∀ function ∈ m.functions, function.id?.isSome) :
    (m.insertFunction position added).deferred target = .ok () ↔ m.deferred target = .ok () := by
  have stillNamed : ∀ function ∈ (m.insertFunction position added).functions,
      function.id?.isSome := by
    simpa [mem_functions_insertFunction] using ⟨isNamed, named⟩
  have stillClean : (m.insertFunction position added).entryFault? = none := by
    rw [entryFault?_eq_none_iff] at clean ⊢
    intro inst member opcode
    obtain ⟨model, id, named, function, known, hasId⟩ := clean inst member opcode
    exact ⟨model, id, named, function, mem_functions_insertFunction.mpr (.inr known), hasId⟩
  rw [deferred_eq_ok_iff_functions named, deferred_eq_ok_iff_functions stillNamed]
  simp only [clean, stillClean, true_and, dead.excludes_iff]
  constructor
  · intro allowed early _ function known holds
    have stillKnown : function ∈ (m.insertFunction position added).functions :=
      mem_functions_insertFunction.mpr (.inr known)
    exact allowed early ⟨function, stillKnown, holds⟩ function stillKnown holds
  · intro allowed early _ function known holds id hasId
    rcases mem_functions_insertFunction.mp known with rfl | known
    · exact dead.not_excludes hasId
    · exact allowed early ⟨function, known, holds⟩ function known holds id hasId

end IsDead

/-- Inserting a function that nothing refers to and whose barriers are accepted does not change
whether a module is accepted. -/
theorem validate_insertFunction (position : Nat)
    (entries : ∀ inst ∈ m.entryPoints, inst.opcode = .entryPoint → ∃ model id,
      inst.start? = some (model, id) ∧ ∃ function ∈ m.functions, function.id? = some id)
    (dead : m.IsDead added)
    (passes : added.Passes ((m.insertFunction position added).facts target) options) :
    (m.insertFunction position added).validate target options = .ok () ↔
      m.validate target options = .ok () := by
  rw [validate_eq_ok_iff_phases, validate_eq_ok_iff_phases]
  have all : (∀ function ∈ (m.insertFunction position added).functions,
        function.Passes ((m.insertFunction position added).facts target) options) ↔
      ∀ function ∈ m.functions, function.Passes (m.facts target) options := by
    simp only [mem_functions_insertFunction, forall_eq_or_imp, passes, true_and]
    exact forall₂_congr fun function known => dead.passes_iff known
  rw [all]
  refine and_congr_right fun passed => ?_
  exact dead.deferred_iff (entryFault?_eq_none_iff.mpr entries) passes.named
    fun function known => (passed function known).named

def bareFragment : Module :=
  { ofCalls [(.fragment, 1)] [(1, [])] with
    typesGlobalValues := barrierBehindCall.typesGlobalValues }

def callBeforeBarrier : Function where
  definition := some ⟨.other "Function", none, some 2, []⟩
  parameters := []
  blocks := [⟨none, [⟨.functionCall, none, none, [.idRef 1]⟩,
    ⟨.controlBarrier, none, none, [.idScope 11, .idScope 11, .idMemorySemantics 12]⟩]⟩]
  ending := none

theorem validate_insertFunction_callBeforeBarrier :
    (bareFragment.insertFunction 0 callBeforeBarrier).validate .universal1_0 {} = .ok () := by
  have clean : bareFragment.entryFault? = none := by rfl
  have dead : bareFragment.IsDead callBeforeBarrier := by decide
  have passes : callBeforeBarrier.Passes
      ((bareFragment.insertFunction 0 callBeforeBarrier).facts .universal1_0) {} := by
    have faultless : ∀ inst ∈ callBeforeBarrier.body, Barrier.fault?
        ((bareFragment.insertFunction 0 callBeforeBarrier).facts .universal1_0) {} inst = none := by
      decide +kernel
    exact ⟨rfl, fun inst member _ => Barrier.accepts_iff_fault?.mpr (faultless inst member)⟩
  have accepted : bareFragment.validate .universal1_0 {} = .ok () := by rfl
  exact (validate_insertFunction 0 (entryFault?_eq_none_iff.mp clean) dead passes).mpr accepted

end Module

end Spirv
