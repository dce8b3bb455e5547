import Spirv.Proofs.Scan

/-!
# Accepted barriers

The rules come to conditions on the ids in the operands of a barrier. Each stands for a run-time
value, where the module may have one, or for a constant that is allowed
(`visit_eq_ok_iff_admitted`).
-/
namespace Spirv

namespace Facts

/-- The id stands for a run-time value, which a module for shaders may not have, or for a constant
that is allowed. -/
def Admits (facts : Facts) (allowed : Word → Prop) (id : Ident) : Prop :=
  facts.evaluate id = .runtime ∧ facts.hasCapability .shader = false ∨
    ∃ value, facts.evaluate id = .constant value ∧ allowed value

def AdmitsExecutionScope (facts : Facts) : Ident → Prop :=
  facts.Admits fun value => value ≤ 6 ∧ (facts.target.isVulkan →
    value = Scope.workgroup.number ∨ value = Scope.subgroup.number)

def AdmitsMemoryScope (facts : Facts) : Ident → Prop :=
  facts.Admits fun value => value ≤ 6 ∧
    (value = Scope.queueFamily.number → facts.hasCapability .vulkanMemoryModel) ∧
    (facts.target.isVulkan → value ≠ Scope.crossDevice.number)

def AdmitsSemantics (facts : Facts) (options : Options) (opcode : Opcode) : Ident → Prop :=
  facts.Admits fun value => MemorySemantics.fault?
    { opcode
      memoryModel := facts.memoryModel
      inVulkan := facts.target.isVulkan
      hasVulkanMemoryModel := facts.hasCapability .vulkanMemoryModel
      controlBarrierStorageClass := options.controlBarrierStorageClass } ⟨value⟩ = none

def AdmitsMemoryOperands (facts : Facts) (options : Options) (inst : Instruction) (index : Nat) :
    Prop :=
  ∃ memory semantics, inst.idOperand? index = some memory ∧
    inst.idOperand? (index + 1) = some semantics ∧ facts.AdmitsMemoryScope memory ∧
    facts.AdmitsSemantics options inst.opcode semantics

end Facts

variable {facts : Facts} {options : Options}

/-! ## Operands -/

namespace ScopeRules

theorem executionFault?_eq_none_iff {scope : Scope} : executionFault? facts scope = none ↔
    (facts.target.isVulkan → scope.number = Scope.workgroup.number ∨
      scope.number = Scope.subgroup.number) := by
  rw [Scope.number_inj, Scope.number_inj]
  simp [executionFault?, Decidable.or_iff_not_imp_left]

theorem memoryFault?_eq_none_iff {scope : Scope} : memoryFault? facts scope = none ↔
    (scope.number = Scope.queueFamily.number → facts.hasCapability .vulkanMemoryModel) ∧
      (facts.target.isVulkan → scope.number ≠ Scope.crossDevice.number) := by
  rw [Scope.number_inj, ne_eq, Scope.number_inj]
  unfold memoryFault?
  split
  next ungranted => simp [ungranted]
  next granted =>
    have declared : scope = .queueFamily → facts.hasCapability .vulkanMemoryModel := by
      simpa using granted
    simpa using fun _ => declared

/-- A scope is checked by its number. -/
theorem check_eq_ok_iff_admits {role : OperandRole} {fault? : Scope → Option Fault}
    {allowed : Word → Prop} (byNumber : ∀ scope, fault? scope = none ↔ allowed scope.number)
    {id : Ident} :
    check facts role fault? id = .ok () ↔ facts.Admits (fun value => value ≤ 6 ∧ allowed value) id := by
  rw [check_eq_ok_iff, Facts.Admits]
  refine or_congr_right (exists_congr fun value => ?_)
  constructor
  · rintro ⟨scope, constant, numbered, passes⟩
    obtain rfl := Scope.ofWord?_eq_some_iff.mp numbered
    exact ⟨constant, Scope.exists_number_eq_iff.mp ⟨scope, rfl⟩, (byNumber scope).mp passes⟩
  · rintro ⟨constant, small, passes⟩
    obtain ⟨scope, rfl⟩ := Scope.exists_number_eq_iff.mpr small
    exact ⟨scope, constant, scope.ofWord?_number, (byNumber scope).mpr passes⟩

theorem checkExecution_eq_ok_iff {id : Ident} :
    checkExecution facts id = .ok () ↔ facts.AdmitsExecutionScope id :=
  check_eq_ok_iff_admits fun _ => executionFault?_eq_none_iff

theorem checkMemory_eq_ok_iff {id : Ident} :
    checkMemory facts id = .ok () ↔ facts.AdmitsMemoryScope id :=
  check_eq_ok_iff_admits fun _ => memoryFault?_eq_none_iff

end ScopeRules

theorem MemorySemantics.check_eq_ok_iff_admits {opcode : Opcode} {id : Ident} :
    check facts options opcode id = .ok () ↔ facts.AdmitsSemantics options opcode id :=
  check_eq_ok_iff

/-! ## Instructions -/

namespace Barrier

/-- What a barrier has to look like to be accepted. Anything else is. -/
def Admitted (facts : Facts) (options : Options) (inst : Instruction) : Prop :=
  match inst.opcode with
  | .controlBarrier =>
    ∃ execution, inst.idOperand? 0 = some execution ∧ facts.AdmitsExecutionScope execution ∧
      facts.AdmitsMemoryOperands options inst 1
  | .memoryBarrier => facts.AdmitsMemoryOperands options inst 0
  | .memoryNamedBarrier =>
    (∃ id type, inst.idOperand? 0 = some id ∧ facts.typeOf? id = some type ∧
      facts.opcode? type = some .typeNamedBarrier) ∧ facts.AdmitsMemoryOperands options inst 1
  | .namedBarrierInitialize =>
    (∃ type, inst.resultType = some type ∧ facts.opcode? type = some .typeNamedBarrier) ∧
      ∃ id type, inst.idOperand? 0 = some id ∧ facts.typeOf? id = some type ∧
        facts.isInt type ∧ facts.width? type = some 32
  | _ => True

section Operands

variable {opcode : Opcode} {id : Ident}

theorem executionScope_passes_iff :
    (OperandCheck.executionScope id).fault? facts options opcode = none ↔
      facts.AdmitsExecutionScope id :=
  OperandCheck.fault?_eq_none_iff.trans ScopeRules.checkExecution_eq_ok_iff

theorem memoryScope_passes_iff :
    (OperandCheck.memoryScope id).fault? facts options opcode = none ↔
      facts.AdmitsMemoryScope id :=
  OperandCheck.fault?_eq_none_iff.trans ScopeRules.checkMemory_eq_ok_iff

theorem memorySemantics_passes_iff :
    (OperandCheck.memorySemantics id).fault? facts options opcode = none ↔
      facts.AdmitsSemantics options opcode id :=
  OperandCheck.fault?_eq_none_iff.trans MemorySemantics.check_eq_ok_iff_admits

end Operands

section Instructions

variable {inst : Instruction}

/-- The memory operands are asked for in order, and both have to pass. -/
theorem memoryChecks_pass_iff {index : Nat} :
    (∃ checks, memoryChecks inst index = .ok checks ∧
      ∀ asked ∈ checks, asked.fault? facts options inst.opcode = none) ↔
    facts.AdmitsMemoryOperands options inst index := by
  constructor
  · rintro ⟨checks, shaped, passes⟩
    obtain ⟨memory, semantics, first, second, rfl⟩ := memoryChecks_eq_ok_iff.mp shaped
    have scope := memoryScope_passes_iff.mp (passes _ List.mem_cons_self)
    have word := memorySemantics_passes_iff.mp (passes (.memorySemantics semantics) (by simp))
    exact ⟨memory, semantics, first, second, scope, word⟩
  · rintro ⟨memory, semantics, first, second, scope, word⟩
    refine ⟨_, memoryChecks_eq_ok_iff.mpr ⟨memory, semantics, first, second, rfl⟩, ?_⟩
    rw [List.forall_mem_cons, List.forall_mem_singleton]
    exact ⟨memoryScope_passes_iff.mpr scope, memorySemantics_passes_iff.mpr word⟩

theorem any_operandType?_iff {index : Nat} {keep : Ident → Bool} :
    (facts.operandType? inst index).any keep ↔ ∃ id type, inst.idOperand? index = some id ∧
      facts.typeOf? id = some type ∧ keep type := by
  simp only [Option.any_eq_true, Facts.operandType?, Option.bind_eq_some_iff]
  constructor
  · rintro ⟨type, ⟨id, named, typed⟩, kept⟩
    exact ⟨id, type, named, typed, kept⟩
  · rintro ⟨id, type, named, typed, kept⟩
    exact ⟨type, ⟨id, named, typed⟩, kept⟩

/-- An instruction is accepted if its shape is right and every check that it asks for passes. -/
theorem accepts_iff_operandChecks : Accepts facts options inst ↔
    ∃ checks, operandChecks facts inst = .ok checks ∧
      ∀ asked ∈ checks, asked.fault? facts options inst.opcode = none :=
  accepts_iff_fault?.trans fault?_eq_none_iff

theorem accepts_controlBarrier_iff (kind : inst.opcode = .controlBarrier) :
    Accepts facts options inst ↔ ∃ execution, inst.idOperand? 0 = some execution ∧
      facts.AdmitsExecutionScope execution ∧ facts.AdmitsMemoryOperands options inst 1 := by
  rw [accepts_iff_operandChecks]
  simp only [operandChecks_eq_ok_iff, kind]
  rw [← kind]
  constructor
  · rintro ⟨_, ⟨execution, others, first, shaped, rfl⟩, passes⟩
    rw [List.forall_mem_cons] at passes
    exact ⟨execution, first, executionScope_passes_iff.mp passes.1,
      memoryChecks_pass_iff.mp ⟨others, shaped, passes.2⟩⟩
  · rintro ⟨execution, first, scope, memory⟩
    obtain ⟨others, shaped, passes⟩ := memoryChecks_pass_iff.mpr memory
    refine ⟨_, ⟨execution, others, first, shaped, rfl⟩, ?_⟩
    rw [List.forall_mem_cons]
    exact ⟨executionScope_passes_iff.mpr scope, passes⟩

theorem accepts_memoryBarrier_iff (kind : inst.opcode = .memoryBarrier) :
    Accepts facts options inst ↔ facts.AdmitsMemoryOperands options inst 0 := by
  rw [accepts_iff_operandChecks, ← memoryChecks_pass_iff]
  simp only [operandChecks_eq_ok_iff, kind]

theorem accepts_memoryNamedBarrier_iff (kind : inst.opcode = .memoryNamedBarrier) :
    Accepts facts options inst ↔
      (∃ id type, inst.idOperand? 0 = some id ∧ facts.typeOf? id = some type ∧
        facts.opcode? type = some .typeNamedBarrier) ∧
      facts.AdmitsMemoryOperands options inst 1 := by
  have named : (facts.operandType? inst 0).any facts.isNamedBarrier ↔
      ∃ id type, inst.idOperand? 0 = some id ∧ facts.typeOf? id = some type ∧
        facts.opcode? type = some .typeNamedBarrier := by
    simp [any_operandType?_iff, Facts.isNamedBarrier]
  rw [accepts_iff_operandChecks, ← memoryChecks_pass_iff, ← named]
  simp only [operandChecks_eq_ok_iff, kind, and_assoc, exists_and_left]

theorem accepts_namedBarrierInitialize_iff (kind : inst.opcode = .namedBarrierInitialize) :
    Accepts facts options inst ↔
      (∃ type, inst.resultType = some type ∧ facts.opcode? type = some .typeNamedBarrier) ∧
      ∃ id type, inst.idOperand? 0 = some id ∧ facts.typeOf? id = some type ∧
        facts.isInt type ∧ facts.width? type = some 32 := by
  have typed : inst.resultType.any facts.isNamedBarrier ↔
      ∃ type, inst.resultType = some type ∧ facts.opcode? type = some .typeNamedBarrier := by
    simp [Option.any_eq_true, Facts.isNamedBarrier]
  have counted : (facts.operandType? inst 0).any facts.isInt32 ↔
      ∃ id type, inst.idOperand? 0 = some id ∧ facts.typeOf? id = some type ∧
        facts.isInt type ∧ facts.width? type = some 32 := by
    simp [any_operandType?_iff, Facts.isInt32]
  rw [accepts_iff_operandChecks, ← typed, ← counted]
  simp only [operandChecks_eq_ok_iff, kind]
  constructor
  · rintro ⟨_, ⟨isTyped, isCounted, rfl⟩, -⟩
    exact ⟨isTyped, isCounted⟩
  · rintro ⟨isTyped, isCounted⟩
    exact ⟨[], ⟨isTyped, isCounted, rfl⟩, List.forall_mem_nil _⟩

theorem accepts_iff_admitted : Accepts facts options inst ↔ Admitted facts options inst := by
  unfold Admitted
  split
  next kind => exact accepts_controlBarrier_iff kind
  next kind => exact accepts_memoryBarrier_iff kind
  next kind => exact accepts_memoryNamedBarrier_iff kind
  next kind => exact accepts_namedBarrierInitialize_iff kind
  next =>
    have other : inst.opcode.isBarrier = false := by
      simp_all [← Bool.not_eq_true, Opcode.isBarrier_iff]
    exact iff_of_true (accepts_of_not_isBarrier other) trivial

end Instructions

/-- A visit finds nothing wrong with exactly those instructions that the facts admit. -/
theorem visit_eq_ok_iff_admitted (facts : Facts) (options : Options) (registry : Registry)
    (site : Site) : (visit facts .standard options registry site).1.verdict = .ok () ↔
      Admitted facts options site.inst :=
  check_eq_ok_iff.trans accepts_iff_admitted

end Barrier

end Spirv
