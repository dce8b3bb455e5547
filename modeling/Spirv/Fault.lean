import Spirv.Diagnostic

/-!
# Faults

What can be wrong with a barrier instruction, or with the module around it, as causes. The kind
of failure and the wording of each cause are fixed here and nowhere else.
-/

namespace Spirv

inductive OperandRole where
  | executionScope
  | memoryScope
  | memorySemantics
  | subgroupCount
  deriving DecidableEq, Repr

def OperandRole.label : OperandRole → String
  | executionScope => "Execution Scope"
  | memoryScope => "Memory Scope"
  | memorySemantics => "Memory Semantics"
  | subgroupCount => "Subgroup Count"

inductive Fault where
  /-- The operand is missing or is not an id. -/
  | missingOperand (role : OperandRole)
  /-- The operand is not a 32-bit integer. -/
  | notInt32 (role : OperandRole)
  /-- A scope is a run-time value although the module declares `Shader`. -/
  | runtimeScope
  /-- Memory semantics are a run-time value although the module declares `Shader`. -/
  | runtimeSemantics
  /-- The number stands for no scope. -/
  | undefinedScope (value : Word)
  | executionScopeInVulkan
  | crossDeviceInVulkan
  | queueFamilyNeedsCapability
  | resultTypeNotNamedBarrier
  | operandNotNamedBarrier
  | sequentiallyConsistentInVulkanModel
  | flagNeedsCapability (flag : SemanticsFlag)
  | severalMemoryOrders
  | makeAvailableNeedsOrder
  | makeVisibleNeedsOrder
  | noMemoryOrderInVulkan
  | noStorageClassInVulkan
  /-- As `noStorageClassInVulkan`, for an instruction that may also ask for no semantics at all. -/
  | neitherRelaxedNorStorageClassInVulkan
  | noStorageClass
  deriving DecidableEq, Repr

namespace Fault

def kind : Fault → FailureKind
  | missingOperand _ | notInt32 _ => .malformedOperandType
  | runtimeScope | runtimeSemantics => .unresolvedRequiredConstant
  | undefinedScope _ | executionScopeInVulkan | crossDeviceInVulkan => .invalidScope
  | queueFamilyNeedsCapability | flagNeedsCapability _ => .missingCapability
  | resultTypeNotNamedBarrier | operandNotNamedBarrier => .wrongOperandKind
  | sequentiallyConsistentInVulkanModel => .incompatibleMemoryModel
  | severalMemoryOrders => .conflictingMemoryOrderBits
  | makeAvailableNeedsOrder | makeVisibleNeedsOrder | noStorageClass => .missingDependentBit
  | noMemoryOrderInVulkan => .missingMemoryOrderBit
  | noStorageClassInVulkan | neitherRelaxedNorStorageClassInVulkan => .missingStorageClassBit

/-- The cause in words; most name the instruction first. -/
def message (opcode : Opcode) : Fault → String
  | missingOperand role => blame s!"expected {role.label} operand"
  | notInt32 role => blame s!"expected {role.label} to be a 32-bit int"
  | runtimeScope => "Scope ids must be OpConstant when Shader capability is present"
  | runtimeSemantics => "Memory Semantics ids must be OpConstant when Shader capability is present"
  | undefinedScope value => blame s!"invalid scope value {value.toNat}"
  | executionScopeInVulkan =>
    blame "in Vulkan environment Execution Scope is limited to Workgroup and Subgroup"
  | crossDeviceInVulkan => blame "in Vulkan environment, Memory Scope cannot be CrossDevice"
  | queueFamilyNeedsCapability =>
    blame "Memory Scope QueueFamilyKHR requires capability VulkanMemoryModelKHR"
  | resultTypeNotNamedBarrier => blame "expected Result Type to be OpTypeNamedBarrier"
  | operandNotNamedBarrier => blame "expected Named Barrier to be of type OpTypeNamedBarrier"
  | sequentiallyConsistentInVulkanModel =>
    "SequentiallyConsistent memory semantics cannot be used with the VulkanKHR memory model."
  | flagNeedsCapability flag =>
    blame s!"Memory Semantics {flag.name} requires capability VulkanMemoryModelKHR"
  | severalMemoryOrders =>
    blame ("Memory Semantics can have at most one of the following bits set: " ++
      "Acquire, Release, AcquireRelease or SequentiallyConsistent")
  | makeAvailableNeedsOrder =>
    blame ("MakeAvailableKHR Memory Semantics also requires either Release or " ++
      "AcquireRelease Memory Semantics")
  | makeVisibleNeedsOrder =>
    blame ("MakeVisibleKHR Memory Semantics also requires either Acquire or " ++
      "AcquireRelease Memory Semantics")
  | noMemoryOrderInVulkan =>
    blame ("Vulkan specification requires Memory Semantics to have one of the following bits " ++
      "set: Acquire, Release, AcquireRelease or SequentiallyConsistent")
  | noStorageClassInVulkan =>
    blame "expected Memory Semantics to include a Vulkan-supported storage class"
  | neitherRelaxedNorStorageClassInVulkan =>
    blame ("expected Memory Semantics to include a Vulkan-supported storage class if " ++
      "Memory Semantics is not None")
  | noStorageClass => blame "expected Memory Semantics to include a storage class"
where
  /-- Names the instruction before what is wrong with it. -/
  blame (text : String) : String := opcode.mnemonic ++ ": " ++ text

end Fault

def Site.fault (site : Site) (fault : Fault) : Diagnostic :=
  Diagnostic.ofSite fault.kind site (fault.message site.opcode)

def Site.judge (site : Site) (result : Except Fault α) : Except Diagnostic α :=
  result.mapError site.fault

@[simp] theorem Site.judge_ok (site : Site) (value : α) : site.judge (.ok value) = .ok value := rfl

@[simp] theorem Site.judge_error (site : Site) (fault : Fault) :
    site.judge (.error fault : Except Fault α) = .error (site.fault fault) := rfl

/-- What is wrong with a module apart from its barriers. -/
inductive ModuleFault where
  | functionWithoutId
  | malformedEntryPoint
  /-- The entry point names an id that is no function's. -/
  | entryPointNotFunction (id : Ident)
  deriving DecidableEq, Repr

namespace ModuleFault

def message : ModuleFault → String
  | functionWithoutId => "OpFunction is missing a result id"
  | malformedEntryPoint => "malformed OpEntryPoint"
  | entryPointNotFunction id => s!"OpEntryPoint Entry Point <id> {id.toNat} is not a function"

def diagnostic (fault : ModuleFault) : Diagnostic := Diagnostic.ofModule fault.message

end ModuleFault

end Spirv
