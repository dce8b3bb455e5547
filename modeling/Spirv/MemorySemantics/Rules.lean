import Spirv.Facts
import Spirv.Fault

/-!
# Memory semantics rules

A constant Memory Semantics word has to pass seven rules. They are asked in a fixed order, from
what the module as a whole allows to how flags depend on each other, and the first rule that
finds a fault decides which fault is reported.
-/

namespace Spirv

structure Options where
  /-- Whether a control barrier in a Vulkan target has to include a storage class unless its
  semantics are relaxed, as a memory barrier always has to. Shaders that conform to Vulkan
  break this rule, so it is off by default. -/
  controlBarrierStorageClass : Bool := false
  deriving DecidableEq, Repr

/-- What the rules need to know besides the word. -/
structure SemanticsContext where
  opcode : Opcode
  memoryModel : MemoryModel
  inVulkan : Bool
  /-- Whether the module declares the capability for the Vulkan memory model. -/
  hasVulkanMemoryModel : Bool
  controlBarrierStorageClass : Bool
  deriving DecidableEq, Repr

def SemanticsContext.ofFacts (facts : Facts) (options : Options) (opcode : Opcode) :
    SemanticsContext where
  opcode := opcode
  memoryModel := facts.memoryModel
  inVulkan := facts.target.isVulkan
  hasVulkanMemoryModel := facts.hasCapability .vulkanMemoryModel
  controlBarrierStorageClass := options.controlBarrierStorageClass

inductive SemanticsRule where
  | sequentialOrder
  | gatedFlags
  | singleOrder
  | availabilityOrder
  | visibilityOrder
  | vulkanTarget
  | availabilityStorage
  deriving DecidableEq, Repr

namespace SemanticsRule

open SemanticsFlag

/-- The rules in the order in which they are asked. -/
def all : List SemanticsRule :=
  [sequentialOrder, gatedFlags, singleOrder, availabilityOrder,
    visibilityOrder, vulkanTarget, availabilityStorage]

theorem mem_all (rule : SemanticsRule) : rule ∈ all := by
  cases rule <;> decide

/-- The Vulkan memory model has no sequential consistency. -/
def sequentialOrderFault? (context : SemanticsContext) (semantics : MemorySemantics) :
    Option Fault :=
  if context.memoryModel = .vulkan ∧ semantics.has sequentiallyConsistent
  then some .sequentiallyConsistentInVulkanModel
  else none

/-- The flags that the Vulkan memory model introduces need its capability. -/
def gatedFlagsFault? (context : SemanticsContext) (semantics : MemorySemantics) : Option Fault :=
  if context.hasVulkanMemoryModel then none
  else (gated.find? semantics.has).map .flagNeedsCapability

def singleOrderFault? (semantics : MemorySemantics) : Option Fault :=
  if 1 < semantics.orderCount then some .severalMemoryOrders else none

/-- Writes are made available by a release. -/
def availabilityOrderFault? (semantics : MemorySemantics) : Option Fault :=
  if semantics.has makeAvailable ∧ ¬semantics.hasAny [release, acquireRelease]
  then some .makeAvailableNeedsOrder
  else none

/-- Writes are made visible by an acquire. -/
def visibilityOrderFault? (semantics : MemorySemantics) : Option Fault :=
  if semantics.has makeVisible ∧ ¬semantics.hasAny [acquire, acquireRelease]
  then some .makeVisibleNeedsOrder
  else none

/-- In a Vulkan target a memory barrier needs an order and a storage class that Vulkan
supports. A control barrier needs the storage class if the options ask for it and the word is
not relaxed. -/
def vulkanTargetFault? (context : SemanticsContext) (semantics : MemorySemantics) :
    Option Fault :=
  if ¬context.inVulkan then none
  else
    match context.opcode with
    | .memoryBarrier =>
      if semantics.orderCount = 0 then some .noMemoryOrderInVulkan
      else if semantics.hasAny vulkanStorageClasses then none
      else some .noStorageClassInVulkan
    | .controlBarrier =>
      if context.controlBarrierStorageClass ∧ semantics ≠ .relaxed ∧
          ¬semantics.hasAny vulkanStorageClasses
      then some .neitherRelaxedNorStorageClassInVulkan
      else none
    | _ => none

/-- What is made available or visible lies in some storage class. -/
def availabilityStorageFault? (semantics : MemorySemantics) : Option Fault :=
  if semantics.hasAny [makeAvailable, makeVisible] ∧ ¬semantics.hasAny storageClasses
  then some .noStorageClass
  else none

/-- The fault that a rule finds, if any. -/
def fault? (context : SemanticsContext) (semantics : MemorySemantics) :
    SemanticsRule → Option Fault
  | sequentialOrder => sequentialOrderFault? context semantics
  | gatedFlags => gatedFlagsFault? context semantics
  | singleOrder => singleOrderFault? semantics
  | availabilityOrder => availabilityOrderFault? semantics
  | visibilityOrder => visibilityOrderFault? semantics
  | vulkanTarget => vulkanTargetFault? context semantics
  | availabilityStorage => availabilityStorageFault? semantics

end SemanticsRule

namespace MemorySemantics

/-- The fault of the first rule that finds one. -/
def fault? (context : SemanticsContext) (semantics : MemorySemantics) : Option Fault :=
  SemanticsRule.all.findSome? (SemanticsRule.fault? context semantics)

/-- A word passes if no rule finds a fault. -/
theorem fault?_eq_none_iff {context : SemanticsContext} {semantics : MemorySemantics} :
    fault? context semantics = none ↔ ∀ rule : SemanticsRule, rule.fault? context semantics = none := by
  rw [fault?, List.findSome?_eq_none_iff]
  constructor
  · intro passes rule
    exact passes rule rule.mem_all
  · intro passes rule _
    exact passes rule

def check (facts : Facts) (options : Options) (opcode : Opcode) (id : Ident) :
    Except Fault Unit :=
  match facts.evaluate id with
  | .notInt32 => .error (.notInt32 .memorySemantics)
  | .runtime => if facts.hasCapability .shader then .error .runtimeSemantics else .ok ()
  | .constant value =>
    match fault? (.ofFacts facts options opcode) ⟨value⟩ with
    | some fault => .error fault
    | none => .ok ()

/-- Memory semantics pass if they are a run-time value where the module may have one, or a word that
passes the rules. -/
theorem check_eq_ok_iff {facts : Facts} {options : Options} {opcode : Opcode} {id : Ident} :
    check facts options opcode id = .ok () ↔
      facts.evaluate id = .runtime ∧ facts.hasCapability .shader = false ∨
      ∃ value, facts.evaluate id = .constant value ∧
        fault? (.ofFacts facts options opcode) ⟨value⟩ = none := by
  unfold check
  cases facts.evaluate id with
  | notInt32 => simp
  | runtime => cases facts.hasCapability .shader <;> simp
  | constant value =>
    cases judged : fault? (.ofFacts facts options opcode) ⟨value⟩ <;> simp [judged]

end MemorySemantics

end Spirv
