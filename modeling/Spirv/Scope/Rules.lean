import Spirv.Facts
import Spirv.Fault
import Spirv.Verdict

/-!
# Scope rules

The id in a scope operand has to be a 32-bit integer, constant where the module declares `Shader`,
and a constant has to be the number of a scope that the use and the target allow. A value known
only when the program runs is not looked at further.
-/

namespace Spirv

structure ScopeRules where
  execution : Facts → Site → Ident → Verdict
  memory : Facts → Site → Ident → Verdict

namespace ScopeRules

/-- The scope in an operand, or none if it is a run-time value. -/
def scopeOf (facts : Facts) (role : OperandRole) (id : Ident) : Except Fault (Option Scope) :=
  match facts.evaluate id with
  | .notInt32 => .error (.notInt32 role)
  | .runtime => if facts.hasCapability .shader then .error .runtimeScope else .ok none
  | .constant value =>
    match Scope.ofWord? value with
    | none => .error (.undefinedScope value)
    | some scope => .ok (some scope)

/-- In a Vulkan target only workgroups and subgroups execute in step. -/
def executionFault? (facts : Facts) (scope : Scope) : Option Fault :=
  if facts.target.isVulkan ∧ scope ≠ .workgroup ∧ scope ≠ .subgroup
  then some .executionScopeInVulkan
  else none

def memoryFault? (facts : Facts) (scope : Scope) : Option Fault :=
  if scope = .queueFamily ∧ ¬facts.hasCapability .vulkanMemoryModel
  then some .queueFamilyNeedsCapability
  else if facts.target.isVulkan ∧ scope = .crossDevice
  then some .crossDeviceInVulkan
  else none

def check (facts : Facts) (role : OperandRole) (fault? : Scope → Option Fault) (id : Ident) :
    Except Fault Unit :=
  match scopeOf facts role id with
  | .error fault => .error fault
  | .ok none => .ok ()
  | .ok (some scope) =>
    match fault? scope with
    | some fault => .error fault
    | none => .ok ()

/-- A scope passes if it is a run-time value where the module may have one, or the number of a scope
that is allowed. -/
theorem check_eq_ok_iff {facts : Facts} {role : OperandRole} {fault? : Scope → Option Fault}
    {id : Ident} : check facts role fault? id = .ok () ↔
      facts.evaluate id = .runtime ∧ facts.hasCapability .shader = false ∨
      ∃ value scope, facts.evaluate id = .constant value ∧ Scope.ofWord? value = some scope ∧
        fault? scope = none := by
  unfold check scopeOf
  cases facts.evaluate id with
  | notInt32 => simp
  | runtime => cases facts.hasCapability .shader <;> simp
  | constant value =>
    cases numbered : Scope.ofWord? value with
    | none => simp [numbered]
    | some scope => cases judged : fault? scope <;> simp [numbered, judged]

def checkExecution (facts : Facts) : Ident → Except Fault Unit :=
  check facts .executionScope (executionFault? facts)

def checkMemory (facts : Facts) : Ident → Except Fault Unit :=
  check facts .memoryScope (memoryFault? facts)

def standard : ScopeRules where
  execution facts site id := site.judge (checkExecution facts id)
  memory facts site id := site.judge (checkMemory facts id)

end ScopeRules

end Spirv
