import Spirv.Site

/-!
# Diagnostics

A module is rejected with one diagnostic: what kind of failure, where, and a message. Its text
puts the kind first, then the position of the instruction if the diagnostic has one.
-/

namespace Spirv

inductive FailureKind where
  /-- An operand is not of the scalar kind or width that is expected. -/
  | malformedOperandType
  /-- A capability asks for a constant operand. -/
  | unresolvedRequiredConstant
  /-- The memory model of the module excludes the memory semantics. -/
  | incompatibleMemoryModel
  /-- A flag or scope needs a capability that the module does not declare. -/
  | missingCapability
  /-- More than one memory order. -/
  | conflictingMemoryOrderBits
  /-- Availability or visibility without the order or storage class it depends on. -/
  | missingDependentBit
  | missingMemoryOrderBit
  | missingStorageClassBit
  /-- A named barrier is expected. -/
  | wrongOperandKind
  /-- An entry point whose execution model excludes the instruction reaches it. -/
  | executionModelViolation
  /-- A scope that is undefined or not allowed in the target. -/
  | invalidScope
  /-- The module itself is malformed. -/
  | invalidModule
  deriving DecidableEq, Repr

def FailureKind.phrase : FailureKind → String
  | malformedOperandType => "malformed operand type"
  | unresolvedRequiredConstant => "unresolved required constant"
  | incompatibleMemoryModel => "incompatible memory model"
  | missingCapability => "missing capability"
  | conflictingMemoryOrderBits => "conflicting memory order bits"
  | missingDependentBit => "missing dependent bit"
  | missingMemoryOrderBit => "missing memory order bit"
  | missingStorageClassBit => "missing storage class bit"
  | wrongOperandKind => "wrong operand kind"
  | executionModelViolation => "execution model violation"
  | invalidScope => "invalid scope"
  | invalidModule => "invalid module"

structure Diagnostic where
  kind : FailureKind
  /-- Absent when no single instruction is to blame. -/
  location : Option Location
  message : String
  deriving DecidableEq, Repr

namespace Diagnostic

def ofSite (kind : FailureKind) (site : Site) (message : String) : Diagnostic :=
  ⟨kind, some site.location, message⟩

def ofModule (message : String) : Diagnostic :=
  ⟨.invalidModule, none, message⟩

/-- The position as it follows the kind: a colon and the index, or nothing. -/
def position : Option Location → String
  | none => ""
  | some location => ":" ++ toString location.index

def render (diagnostic : Diagnostic) : String :=
  diagnostic.kind.phrase ++ position diagnostic.location ++ " - " ++ diagnostic.message

end Diagnostic

end Spirv
