import Spirv.Module
import Spirv.Target

/-!
# Facts

The rules for barriers ask a few questions about the module around an instruction. `Facts` holds
the answers, so that the rules do not depend on how they are found.
-/

namespace Spirv

inductive Evaluation where
  | notInt32
  /-- A 32-bit integer whose value is known only when the program runs. -/
  | runtime
  | constant (value : Word)
  deriving DecidableEq, Repr

structure Facts where
  target : Target
  memoryModel : MemoryModel
  hasCapability : Capability → Bool
  evaluate : Ident → Evaluation
  /-- The opcode of the instruction that defines an id. -/
  opcode? : Ident → Option Opcode
  /-- The type id of a value. -/
  typeOf? : Ident → Option Ident
  /-- Whether a type is a scalar integer. -/
  isInt : Ident → Bool
  /-- The width in bits of a type's components. -/
  width? : Ident → Option Word

namespace Facts

/-- The type id of the value in operand `index`. This is the provided answer, which follows from
`typeOf?`; no source of facts is taken to override it. -/
def operandType? (facts : Facts) (inst : Instruction) (index : Nat) : Option Ident :=
  (inst.idOperand? index).bind facts.typeOf?

def isNamedBarrier (facts : Facts) (type : Ident) : Bool :=
  facts.opcode? type = some .typeNamedBarrier

/-- The width is asked for scalar integers only. -/
def isInt32 (facts : Facts) (type : Ident) : Bool :=
  facts.isInt type && facts.width? type = some 32

end Facts

end Spirv
