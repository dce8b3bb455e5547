import Spirv.Capability
import Spirv.ExecutionModel
import Spirv.MemoryModel
import Spirv.MemorySemantics
import Spirv.Opcode
import Spirv.Scope

/-!
# Modules

A module is a sequence of instructions in sections, the last of which holds its functions. Any
opcode may appear in any section, ids may be undefined or defined more than once, and a function
may lack its definition.
-/

namespace Spirv

inductive Operand where
  | idRef (id : Ident)
  | idScope (id : Ident)
  | idMemorySemantics (id : Ident)
  | literalInt32 (value : Word)
  | literalInt64 (value : UInt64)
  /-- A literal of type `float`, by its bits. -/
  | literalFloat32 (bits : Word)
  | literalExtInstInteger (value : Word)
  | literalString (value : String)
  | executionModel (model : ExecutionModel)
  | addressingModel (model : AddressingModel)
  | memoryModel (model : MemoryModel)
  | capability (declared : Capability)
  | scope (scope : Scope)
  | memorySemantics (semantics : MemorySemantics)
  | functionControl (bits : Word)
  /-- An operand of a kind that no rule reads, such as a decoration. -/
  | other (kind value : String)
  deriving DecidableEq, Repr

namespace Operand

/-- The id that the operand refers to, whatever the reference is for. -/
def id? : Operand → Option Ident
  | idRef id | idScope id | idMemorySemantics id => some id
  | _ => none

def literalInt32? : Operand → Option Word
  | literalInt32 value => some value
  | _ => none

def capability? : Operand → Option Capability
  | capability declared => some declared
  | _ => none

def memoryModel? : Operand → Option MemoryModel
  | memoryModel model => some model
  | _ => none

end Operand

/-- The operands leave out the result type and the result id. -/
structure Instruction where
  opcode : Opcode
  resultType : Option Ident
  resultId : Option Ident
  operands : List Operand
  deriving DecidableEq, Repr

/-- The id in operand `index`, if there is such an operand and it is an id of any kind. -/
def Instruction.idOperand? (inst : Instruction) (index : Nat) : Option Ident :=
  inst.operands[index]?.bind Operand.id?

structure Block where
  label : Option Instruction
  instructions : List Instruction
  deriving DecidableEq, Repr

def Block.listing (block : Block) : List Instruction :=
  block.label.toList ++ block.instructions

structure Function where
  definition : Option Instruction
  parameters : List Instruction
  blocks : List Block
  ending : Option Instruction
  deriving DecidableEq, Repr

namespace Function

def id? (function : Function) : Option Ident :=
  function.definition.bind Instruction.resultId

/-- The instructions that a call of the function may execute: its blocks without their labels. -/
def body (function : Function) : List Instruction :=
  function.blocks.flatMap Block.instructions

def listing (function : Function) : List Instruction :=
  function.definition.toList ++ function.parameters ++ function.blocks.flatMap Block.listing ++
    function.ending.toList

end Function

structure Module where
  capabilities : List Instruction
  extensions : List Instruction
  extInstImports : List Instruction
  memoryModel : Option Instruction
  entryPoints : List Instruction
  executionModes : List Instruction
  debugStringSource : List Instruction
  debugNames : List Instruction
  debugModuleProcessed : List Instruction
  annotations : List Instruction
  typesGlobalValues : List Instruction
  functions : List Function
  deriving DecidableEq, Repr

def Module.listing (m : Module) : List Instruction :=
  m.capabilities ++ m.extensions ++ m.extInstImports ++ m.memoryModel.toList ++ m.entryPoints ++
    m.executionModes ++ m.debugStringSource ++ m.debugNames ++ m.debugModuleProcessed ++
    m.annotations ++ m.typesGlobalValues ++ m.functions.flatMap Function.listing

end Spirv
