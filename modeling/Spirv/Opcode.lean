import Spirv.Vocabulary

/-!
# Opcodes

Only the opcodes that a rule looks for have a constructor; every other one is carried by its
name, which leaves out the `Op` of the mnemonic.
-/

namespace Spirv

inductive Opcode where
  | controlBarrier
  | memoryBarrier
  | namedBarrierInitialize
  | memoryNamedBarrier
  | typeNamedBarrier
  | typeInt
  | typeFloat
  | typeVector
  | constant
  | constantNull
  | entryPoint
  | functionCall
  | other (name : String)
  deriving DecidableEq, Repr

namespace Opcode

/-- The opcodes with a constructor of their own. -/
def known : List Opcode :=
  [controlBarrier, memoryBarrier, namedBarrierInitialize, memoryNamedBarrier, typeNamedBarrier,
    typeInt, typeFloat, typeVector, constant, constantNull, entryPoint, functionCall]

def name : Opcode → String
  | controlBarrier => "ControlBarrier"
  | memoryBarrier => "MemoryBarrier"
  | namedBarrierInitialize => "NamedBarrierInitialize"
  | memoryNamedBarrier => "MemoryNamedBarrier"
  | typeNamedBarrier => "TypeNamedBarrier"
  | typeInt => "TypeInt"
  | typeFloat => "TypeFloat"
  | typeVector => "TypeVector"
  | constant => "Constant"
  | constantNull => "ConstantNull"
  | entryPoint => "EntryPoint"
  | functionCall => "FunctionCall"
  | other name => name

def ofName (text : String) : Opcode := (findNamed? name known text).getD (other text)

@[simp] theorem name_ofName (text : String) : (ofName text).name = text :=
  name_getD_findNamed? rfl

/-- A constructor of its own goes before the constructor by name. -/
theorem ofName_name (opcode : Opcode) (member : opcode ∈ known) :
    ofName opcode.name = opcode := by
  rw [ofName, findNamed?_name (by decide) member, Option.getD_some]

def mnemonic (opcode : Opcode) : String := "Op" ++ opcode.name

def isBarrier : Opcode → Bool
  | controlBarrier | memoryBarrier | namedBarrierInitialize | memoryNamedBarrier => true
  | _ => false

theorem isBarrier_iff {opcode : Opcode} :
    opcode.isBarrier = true ↔
      opcode = controlBarrier ∨ opcode = memoryBarrier ∨ opcode = namedBarrierInitialize ∨
        opcode = memoryNamedBarrier := by
  cases opcode <;> simp [isBarrier]

end Opcode

end Spirv
