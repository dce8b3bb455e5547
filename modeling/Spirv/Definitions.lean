import Spirv.Facts

/-!
# Definitions

The last instruction with a result id defines it, wherever in the module it is. The width of a
vector type is that of the type at the end of its chain of component types, which is followed
through each vector type once, without a result if it comes back to an id it has passed.
-/

namespace Spirv

namespace Instruction

def firstLiteral? (inst : Instruction) : Option Word :=
  inst.operands.head?.bind Operand.literalInt32?

def scalarWidth? (inst : Instruction) : Option Word :=
  match inst.opcode with
  | .typeInt | .typeFloat => inst.firstLiteral?
  | _ => none

def component? (inst : Instruction) : Option Ident :=
  match inst.opcode with
  | .typeVector => inst.idOperand? 0
  | _ => none

/-- What a 32-bit integer instruction gives its id. Specialisation constants are known only when
the program runs. -/
def constantValue (inst : Instruction) : Evaluation :=
  match inst.opcode with
  | .constantNull => .constant 0
  | .constant =>
    match inst.firstLiteral? with
    | some value => .constant value
    | none => .runtime
  | _ => .runtime

end Instruction

namespace Module

def definition? (m : Module) (id : Ident) : Option Instruction :=
  m.listing.findRev? fun inst => inst.resultId = some id

def opcode? (m : Module) (id : Ident) : Option Opcode :=
  (m.definition? id).map Instruction.opcode

def typeOf? (m : Module) (id : Ident) : Option Ident :=
  (m.definition? id).bind Instruction.resultType

def isInt (m : Module) (type : Ident) : Bool :=
  m.opcode? type = some .typeInt

def component? (m : Module) (type : Ident) : Option Ident :=
  (m.definition? type).bind Instruction.component?

def vectorTypes (m : Module) : List Ident :=
  ((m.listing.filterMap Instruction.resultId).filter fun id => (m.component? id).isSome).eraseDups

/-- Follows component types from `type` through vector types among `unpassed`, each at most
once. -/
def followComponents (m : Module) (unpassed : List Ident) (type : Ident) : Option Ident :=
  match m.component? type with
  | none => some type
  | some component =>
    if type ∈ unpassed then m.followComponents (unpassed.erase type) component else none
termination_by unpassed.length
decreasing_by
  rename_i unvisited
  have := List.length_erase_of_mem unvisited
  have := List.length_pos_of_mem unvisited
  omega

/-- The type at the end of the chain of component types; none if the chain does not end. -/
def innermost? (m : Module) (type : Ident) : Option Ident :=
  m.followComponents m.vectorTypes type

def width? (m : Module) (type : Ident) : Option Word :=
  ((m.innermost? type).bind m.definition?).bind Instruction.scalarWidth?

def evaluate (m : Module) (width? : Ident → Option Word) (id : Ident) : Evaluation :=
  match m.definition? id with
  | none => .notInt32
  | some inst =>
    if inst.resultType.any fun type => m.isInt type && width? type = some 32
    then inst.constantValue
    else .notInt32

def declaredCapabilities (m : Module) : List Capability :=
  m.capabilities.filterMap fun inst => inst.operands.head?.bind Operand.capability?

/-- The memory model that the module chooses. A module that chooses none gets one that no rule
looks for. -/
def chosenMemoryModel (m : Module) : MemoryModel :=
  (m.memoryModel.bind fun inst => inst.operands[1]?.bind Operand.memoryModel?).getD .simple

def factsByWidth (m : Module) (width? : Ident → Option Word) (target : Target) : Facts where
  target := target
  memoryModel := m.chosenMemoryModel
  hasCapability capability := capability ∈ m.declaredCapabilities
  evaluate := m.evaluate width?
  opcode? := m.opcode?
  typeOf? := m.typeOf?
  isInt := m.isInt
  width? := width?

def facts (m : Module) (target : Target) : Facts := m.factsByWidth m.width? target

theorem innermost?_of_component?_eq_none {m : Module} {type : Ident}
    (last : m.component? type = none) : m.innermost? type = some type := by
  rw [innermost?, followComponents, last]

/-- A scalar integer starts no chain. -/
theorem component?_of_isInt {m : Module} {type : Ident} (int : m.isInt type = true) :
    m.component? type = none := by
  simp only [isInt, opcode?, decide_eq_true_eq, Option.map_eq_some_iff] at int
  obtain ⟨inst, defined, opcode⟩ := int
  simp [component?, defined, Instruction.component?, opcode]

/-- A scalar integer has the width that it declares. -/
theorem width?_of_isInt {m : Module} {type : Ident} (int : m.isInt type = true) :
    m.width? type = (m.definition? type).bind Instruction.scalarWidth? := by
  rw [width?, innermost?_of_component?_eq_none (component?_of_isInt int), Option.bind_some]

end Module

end Spirv
