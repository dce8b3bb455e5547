import Spirv.Proofs.Scan

/-!
# What barriers are judged by

The rules see a module through its facts, and ids only through what the facts say of them. An
instruction and its renaming are at fault alike where the facts say of the new ids what they said
of the old ones (`Barrier.fault?_rename`).
-/
namespace Spirv

namespace Operand

def rename (ρ : Ident → Ident) : Operand → Operand
  | idRef id => idRef (ρ id)
  | idScope id => idScope (ρ id)
  | idMemorySemantics id => idMemorySemantics (ρ id)
  | literal => literal

@[simp] theorem id?_rename (ρ : Ident → Ident) (operand : Operand) :
    (operand.rename ρ).id? = operand.id?.map ρ := by
  cases operand <;> rfl

@[simp] theorem literalInt32?_rename (ρ : Ident → Ident) (operand : Operand) :
    (operand.rename ρ).literalInt32? = operand.literalInt32? := by
  cases operand <;> rfl

@[simp] theorem capability?_rename (ρ : Ident → Ident) (operand : Operand) :
    (operand.rename ρ).capability? = operand.capability? := by
  cases operand <;> rfl

@[simp] theorem memoryModel?_rename (ρ : Ident → Ident) (operand : Operand) :
    (operand.rename ρ).memoryModel? = operand.memoryModel? := by
  cases operand <;> rfl

@[simp] theorem rename_id : rename id = id := by
  funext operand
  cases operand <;> rfl

end Operand

namespace Instruction

def rename (ρ : Ident → Ident) (inst : Instruction) : Instruction where
  opcode := inst.opcode
  resultType := inst.resultType.map ρ
  resultId := inst.resultId.map ρ
  operands := inst.operands.map (Operand.rename ρ)

variable (ρ : Ident → Ident) (inst : Instruction)

@[simp] theorem opcode_rename : (inst.rename ρ).opcode = inst.opcode := rfl

@[simp] theorem rename_id : rename id = id := by
  funext inst
  simp [rename]

@[simp] theorem idOperand?_rename (index : Nat) :
    (inst.rename ρ).idOperand? index = (inst.idOperand? index).map ρ := by
  rw [idOperand?, idOperand?, rename, List.getElem?_map, Option.bind_map, Option.map_bind]
  congr 1
  funext operand
  exact operand.id?_rename ρ

@[simp] theorem firstLiteral?_rename : (inst.rename ρ).firstLiteral? = inst.firstLiteral? := by
  rw [firstLiteral?, firstLiteral?, rename, List.head?_map, Option.bind_map]
  congr 1
  funext operand
  exact operand.literalInt32?_rename ρ

@[simp] theorem constantValue_rename : (inst.rename ρ).constantValue = inst.constantValue := by
  simp [constantValue]

end Instruction

namespace Facts

/-- The second facts say of the renamed ids what the first say of the ids. The width of a type
counts only where it is that of a scalar integer, and of the target only whether it is Vulkan. -/
structure Renamed (ρ : Ident → Ident) (facts renamed : Facts) : Prop where
  isVulkan : renamed.target.isVulkan = facts.target.isVulkan
  memoryModel : renamed.memoryModel = facts.memoryModel
  hasCapability : renamed.hasCapability = facts.hasCapability
  evaluate (id : Ident) : renamed.evaluate (ρ id) = facts.evaluate id
  opcode? (id : Ident) : renamed.opcode? (ρ id) = facts.opcode? id
  typeOf? (id : Ident) : renamed.typeOf? (ρ id) = (facts.typeOf? id).map ρ
  isInt32 (type : Ident) : renamed.isInt32 (ρ type) = facts.isInt32 type

namespace Renamed

variable {ρ : Ident → Ident} {facts renamed : Facts} (same : Renamed ρ facts renamed)
include same

theorem any_isNamedBarrier (type : Option Ident) :
    (type.map ρ).any renamed.isNamedBarrier = type.any facts.isNamedBarrier := by
  rw [Option.any_map]
  congr 1
  funext id
  exact congrArg (fun opcode => decide (opcode = some Opcode.typeNamedBarrier)) (same.opcode? id)

theorem any_isInt32 (type : Option Ident) :
    (type.map ρ).any renamed.isInt32 = type.any facts.isInt32 := by
  rw [Option.any_map]
  congr 1
  funext id
  exact same.isInt32 id

theorem operandType? (inst : Instruction) (index : Nat) :
    renamed.operandType? (inst.rename ρ) index = (facts.operandType? inst index).map ρ := by
  rw [Facts.operandType?, Facts.operandType?, Instruction.idOperand?_rename, Option.bind_map,
    Option.map_bind]
  congr 1
  funext id
  exact same.typeOf? id

theorem scopeOf (role : OperandRole) (id : Ident) :
    ScopeRules.scopeOf renamed role (ρ id) = ScopeRules.scopeOf facts role id := by
  rw [ScopeRules.scopeOf, ScopeRules.scopeOf, same.evaluate, same.hasCapability]

theorem checkExecution (id : Ident) :
    ScopeRules.checkExecution renamed (ρ id) = ScopeRules.checkExecution facts id := by
  have limits : ScopeRules.executionFault? renamed = ScopeRules.executionFault? facts := by
    funext scope
    rw [ScopeRules.executionFault?, ScopeRules.executionFault?, same.isVulkan]
  rw [ScopeRules.checkExecution, ScopeRules.checkExecution, ScopeRules.check, ScopeRules.check,
    same.scopeOf, limits]

theorem checkMemory (id : Ident) :
    ScopeRules.checkMemory renamed (ρ id) = ScopeRules.checkMemory facts id := by
  have limits : ScopeRules.memoryFault? renamed = ScopeRules.memoryFault? facts := by
    funext scope
    rw [ScopeRules.memoryFault?, ScopeRules.memoryFault?, same.isVulkan, same.hasCapability]
  rw [ScopeRules.checkMemory, ScopeRules.checkMemory, ScopeRules.check, ScopeRules.check,
    same.scopeOf, limits]

theorem checkSemantics (options : Options) (opcode : Opcode) (id : Ident) :
    MemorySemantics.check renamed options opcode (ρ id) =
      MemorySemantics.check facts options opcode id := by
  have context : SemanticsContext.ofFacts renamed options opcode = .ofFacts facts options opcode := by
    rw [SemanticsContext.ofFacts, SemanticsContext.ofFacts, same.isVulkan, same.memoryModel,
      same.hasCapability]
  rw [MemorySemantics.check, MemorySemantics.check, same.evaluate, same.hasCapability, context]

end Renamed
end Facts

def OperandCheck.rename (ρ : Ident → Ident) : OperandCheck → OperandCheck
  | executionScope id => executionScope (ρ id)
  | memoryScope id => memoryScope (ρ id)
  | memorySemantics id => memorySemantics (ρ id)

namespace Barrier

variable {ρ : Ident → Ident} {facts renamed : Facts}

theorem operand_rename (ρ : Ident → Ident) (inst : Instruction) (index : Nat) (role : OperandRole) :
    operand (inst.rename ρ) index role = (operand inst index role).map ρ := by
  rw [operand, operand, Instruction.idOperand?_rename]
  cases inst.idOperand? index <;> rfl

theorem memoryChecks_rename (ρ : Ident → Ident) (inst : Instruction) (index : Nat) :
    memoryChecks (inst.rename ρ) index =
      (memoryChecks inst index).map (List.map (OperandCheck.rename ρ)) := by
  rw [memoryChecks, memoryChecks, operand_rename, operand_rename]
  cases operand inst index .memoryScope with
  | error fault => rfl
  | ok memory => cases operand inst (index + 1) .memorySemantics <;> rfl

theorem operandChecks_rename (same : facts.Renamed ρ renamed) (inst : Instruction) :
    operandChecks renamed (inst.rename ρ) =
      (operandChecks facts inst).map (List.map (OperandCheck.rename ρ)) := by
  simp only [operandChecks, Instruction.opcode_rename]
  split
  · rw [operand_rename, memoryChecks_rename]
    cases operand inst 0 .executionScope with
    | error fault => rfl
    | ok execution => cases memoryChecks inst 1 <;> rfl
  · exact memoryChecks_rename ρ inst 0
  · rw [same.operandType?, same.any_isInt32]
    change (if ¬(inst.resultType.map ρ).any renamed.isNamedBarrier then _ else _) = _
    rw [same.any_isNamedBarrier]
    split
    · rfl
    · split <;> rfl
  · rw [same.operandType?, same.any_isNamedBarrier, memoryChecks_rename]
    split <;> rfl
  · rfl

theorem fault?_operandCheck_rename (same : facts.Renamed ρ renamed) (options : Options)
    (opcode : Opcode) (asked : OperandCheck) :
    (asked.rename ρ).fault? renamed options opcode = asked.fault? facts options opcode := by
  cases asked with
  | executionScope id => simp only [OperandCheck.rename, OperandCheck.fault?, same.checkExecution]
  | memoryScope id => simp only [OperandCheck.rename, OperandCheck.fault?, same.checkMemory]
  | memorySemantics id => simp only [OperandCheck.rename, OperandCheck.fault?, same.checkSemantics]

/-- What is wrong with an instruction does not depend on which ids it uses. -/
theorem fault?_rename (same : facts.Renamed ρ renamed) (options : Options) (inst : Instruction) :
    fault? renamed options (inst.rename ρ) = fault? facts options inst := by
  rw [fault?, fault?, operandChecks_rename same]
  cases operandChecks facts inst with
  | error fault => rfl
  | ok checks =>
    change (checks.map (OperandCheck.rename ρ)).findSome? _ = checks.findSome? _
    rw [List.findSome?_map]
    congr 1
    funext asked
    exact fault?_operandCheck_rename same options inst.opcode asked

theorem fault?_same (same : facts.Renamed id renamed) (options : Options) (inst : Instruction) :
    fault? renamed options inst = fault? facts options inst := by
  simpa using fault?_rename same options inst

end Barrier

def Instruction.declaresInt32 (inst : Instruction) : Bool :=
  inst.opcode = .typeInt && inst.firstLiteral? = some 32

@[simp] theorem Instruction.declaresInt32_rename (ρ : Ident → Ident) (inst : Instruction) :
    (inst.rename ρ).declaresInt32 = inst.declaresInt32 := by
  rw [declaresInt32, declaresInt32, opcode_rename, firstLiteral?_rename]

theorem findRev?_map {f : α → β} {keep : β → Bool} (list : List α) :
    (list.map f).findRev? keep = (list.findRev? fun member => keep (f member)).map f := by
  rw [List.findRev?_eq_find?_reverse, List.findRev?_eq_find?_reverse, ← List.map_reverse,
    List.find?_map]
  rfl

theorem findRev?_filter (p : α → Bool) (list : List α) :
    (list.filter p).findRev? p = list.findRev? p := by
  rw [List.findRev?_eq_find?_reverse, List.findRev?_eq_find?_reverse, ← List.filter_reverse,
    List.find?_filter]
  simp

theorem mem_of_findRev? {keep : α → Bool} {list : List α} {member : α}
    (found : list.findRev? keep = some member) : member ∈ list := by
  rw [List.findRev?_eq_find?_reverse] at found
  exact List.mem_reverse.mp (List.mem_of_find?_eq_some found)

/-- What the facts keep of the instruction that defines an id. -/
structure Meaning where
  opcode : Opcode
  resultType : Option Ident
  declaresInt32 : Bool
  value : Evaluation

def Meaning.rename (ρ : Ident → Ident) (meaning : Meaning) : Meaning :=
  { meaning with resultType := meaning.resultType.map ρ }

@[simp] theorem Meaning.rename_id : rename id = id := by
  funext meaning
  simp [rename]

def Instruction.meaning (inst : Instruction) : Meaning :=
  ⟨inst.opcode, inst.resultType, inst.declaresInt32, inst.constantValue⟩

theorem Instruction.meaning_rename (ρ : Ident → Ident) (inst : Instruction) :
    (inst.rename ρ).meaning = inst.meaning.rename ρ := by
  simp only [meaning, Meaning.rename, opcode_rename, declaresInt32_rename, constantValue_rename]
  rfl

def Instruction.defines (inst : Instruction) : Option (Ident × Meaning) :=
  inst.resultId.map (·, inst.meaning)

namespace Module

variable {m renamed : Module} {ρ : Ident → Ident}

def meaning? (m : Module) (id : Ident) : Option Meaning :=
  (m.definition? id).map Instruction.meaning

theorem meaning?_eq (m : Module) (id : Ident) : m.meaning? id =
    ((m.listing.filterMap Instruction.defines).findRev? fun entry => entry.1 = id).map
      Prod.snd := by
  have keyed (inst : Instruction) : (inst.defines.any fun entry => entry.1 = id) =
      decide (inst.resultId = some id) := by
    cases named : inst.resultId <;> simp [Instruction.defines, named]
  rw [meaning?, definition?, List.findRev?_eq_find?_reverse, List.findRev?_eq_find?_reverse,
    ← List.filterMap_reverse, List.find?_filterMap]
  simp only [keyed]
  cases found : m.listing.reverse.find? fun inst => inst.resultId = some id with
  | none => rfl
  | some inst =>
    have named : inst.resultId = some id := by simpa using List.find?_some found
    simp [Instruction.defines, named]

section Facts

variable (m : Module) (target : Target)

-- `rfl` would compare the functions by what they compute.
theorem opcode?_facts (id : Ident) :
    (m.facts target).opcode? id = (m.meaning? id).map Meaning.opcode := by
  simp only [facts, factsByWidth, opcode?, meaning?, Option.map_map]
  rfl

theorem typeOf?_facts (id : Ident) :
    (m.facts target).typeOf? id = (m.meaning? id).bind Meaning.resultType := by
  simp only [facts, factsByWidth, typeOf?, meaning?, Option.bind_map]
  rfl

theorem isInt32_eq (type : Ident) : (m.facts target).isInt32 type =
    (m.isInt type && decide (m.width? type = some 32)) := by
  simp only [Facts.isInt32, facts, factsByWidth]
  congr

theorem isInt32_facts (type : Ident) :
    (m.facts target).isInt32 type = (m.meaning? type).any Meaning.declaresInt32 := by
  rw [isInt32_eq, meaning?, Option.any_map]
  cases int : m.isInt type with
  | false =>
    cases defined : m.definition? type with
    | none => rfl
    | some inst =>
      have other : inst.opcode ≠ .typeInt := by simpa [isInt, opcode?, defined] using int
      simp [Instruction.meaning, Instruction.declaresInt32, other]
  | true =>
    rw [width?_of_isInt int]
    cases defined : m.definition? type with
    | none => rfl
    | some inst =>
      have opcode : inst.opcode = .typeInt := by simpa [isInt, opcode?, defined] using int
      simp [Instruction.meaning, Instruction.declaresInt32, Instruction.scalarWidth?, opcode]

theorem evaluate_facts (id : Ident) : (m.facts target).evaluate id =
    match m.meaning? id with
    | none => .notInt32
    | some meaning =>
      if meaning.resultType.any (m.facts target).isInt32 then meaning.value else .notInt32 := by
  simp only [facts, factsByWidth, evaluate, meaning?]
  cases m.definition? id <;> rfl

end Facts

/-- Two modules that define the same ids in the same order, with the same meanings, mean the same
by each id. -/
theorem meaning?_congr
    (defines : renamed.listing.filterMap Instruction.defines =
      m.listing.filterMap Instruction.defines) (id : Ident) :
    renamed.meaning? id = m.meaning? id := by
  rw [meaning?_eq, meaning?_eq, defines]

/-- Facts are renamed with the meanings that they come from. -/
theorem facts_renamed_of_meanings
    (meanings : ∀ id, renamed.meaning? (ρ id) = (m.meaning? id).map (Meaning.rename ρ))
    (capabilities : ∀ capability,
      capability ∈ renamed.declaredCapabilities ↔ capability ∈ m.declaredCapabilities)
    (memoryModel : renamed.chosenMemoryModel = m.chosenMemoryModel) {target other : Target}
    (isVulkan : other.isVulkan = target.isVulkan) :
    (m.facts target).Renamed ρ (renamed.facts other) := by
  have isInt32 (type : Ident) : (renamed.facts other).isInt32 (ρ type) =
      (m.facts target).isInt32 type := by
    rw [isInt32_facts, isInt32_facts, meanings, Option.any_map]
    rfl
  refine ⟨isVulkan, memoryModel, ?_, fun id => ?_, fun id => ?_, fun id => ?_, isInt32⟩
  · funext capability
    exact decide_eq_decide.mpr (capabilities capability)
  · rw [evaluate_facts, evaluate_facts, meanings]
    cases m.meaning? id with
    | none => rfl
    | some meaning =>
      have typed : (meaning.resultType.map ρ).any (renamed.facts other).isInt32 =
          meaning.resultType.any (m.facts target).isInt32 :=
        Option.any_map.trans (congrArg meaning.resultType.any (funext isInt32))
      simp only [Option.map_some, Meaning.rename, typed]
  · rw [opcode?_facts, opcode?_facts, meanings, Option.map_map]
    rfl
  · rw [typeOf?_facts, typeOf?_facts, meanings, Option.bind_map, Option.map_bind]
    rfl

/-- Facts are renamed with the definitions that they come from. -/
theorem facts_renamed
    (definitions : ∀ id, renamed.definition? (ρ id) = (m.definition? id).map (Instruction.rename ρ))
    (capabilities : ∀ capability,
      capability ∈ renamed.declaredCapabilities ↔ capability ∈ m.declaredCapabilities)
    (memoryModel : renamed.chosenMemoryModel = m.chosenMemoryModel) (target : Target) :
    (m.facts target).Renamed ρ (renamed.facts target) := by
  refine facts_renamed_of_meanings (fun id => ?_) capabilities memoryModel rfl
  rw [meaning?, definitions, meaning?, Option.map_map, Option.map_map]
  congr 1
  funext inst
  exact inst.meaning_rename ρ

/-- Where ids mean the same, so do the facts. -/
theorem facts_same_of_meanings (meanings : ∀ id, renamed.meaning? id = m.meaning? id)
    (capabilities : ∀ capability,
      capability ∈ renamed.declaredCapabilities ↔ capability ∈ m.declaredCapabilities)
    (memoryModel : renamed.chosenMemoryModel = m.chosenMemoryModel) {target other : Target}
    (isVulkan : other.isVulkan = target.isVulkan) :
    (m.facts target).Renamed id (renamed.facts other) := by
  refine facts_renamed_of_meanings (fun id => ?_) capabilities memoryModel isVulkan
  simpa using meanings id

/-- Modules with the same definitions have the same facts. -/
theorem facts_same (definitions : ∀ id, renamed.definition? id = m.definition? id)
    (capabilities : ∀ capability,
      capability ∈ renamed.declaredCapabilities ↔ capability ∈ m.declaredCapabilities)
    (memoryModel : renamed.chosenMemoryModel = m.chosenMemoryModel) (target : Target) :
    (m.facts target).Renamed id (renamed.facts target) :=
  facts_same_of_meanings (fun id => congrArg (Option.map Instruction.meaning) (definitions id))
    capabilities memoryModel rfl

end Module

end Spirv
