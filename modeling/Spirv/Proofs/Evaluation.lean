import Spirv.Proofs.Judgement

/-!
# What is known of an id

Two lookups of the last instruction with a result id decide what is known of an id as a 32-bit
integer: that of the id, and that of the type of the instruction that defines it
(`evaluate_exact`).
-/
namespace Spirv

/-- The last member that a test holds of is the one after which it holds of none. -/
theorem findRev?_eq_some_iff_append {test : α → Bool} {list : List α} {member : α} :
    list.findRev? test = some member ↔ ∃ before after, list = before ++ member :: after ∧
      test member ∧ ∀ later ∈ after, test later = false := by
  rw [List.findRev?_eq_find?_reverse, List.find?_eq_some_iff_append]
  constructor
  · rintro ⟨passes, skipped, rest, split, fails⟩
    refine ⟨rest.reverse, skipped.reverse, ?_, passes, fun later listed => ?_⟩
    · rw [← List.reverse_reverse list, split]
      simp
    · simpa using fails later (List.mem_reverse.mp listed)
  · rintro ⟨before, after, rfl, passes, fails⟩
    refine ⟨passes, after.reverse, before.reverse, by simp, fun later listed => ?_⟩
    simpa using fails later (List.mem_reverse.mp listed)

namespace Instruction

variable {inst : Instruction} {value : Word}

/-- What the instruction gives as a 32-bit integer, if it gives one that is known. -/
def HoldsConstant (inst : Instruction) (value : Word) : Prop :=
  inst.opcode = .constantNull ∧ value = 0 ∨
    inst.opcode = .constant ∧ inst.operands.head? = some (.literalInt32 value)

theorem firstLiteral?_eq_some_iff :
    inst.firstLiteral? = some value ↔ inst.operands.head? = some (.literalInt32 value) := by
  rw [firstLiteral?, Option.bind_eq_some_iff]
  constructor
  · rintro ⟨operand, first, literal⟩
    cases operand with
    | literalInt32 => cases literal; exact first
    | _ => cases literal
  · intro first
    exact ⟨_, first, rfl⟩

theorem constantValue_eq_constant_iff :
    inst.constantValue = .constant value ↔ inst.HoldsConstant value := by
  unfold constantValue HoldsConstant
  rw [← firstLiteral?_eq_some_iff]
  split
  next null => simp [null, eq_comm]
  next constant => cases inst.firstLiteral? <;> simp [constant]
  next notNull notConstant =>
    refine iff_of_false nofun ?_
    rintro (⟨null, -⟩ | ⟨constant, -⟩)
    · exact notNull null
    · exact notConstant constant

theorem constantValue_ne_notInt32 : inst.constantValue ≠ .notInt32 := by
  unfold constantValue
  split
  · nofun
  · split <;> nofun
  · nofun

theorem constantValue_eq_runtime_iff :
    inst.constantValue = .runtime ↔ ∀ value, ¬inst.HoldsConstant value := by
  simp only [← constantValue_eq_constant_iff]
  have known := inst.constantValue_ne_notInt32
  cases held : inst.constantValue with
  | notInt32 => exact absurd held known
  | runtime => simp
  | constant value => simp

theorem declaresInt32_iff : inst.declaresInt32 ↔
    inst.opcode = .typeInt ∧ inst.operands.head? = some (.literalInt32 32) := by
  rw [← firstLiteral?_eq_some_iff]
  simp [declaresInt32]

end Instruction

namespace Module

variable {m : Module} {target : Target} {id type : Ident} {inst : Instruction}

def LastDefines (m : Module) (id : Ident) (inst : Instruction) : Prop :=
  ∃ before after, m.listing = before ++ inst :: after ∧ inst.resultId = some id ∧
    ∀ later ∈ after, later.resultId ≠ some id

theorem definition?_eq_some_iff : m.definition? id = some inst ↔ m.LastDefines id inst := by
  rw [definition?, findRev?_eq_some_iff_append]
  simp only [decide_eq_true_eq, decide_eq_false_iff_not]
  rfl

theorem definition?_eq_none_iff :
    m.definition? id = none ↔ ∀ inst ∈ m.listing, inst.resultId ≠ some id := by
  simp [definition?, List.findRev?_eq_find?_reverse]

/-- The type is declared last as that of 32-bit integers. -/
def IsInt32Type (m : Module) (type : Ident) : Prop :=
  ∃ declaration, m.LastDefines type declaration ∧ declaration.opcode = .typeInt ∧
    declaration.operands.head? = some (.literalInt32 32)

theorem isInt32_iff : (m.facts target).isInt32 type ↔ m.IsInt32Type type := by
  rw [isInt32_facts, meaning?, Option.any_map, Option.any_eq_true]
  refine exists_congr fun declaration => and_congr definition?_eq_some_iff ?_
  exact Instruction.declaresInt32_iff

theorem evaluate_of_undefined (undefined : m.definition? id = none) :
    (m.facts target).evaluate id = .notInt32 := by
  rw [evaluate_facts, meaning?, undefined]
  rfl

/-- A definition is asked for its value if its result is a 32-bit integer. -/
theorem evaluate_of_definition (defined : m.definition? id = some inst) :
    (m.facts target).evaluate id =
      if inst.resultType.any (m.facts target).isInt32 then inst.constantValue else .notInt32 := by
  rw [evaluate_facts, meaning?, defined]
  rfl

theorem any_isInt32_iff (target : Target) : inst.resultType.any (m.facts target).isInt32 ↔
    ∃ type, inst.resultType = some type ∧ m.IsInt32Type type := by
  rw [Option.any_eq_true]
  exact exists_congr fun type => and_congr_right fun _ => isInt32_iff

theorem not_any_isInt32_iff (target : Target) :
    ¬inst.resultType.any (m.facts target).isInt32 ↔
      inst.resultType = none ∨ ∃ type, inst.resultType = some type ∧ ¬m.IsInt32Type type := by
  rw [any_isInt32_iff]
  cases inst.resultType <;> simp

/-- An id is known as a value only if its definition has the type of 32-bit integers and a value that
stands in it. It is not a 32-bit integer if it lacks a definition, or the definition a type, or if the
type is another. Any other integer is known only when the program runs. -/
theorem evaluate_exact (m : Module) (target : Target) (id : Ident) :
    (∀ value, (m.facts target).evaluate id = .constant value ↔
      ∃ inst, m.LastDefines id inst ∧
        (∃ type, inst.resultType = some type ∧ m.IsInt32Type type) ∧ inst.HoldsConstant value) ∧
    ((m.facts target).evaluate id = .notInt32 ↔
      (∀ inst ∈ m.listing, inst.resultId ≠ some id) ∨
      ∃ inst, m.LastDefines id inst ∧
        (inst.resultType = none ∨ ∃ type, inst.resultType = some type ∧ ¬m.IsInt32Type type)) ∧
    ((m.facts target).evaluate id = .runtime ↔
      ∃ inst, m.LastDefines id inst ∧
        (∃ type, inst.resultType = some type ∧ m.IsInt32Type type) ∧
        ∀ value, ¬inst.HoldsConstant value) := by
  simp only [← definition?_eq_some_iff, ← definition?_eq_none_iff,
    ← any_isInt32_iff target, ← not_any_isInt32_iff target]
  cases defined : m.definition? id with
  | none => simp [evaluate_of_undefined defined]
  | some inst =>
    rw [evaluate_of_definition defined]
    cases typed : inst.resultType.any (m.facts target).isInt32 with
    | false => simp [typed]
    | true => simp [typed, Instruction.constantValue_eq_constant_iff,
        Instruction.constantValue_eq_runtime_iff, Instruction.constantValue_ne_notInt32]

end Module

end Spirv
