import Mathlib.Data.FinEnum
import Mathlib.Data.Set.Card
import Spirv.Proofs.Evaluation
import Spirv.Proofs.WidthInquiries

/-!
# Chains of component types

A vector type leads to its component type, which may be a vector type again. Following the chain
ends unless it comes back to an id that it has passed, and then the width is that of the scalar
type at its end (`width?_exact`).
-/
namespace Spirv

namespace Instruction

variable {inst : Instruction} {component : Ident} {width : Word}

def DeclaresVectorOf (inst : Instruction) (component : Ident) : Prop :=
  inst.opcode = .typeVector ∧
    ∃ operand, inst.operands.head? = some operand ∧ operand.id? = some component

def DeclaresWidth (inst : Instruction) (width : Word) : Prop :=
  (inst.opcode = .typeInt ∨ inst.opcode = .typeFloat) ∧
    inst.operands.head? = some (.literalInt32 width)

theorem component?_eq_some_iff :
    inst.component? = some component ↔ inst.DeclaresVectorOf component := by
  unfold component? DeclaresVectorOf
  split
  next vector => simp [vector, idOperand?, List.head?_eq_getElem?, Option.bind_eq_some_iff]
  next other =>
    simp only [reduceCtorEq, false_iff]
    exact fun vector => other vector.1

theorem scalarWidth?_eq_some_iff : inst.scalarWidth? = some width ↔ inst.DeclaresWidth width := by
  unfold scalarWidth? DeclaresWidth
  rw [← firstLiteral?_eq_some_iff]
  split
  next int => simp [int]
  next float => simp [float]
  next notInt notFloat =>
    simp only [reduceCtorEq, false_iff]
    exact fun scalar => scalar.1.elim notInt notFloat

end Instruction

namespace Module

/-- The type is declared last as that of vectors of the component type. -/
def IsVectorOf (m : Module) (type component : Ident) : Prop :=
  ∃ declaration, m.LastDefines type declaration ∧ declaration.DeclaresVectorOf component

inductive Leads (m : Module) (type : Ident) : Nat → Ident → Prop where
  | start : m.Leads type 0 type
  | component {steps : Nat} {vector inner : Ident} (leads : m.Leads type steps vector)
      (found : m.IsVectorOf vector inner) : m.Leads type (steps + 1) inner

def Revisits (m : Module) (type : Ident) : Prop :=
  ∃ id earlier later, earlier < later ∧ m.Leads type earlier id ∧ m.Leads type later id

/-- The chain comes to its last id after a number of steps. -/
structure LeadsToLast (m : Module) (type : Ident) (steps : Nat) (last : Ident) : Prop where
  leads : m.Leads type steps last
  ends : ∀ component, ¬m.IsVectorOf last component

variable {m : Module} {type component id last : Ident} {steps calls calls' : Nat}
  {width width' : Option Word} {unpassed : List Ident}

/-- What is read off a definition is read off the last one. -/
theorem bind_definition?_eq_some_iff {read : Instruction → Option α} {value : α} :
    (m.definition? id).bind read = some value ↔
      ∃ inst, m.LastDefines id inst ∧ read inst = some value := by
  rw [Option.bind_eq_some_iff]
  exact exists_congr fun inst => and_congr_left fun _ => definition?_eq_some_iff

theorem component?_eq_some_iff : m.component? type = some component ↔ m.IsVectorOf type component := by
  simp only [component?, bind_definition?_eq_some_iff, Instruction.component?_eq_some_iff]
  rfl

theorem component?_eq_none_iff :
    m.component? type = none ↔ ∀ component, ¬m.IsVectorOf type component := by
  simp [Option.eq_none_iff_forall_ne_some, component?_eq_some_iff]

theorem opcode?_of_isVectorOf (found : m.IsVectorOf type component) :
    m.opcode? type = some .typeVector := by
  obtain ⟨declaration, last, vector, -⟩ := found
  rw [opcode?, definition?_eq_some_iff.mpr last, Option.map_some, vector]

theorem Leads.head (found : m.IsVectorOf type component) (leads : m.Leads component steps id) :
    m.Leads type (steps + 1) id := by
  induction leads with
  | start => exact .component .start found
  | component _ next step => exact .component step next

/-! ## Calls -/

/-- Following a chain comes to one result, with one number of calls. -/
theorem Answers.unique (first : m.Answers calls type width) (second : m.Answers calls' type width') :
    calls = calls' ∧ width = width' := by
  induction first generalizing calls' with
  | last ends =>
    cases second with
    | last => exact ⟨rfl, rfl⟩
    | component vector => cases ends.symm.trans vector
  | component vector inner step =>
    cases second with
    | last ends => cases ends.symm.trans vector
    | component vector' inner' =>
      cases vector.symm.trans vector'
      obtain ⟨rfl, rfl⟩ := step inner'
      exact ⟨rfl, rfl⟩

/-- Each step of the chain takes one call. -/
theorem Answers.after_leads (answers : m.Answers calls type width) (leads : m.Leads type steps id) :
    ∃ rest, calls = rest + steps ∧ m.Answers rest id width := by
  induction leads with
  | start => exact ⟨calls, rfl, answers⟩
  | component _ found step =>
    obtain ⟨rest, rfl, inner⟩ := step
    cases inner with
    | last ends => cases ends.symm.trans (component?_eq_some_iff.mpr found)
    | component vector inner =>
      cases vector.symm.trans (component?_eq_some_iff.mpr found)
      exact ⟨_, by omega, inner⟩

theorem Answers.before_leads (leads : m.Leads type steps id) (answers : m.Answers calls id width) :
    m.Answers (calls + steps) type width := by
  induction leads generalizing calls with
  | start => exact answers
  | @component before vector inner leads found step =>
    have outer : m.Answers (calls + 1) vector width :=
      .component (component?_eq_some_iff.mpr found) answers
    have counted : calls + (before + 1) = calls + 1 + before := by omega
    rw [counted]
    exact step outer

theorem LeadsToLast.answers (chain : m.LeadsToLast type steps last) :
    m.Answers (steps + 1) type ((m.definition? last).bind Instruction.scalarWidth?) := by
  rw [Nat.add_comm]
  exact .before_leads chain.leads (.last (component?_eq_none_iff.mpr chain.ends))

theorem Answers.leadsToLast (answers : m.Answers calls type width) :
    ∃ steps last, calls = steps + 1 ∧ m.LeadsToLast type steps last ∧
      width = (m.definition? last).bind Instruction.scalarWidth? := by
  induction answers with
  | @last type ends => exact ⟨0, type, rfl, ⟨.start, component?_eq_none_iff.mp ends⟩, rfl⟩
  | component vector inner step =>
    obtain ⟨steps, last, rfl, chain, given⟩ := step
    exact ⟨steps + 1, last, rfl, ⟨chain.leads.head (component?_eq_some_iff.mp vector), chain.ends⟩,
      given⟩

/-- From an id that is come to twice the same calls would have to follow each time. -/
theorem Answers.not_revisits (answers : m.Answers calls type width) : ¬m.Revisits type := by
  rintro ⟨id, earlier, later, before, first, second⟩
  obtain ⟨rest, counted, here⟩ := answers.after_leads first
  obtain ⟨rest', counted', there⟩ := answers.after_leads second
  obtain ⟨rfl, -⟩ := here.unique there
  omega

/-! ## The search for the last id -/

theorem leadsToLast_of_followComponents (found : m.followComponents unpassed type = some last) :
    ∃ steps, m.LeadsToLast type steps last := by
  fun_induction followComponents m unpassed type with
  | case1 unpassed type ends =>
    cases found
    exact ⟨0, .start, component?_eq_none_iff.mp ends⟩
  | case2 unpassed type component vector member step =>
    obtain ⟨steps, chain⟩ := step found
    exact ⟨steps + 1, chain.leads.head (component?_eq_some_iff.mp vector), chain.ends⟩
  | case3 => cases found

/-- The search gives up at a vector type that it must not pass or that it has passed. -/
theorem exists_stuck_of_followComponents (stuck : m.followComponents unpassed type = none) :
    ∃ steps id, m.Leads type steps id ∧ (m.component? id).isSome ∧
      (id ∉ unpassed ∨ ∃ earlier < steps, m.Leads type earlier id) := by
  fun_induction followComponents m unpassed type with
  | case1 => cases stuck
  | case2 unpassed type component vector member step =>
    have found := component?_eq_some_iff.mp vector
    obtain ⟨steps, id, leads, isVector, absent | ⟨earlier, before, passed⟩⟩ := step stuck
    · refine ⟨steps + 1, id, leads.head found, isVector, ?_⟩
      by_cases here : id = type
      · exact .inr ⟨0, Nat.succ_pos steps, here ▸ .start⟩
      · exact .inl fun listed => absent ((List.mem_erase_of_ne here).mpr listed)
    · exact ⟨steps + 1, id, leads.head found, isVector,
        .inr ⟨earlier + 1, Nat.succ_lt_succ before, passed.head found⟩⟩
  | case3 unpassed type component vector absent =>
    exact ⟨0, type, .start, by simp [vector], .inl absent⟩

theorem mem_vectorTypes (isVector : (m.component? id).isSome) : id ∈ m.vectorTypes := by
  rw [vectorTypes, List.mem_eraseDups, List.mem_filter]
  refine ⟨?_, isVector⟩
  obtain ⟨component, vector⟩ := Option.isSome_iff_exists.mp isVector
  obtain ⟨inst, ⟨before, after, listed, named, -⟩, -⟩ := component?_eq_some_iff.mp vector
  exact List.mem_filterMap.mpr ⟨inst, by simp [listed], named⟩

/-- The search gives up exactly where the chain does not end. -/
theorem innermost?_eq_none_iff : m.innermost? type = none ↔ m.Revisits type := by
  constructor
  · intro stuck
    obtain ⟨later, id, leads, isVector, absent | ⟨earlier, before, passed⟩⟩ :=
      exists_stuck_of_followComponents stuck
    · exact absurd (mem_vectorTypes isVector) absent
    · exact ⟨id, earlier, later, before, passed, leads⟩
  · intro revisits
    cases found : m.innermost? type with
    | none => rfl
    | some last =>
      obtain ⟨steps, chain⟩ := leadsToLast_of_followComponents found
      exact absurd revisits chain.answers.not_revisits

theorem exists_leadsToLast (fresh : ¬m.Revisits type) :
    ∃ steps last, m.innermost? type = some last ∧ m.LeadsToLast type steps last := by
  obtain ⟨last, found⟩ := Option.ne_none_iff_exists'.mp (mt innermost?_eq_none_iff.mp fresh)
  obtain ⟨steps, chain⟩ := leadsToLast_of_followComponents found
  exact ⟨steps, last, found, chain⟩

theorem exists_answers_iff : (∃ calls width, m.Answers calls type width) ↔ ¬m.Revisits type := by
  constructor
  · rintro ⟨calls, width, answers⟩
    exact answers.not_revisits
  · intro fresh
    obtain ⟨steps, last, -, chain⟩ := exists_leadsToLast fresh
    exact ⟨_, _, chain.answers⟩

/-- The search answers as following the chain does, where that ends. -/
theorem Answers.width?_eq (answers : m.Answers calls type width) : m.width? type = width := by
  obtain ⟨steps, last, found, chain⟩ := exists_leadsToLast answers.not_revisits
  obtain ⟨-, same⟩ := answers.unique chain.answers
  rw [same, width?, found, Option.bind_some]

/-! ## The number of steps -/

theorem Leads.exists_passed (leads : m.Leads type steps id) (fresh : ¬m.Revisits type) :
    ∃ passed : List Ident, passed.length = steps ∧ passed.Nodup ∧
      ∀ vector ∈ passed, m.opcode? vector = some .typeVector ∧
        ∃ earlier < steps, m.Leads type earlier vector := by
  induction leads with
  | start => exact ⟨[], rfl, .nil, nofun⟩
  | @component steps vector inner leads found step =>
    obtain ⟨passed, length, distinct, each⟩ := step
    refine ⟨vector :: passed, by simp [length], List.nodup_cons.mpr ⟨?_, distinct⟩, ?_⟩
    · intro again
      obtain ⟨-, earlier, before, there⟩ := each vector again
      exact fresh ⟨vector, earlier, steps, before, there, leads⟩
    · refine List.forall_mem_cons.mpr ⟨⟨opcode?_of_isVectorOf found, steps, by omega, leads⟩, ?_⟩
      intro other member
      obtain ⟨opcode, earlier, before, there⟩ := each other member
      exact ⟨opcode, earlier, by omega, there⟩

/-- A chain that passes no id twice has no more steps than there are vector types. -/
theorem Leads.steps_le_ncard (leads : m.Leads type steps id) (fresh : ¬m.Revisits type) :
    steps ≤ {vector | m.opcode? vector = some .typeVector}.ncard := by
  obtain ⟨passed, length, distinct, each⟩ := leads.exists_passed fresh
  have among : (passed.toFinset : Set Ident) ⊆ {vector | m.opcode? vector = some .typeVector} := by
    intro vector member
    exact (each vector (List.mem_toFinset.mp member)).1
  calc
    steps = passed.toFinset.card := by rw [List.toFinset_card_of_nodup distinct, length]
    _ = (passed.toFinset : Set Ident).ncard := (Set.ncard_coe_finset _).symm
    _ ≤ _ := Set.ncard_le_ncard among (Set.toFinite _)

/-! ## Widths -/

theorem declared_eq_some_iff {value : Word} :
    (m.definition? last).bind Instruction.scalarWidth? = some value ↔
      ∃ inst, m.LastDefines last inst ∧ inst.DeclaresWidth value := by
  simp only [bind_definition?_eq_some_iff, Instruction.scalarWidth?_eq_some_iff]

theorem declared_eq_none_iff :
    (m.definition? last).bind Instruction.scalarWidth? = none ↔
      (∀ inst ∈ m.listing, inst.resultId ≠ some last) ∨
      ∃ inst, m.LastDefines last inst ∧ ∀ value, ¬inst.DeclaresWidth value := by
  simp only [← definition?_eq_some_iff, ← definition?_eq_none_iff,
    ← Instruction.scalarWidth?_eq_some_iff]
  cases m.definition? last with
  | none => simp
  | some inst => simp [Option.eq_none_iff_forall_ne_some]

/-- Following the component types of a type ends exactly if the chain comes back to no id that it has
passed. It takes one call more than the chain has steps, which are no more than there are vector
types, and gives the width that is searched for: what the last definition of the last id declares, and
nothing if there is none or it is not that of a scalar type with a width. -/
theorem width?_exact (m : Module) (type : Ident) :
    ((∃ calls width, m.Answers calls type width) ↔ ¬m.Revisits type) ∧
    ∀ calls width, m.Answers calls type width ↔ ∃ steps last,
      calls = steps + 1 ∧ m.LeadsToLast type steps last ∧
      steps ≤ {vector | m.opcode? vector = some .typeVector}.ncard ∧
      m.width? type = width ∧
      (∀ value, m.width? type = some value ↔
        ∃ inst, m.LastDefines last inst ∧ inst.DeclaresWidth value) ∧
      (m.width? type = none ↔ (∀ inst ∈ m.listing, inst.resultId ≠ some last) ∨
        ∃ inst, m.LastDefines last inst ∧ ∀ value, ¬inst.DeclaresWidth value) := by
  refine ⟨exists_answers_iff, fun calls width => ⟨fun answers => ?_, ?_⟩⟩
  · obtain ⟨steps, last, counted, chain, rfl⟩ := answers.leadsToLast
    have bound := chain.leads.steps_le_ncard answers.not_revisits
    rw [answers.width?_eq]
    exact ⟨steps, last, counted, chain, bound, rfl, fun _ => declared_eq_some_iff,
      declared_eq_none_iff⟩
  · rintro ⟨steps, last, rfl, chain, -, rfl, -, -⟩
    have answers := chain.answers
    rwa [answers.width?_eq]

end Module

end Spirv
