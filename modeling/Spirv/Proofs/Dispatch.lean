import Spirv.Proofs.AcceptedBarriers

/-!
# Dispatch

Facts and scope rules may be anything here, so that all a visit has of its own is what it asks, in
which order, and when it stops. `Dispatches` lists the ways a visit can go, and
`visit_dispatches_iff` says that it goes no other.
-/
namespace Spirv

inductive ScopeCall where
  | execution (id : Ident)
  | memory (id : Ident)
  deriving DecidableEq, Repr

def OperandCheck.scopeCall? : OperandCheck → Option ScopeCall
  | executionScope id => some (.execution id)
  | memoryScope id => some (.memory id)
  | memorySemantics _ => none

def Run.scopeCalls (run : Run OperandCheck) : List ScopeCall :=
  run.made.filterMap OperandCheck.scopeCall?

/-- The role of the first operand that is not an id, of those from `index` on with the given roles. -/
def Instruction.missing? (inst : Instruction) (index : Nat) : List OperandRole → Option OperandRole
  | [] => none
  | role :: later =>
    if inst.idOperand? index = none then some role else inst.missing? (index + 1) later

/-- The diagnostic of the instruction at `site`, which the message names first. -/
def Site.complaint (site : Site) (kind : FailureKind) (text : String) : Diagnostic :=
  ⟨kind, some site.location, site.opcode.mnemonic ++ ": " ++ text⟩

def Site.lacks (site : Site) (role : OperandRole) : Diagnostic :=
  site.complaint .malformedOperandType ("expected " ++ role.label ++ " operand")

namespace Facts

def IsNamedBarrier (facts : Facts) (type : Ident) : Prop :=
  facts.opcode? type = some .typeNamedBarrier

def HasOperand (facts : Facts) (inst : Instruction) (index : Nat) (property : Ident → Prop) : Prop :=
  ∃ id type, inst.idOperand? index = some id ∧ facts.typeOf? id = some type ∧ property type

end Facts

namespace Barrier

section Courses

variable (facts : Facts) (scopes : ScopeRules) (options : Options) (site : Site)

inductive DispatchesMemory (index : Nat) : List ScopeCall → Verdict → Prop where
  | missing {role : OperandRole}
      (first : site.inst.missing? index [.memoryScope, .memorySemantics] = some role) :
      DispatchesMemory index [] (.error (site.lacks role))
  | refused {memory semantics : Ident} {diagnostic : Diagnostic}
      (scope : site.inst.idOperand? index = some memory)
      (word : site.inst.idOperand? (index + 1) = some semantics)
      (fails : scopes.memory facts site memory = .error diagnostic) :
      DispatchesMemory index [.memory memory] (.error diagnostic)
  | allowed {memory semantics : Ident}
      (scope : site.inst.idOperand? index = some memory)
      (word : site.inst.idOperand? (index + 1) = some semantics)
      (passes : scopes.memory facts site memory = .ok ()) :
      DispatchesMemory index [.memory memory]
        (site.judge (MemorySemantics.check facts options site.opcode semantics))

/-- How a visit can go: what the scope rules are asked, and what comes of the visit. -/
inductive Dispatches : List ScopeCall → Verdict → Prop where
  | controlMissing {role : OperandRole} (kind : site.opcode = .controlBarrier)
      (first : site.inst.missing? 0 [.executionScope, .memoryScope, .memorySemantics] = some role) :
      Dispatches [] (.error (site.lacks role))
  | controlRefused {execution memory semantics : Ident} {diagnostic : Diagnostic}
      (kind : site.opcode = .controlBarrier)
      (first : site.inst.idOperand? 0 = some execution)
      (second : site.inst.idOperand? 1 = some memory)
      (third : site.inst.idOperand? 2 = some semantics)
      (fails : scopes.execution facts site execution = .error diagnostic) :
      Dispatches [.execution execution] (.error diagnostic)
  | controlAllowed {execution memory semantics : Ident} {calls : List ScopeCall} {verdict : Verdict}
      (kind : site.opcode = .controlBarrier)
      (first : site.inst.idOperand? 0 = some execution)
      (second : site.inst.idOperand? 1 = some memory)
      (third : site.inst.idOperand? 2 = some semantics)
      (passes : scopes.execution facts site execution = .ok ())
      (rest : DispatchesMemory facts scopes options site 1 calls verdict) :
      Dispatches (.execution execution :: calls) verdict
  | memoryBarrier {calls : List ScopeCall} {verdict : Verdict}
      (kind : site.opcode = .memoryBarrier)
      (rest : DispatchesMemory facts scopes options site 0 calls verdict) :
      Dispatches calls verdict
  | namedWrong (kind : site.opcode = .memoryNamedBarrier)
      (other : ¬facts.HasOperand site.inst 0 facts.IsNamedBarrier) :
      Dispatches [] (.error (site.complaint .wrongOperandKind
        "expected Named Barrier to be of type OpTypeNamedBarrier"))
  | named {calls : List ScopeCall} {verdict : Verdict} (kind : site.opcode = .memoryNamedBarrier)
      (typed : facts.HasOperand site.inst 0 facts.IsNamedBarrier)
      (rest : DispatchesMemory facts scopes options site 1 calls verdict) :
      Dispatches calls verdict
  | resultWrong (kind : site.opcode = .namedBarrierInitialize)
      (other : ¬∃ type, site.inst.resultType = some type ∧ facts.IsNamedBarrier type) :
      Dispatches [] (.error (site.complaint .wrongOperandKind
        "expected Result Type to be OpTypeNamedBarrier"))
  | countWrong (kind : site.opcode = .namedBarrierInitialize)
      (typed : ∃ type, site.inst.resultType = some type ∧ facts.IsNamedBarrier type)
      (other : ¬facts.HasOperand site.inst 0 fun type =>
        facts.isInt type ∧ facts.width? type = some 32) :
      Dispatches [] (.error (site.complaint .malformedOperandType
        "expected Subgroup Count to be a 32-bit int"))
  | created (kind : site.opcode = .namedBarrierInitialize)
      (typed : ∃ type, site.inst.resultType = some type ∧ facts.IsNamedBarrier type)
      (counted : facts.HasOperand site.inst 0 fun type =>
        facts.isInt type ∧ facts.width? type = some 32) :
      Dispatches [] (.ok ())
  | other (kind : site.opcode.isBarrier = false) : Dispatches [] (.ok ())

def follow : Except Fault (List OperandCheck) → Run OperandCheck
  | .error fault => ⟨[], .error (site.fault fault)⟩
  | .ok checks => Run.of (OperandCheck.verdict facts scopes options site) checks

end Courses

variable {facts : Facts} {scopes : ScopeRules} {options : Options} {site : Site}
  {calls : List ScopeCall} {verdict : Verdict}

theorem examine_eq_follow : examine facts scopes options site =
    follow facts scopes options site (operandChecks facts site.inst) := by
  unfold examine follow
  cases operandChecks facts site.inst <;> rfl

/-! ## Memory operands -/

/-- Either an operand is missing, which is then at fault, or both are ids. -/
theorem memoryChecks_cases (inst : Instruction) (index : Nat) :
    (∃ role, inst.missing? index [.memoryScope, .memorySemantics] = some role ∧
      memoryChecks inst index = .error (.missingOperand role)) ∨
    ∃ memory semantics, inst.idOperand? index = some memory ∧
      inst.idOperand? (index + 1) = some semantics ∧
      inst.missing? index [.memoryScope, .memorySemantics] = none ∧
      memoryChecks inst index = .ok [.memoryScope memory, .memorySemantics semantics] := by
  cases scope : inst.idOperand? index with
  | none =>
    refine .inl ⟨.memoryScope, by simp [Instruction.missing?, scope], ?_⟩
    simp [memoryChecks, operand, scope, bind, Except.bind]
  | some memory =>
    cases word : inst.idOperand? (index + 1) with
    | none =>
      refine .inl ⟨.memorySemantics, by simp [Instruction.missing?, scope, word], ?_⟩
      simp [memoryChecks, operand, scope, word, bind, Except.bind]
    | some semantics =>
      refine .inr ⟨memory, semantics, rfl, rfl, by simp [Instruction.missing?, scope, word], ?_⟩
      exact memoryChecks_eq_ok_iff.mpr ⟨memory, semantics, scope, word, rfl⟩

theorem memoryChecks_of_missing {inst : Instruction} {index : Nat} {role : OperandRole}
    (first : inst.missing? index [.memoryScope, .memorySemantics] = some role) :
    memoryChecks inst index = .error (.missingOperand role) := by
  rcases memoryChecks_cases inst index with ⟨other, again, found⟩ | ⟨_, _, -, -, none, -⟩
  · cases first.symm.trans again
    exact found
  · cases first.symm.trans none

/-- The semantics are looked at only if the scope passes. -/
theorem follow_memory_of_error {memory semantics : Ident} {diagnostic : Diagnostic}
    (fails : scopes.memory facts site memory = .error diagnostic) :
    follow facts scopes options site (.ok [.memoryScope memory, .memorySemantics semantics]) =
      ⟨[.memoryScope memory], .error diagnostic⟩ :=
  Run.of_cons_error fails

theorem follow_memory_of_ok {memory semantics : Ident}
    (passes : scopes.memory facts site memory = .ok ()) :
    follow facts scopes options site (.ok [.memoryScope memory, .memorySemantics semantics]) =
      ⟨[.memoryScope memory, .memorySemantics semantics],
        site.judge (MemorySemantics.check facts options site.opcode semantics)⟩ := by
  have scope : (OperandCheck.memoryScope memory).verdict facts scopes options site = .ok () := passes
  rw [follow, Run.of_cons_ok scope, Run.of_singleton]
  rfl

theorem dispatchesMemory_iff {index : Nat} :
    DispatchesMemory facts scopes options site index calls verdict ↔
      (follow facts scopes options site (memoryChecks site.inst index)).scopeCalls = calls ∧
      (follow facts scopes options site (memoryChecks site.inst index)).verdict = verdict := by
  constructor
  · intro dispatched
    cases dispatched with
    | missing first =>
      rw [memoryChecks_of_missing first]
      exact ⟨rfl, rfl⟩
    | refused scope word fails =>
      rw [memoryChecks_eq_ok_iff.mpr ⟨_, _, scope, word, rfl⟩, follow_memory_of_error fails]
      exact ⟨rfl, rfl⟩
    | allowed scope word passes =>
      rw [memoryChecks_eq_ok_iff.mpr ⟨_, _, scope, word, rfl⟩, follow_memory_of_ok passes]
      exact ⟨rfl, rfl⟩
  · rintro ⟨rfl, rfl⟩
    rcases memoryChecks_cases site.inst index with
      ⟨role, first, found⟩ | ⟨memory, semantics, scope, word, -, found⟩
    · rw [found]
      exact .missing first
    · rw [found]
      cases asked : scopes.memory facts site memory with
      | error diagnostic =>
        rw [follow_memory_of_error asked]
        exact .refused scope word asked
      | ok passed =>
        rw [follow_memory_of_ok asked]
        exact .allowed scope word asked

/-! ## Instructions -/

section Shapes

variable {inst : Instruction}

theorem operandChecks_of_controlMissing (kind : inst.opcode = .controlBarrier) {role : OperandRole}
    (first : inst.missing? 0 [.executionScope, .memoryScope, .memorySemantics] = some role) :
    operandChecks facts inst = .error (.missingOperand role) := by
  rw [Instruction.missing?] at first
  simp only [operandChecks, kind]
  cases execution : inst.idOperand? 0 with
  | none =>
    obtain rfl : OperandRole.executionScope = role := by simpa [execution] using first
    simp [operand, execution, bind, Except.bind]
  | some id =>
    rw [execution, if_neg (by simp)] at first
    simp [operand, execution, memoryChecks_of_missing first, bind, Except.bind]

theorem operandChecks_of_controlBarrier (kind : inst.opcode = .controlBarrier)
    {execution memory semantics : Ident} (first : inst.idOperand? 0 = some execution)
    (second : inst.idOperand? 1 = some memory) (third : inst.idOperand? 2 = some semantics) :
    operandChecks facts inst =
      .ok [.executionScope execution, .memoryScope memory, .memorySemantics semantics] := by
  rw [operandChecks_eq_ok_iff, kind]
  exact ⟨execution, _, first, memoryChecks_eq_ok_iff.mpr ⟨memory, semantics, second, third, rfl⟩, rfl⟩

theorem operandChecks_of_memoryBarrier (kind : inst.opcode = .memoryBarrier) :
    operandChecks facts inst = memoryChecks inst 0 := by
  simp only [operandChecks, kind]

/-- The type of the named barrier comes before what else may be wrong. -/
theorem operandChecks_of_memoryNamedBarrier (kind : inst.opcode = .memoryNamedBarrier)
    [Decidable (facts.HasOperand inst 0 facts.IsNamedBarrier)] :
    operandChecks facts inst =
      if facts.HasOperand inst 0 facts.IsNamedBarrier then memoryChecks inst 1
      else .error .operandNotNamedBarrier := by
  have typed : (facts.operandType? inst 0).any facts.isNamedBarrier ↔
      facts.HasOperand inst 0 facts.IsNamedBarrier := by
    simp [any_operandType?_iff, Facts.HasOperand, Facts.isNamedBarrier, Facts.IsNamedBarrier]
  simp only [operandChecks, kind, typed, ite_not]

theorem operandChecks_of_namedBarrierInitialize (kind : inst.opcode = .namedBarrierInitialize)
    [Decidable (∃ type, inst.resultType = some type ∧ facts.IsNamedBarrier type)]
    [Decidable (facts.HasOperand inst 0 fun type => facts.isInt type ∧ facts.width? type = some 32)] :
    operandChecks facts inst =
      if ∃ type, inst.resultType = some type ∧ facts.IsNamedBarrier type then
        if facts.HasOperand inst 0 fun type => facts.isInt type ∧ facts.width? type = some 32 then .ok []
        else .error (.notInt32 .subgroupCount)
      else .error .resultTypeNotNamedBarrier := by
  have typed : inst.resultType.any facts.isNamedBarrier ↔
      ∃ type, inst.resultType = some type ∧ facts.IsNamedBarrier type := by
    simp [Option.any_eq_true, Facts.isNamedBarrier, Facts.IsNamedBarrier]
  have counted : (facts.operandType? inst 0).any facts.isInt32 ↔
      facts.HasOperand inst 0 fun type => facts.isInt type ∧ facts.width? type = some 32 := by
    simp [any_operandType?_iff, Facts.HasOperand, Facts.isInt32]
  simp only [operandChecks, kind, typed, counted, ite_not]

end Shapes

/-- The memory operands are looked at only if the execution scope passes. -/
theorem follow_execution_of_error {execution : Ident} {others : List OperandCheck}
    {diagnostic : Diagnostic} (fails : scopes.execution facts site execution = .error diagnostic) :
    follow facts scopes options site (.ok (.executionScope execution :: others)) =
      ⟨[.executionScope execution], .error diagnostic⟩ :=
  Run.of_cons_error fails

theorem follow_execution_of_ok {execution : Ident} {others : List OperandCheck}
    (passes : scopes.execution facts site execution = .ok ()) :
    follow facts scopes options site (.ok (.executionScope execution :: others)) =
      ⟨.executionScope execution :: (follow facts scopes options site (.ok others)).made,
        (follow facts scopes options site (.ok others)).verdict⟩ :=
  Run.of_cons_ok passes

/-- Every visit goes in one of the ways. -/
theorem dispatches_examine (facts : Facts) (scopes : ScopeRules) (options : Options) (site : Site) :
    Dispatches facts scopes options site (examine facts scopes options site).scopeCalls
      (examine facts scopes options site).verdict := by
  classical
  rw [examine_eq_follow]
  cases barrier : site.opcode.isBarrier with
  | false =>
    rw [operandChecks_of_not_isBarrier barrier]
    exact .other barrier
  | true =>
    cases kind : site.opcode with
    | controlBarrier =>
      cases execution : site.inst.idOperand? 0 with
      | none =>
        have first : site.inst.missing? 0 [.executionScope, .memoryScope, .memorySemantics] =
            some .executionScope := by
          rw [Instruction.missing?, if_pos execution]
        rw [operandChecks_of_controlMissing kind first]
        exact .controlMissing kind first
      | some id =>
        have later : site.inst.missing? 0 [.executionScope, .memoryScope, .memorySemantics] =
            site.inst.missing? 1 [.memoryScope, .memorySemantics] := by
          rw [Instruction.missing?, execution, if_neg (by simp)]
        rcases memoryChecks_cases site.inst 1 with
          ⟨role, first, -⟩ | ⟨memory, semantics, scope, word, -, shaped⟩
        · rw [operandChecks_of_controlMissing kind (later.trans first)]
          exact .controlMissing kind (later.trans first)
        · rw [operandChecks_of_controlBarrier kind execution scope word]
          cases asked : scopes.execution facts site id with
          | error diagnostic =>
            rw [follow_execution_of_error asked]
            exact .controlRefused kind execution scope word asked
          | ok passed =>
            rw [follow_execution_of_ok asked, ← shaped]
            exact .controlAllowed kind execution scope word asked (dispatchesMemory_iff.mpr ⟨rfl, rfl⟩)
    | memoryBarrier =>
      rw [operandChecks_of_memoryBarrier kind]
      exact .memoryBarrier kind (dispatchesMemory_iff.mpr ⟨rfl, rfl⟩)
    | memoryNamedBarrier =>
      rw [operandChecks_of_memoryNamedBarrier kind]
      split
      next typed => exact .named kind typed (dispatchesMemory_iff.mpr ⟨rfl, rfl⟩)
      next other => exact .namedWrong kind other
    | namedBarrierInitialize =>
      rw [operandChecks_of_namedBarrierInitialize kind]
      split
      next typed =>
        split
        next counted => exact .created kind typed counted
        next other => exact .countWrong kind typed other
      next other => exact .resultWrong kind other
    | _ => simp [kind, Opcode.isBarrier] at barrier

/-- The way a visit goes is fixed. -/
theorem examine_of_dispatches (dispatched : Dispatches facts scopes options site calls verdict) :
    (examine facts scopes options site).scopeCalls = calls ∧
      (examine facts scopes options site).verdict = verdict := by
  classical
  rw [examine_eq_follow]
  cases dispatched with
  | controlMissing kind first =>
    rw [operandChecks_of_controlMissing kind first]
    exact ⟨rfl, rfl⟩
  | controlRefused kind first second third fails =>
    rw [operandChecks_of_controlBarrier kind first second third, follow_execution_of_error fails]
    exact ⟨rfl, rfl⟩
  | @controlAllowed execution memory semantics calls verdict kind first second third passes rest =>
    obtain ⟨rfl, rfl⟩ := dispatchesMemory_iff.mp rest
    rw [operandChecks_of_controlBarrier kind first second third, follow_execution_of_ok passes,
      memoryChecks_eq_ok_iff.mpr ⟨memory, semantics, second, third, rfl⟩]
    exact ⟨rfl, rfl⟩
  | memoryBarrier kind rest =>
    rw [operandChecks_of_memoryBarrier kind]
    exact dispatchesMemory_iff.mp rest
  | namedWrong kind other =>
    rw [operandChecks_of_memoryNamedBarrier kind, if_neg other]
    exact ⟨rfl, rfl⟩
  | named kind typed rest =>
    rw [operandChecks_of_memoryNamedBarrier kind, if_pos typed]
    exact dispatchesMemory_iff.mp rest
  | resultWrong kind other =>
    rw [operandChecks_of_namedBarrierInitialize kind, if_neg other]
    exact ⟨rfl, rfl⟩
  | countWrong kind typed other =>
    rw [operandChecks_of_namedBarrierInitialize kind, if_pos typed, if_neg other]
    exact ⟨rfl, rfl⟩
  | created kind typed counted =>
    rw [operandChecks_of_namedBarrierInitialize kind, if_pos typed, if_pos counted]
    exact ⟨rfl, rfl⟩
  | other kind =>
    rw [operandChecks_of_not_isBarrier kind]
    exact ⟨rfl, rfl⟩

/-- For any facts and scope rules a visit asks the scope rules exactly what its opcode has it ask, and
ends as the first that fails, or the check of the semantics, has it end. -/
theorem visit_dispatches_iff (facts : Facts) (scopes : ScopeRules) (options : Options)
    (registry : Registry) (site : Site) (calls : List ScopeCall) (verdict : Verdict) :
    (visit facts scopes options registry site).1.scopeCalls = calls ∧
        (visit facts scopes options registry site).1.verdict = verdict ↔
      Dispatches facts scopes options site calls verdict := by
  constructor
  · rintro ⟨rfl, rfl⟩
    exact dispatches_examine facts scopes options site
  · exact examine_of_dispatches

end Barrier

end Spirv
