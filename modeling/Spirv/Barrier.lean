import Spirv.Limitation
import Spirv.MemorySemantics.Rules
import Spirv.Scope.Rules

/-!
# Barriers

Each barrier instruction asks for checks of some of its operands. A wrong shape is a fault before
any operand is checked. Whatever its operands, a control barrier is limited to some execution
models in versions before 1.3.
-/

namespace Spirv

inductive OperandCheck where
  | executionScope (id : Ident)
  | memoryScope (id : Ident)
  | memorySemantics (id : Ident)
  deriving DecidableEq, Repr

def OperandCheck.verdict (facts : Facts) (scopes : ScopeRules) (options : Options) (site : Site) :
    OperandCheck → Verdict
  | executionScope id => scopes.execution facts site id
  | memoryScope id => scopes.memory facts site id
  | memorySemantics id => site.judge (MemorySemantics.check facts options site.opcode id)

/-- A computation succeeds if each of its steps does. -/
theorem bind_eq_ok_iff {first : Except ε α} {next : α → Except ε β} {result : β} :
    first >>= next = .ok result ↔ ∃ value, first = .ok value ∧ next value = .ok result := by
  cases first <;> simp [bind, Except.bind]

namespace Barrier

def operand (inst : Instruction) (index : Nat) (role : OperandRole) : Except Fault Ident :=
  match inst.idOperand? index with
  | some id => .ok id
  | none => .error (.missingOperand role)

def memoryChecks (inst : Instruction) (index : Nat) : Except Fault (List OperandCheck) := do
  let memory ← operand inst index .memoryScope
  let semantics ← operand inst (index + 1) .memorySemantics
  return [.memoryScope memory, .memorySemantics semantics]

theorem operand_eq_ok_iff {inst : Instruction} {index : Nat} {role : OperandRole} {id : Ident} :
    operand inst index role = .ok id ↔ inst.idOperand? index = some id := by
  unfold operand
  cases inst.idOperand? index <;> simp

theorem memoryChecks_eq_ok_iff {inst : Instruction} {index : Nat} {checks : List OperandCheck} :
    memoryChecks inst index = .ok checks ↔ ∃ memory semantics,
      inst.idOperand? index = some memory ∧ inst.idOperand? (index + 1) = some semantics ∧
        checks = [.memoryScope memory, .memorySemantics semantics] := by
  simp [memoryChecks, bind_eq_ok_iff, operand_eq_ok_iff, pure, Except.pure, eq_comm (a := checks)]

/-- The checks that an instruction asks for, in order, unless its shape is at fault. -/
def operandChecks (facts : Facts) (inst : Instruction) : Except Fault (List OperandCheck) :=
  match inst.opcode with
  | .controlBarrier => do
    let execution ← operand inst 0 .executionScope
    return .executionScope execution :: (← memoryChecks inst 1)
  | .memoryBarrier => memoryChecks inst 0
  | .namedBarrierInitialize =>
    if ¬inst.resultType.any facts.isNamedBarrier then .error .resultTypeNotNamedBarrier
    else if ¬(facts.operandType? inst 0).any facts.isInt32 then .error (.notInt32 .subgroupCount)
    else .ok []
  | .memoryNamedBarrier =>
    if ¬(facts.operandType? inst 0).any facts.isNamedBarrier then .error .operandNotNamedBarrier
    else memoryChecks inst 1
  | _ => .ok []

/-- What the shape of an instruction has to be, and which checks it then asks for. -/
theorem operandChecks_eq_ok_iff {facts : Facts} {inst : Instruction} {checks : List OperandCheck} :
    operandChecks facts inst = .ok checks ↔
      match inst.opcode with
      | .controlBarrier => ∃ execution others, inst.idOperand? 0 = some execution ∧
          memoryChecks inst 1 = .ok others ∧ checks = .executionScope execution :: others
      | .memoryBarrier => memoryChecks inst 0 = .ok checks
      | .namedBarrierInitialize => inst.resultType.any facts.isNamedBarrier ∧
          (facts.operandType? inst 0).any facts.isInt32 ∧ checks = []
      | .memoryNamedBarrier => (facts.operandType? inst 0).any facts.isNamedBarrier ∧
          memoryChecks inst 1 = .ok checks
      | _ => checks = [] := by
  unfold operandChecks
  split
  next => simp [bind_eq_ok_iff, operand_eq_ok_iff, pure, Except.pure, eq_comm (a := checks)]
  next => exact Iff.rfl
  next =>
    cases inst.resultType.any facts.isNamedBarrier <;>
      cases (facts.operandType? inst 0).any facts.isInt32 <;> simp [eq_comm]
  next => cases (facts.operandType? inst 0).any facts.isNamedBarrier <;> simp
  next => simp [eq_comm]

/-- Nothing is asked of an instruction that is not a barrier. -/
theorem operandChecks_of_not_isBarrier {facts : Facts} {inst : Instruction}
    (other : inst.opcode.isBarrier = false) : operandChecks facts inst = .ok [] := by
  unfold operandChecks
  split <;> simp_all [Opcode.isBarrier]

def examine (facts : Facts) (scopes : ScopeRules) (options : Options) (site : Site) :
    Run OperandCheck :=
  match operandChecks facts site.inst with
  | .error fault => ⟨[], .error (site.fault fault)⟩
  | .ok checks => Run.of (OperandCheck.verdict facts scopes options site) checks

def check (facts : Facts) (scopes : ScopeRules) (options : Options) (site : Site) : Verdict :=
  (examine facts scopes options site).verdict

theorem check_of_not_isBarrier (facts : Facts) (scopes : ScopeRules) (options : Options)
    {site : Site} (other : site.opcode.isBarrier = false) :
    check facts scopes options site = .ok () := by
  rw [check, examine, operandChecks_of_not_isBarrier other, Run.verdict_of, Verdict.all_nil]

def controlBarrierLimitation : Limitation where
  allowed := [.tessellationControl, .glCompute, .kernel, .taskNV, .meshNV]
  message := "OpControlBarrier requires one of the following Execution Models: " ++
    "TessellationControl, GLCompute or Kernel"

def limitation? (target : Target) (opcode : Opcode) : Option Limitation :=
  if opcode = .controlBarrier ∧ target.version < ⟨1, 3⟩ then some controlBarrierLimitation
  else none

def record (target : Target) (registry : Registry) (site : Site) : Registry :=
  match limitation? target site.opcode with
  | none => registry
  | some limitation => registry.register site.function ⟨limitation, site.location⟩

/-- Examines an instruction and registers its limitation, whether or not it is at fault. -/
def visit (facts : Facts) (scopes : ScopeRules) (options : Options) (registry : Registry)
    (site : Site) : Run OperandCheck × Registry :=
  (examine facts scopes options site, record facts.target registry site)

/-- Visits instructions in order, each with the registry that the one before it left, and goes
on after a fault. -/
def visitAll (facts : Facts) (scopes : ScopeRules) (options : Options) :
    Registry → List Site → List Verdict × Registry
  | registry, [] => ([], registry)
  | registry, site :: rest =>
    let (run, registry) := visit facts scopes options registry site
    let (verdicts, registry) := visitAll facts scopes options registry rest
    (run.verdict :: verdicts, registry)

end Barrier

end Spirv
