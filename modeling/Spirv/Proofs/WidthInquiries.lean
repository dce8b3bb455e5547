import Mathlib.Logic.Relation
import Spirv.Proofs.Strictness

/-!
# Inquiries for widths

On a module whose vector types form a cycle, finding a width need not end (`not_answers_of_cycle`).
An `Inquiry` asks for widths one at a time. Those for evaluations, visits and validation ask for
scalar integers only, which start no chain (`operations_askIntWidths`).
-/
namespace Spirv

inductive Inquiry (α : Type) where
  | done (result : α)
  | ask (type : Ident) (next : Option Word → Inquiry α)

namespace Inquiry

def andThen : Inquiry α → (α → Inquiry β) → Inquiry β
  | done result, next => next result
  | ask type rest, next => ask type fun width => (rest width).andThen next

instance : Monad Inquiry where
  pure := done
  bind := andThen

def ifOk (inquiry : Inquiry (Except ε α)) (failed : ε → β) (next : α → Inquiry β) : Inquiry β := do
  match ← inquiry with
  | .error reason => return failed reason
  | .ok value => next value

/-- The result, where widths are given by a function. -/
def run (width? : Ident → Option Word) : Inquiry α → α
  | done result => result
  | ask type next => (next (width? type)).run width?

def AsksOnly (kind : Ident → Prop) : Inquiry α → Prop
  | done _ => True
  | ask type next => kind type ∧ ∀ width, (next width).AsksOnly kind

inductive Ends (answers : Ident → Option Word → Prop) : Inquiry α → α → Prop where
  | done (result : α) : Ends answers (.done result) result
  | ask {type : Ident} {width : Option Word} {next : Option Word → Inquiry α} {result : α}
      (answered : answers type width) (rest : Ends answers (next width) result) :
      Ends answers (.ask type next) result

/-- The inquiry does by asking what the operation does by given widths, and asks for types of the
kind only. -/
structure Performs (kind : Ident → Prop) (operation : (Ident → Option Word) → α)
    (inquiry : Inquiry α) : Prop where
  run : ∀ width?, inquiry.run width? = operation width?
  asksOnly : inquiry.AsksOnly kind

variable {kind : Ident → Prop} {width? other? : Ident → Option Word}

theorem run_bind (inquiry : Inquiry α) (next : α → Inquiry β) :
    (inquiry >>= next).run width? = (next (inquiry.run width?)).run width? := by
  induction inquiry with
  | done result => rfl
  | ask type rest step => exact step (width? type)

theorem AsksOnly.bind {inquiry : Inquiry α} {next : α → Inquiry β} (first : inquiry.AsksOnly kind)
    (second : ∀ result, (next result).AsksOnly kind) : (inquiry >>= next).AsksOnly kind := by
  induction inquiry with
  | done result => exact second result
  | ask type rest step => exact ⟨first.1, fun width => step width (first.2 width)⟩

/-- Widths that are not asked for have no say. -/
theorem AsksOnly.run_congr {inquiry : Inquiry α} (asks : inquiry.AsksOnly kind)
    (agree : ∀ type, kind type → other? type = width? type) :
    inquiry.run other? = inquiry.run width? := by
  induction inquiry with
  | done result => rfl
  | ask type next step =>
    rw [run, run, agree type asks.1]
    exact step _ (asks.2 _)

/-- Where the questions of an inquiry have answers, it ends. -/
theorem AsksOnly.ends {answers : Ident → Option Word → Prop} {inquiry : Inquiry α}
    (asks : inquiry.AsksOnly kind) (answered : ∀ type, kind type → answers type (width? type)) :
    inquiry.Ends answers (inquiry.run width?) := by
  induction inquiry with
  | done result => exact .done result
  | ask type next step => exact .ask (answered type asks.1) (step _ (asks.2 _))

namespace Performs

theorem pure (result : α) :
    Performs kind (fun _ => result) (Pure.pure result) := ⟨fun _ => rfl, trivial⟩

theorem bind {first : (Ident → Option Word) → α} {second : α → (Ident → Option Word) → β}
    {inquiry : Inquiry α} {next : α → Inquiry β} (begins : inquiry.Performs kind first)
    (goesOn : ∀ result, (next result).Performs kind (second result)) :
    (inquiry >>= next).Performs kind fun width? => second (first width?) width? where
  run width? := by rw [run_bind, begins.run, (goesOn _).run]
  asksOnly := begins.asksOnly.bind fun result => (goesOn result).asksOnly

theorem ifOk {first : (Ident → Option Word) → Except ε α} {failed : ε → β}
    {second : α → (Ident → Option Word) → β} {inquiry : Inquiry (Except ε α)} {next : α → Inquiry β}
    (begins : inquiry.Performs kind first)
    (goesOn : ∀ value, (next value).Performs kind (second value)) :
    (inquiry.ifOk failed next).Performs kind fun width? =>
      match first width? with
      | .error reason => failed reason
      | .ok value => second value width? := by
  have either (outcome : Except ε α) : Performs kind
      (fun width? => match outcome with
        | .error reason => failed reason
        | .ok value => second value width?)
      (match outcome with
        | .error reason => Pure.pure (failed reason)
        | .ok value => next value) := by
    cases outcome with
    | error reason => exact .pure (failed reason)
    | ok value => exact goesOn value
  exact begins.bind either

theorem of_eq {operation same : (Ident → Option Word) → α} {inquiry : Inquiry α}
    (performs : inquiry.Performs kind operation)
    (equal : ∀ width?, operation width? = same width?) : inquiry.Performs kind same where
  run width? := (performs.run width?).trans (equal width?)
  asksOnly := performs.asksOnly

theorem congr {operation : (Ident → Option Word) → α} {inquiry : Inquiry α}
    (performs : inquiry.Performs kind operation)
    (agree : ∀ type, kind type → other? type = width? type) : operation other? = operation width? := by
  rw [← performs.run, ← performs.run, performs.asksOnly.run_congr agree]

end Performs

/-! ## Types -/

def isInt32 (isInt : Ident → Bool) (type : Ident) : Inquiry Bool :=
  if isInt type then ask type fun width => done (width = some 32) else done false

def anyInt32 (isInt : Ident → Bool) : Option Ident → Inquiry Bool
  | none => pure false
  | some type => isInt32 isInt type

theorem isInt32_performs (isInt : Ident → Bool) (type : Ident) :
    (isInt32 isInt type).Performs (isInt ·) fun width? => isInt type && width? type = some 32 := by
  unfold isInt32
  cases int : isInt type with
  | false => exact .pure false
  | true => exact ⟨fun _ => rfl, int, fun _ => trivial⟩

theorem anyInt32_performs (isInt : Ident → Bool) (type : Option Ident) :
    (anyInt32 isInt type).Performs (isInt ·) fun width? =>
      type.any fun type => isInt type && width? type = some 32 := by
  cases type with
  | none => exact .pure false
  | some type => exact isInt32_performs isInt type

end Inquiry

def Run.inquiry (judging : α → Inquiry Verdict) : List α → Inquiry (Run α)
  | [] => return ⟨[], .ok ()⟩
  | first :: rest =>
    (judging first).ifOk (fun diagnostic => ⟨[first], .error diagnostic⟩) fun () => do
      let later ← inquiry judging rest
      return ⟨first :: later.made, later.verdict⟩

theorem Run.inquiry_performs {kind : Ident → Prop} {judging : α → Inquiry Verdict}
    {check : α → (Ident → Option Word) → Verdict}
    (judges : ∀ member, (judging member).Performs kind (check member)) (list : List α) :
    (inquiry judging list).Performs kind fun width? => of (fun member => check member width?) list := by
  induction list with
  | nil => exact .pure _
  | cons first rest step =>
    refine ((judges first).ifOk fun _ => step.bind fun later => .pure _).of_eq fun width? => ?_
    rw [of]
    cases check first width? <;> rfl

/-! ## Barriers -/

/-- The facts with the evaluations that inquiries come to by given widths, and with these widths. -/
def Facts.answered (facts : Facts) (evaluating : Ident → Inquiry Evaluation)
    (width? : Ident → Option Word) : Facts :=
  { facts with evaluate := fun id => (evaluating id).run width?, width? := width? }

/-- The facts with one evaluation for every id, and without widths. -/
def Facts.blind (facts : Facts) (value : Evaluation) : Facts :=
  { facts with evaluate := fun _ => value, width? := fun _ => none }

namespace OperandCheck

def inquiry (facts : Facts) (evaluating : Ident → Inquiry Evaluation) (options : Options)
    (site : Site) (asked : OperandCheck) : Inquiry Verdict := do
  let value ← evaluating asked.id
  return asked.verdict (facts.blind value) .standard options site

theorem inquiry_performs {kind : Ident → Prop} {facts : Facts}
    {evaluating : Ident → Inquiry Evaluation} (evaluates : ∀ id, (evaluating id).AsksOnly kind)
    (options : Options) (site : Site) (asked : OperandCheck) :
    (asked.inquiry facts evaluating options site).Performs kind fun width? =>
      asked.verdict (facts.answered evaluating width?) .standard options site := by
  have evaluated : (evaluating asked.id).Performs kind fun width? =>
      (evaluating asked.id).run width? := ⟨fun _ => rfl, evaluates asked.id⟩
  refine (evaluated.bind fun value => .pure _).of_eq fun width? => ?_
  -- A rule looks at the evaluation of no other id.
  cases asked <;> rfl

end OperandCheck

namespace Barrier

def shapeInquiry (facts : Facts) (inst : Instruction) :
    Inquiry (Except Fault (List OperandCheck)) :=
  match inst.opcode with
  | .namedBarrierInitialize =>
    if ¬inst.resultType.any facts.isNamedBarrier then return .error .resultTypeNotNamedBarrier
    else do
      let int32 ← Inquiry.anyInt32 facts.isInt (facts.operandType? inst 0)
      return if int32 then .ok [] else .error (.notInt32 .subgroupCount)
  | _ => return operandChecks (facts.blind .notInt32) inst

/-- The shape of any other instruction is checked without evaluations and widths. -/
theorem operandChecks_blind {facts : Facts} {inst : Instruction}
    (other : inst.opcode ≠ .namedBarrierInitialize) (value : Evaluation)
    (evaluating : Ident → Inquiry Evaluation) (width? : Ident → Option Word) :
    operandChecks (facts.blind value) inst = operandChecks (facts.answered evaluating width?) inst := by
  unfold operandChecks
  split
  next => rfl
  next => rfl
  next initialises => contradiction
  next => rfl
  next => rfl

theorem operandChecks_of_initialises {facts : Facts} {inst : Instruction}
    (initialises : inst.opcode = .namedBarrierInitialize) :
    operandChecks facts inst =
      if ¬inst.resultType.any facts.isNamedBarrier then .error .resultTypeNotNamedBarrier
      else if (facts.operandType? inst 0).any facts.isInt32 then .ok []
      else .error (.notInt32 .subgroupCount) := by
  unfold operandChecks
  rw [initialises]
  exact if_congr Iff.rfl rfl (ite_not _ _ _)

theorem shapeInquiry_performs (facts : Facts) (evaluating : Ident → Inquiry Evaluation)
    (inst : Instruction) : (shapeInquiry facts inst).Performs (facts.isInt ·) fun width? =>
      operandChecks (facts.answered evaluating width?) inst := by
  unfold shapeInquiry
  split
  next initialises =>
    simp only [operandChecks_of_initialises initialises]
    by_cases typed : inst.resultType.any facts.isNamedBarrier
    · rw [if_neg (not_not.mpr typed)]
      refine ((Inquiry.anyInt32_performs facts.isInt _).bind fun int32 => .pure _).of_eq ?_
      intro width?
      exact (if_neg (not_not.mpr typed)).symm
    · rw [if_pos typed]
      exact (Inquiry.Performs.pure _).of_eq fun width? => (if_pos typed).symm
  next other =>
    exact (Inquiry.Performs.pure _).of_eq fun width? => operandChecks_blind other _ _ width?

def examination (facts : Facts) (evaluating : Ident → Inquiry Evaluation) (options : Options)
    (site : Site) : Inquiry (Run OperandCheck) :=
  (shapeInquiry facts site.inst).ifOk (fun fault => ⟨[], .error (site.fault fault)⟩) fun checks =>
    Run.inquiry (OperandCheck.inquiry facts evaluating options site) checks

theorem examination_performs {facts : Facts} {evaluating : Ident → Inquiry Evaluation}
    (evaluates : ∀ id, (evaluating id).AsksOnly (facts.isInt ·)) (options : Options) (site : Site) :
    (examination facts evaluating options site).Performs (facts.isInt ·) fun width? =>
      examine (facts.answered evaluating width?) .standard options site := by
  have checked (checks : List OperandCheck) :
      (Run.inquiry (OperandCheck.inquiry facts evaluating options site) checks).Performs
        (facts.isInt ·) fun width? =>
          .of (OperandCheck.verdict (facts.answered evaluating width?) .standard options site) checks :=
    Run.inquiry_performs (OperandCheck.inquiry_performs evaluates options site) checks
  refine ((shapeInquiry_performs facts evaluating site.inst).ifOk checked).of_eq fun width? => ?_
  rw [examine]
  cases operandChecks (facts.answered evaluating width?) site.inst <;> rfl

def visitInquiry (facts : Facts) (evaluating : Ident → Inquiry Evaluation) (options : Options)
    (registry : Registry) (site : Site) : Inquiry (Run OperandCheck × Registry) := do
  let run ← examination facts evaluating options site
  return (run, record facts.target registry site)

theorem visitInquiry_performs {facts : Facts} {evaluating : Ident → Inquiry Evaluation}
    (evaluates : ∀ id, (evaluating id).AsksOnly (facts.isInt ·)) (options : Options)
    (registry : Registry) (site : Site) :
    (visitInquiry facts evaluating options registry site).Performs (facts.isInt ·) fun width? =>
      visit (facts.answered evaluating width?) .standard options registry site :=
  ((examination_performs evaluates options site).bind fun run =>
    .pure (run, record facts.target registry site)).of_eq fun _ => rfl

end Barrier

/-! ## Modules -/

namespace Module

def evaluation (m : Module) (id : Ident) : Inquiry Evaluation :=
  match m.definition? id with
  | none => return .notInt32
  | some inst => do
    let int32 ← Inquiry.anyInt32 m.isInt inst.resultType
    return if int32 then inst.constantValue else .notInt32

theorem evaluation_performs (m : Module) (id : Ident) :
    (m.evaluation id).Performs (m.isInt ·) fun width? => m.evaluate width? id := by
  unfold evaluation
  cases defined : m.definition? id with
  | none =>
    refine (Inquiry.Performs.pure _).of_eq fun width? => ?_
    rw [evaluate, defined]
  | some inst =>
    refine ((Inquiry.anyInt32_performs m.isInt _).bind fun int32 => .pure _).of_eq fun width? => ?_
    rw [evaluate, defined]

-- `rfl` would compare the functions by what they compute.
theorem isInt_facts (m : Module) (target : Target) : (m.facts target).isInt = m.isInt := by
  simp only [facts, factsByWidth]

theorem evaluation_asksOnly (m : Module) (target : Target) (id : Ident) :
    (m.evaluation id).AsksOnly ((m.facts target).isInt ·) := by
  rw [isInt_facts]
  exact (m.evaluation_performs id).asksOnly

theorem answered_evaluation (m : Module) (target : Target) (width? : Ident → Option Word) :
    (m.facts target).answered m.evaluation width? = m.factsByWidth width? target := by
  have evaluated : (fun id => (m.evaluation id).run width?) = m.evaluate width? :=
    funext fun id => (m.evaluation_performs id).run width?
  simp only [Facts.answered, evaluated, facts, factsByWidth]

def scanInquiry (m : Module) (target : Target) (options : Options) : Inquiry Verdict := do
  let run ← Run.inquiry (fun site => do
      let run ← Barrier.examination (m.facts target) m.evaluation options site
      return run.verdict)
    (m.scannedSites.filter fun site => site.opcode.isBarrier)
  return match run.verdict with
    | .error diagnostic => .error diagnostic
    | .ok () =>
      if m.functions.all fun function => function.id?.isSome then .ok ()
      else .error ModuleFault.functionWithoutId.diagnostic

theorem scanInquiry_performs (m : Module) (target : Target) (options : Options) :
    (m.scanInquiry target options).Performs (m.isInt ·) fun width? =>
      m.scan (m.factsByWidth width? target) options := by
  rw [← m.isInt_facts target]
  have judged (site : Site) := (Barrier.examination_performs (m.evaluation_asksOnly target) options
    site).bind fun run => .pure run.verdict
  refine ((Run.inquiry_performs judged _).bind fun run => .pure _).of_eq fun width? => ?_
  rw [scan, Run.verdict_of, answered_evaluation]
  rfl

def validation (m : Module) (target : Target) (options : Options) : Inquiry Verdict :=
  (m.scanInquiry target options).ifOk .error fun () => return m.resolve (m.limitations target)

theorem validation_performs (m : Module) (target : Target) (options : Options) :
    (m.validation target options).Performs (m.isInt ·) fun width? =>
      m.validateBy (m.factsByWidth width? target) options := by
  refine ((m.scanInquiry_performs target options).ifOk fun _ => .pure _).of_eq fun width? => ?_
  rw [validateBy]
  cases m.scan (m.factsByWidth width? target) options <;> rfl

/-! ## Answers -/

def HasComponent (m : Module) (type component : Ident) : Prop := m.component? type = some component

/-- Following component types from a type gives a width, with one call for each type on the way. -/
inductive Answers (m : Module) : Nat → Ident → Option Word → Prop where
  | last {type : Ident} (ends : m.component? type = none) :
      m.Answers 1 type ((m.definition? type).bind Instruction.scalarWidth?)
  | component {calls : Nat} {type component : Ident} {width : Option Word}
      (vector : m.HasComponent type component) (inner : m.Answers calls component width) :
      m.Answers (calls + 1) type width

variable {m : Module} {type other : Ident} {calls : Nat} {width : Option Word}

theorem answers_of_isInt (int : m.isInt type) : m.Answers 1 type (m.width? type) := by
  rw [width?_of_isInt int]
  exact .last (component?_of_isInt int)

theorem Answers.of_hasComponent (answers : m.Answers calls type width)
    (vector : m.HasComponent type other) : ∃ fewer < calls, m.Answers fewer other width := by
  cases answers with
  | last ends => cases ends.symm.trans vector
  | component found inner =>
    cases found.symm.trans vector
    exact ⟨_, Nat.lt_succ_self _, inner⟩

theorem Answers.of_transGen (answers : m.Answers calls type width)
    (leads : Relation.TransGen m.HasComponent type other) :
    ∃ fewer < calls, m.Answers fewer other width := by
  induction leads with
  | single vector => exact answers.of_hasComponent vector
  | tail leads vector step =>
    obtain ⟨between, less, reached⟩ := step
    obtain ⟨fewer, lesser, found⟩ := reached.of_hasComponent vector
    exact ⟨fewer, lesser.trans less, found⟩

/-- Around a cycle of vector types there is no last call. -/
theorem not_answers_of_cycle (cycle : Relation.TransGen m.HasComponent type type) :
    ¬m.Answers calls type width := by
  induction calls using Nat.strongRecOn with
  | ind calls step =>
    intro answers
    obtain ⟨fewer, less, again⟩ := answers.of_transGen cycle
    exact step fewer less again

/-- An operation on a module, as an inquiry, asks for the widths of scalar integers only. So it has
the same result by any widths that are right for these, and it ends, each of its questions being
answered in one call. -/
structure AsksIntWidths (m : Module) (operation : (Ident → Option Word) → α) (inquiry : Inquiry α)
    (result : α) : Prop where
  performs : inquiry.Performs (m.isInt ·) operation
  independent : ∀ width?, (∀ type, m.isInt type → width? type = m.width? type) →
    operation width? = result
  ends : inquiry.Ends (m.Answers 1) result

theorem asksIntWidths_of_performs {operation : (Ident → Option Word) → α} {inquiry : Inquiry α}
    (performs : inquiry.Performs (m.isInt ·) operation) :
    m.AsksIntWidths operation inquiry (operation m.width?) where
  performs := performs
  independent _ agree := performs.congr agree
  ends := performs.run m.width? ▸ performs.asksOnly.ends fun _ => answers_of_isInt

theorem evaluation_asksIntWidths (m : Module) (target : Target) (id : Ident) :
    m.AsksIntWidths (fun width? => m.evaluate width? id) (m.evaluation id)
      ((m.facts target).evaluate id) := by
  simp only [facts, factsByWidth]
  exact asksIntWidths_of_performs (m.evaluation_performs id)

theorem visitInquiry_asksIntWidths (m : Module) (target : Target) (options : Options)
    (registry : Registry) (site : Site) : m.AsksIntWidths
      (fun width? => Barrier.visit (m.factsByWidth width? target) .standard options registry site)
      (Barrier.visitInquiry (m.facts target) m.evaluation options registry site)
      (Barrier.visit (m.facts target) .standard options registry site) := by
  apply asksIntWidths_of_performs
  rw [← m.isInt_facts target]
  refine (Barrier.visitInquiry_performs (m.evaluation_asksOnly target) options registry site).of_eq
    fun width? => ?_
  rw [answered_evaluation]

theorem validation_asksIntWidths (m : Module) (target : Target) (options : Options) :
    m.AsksIntWidths (fun width? => m.validateBy (m.factsByWidth width? target) options)
      (m.validation target options) (m.validate target options) :=
  asksIntWidths_of_performs (m.validation_performs target options)

end Module

/-- A visit by the standard rules does not depend on widths but those of scalar integers. Evaluating an
id of a module, visiting its barriers and validating it ask for no other widths, so that they end on
every module, although following component types does not around a cycle. -/
theorem operations_askIntWidths :
    (∀ (facts : Facts) (width? : Ident → Option Word),
      (∀ type, facts.isInt type → width? type = facts.width? type) →
      ∀ options registry site,
        Barrier.visit { facts with width? := width? } .standard options registry site =
          Barrier.visit facts .standard options registry site) ∧
    ∀ (m : Module) (target : Target) (options : Options),
      (∀ id, m.AsksIntWidths (fun width? => m.evaluate width? id) (m.evaluation id)
        ((m.facts target).evaluate id)) ∧
      (∀ registry site, m.AsksIntWidths
        (fun width? => Barrier.visit (m.factsByWidth width? target) .standard options registry site)
        (Barrier.visitInquiry (m.facts target) m.evaluation options registry site)
        (Barrier.visit (m.facts target) .standard options registry site)) ∧
      m.AsksIntWidths (fun width? => m.validateBy (m.factsByWidth width? target) options)
        (m.validation target options) (m.validate target options) ∧
      ∀ type, Relation.TransGen m.HasComponent type type →
        ∀ calls width, ¬m.Answers calls type width := by
  constructor
  · intro facts width? agree options registry site
    have known (id : Ident) : (Inquiry.done (facts.evaluate id)).AsksOnly (facts.isInt ·) := trivial
    have performs := Barrier.visitInquiry_performs known options registry site
    exact performs.congr agree
  · intro m target options
    exact ⟨m.evaluation_asksIntWidths target, m.visitInquiry_asksIntWidths target options,
      m.validation_asksIntWidths target options,
      fun type cycle calls width => Module.not_answers_of_cycle cycle⟩

end Spirv
