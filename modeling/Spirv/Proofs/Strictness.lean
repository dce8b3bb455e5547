import Spirv.Proofs.Renaming
import Spirv.Proofs.Reordering

/-!
# Strictness of the rules

Each thing that rules depend on only ever adds faults or only ever takes them away. What passes
passes under laxer settings, as long as the facts say the same of the ids that are referred to
(`Barrier.accepts_of_laxer`, `validate_laxer`).
-/
namespace Spirv

/-! ## Rules -/

structure SemanticsContext.Laxer (context lax : SemanticsContext) : Prop where
  opcode : lax.opcode = context.opcode
  memoryModel : lax.memoryModel = .vulkan → context.memoryModel = .vulkan
  inVulkan : lax.inVulkan → context.inVulkan
  hasVulkanMemoryModel : context.hasVulkanMemoryModel → lax.hasVulkanMemoryModel
  controlBarrierStorageClass : lax.controlBarrierStorageClass → context.controlBarrierStorageClass

/-- What a module and its surroundings ask of barriers: the second asks no more than the first. -/
structure Facts.Laxer (facts : Facts) (options : Options) (lax : Facts) (laxOptions : Options) :
    Prop where
  isVulkan : lax.target.isVulkan → facts.target.isVulkan
  version : lax.target.version < ⟨1, 3⟩ → facts.target.version < ⟨1, 3⟩
  controlBarrierStorageClass :
    laxOptions.controlBarrierStorageClass → options.controlBarrierStorageClass
  shader : lax.hasCapability .shader → facts.hasCapability .shader
  vulkanMemoryModel :
    facts.hasCapability .vulkanMemoryModel → lax.hasCapability .vulkanMemoryModel
  memoryModel : lax.memoryModel = .vulkan → facts.memoryModel = .vulkan

/-- A fault that is found in fewer cases is not found where it was not found before. -/
theorem not_found_of_imp {broken laxBroken : Prop} [Decidable broken] [Decidable laxBroken]
    {fault : Fault} (fewer : laxBroken → broken)
    (passes : (if broken then some fault else none) = none) :
    (if laxBroken then some fault else none) = none := by
  apply if_neg
  intro found
  rw [if_pos (fewer found)] at passes
  cases passes

namespace SemanticsRule

variable {context lax : SemanticsContext} {semantics : MemorySemantics}

theorem gatedFlags_of_laxer (laxer : context.Laxer lax)
    (passes : gatedFlagsFault? context semantics = none) :
    gatedFlagsFault? lax semantics = none := by
  unfold gatedFlagsFault? at passes ⊢
  by_cases declared : context.hasVulkanMemoryModel
  · exact if_pos (laxer.hasVulkanMemoryModel declared)
  · rw [if_neg declared] at passes
    rw [passes, ite_self]

theorem vulkanTarget_of_laxer (laxer : context.Laxer lax)
    (passes : vulkanTargetFault? context semantics = none) :
    vulkanTargetFault? lax semantics = none := by
  unfold vulkanTargetFault? at passes ⊢
  by_cases inVulkan : lax.inVulkan
  · rw [if_neg (not_not.mpr (laxer.inVulkan inVulkan))] at passes
    rw [if_neg (not_not.mpr inVulkan), laxer.opcode]
    split at passes
    -- In Vulkan the rule for a memory barrier has no exemption.
    next => exact passes
    next =>
      apply not_found_of_imp (fun broken => ?_) passes
      exact ⟨laxer.controlBarrierStorageClass broken.1, broken.2⟩
    next => rfl
  · exact if_pos inVulkan

theorem passes_of_laxer (laxer : context.Laxer lax) {rule : SemanticsRule}
    (passes : rule.fault? context semantics = none) : rule.fault? lax semantics = none := by
  cases rule with
  | sequentialOrder =>
    apply not_found_of_imp (fun broken => ?_) passes
    exact ⟨laxer.memoryModel broken.1, broken.2⟩
  | gatedFlags => exact gatedFlags_of_laxer laxer passes
  | vulkanTarget => exact vulkanTarget_of_laxer laxer passes
  -- The other rules look at the word alone.
  | singleOrder | availabilityOrder | visibilityOrder | availabilityStorage => exact passes

end SemanticsRule

def OperandCheck.id : OperandCheck → Ident
  | executionScope id | memoryScope id | memorySemantics id => id

namespace Facts.Laxer

variable {facts lax : Facts} {options laxOptions : Options}

theorem of_same (target : lax.target = facts.target)
    (memoryModel : lax.memoryModel = facts.memoryModel)
    (hasCapability : lax.hasCapability = facts.hasCapability) :
    facts.Laxer options lax options := by
  constructor <;> simp [target, memoryModel, hasCapability]

variable (laxer : facts.Laxer options lax laxOptions)
include laxer

theorem not_shader (absent : facts.hasCapability .shader = false) :
    lax.hasCapability .shader = false := by
  apply Bool.eq_false_iff.mpr
  intro declared
  rw [laxer.shader declared] at absent
  cases absent

theorem context (opcode : Opcode) :
    SemanticsContext.Laxer (.ofFacts facts options opcode) (.ofFacts lax laxOptions opcode) :=
  ⟨rfl, laxer.memoryModel, laxer.isVulkan, laxer.vulkanMemoryModel,
    laxer.controlBarrierStorageClass⟩

theorem executionFault? {scope : Scope} (passes : ScopeRules.executionFault? facts scope = none) :
    ScopeRules.executionFault? lax scope = none := by
  apply not_found_of_imp (fun broken => ?_) passes
  exact ⟨laxer.isVulkan broken.1, broken.2⟩

theorem memoryFault? {scope : Scope} (passes : ScopeRules.memoryFault? facts scope = none) :
    ScopeRules.memoryFault? lax scope = none := by
  unfold ScopeRules.memoryFault? at passes ⊢
  split at passes
  next => cases passes
  next queueFamily =>
    rw [if_neg fun broken => queueFamily ⟨broken.1, mt laxer.vulkanMemoryModel broken.2⟩]
    apply not_found_of_imp (fun broken => ?_) passes
    exact ⟨laxer.isVulkan broken.1, broken.2⟩

theorem scope {role : OperandRole} {fault? laxFault? : Scope → Option Fault} {id : Ident}
    (same : lax.evaluate id = facts.evaluate id)
    (allowed : ∀ scope, fault? scope = none → laxFault? scope = none)
    (passes : ScopeRules.check facts role fault? id = .ok ()) :
    ScopeRules.check lax role laxFault? id = .ok () := by
  rw [ScopeRules.check_eq_ok_iff] at passes ⊢
  rw [same]
  rcases passes with ⟨runtime, absent⟩ | ⟨value, scope, constant, numbered, passes⟩
  · exact .inl ⟨runtime, laxer.not_shader absent⟩
  · exact .inr ⟨value, scope, constant, numbered, allowed scope passes⟩

theorem semantics {opcode : Opcode} {id : Ident} (same : lax.evaluate id = facts.evaluate id)
    (passes : MemorySemantics.check facts options opcode id = .ok ()) :
    MemorySemantics.check lax laxOptions opcode id = .ok () := by
  rw [MemorySemantics.check_eq_ok_iff] at passes ⊢
  rw [same]
  rcases passes with ⟨runtime, absent⟩ | ⟨value, constant, passes⟩
  · exact .inl ⟨runtime, laxer.not_shader absent⟩
  · refine .inr ⟨value, constant, ?_⟩
    rw [MemorySemantics.fault?_eq_none_iff] at passes ⊢
    exact fun rule => SemanticsRule.passes_of_laxer (laxer.context opcode) (passes rule)

/-- An operand is judged by what is known of the id in it. -/
theorem operandCheck {opcode : Opcode} {asked : OperandCheck}
    (same : lax.evaluate asked.id = facts.evaluate asked.id)
    (passes : asked.fault? facts options opcode = none) :
    asked.fault? lax laxOptions opcode = none := by
  rw [OperandCheck.fault?_eq_none_iff] at passes ⊢
  cases asked with
  | executionScope id => exact laxer.scope same (fun _ => laxer.executionFault?) passes
  | memoryScope id => exact laxer.scope same (fun _ => laxer.memoryFault?) passes
  | memorySemantics id => exact laxer.semantics same passes

end Facts.Laxer

/-! ## Instructions -/

def Instruction.references (inst : Instruction) : List Ident :=
  inst.resultType.toList ++ inst.operands.filterMap Operand.id?

theorem Instruction.mem_references_of_resultType {inst : Instruction} {type : Ident}
    (typed : inst.resultType = some type) : type ∈ inst.references := by
  simp [references, typed]

theorem Instruction.mem_references_of_idOperand? {inst : Instruction} {index : Nat} {id : Ident}
    (named : inst.idOperand? index = some id) : id ∈ inst.references := by
  obtain ⟨operand, found, isId⟩ := Option.bind_eq_some_iff.mp named
  exact List.mem_append_right _
    (List.mem_filterMap.mpr ⟨operand, List.mem_of_getElem? found, isId⟩)

/-- The second facts say of the known ids what the first say of them. The type of a known id is
known. -/
structure Facts.AgreeOn (known : Ident → Prop) (facts other : Facts) : Prop where
  evaluate : ∀ id, known id → other.evaluate id = facts.evaluate id
  opcode? : ∀ id, known id → other.opcode? id = facts.opcode? id
  typeOf? : ∀ id, known id → other.typeOf? id = facts.typeOf? id
  isInt32 : ∀ id, known id → other.isInt32 id = facts.isInt32 id
  types : ∀ id type, known id → facts.typeOf? id = some type → known type

namespace Facts.AgreeOn

variable {known : Ident → Prop} {facts other : Facts} (agree : AgreeOn known facts other)
include agree

theorem symm : AgreeOn known other facts where
  evaluate id isKnown := (agree.evaluate id isKnown).symm
  opcode? id isKnown := (agree.opcode? id isKnown).symm
  typeOf? id isKnown := (agree.typeOf? id isKnown).symm
  isInt32 id isKnown := (agree.isInt32 id isKnown).symm
  types id type isKnown typed := agree.types id type isKnown (agree.typeOf? id isKnown ▸ typed)

theorem any_isNamedBarrier {type : Option Ident} (typed : ∀ id, type = some id → known id) :
    type.any other.isNamedBarrier = type.any facts.isNamedBarrier := by
  cases type with
  | none => rfl
  | some id => simp [Facts.isNamedBarrier, agree.opcode? id (typed id rfl)]

theorem any_isInt32 {type : Option Ident} (typed : ∀ id, type = some id → known id) :
    type.any other.isInt32 = type.any facts.isInt32 := by
  cases type with
  | none => rfl
  | some id => simp [agree.isInt32 id (typed id rfl)]

variable {inst : Instruction} (refers : ∀ id ∈ inst.references, known id)
include refers

theorem operandType? (index : Nat) :
    other.operandType? inst index = facts.operandType? inst index := by
  unfold Facts.operandType?
  cases named : inst.idOperand? index with
  | none => rfl
  | some id => exact agree.typeOf? id (refers id (Instruction.mem_references_of_idOperand? named))

theorem known_operandType? {index : Nat} {type : Ident}
    (typed : facts.operandType? inst index = some type) : known type := by
  obtain ⟨id, named, typeOf⟩ := Option.bind_eq_some_iff.mp typed
  exact agree.types id type (refers id (Instruction.mem_references_of_idOperand? named)) typeOf

theorem operandChecks :
    Barrier.operandChecks other inst = Barrier.operandChecks facts inst := by
  unfold Barrier.operandChecks
  split
  next => rfl
  next => rfl
  next =>
    rw [agree.any_isNamedBarrier fun id typed =>
        refers id (Instruction.mem_references_of_resultType typed),
      agree.operandType? refers, agree.any_isInt32 fun id => agree.known_operandType? refers]
  next =>
    rw [agree.operandType? refers,
      agree.any_isNamedBarrier fun id => agree.known_operandType? refers]
  next => rfl

end Facts.AgreeOn

namespace Barrier

variable {facts lax : Facts} {options laxOptions : Options} {inst : Instruction}

theorem id_mem_references_of_memoryChecks {index : Nat} {checks : List OperandCheck}
    (shaped : memoryChecks inst index = .ok checks) :
    ∀ asked ∈ checks, asked.id ∈ inst.references := by
  obtain ⟨memory, semantics, first, second, rfl⟩ := memoryChecks_eq_ok_iff.mp shaped
  have scope := Instruction.mem_references_of_idOperand? first
  have word := Instruction.mem_references_of_idOperand? second
  simpa [OperandCheck.id] using ⟨scope, word⟩

/-- Only ids that the instruction refers to are checked. -/
theorem id_mem_references {checks : List OperandCheck}
    (shaped : operandChecks facts inst = .ok checks) :
    ∀ asked ∈ checks, asked.id ∈ inst.references := by
  rw [operandChecks_eq_ok_iff] at shaped
  split at shaped
  next =>
    obtain ⟨execution, others, first, memory, rfl⟩ := shaped
    exact List.forall_mem_cons.mpr
      ⟨Instruction.mem_references_of_idOperand? first, id_mem_references_of_memoryChecks memory⟩
  next => exact id_mem_references_of_memoryChecks shaped
  next =>
    obtain ⟨-, -, rfl⟩ := shaped
    exact List.forall_mem_nil _
  next => exact id_mem_references_of_memoryChecks shaped.2
  next =>
    subst shaped
    exact List.forall_mem_nil _

/-- A barrier that passes also passes where less is asked, if as much is known of the ids in it. -/
theorem accepts_of_laxer {known : Ident → Prop} (laxer : facts.Laxer options lax laxOptions)
    (agree : facts.AgreeOn known lax) (refers : ∀ id ∈ inst.references, known id)
    (accepted : Accepts facts options inst) : Accepts lax laxOptions inst := by
  rw [accepts_iff_fault?, fault?_eq_none_iff] at accepted ⊢
  obtain ⟨checks, shaped, passes⟩ := accepted
  refine ⟨checks, (agree.operandChecks refers).trans shaped, fun asked member => ?_⟩
  have known := refers _ (id_mem_references shaped asked member)
  exact laxer.operandCheck (agree.evaluate _ known) (passes asked member)

end Barrier

theorem Function.Passes.of_laxer {facts lax : Facts} {options laxOptions : Options}
    {function : Function} {known : Ident → Prop} (passes : function.Passes facts options)
    (laxer : facts.Laxer options lax laxOptions) (agree : facts.AgreeOn known lax)
    (refers : ∀ inst ∈ function.body, ∀ id ∈ inst.references, known id) :
    function.Passes lax laxOptions := by
  refine ⟨passes.named, fun inst member isBarrier => ?_⟩
  exact Barrier.accepts_of_laxer laxer agree (refers inst member)
    (passes.accepted inst member isBarrier)

/-! ## Modules -/

namespace Module

variable {m other : Module} {target laxTarget : Target} {options laxOptions : Options}

/-- Facts agree on ids of the same meaning. -/
theorem facts_agreeOn {known : Ident → Prop}
    (meanings : ∀ id, known id → other.meaning? id = m.meaning? id)
    (types : ∀ id type, known id → (m.meaning? id).bind Meaning.resultType = some type →
      known type)
    (target laxTarget : Target) : (m.facts target).AgreeOn known (other.facts laxTarget) := by
  have isInt32 (type : Ident) (isKnown : known type) :
      (other.facts laxTarget).isInt32 type = (m.facts target).isInt32 type := by
    rw [isInt32_facts, isInt32_facts, meanings type isKnown]
  constructor
  · intro id isKnown
    rw [evaluate_facts, evaluate_facts, meanings id isKnown]
    cases defined : m.meaning? id with
    | none => rfl
    | some meaning =>
      have typed : meaning.resultType.any (other.facts laxTarget).isInt32 =
          meaning.resultType.any (m.facts target).isInt32 := by
        cases result : meaning.resultType with
        | none => rfl
        | some type => exact isInt32 type (types id type isKnown (by simp [defined, result]))
      simp only [typed]
  · intro id isKnown
    rw [opcode?_facts, opcode?_facts, meanings id isKnown]
  · intro id isKnown
    rw [typeOf?_facts, typeOf?_facts, meanings id isKnown]
  · exact isInt32
  · intro id type isKnown typed
    rw [typeOf?_facts] at typed
    exact types id type isKnown typed

def withSettings (m : Module) (capabilities : List Instruction) (memoryModel : Option Instruction) :
    Module :=
  { m with capabilities, memoryModel }

def settings (m : Module) : List Instruction := m.capabilities ++ m.memoryModel.toList

section Settings

variable {capabilities : List Instruction} {memoryModel : Option Instruction}

@[simp] theorem scannedBarriers_withSettings :
    (m.withSettings capabilities memoryModel).scannedBarriers = m.scannedBarriers := rfl

/-- Settings without result ids define nothing. -/
theorem defines_withSettings (nameless : ∀ inst ∈ m.settings, inst.resultId = none) :
    m.listing.filterMap Instruction.defines =
      (m.withSettings [] none).listing.filterMap Instruction.defines := by
  have silent (insts : List Instruction) (declared : ∀ inst ∈ insts, inst ∈ m.settings) :
      insts.filterMap Instruction.defines = [] := by
    apply List.filterMap_eq_nil_iff.mpr
    intro inst member
    simp [Instruction.defines, nameless inst (declared inst member)]
  have capabilities := silent m.capabilities fun inst => List.mem_append_left _
  have memoryModel := silent m.memoryModel.toList fun inst => List.mem_append_right _
  simp [listing, withSettings, capabilities, memoryModel]

theorem facts_agreeOn_withSettings (nameless : ∀ inst ∈ m.settings, inst.resultId = none)
    (stillNameless : ∀ inst ∈ (m.withSettings capabilities memoryModel).settings,
      inst.resultId = none) (target laxTarget : Target) :
    (m.facts target).AgreeOn (fun _ => True)
      ((m.withSettings capabilities memoryModel).facts laxTarget) := by
  have defines :=
    (defines_withSettings stillNameless).trans (defines_withSettings nameless).symm
  exact facts_agreeOn (fun id _ => meaning?_congr defines id) (fun _ _ _ _ => trivial)
    target laxTarget

theorem deferred_of_laxer (version : laxTarget.version < ⟨1, 3⟩ → target.version < ⟨1, 3⟩)
    (passes : m.deferred target = .ok ()) :
    (m.withSettings capabilities memoryModel).deferred laxTarget = .ok () := by
  have reaches : (m.withSettings capabilities memoryModel).Reaches = m.Reaches :=
    reaches_congr fun _ _ => ⟨fun calls => ⟨calls.called, calls.defined⟩,
      fun calls => ⟨calls.called, calls.defined⟩⟩
  rw [deferred_eq_ok_iff] at passes ⊢
  intro early holds
  obtain ⟨clean, allowed⟩ := passes (version early) holds
  refine ⟨clean, fun site member => ?_⟩
  rw [excludes_iff reaches fun _ => Iff.rfl]
  exact allowed site member

end Settings

def ScanRejects (m : Module) (target : Target) (options : Options) (index : Nat) : Prop :=
  ∃ diagnostic location, m.validate target options = .error diagnostic ∧
    m.scan (m.facts target) options = .error diagnostic ∧
    diagnostic.location = some location ∧ location.index = index

theorem ScanRejects.exists_barrier {index : Nat} (rejects : m.ScanRejects target options index) :
    ∃ site ∈ m.scannedBarriers, site.index = index ∧
      ¬Barrier.Accepts (m.facts target) options site.inst := by
  obtain ⟨diagnostic, location, -, stops, located, rfl⟩ := rejects
  unfold scan at stops
  split at stops
  next reported verdict =>
    cases stops
    obtain ⟨before, site, after, split, fails, -⟩ := Verdict.all_eq_error_iff.mp verdict
    rw [Barrier.location_of_check fails] at located
    cases located
    refine ⟨site, ?_, rfl, ?_⟩
    · rw [scannedBarriers, split]
      exact List.mem_append_right _ List.mem_cons_self
    · rw [← Barrier.check_eq_ok_iff, fails]
      simp
  next =>
    split at stops <;> cases stops
    cases located

/-- The scan comes to a barrier that is not accepted, unless it has stopped before. -/
theorem exists_scanRejects_le {site : Site} (member : site ∈ m.scannedBarriers)
    (rejected : ¬Barrier.Accepts (m.facts target) options site.inst) :
    ∃ earlier ≤ site.index, m.ScanRejects target options earlier := by
  have sorted : m.scannedBarriers.Pairwise fun first second => first.index < second.index :=
    (Site.pairwise_ofFunctions _).filter _
  rw [← Barrier.check_eq_ok_iff] at rejected
  cases verdict : Verdict.all (Barrier.check (m.facts target) .standard options)
    m.scannedBarriers with
  | ok passed => exact absurd (Verdict.all_eq_ok_iff.mp verdict site member) rejected
  | error diagnostic =>
    have stops : m.scan (m.facts target) options = .error diagnostic := by
      unfold scan
      rw [← scannedBarriers, verdict]
    obtain ⟨first, -, fails, least⟩ := (Verdict.all_eq_error_iff_least sorted).mp verdict
    refine ⟨first.index, least site member rejected, diagnostic, first.location, ?_, stops,
      Barrier.location_of_check fails, rfl⟩
    rw [validate, validateBy, stops]

/-- A module that is accepted is also accepted where less is asked. One that the scan rejects there
has been rejected by the scan before, for the same instruction or for an earlier one. (A function
without an id ends both scans at one place.) -/
theorem validate_laxer {capabilities : List Instruction} {memoryModel : Option Instruction}
    (nameless : ∀ inst ∈ m.settings, inst.resultId = none)
    (stillNameless : ∀ inst ∈ (m.withSettings capabilities memoryModel).settings,
      inst.resultId = none)
    (laxer : (m.facts target).Laxer options
      ((m.withSettings capabilities memoryModel).facts laxTarget) laxOptions) :
    (m.validate target options = .ok () →
      (m.withSettings capabilities memoryModel).validate laxTarget laxOptions = .ok ()) ∧
    ∀ index, (m.withSettings capabilities memoryModel).ScanRejects laxTarget laxOptions index →
      ∃ earlier ≤ index, m.ScanRejects target options earlier := by
  have agree := facts_agreeOn_withSettings nameless stillNameless target laxTarget
  constructor
  · intro accepted
    rw [validate_eq_ok_iff_phases] at accepted ⊢
    obtain ⟨passes, deferred⟩ := accepted
    refine ⟨fun function known => ?_, deferred_of_laxer laxer.version deferred⟩
    exact (passes function known).of_laxer laxer agree fun _ _ _ _ => trivial
  · intro index rejects
    obtain ⟨site, member, rfl, rejected⟩ := rejects.exists_barrier
    rw [scannedBarriers_withSettings] at member
    refine exists_scanRejects_le member fun accepted => ?_
    exact rejected (Barrier.accepts_of_laxer laxer agree (fun _ _ => trivial) accepted)

def shaderBehindCall : Module :=
  barrierBehindCall.withSettings [⟨.other "Capability", none, none, [.capability .shader]⟩] none

theorem validate_laxer_shaderBehindCall :
    (shaderBehindCall.withSettings [] none).validate .universal1_3 {} = .ok () ∧
      ∃ earlier ≤ 1, bareBarrier.ScanRejects .vulkan1_0 ⟨true⟩ earlier := by
  have shaderLaxer : (shaderBehindCall.facts .vulkan1_2).Laxer ⟨true⟩
      ((shaderBehindCall.withSettings [] none).facts .universal1_3) {} := by
    constructor <;> decide
  have bareLaxer : (bareBarrier.facts .vulkan1_0).Laxer ⟨true⟩
      ((bareBarrier.withSettings [] none).facts .universal1_3) {} := by
    constructor <;> decide
  have accepted : shaderBehindCall.validate .vulkan1_2 ⟨true⟩ = .ok () := by decide +kernel
  have rejects : (bareBarrier.withSettings [] none).ScanRejects .universal1_3 {} 1 :=
    ⟨_, _, rfl, rfl, rfl, rfl⟩
  exact ⟨(validate_laxer (by decide) (by decide) shaderLaxer).1 accepted,
    (validate_laxer (by decide) (by decide) bareLaxer).2 1 rejects⟩

end Module

end Spirv
