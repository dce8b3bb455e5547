import Spirv.Proofs.Renaming
import Spirv.Proofs.Reordering

/-!
# What the verdict does not depend on

Of a target the rules ask only whether it is Vulkan and whether its version restricts control
barriers (`validate_target`). Without a restricted control barrier neither entry points nor the
operands of calls are looked at (`validate_eq_of_hideCalls_eq`).
-/
namespace Spirv

/-- Execution models are a matter for the second phase. -/
theorem Fault.kind_ne_executionModelViolation (fault : Fault) :
    fault.kind ≠ .executionModelViolation := by
  cases fault <;> nofun

theorem Function.Fails.kind_ne {facts : Facts} {options : Options} {start : Nat}
    {function : Function} {diagnostic : Diagnostic}
    (fails : function.Fails facts options start diagnostic) :
    diagnostic.kind ≠ .executionModelViolation := by
  cases fails with
  | unnamed lacks => nofun
  | barrier named body accepted isBarrier rejected location =>
    obtain ⟨fault, -, rfl⟩ := Barrier.exists_fault_of_check rejected
    exact fault.kind_ne_executionModelViolation

namespace Module

variable {m : Module} {target first second : Target} {options : Options}

theorem kind_of_scan {facts : Facts} {diagnostic : Diagnostic}
    (stops : m.scan facts options = .error diagnostic) :
    diagnostic.kind ≠ .executionModelViolation := by
  obtain ⟨before, function, after, -, -, fails⟩ := scan_eq_error_iff.mp stops
  exact fails.kind_ne

/-- Without limitations the scan decides. -/
theorem validate_eq_scan
    (free : ¬target.version < ⟨1, 3⟩ ∨ ∀ function ∈ m.functions, ¬function.HoldsControlBarrier) :
    m.validate target options = m.scan (m.facts target) options := by
  have empty : m.limitations target = .ofLog [] := by
    by_cases early : target.version < ⟨1, 3⟩
    · have none : m.controlBarriers = [] := by
        apply List.eq_nil_iff_forall_not_mem.mpr
        intro site member
        obtain ⟨function, known, -, holds⟩ := exists_controlBarrier_iff.mp ⟨site, member, rfl⟩
        exact free.resolve_left (not_not.mpr early) function known holds
      rw [limitations_of_version_lt early, controlBarrierLog, none, List.map_nil]
    · exact limitations_of_not_version_lt early
  have resolved : m.resolve (m.limitations (m.facts target).target) = .ok () := by
    change m.resolve (m.limitations target) = .ok ()
    rw [empty, resolve_empty]
  rw [validate, validateBy, resolved]
  cases m.scan (m.facts target) options <;> rfl

/-! ## Targets -/

theorem scan_target (isVulkan : first.isVulkan = second.isVulkan) :
    m.scan (m.facts first) options = m.scan (m.facts second) options := by
  have same : (m.facts second).Renamed id (m.facts first) :=
    facts_same_of_meanings (fun _ => rfl) (fun _ => Iff.rfl) rfl isVulkan
  exact scan_congr rfl rfl (Barrier.fault?_same same options)

theorem limitations_target (version : first.version < ⟨1, 3⟩ ↔ second.version < ⟨1, 3⟩) :
    m.limitations first = m.limitations second := by
  by_cases early : first.version < ⟨1, 3⟩
  · rw [limitations_of_version_lt early, limitations_of_version_lt (version.mp early)]
  · rw [limitations_of_not_version_lt early,
      limitations_of_not_version_lt (mt version.mpr early)]

/-- Two targets that are both Vulkan or both not get the same verdict if their versions restrict
control barriers alike. Otherwise the earlier one gets the verdict of the later one, unless that
accepts: then the earlier one may still reject the module for an execution model or an entry point,
which the later one never does. -/
theorem validate_target (m : Module) (first second : Target) (options : Options)
    (isVulkan : first.isVulkan = second.isVulkan) :
    ((first.version < ⟨1, 3⟩ ↔ second.version < ⟨1, 3⟩) →
      m.validate first options = m.validate second options) ∧
    (first.version < ⟨1, 3⟩ → ¬second.version < ⟨1, 3⟩ →
      (∀ diagnostic, m.validate second options = .error diagnostic →
        m.validate first options = .error diagnostic ∧
          diagnostic.kind ≠ .executionModelViolation) ∧
      (m.validate second options = .ok () → m.validate first options = .ok () ∨
        ∃ diagnostic, m.validate first options = .error diagnostic ∧
          (diagnostic.kind = .executionModelViolation ∨ m.BlamesEntryPoint diagnostic))) := by
  constructor
  · intro version
    have resolved : m.resolve (m.limitations (m.facts first).target) =
        m.resolve (m.limitations (m.facts second).target) :=
      congrArg m.resolve (limitations_target version)
    rw [validate, validateBy, validate, validateBy, scan_target isVulkan, resolved]
  · intro early late
    rw [validate_eq_scan (.inl late)]
    constructor
    · intro diagnostic stops
      refine ⟨?_, kind_of_scan stops⟩
      rw [validate, validateBy, scan_target isVulkan, stops]
    · intro passed
      have scanned : m.scan (m.facts first) options = .ok () := (scan_target isVulkan).trans passed
      have resolved : m.validate first options = m.resolve (m.limitations first) := by
        rw [validate, validateBy, scanned]
        rfl
      rw [resolved]
      cases verdict : m.resolve (m.limitations first) with
      | ok accepted => exact .inl rfl
      | error diagnostic =>
        refine .inr ⟨diagnostic, rfl, ?_⟩
        rcases (resolve_limitations_eq_error_iff (named_of_scan scanned)).mp verdict with
          ⟨-, -, blames | ⟨-, site, blames⟩⟩
        · exact .inr blames
        · exact .inl (congrArg Diagnostic.kind blames.blamed)

theorem validate_target_barrierBehindCall :
    barrierBehindCall.validate .openGL4_5 {} = barrierBehindCall.validate .universal1_2 {} ∧
      bareBarrier.validate .vulkan1_0 {} = bareBarrier.validate .vulkan1_2 {} ∧
      ∃ diagnostic, barrierBehindCall.validate .universal1_0 {} = .error diagnostic ∧
        (diagnostic.kind = .executionModelViolation ∨
          barrierBehindCall.BlamesEntryPoint diagnostic) := by
  have alike := (validate_target barrierBehindCall .openGL4_5 .universal1_2 {} rfl).1 (by decide)
  have rejected := (validate_target bareBarrier .vulkan1_0 .vulkan1_2 {} rfl).2
    (by decide) (by decide)
  have accepted := (validate_target barrierBehindCall .universal1_0 default {} rfl).2
    (by decide) (by decide)
  have passes : barrierBehindCall.validate default {} = .ok () := by decide +kernel
  refine ⟨alike, (rejected.1 _ rfl).1, ?_⟩
  exact (accepted.2 passes).resolve_left barrierBehindCall_not_accepted

end Module

/-! ## Entry points and calls -/

/-- A call without its operands; any other instruction stays. -/
def Instruction.hideCall (inst : Instruction) : Instruction :=
  if inst.opcode = .functionCall then { inst with operands := [] } else inst

section HideCall

variable {inst : Instruction}

theorem Instruction.hideCall_of_ne (other : inst.opcode ≠ .functionCall) : inst.hideCall = inst :=
  if_neg other

@[simp] theorem Instruction.opcode_hideCall : inst.hideCall.opcode = inst.opcode := by
  unfold hideCall
  split <;> rfl

theorem Instruction.resultId_hideCall : inst.hideCall.resultId = inst.resultId.map id := by
  unfold hideCall
  split <;> simp

/-- No rule asks for the operands of a call that defines an id. -/
theorem Instruction.defines_hideCall : inst.hideCall.defines = inst.defines := by
  by_cases call : inst.opcode = .functionCall
  · simp [hideCall, call, defines, meaning, declaresInt32, constantValue]
  · rw [hideCall_of_ne call]

theorem Site.map_hideCall_of_isBarrier {site : Site} (isBarrier : site.opcode.isBarrier) :
    site.map Instruction.hideCall id = site := by
  have other : site.inst.opcode ≠ .functionCall := by
    intro call
    rw [opcode, call] at isBarrier
    cases isBarrier
  rw [map, Instruction.hideCall_of_ne other]
  rfl

theorem Function.holdsControlBarrier_hideCall {function : Function} :
    (function.map Instruction.hideCall).HoldsControlBarrier ↔ function.HoldsControlBarrier := by
  simp [HoldsControlBarrier, map, Block.map]

end HideCall

namespace Module

variable {m other : Module} {target : Target} {options : Options}

def hideCalls (m : Module) : Module :=
  { m with
    entryPoints := []
    functions := m.functions.map (Function.map Instruction.hideCall) }

theorem scannedBarriers_hideCalls (m : Module) :
    m.hideCalls.scannedBarriers = m.scannedBarriers := by
  have sites : m.hideCalls.scannedSites =
      m.scannedSites.map (Site.map Instruction.hideCall id) :=
    scannedSites_map (fun _ => Instruction.resultId_hideCall) rfl
  have kept (site : Site) :
      (site.map Instruction.hideCall id).opcode.isBarrier = site.opcode.isBarrier :=
    congrArg Opcode.isBarrier Instruction.opcode_hideCall
  rw [scannedBarriers, sites, List.filter_map, scannedBarriers]
  simp only [Function.comp_def, kept]
  refine (List.map_congr_left fun site member => ?_).trans (List.map_id _)
  exact Site.map_hideCall_of_isBarrier (List.mem_filter.mp member).2

theorem defines_hideCalls (nameless : ∀ inst ∈ m.entryPoints, inst.resultId = none) :
    m.hideCalls.listing.filterMap Instruction.defines =
      m.listing.filterMap Instruction.defines := by
  have entryPoints : m.entryPoints.filterMap Instruction.defines = [] := by
    apply List.filterMap_eq_nil_iff.mpr
    intro inst member
    simp [Instruction.defines, nameless inst member]
  have functions (function : Function) :
      (function.map Instruction.hideCall).listing.filterMap Instruction.defines =
        function.listing.filterMap Instruction.defines := by
    rw [function.listing_map, List.filterMap_map]
    congr 1
    funext inst
    exact Instruction.defines_hideCall
  simp [listing, hideCalls, entryPoints, List.flatMap_map, List.filterMap_flatMap, functions]

theorem forall_functions_hideCalls_iff :
    (∀ function ∈ m.hideCalls.functions, ¬function.HoldsControlBarrier) ↔
      ∀ function ∈ m.functions, ¬function.HoldsControlBarrier := by
  simp [hideCalls, Function.holdsControlBarrier_hideCall]

theorem validate_hideCalls (nameless : ∀ inst ∈ m.entryPoints, inst.resultId = none)
    (free : ¬target.version < ⟨1, 3⟩ ∨ ∀ function ∈ m.functions, ¬function.HoldsControlBarrier) :
    m.hideCalls.validate target options = m.validate target options := by
  have stillFree := free.imp_right forall_functions_hideCalls_iff.mpr
  have same : (m.facts target).Renamed id (m.hideCalls.facts target) :=
    facts_same_of_meanings (meaning?_congr (defines_hideCalls nameless)) (fun _ => Iff.rfl) rfl rfl
  rw [validate_eq_scan free, validate_eq_scan stillFree]
  exact scan_congr (all_named_map (fun _ => Instruction.resultId_hideCall) rfl)
    (scannedBarriers_hideCalls m) (Barrier.fault?_same same options)

/-- Modules that differ in entry points and in operands of calls only get the same verdict, if
control barriers are not restricted or there are none. -/
theorem validate_eq_of_hideCalls_eq (same : other.hideCalls = m.hideCalls)
    (nameless : ∀ inst ∈ m.entryPoints, inst.resultId = none)
    (stillNameless : ∀ inst ∈ other.entryPoints, inst.resultId = none)
    (free : ¬target.version < ⟨1, 3⟩ ∨ ∀ function ∈ m.functions, ¬function.HoldsControlBarrier) :
    other.validate target options = m.validate target options := by
  have stillFree : ¬target.version < ⟨1, 3⟩ ∨
      ∀ function ∈ other.functions, ¬function.HoldsControlBarrier := by
    rwa [← forall_functions_hideCalls_iff, same, forall_functions_hideCalls_iff]
  rw [← validate_hideCalls nameless free, ← validate_hideCalls stillNameless stillFree, same]

theorem validate_eq_of_hideCalls_eq_barrierBehindCall :
    ({ barrierBehindCall with
        entryPoints := [⟨.entryPoint, none, none, []⟩]
        functions := barrierBehindCall.functions.map (Function.map Instruction.hideCall) } :
      Module).validate default {} = .ok () := by
  have passes : barrierBehindCall.validate default {} = .ok () := by decide +kernel
  rw [validate_eq_of_hideCalls_eq (m := barrierBehindCall) (by decide) (by decide) (by decide)
    (.inl (by decide)), passes]

end Module

end Spirv
