import Spirv.Proofs.Resolution
import Spirv.Proofs.Scan

/-!
# Acceptance and the reported diagnostic

What the two phases of validation come to. All control barriers put the same limitation on their
functions, so the least violation is at the first of them whose function an excluded execution
model reaches (`resolve_controlBarriers`).
-/
namespace Spirv

namespace Site

theorem mem_ofFunctions_iff {functions : List Function} {inst : Instruction} {id : Ident} :
    (∃ index, ⟨inst, id, index⟩ ∈ ofFunctions functions) ↔
      ∃ function ∈ functions, function.id? = some id ∧ inst ∈ function.body := by
  have listed : (id, inst) ∈ functions.flatMap Function.bodyWithId ↔
      ∃ function ∈ functions, function.id? = some id ∧ inst ∈ function.body := by
    rw [List.mem_flatMap]
    refine exists_congr fun function => and_congr_right fun _ => ?_
    cases named : function.id? with
    | none => simp [Function.bodyWithId, named]
    | some other => simp [Function.bodyWithId, named, and_comm]
  rw [← listed, List.mem_iff_getElem]
  constructor
  · intro found
    obtain ⟨index, member⟩ := found
    obtain ⟨position, bound, same⟩ := List.mem_mapIdx.mp member
    simp only [Site.mk.injEq] at same
    exact ⟨position, bound, by rw [← same.1, ← same.2.1]⟩
  · intro found
    obtain ⟨position, bound, same⟩ := found
    refine ⟨position, List.mem_mapIdx.mpr ⟨position, bound, ?_⟩⟩
    rw [same]

/-- Sites are listed in the order of their positions. -/
theorem pairwise_ofFunctions (functions : List Function) :
    (ofFunctions functions).Pairwise fun first second => first.index < second.index := by
  refine List.pairwise_iff_getElem.mpr fun i j boundI boundJ less => ?_
  rw [index_of_getElem?_ofFunctions (List.getElem?_eq_getElem boundI),
    index_of_getElem?_ofFunctions (List.getElem?_eq_getElem boundJ)]
  exact less

end Site

def Function.HoldsControlBarrier (function : Function) : Prop :=
  ∃ block ∈ function.blocks, ∃ inst ∈ block.instructions, inst.opcode = .controlBarrier

namespace Barrier

def log (target : Target) (sites : List Site) : List (Ident × Registration) :=
  sites.filterMap fun site => (limitation? target site.opcode).map fun limitation =>
    (site.function, ⟨limitation, site.location⟩)

theorem foldl_record (target : Target) (sites : List Site) (registry : Registry) :
    sites.foldl (record target) registry =
      (log target sites).foldl (fun registry entry => registry.register entry.1 entry.2) registry := by
  apply Registry.foldl_eq_foldl_register
  intro registry site
  unfold record
  cases limitation? target site.opcode <;> rfl

theorem log_of_version_lt {target : Target} (early : target.version < ⟨1, 3⟩) (sites : List Site) :
    log target sites = (sites.filter fun site => site.opcode = .controlBarrier).map fun site =>
      (site.function, ⟨controlBarrierLimitation, site.location⟩) := by
  induction sites with
  | nil => rfl
  | cons site rest step =>
    unfold log at step ⊢
    rw [List.filterMap_cons, step, limitation?]
    by_cases same : site.opcode = .controlBarrier <;> simp [same, early]

theorem log_of_not_version_lt {target : Target} (late : ¬target.version < ⟨1, 3⟩)
    (sites : List Site) : log target sites = [] := by
  simp [log, limitation?, late]

end Barrier

namespace Module

variable {m : Module} {target : Target} {options : Options}

theorem limitations_eq_ofLog (m : Module) (target : Target) :
    m.limitations target = .ofLog (Barrier.log target (Site.ofFunctions m.functions)) :=
  Barrier.foldl_record target _ ∅

def controlBarriers (m : Module) : List Site :=
  (Site.ofFunctions m.functions).filter fun site => site.opcode = .controlBarrier

theorem mem_controlBarriers_iff {site : Site} : site ∈ m.controlBarriers ↔
    site ∈ Site.ofFunctions m.functions ∧ site.opcode = .controlBarrier := by
  simp [controlBarriers]

theorem exists_controlBarrier_iff {id : Ident} :
    (∃ site ∈ m.controlBarriers, site.function = id) ↔
      ∃ function ∈ m.functions, function.id? = some id ∧ function.HoldsControlBarrier := by
  constructor
  · intro found
    obtain ⟨⟨inst, _, index⟩, member, rfl⟩ := found
    obtain ⟨listed, opcode⟩ := mem_controlBarriers_iff.mp member
    obtain ⟨function, known, named, body⟩ := Site.mem_ofFunctions_iff.mp ⟨index, listed⟩
    obtain ⟨block, inFunction, inBlock⟩ := List.mem_flatMap.mp body
    exact ⟨function, known, named, block, inFunction, inst, inBlock, opcode⟩
  · intro found
    obtain ⟨function, known, named, block, inFunction, inst, inBlock, opcode⟩ := found
    obtain ⟨index, listed⟩ := Site.mem_ofFunctions_iff.mpr
      ⟨function, known, named, List.mem_flatMap.mpr ⟨block, inFunction, inBlock⟩⟩
    exact ⟨_, mem_controlBarriers_iff.mpr ⟨listed, opcode⟩, rfl⟩

theorem forall_controlBarriers_iff {allows : Ident → Prop} :
    (∀ site ∈ m.controlBarriers, allows site.function) ↔
      ∀ function ∈ m.functions, function.HoldsControlBarrier →
        ∀ id, function.id? = some id → allows id := by
  constructor
  · intro allowed function known holds id hasId
    obtain ⟨site, member, rfl⟩ := exists_controlBarrier_iff.mpr ⟨function, known, hasId, holds⟩
    exact allowed site member
  · intro allowed site member
    obtain ⟨function, known, hasId, holds⟩ := exists_controlBarrier_iff.mp ⟨site, member, rfl⟩
    exact allowed function known holds _ hasId

theorem controlBarriers_ne_nil_iff (named : ∀ function ∈ m.functions, function.id?.isSome) :
    m.controlBarriers ≠ [] ↔ ∃ function ∈ m.functions, function.HoldsControlBarrier := by
  constructor
  · intro nonempty
    obtain ⟨site, member⟩ := List.exists_mem_of_ne_nil _ nonempty
    obtain ⟨function, known, -, holds⟩ := exists_controlBarrier_iff.mp ⟨site, member, rfl⟩
    exact ⟨function, known, holds⟩
  · intro found
    obtain ⟨function, known, holds⟩ := found
    obtain ⟨id, hasId⟩ := Option.isSome_iff_exists.mp (named function known)
    obtain ⟨site, member, -⟩ := exists_controlBarrier_iff.mpr ⟨function, known, hasId, holds⟩
    exact List.ne_nil_of_mem member

theorem pairwise_controlBarriers (m : Module) :
    m.controlBarriers.Pairwise fun first second => first.index < second.index :=
  (Site.pairwise_ofFunctions m.functions).filter _

/-- Positions tell which of two control barriers comes first. -/
theorem index_le_iff {first second : Site} {i j : Nat}
    (one : m.controlBarriers[i]? = some first) (two : m.controlBarriers[j]? = some second) :
    first.index ≤ second.index ↔ i ≤ j := by
  have sorted := List.pairwise_iff_getElem.mp m.pairwise_controlBarriers
  obtain ⟨boundI, rfl⟩ := List.getElem?_eq_some_iff.mp one
  obtain ⟨boundJ, rfl⟩ := List.getElem?_eq_some_iff.mp two
  rcases Nat.lt_trichotomy i j with less | rfl | greater
  · have := sorted i j boundI boundJ less
    omega
  · omega
  · have := sorted j i boundJ boundI greater
    omega

/-- What the control barriers register in versions before 1.3. -/
def controlBarrierLog (m : Module) : List (Ident × Registration) :=
  m.controlBarriers.map fun site =>
    (site.function, ⟨Barrier.controlBarrierLimitation, site.location⟩)

theorem getElem?_controlBarrierLog_iff {position : Nat} {entry : Ident × Registration} :
    m.controlBarrierLog[position]? = some entry ↔ ∃ site, m.controlBarriers[position]? = some site ∧
      entry = (site.function, ⟨Barrier.controlBarrierLimitation, site.location⟩) := by
  rw [controlBarrierLog, List.getElem?_map, Option.map_eq_some_iff]
  exact exists_congr fun site => and_congr_right fun _ => eq_comm

theorem controlBarrierLog_ne_nil_iff : m.controlBarrierLog ≠ [] ↔ m.controlBarriers ≠ [] := by
  simp [controlBarrierLog]

theorem limitations_of_version_lt (early : target.version < ⟨1, 3⟩) :
    m.limitations target = .ofLog m.controlBarrierLog := by
  rw [limitations_eq_ofLog, Barrier.log_of_version_lt early]
  rfl

theorem limitations_of_not_version_lt (late : ¬target.version < ⟨1, 3⟩) :
    m.limitations target = .ofLog [] := by
  rw [limitations_eq_ofLog, Barrier.log_of_not_version_lt late]

/-- The first entry point at fault is blamed, and no instruction is. -/
def BlamesEntryPoint (m : Module) (diagnostic : Diagnostic) : Prop :=
  ∃ before inst after fault, m.entryInstructions = before ++ inst :: after ∧
    (∀ earlier ∈ before, m.startFault? earlier = none) ∧ m.startFault? inst = some fault ∧
    diagnostic = ⟨.invalidModule, none, fault.message⟩

theorem blamesEntryPoint_iff {diagnostic : Diagnostic} : m.BlamesEntryPoint diagnostic ↔
    ∃ fault, m.entryFault? = some fault ∧ diagnostic = fault.diagnostic := by
  simp only [entryFault?, List.findSome?_eq_some_iff]
  constructor
  · intro blames
    obtain ⟨before, inst, after, fault, split, sound, found, rfl⟩ := blames
    exact ⟨fault, ⟨before, inst, after, split, found, sound⟩, rfl⟩
  · intro found
    obtain ⟨fault, ⟨before, inst, after, split, found, sound⟩, rfl⟩ := found
    exact ⟨before, inst, after, fault, split, sound, found, rfl⟩

/-- The first control barrier whose function an excluded execution model reaches is blamed. -/
structure BlamesControlBarrier (m : Module) (diagnostic : Diagnostic) (site : Site) : Prop where
  member : site ∈ m.controlBarriers
  excluded : m.Excludes Barrier.controlBarrierLimitation site.function
  lowest : ∀ other ∈ m.controlBarriers,
    m.Excludes Barrier.controlBarrierLimitation other.function → site.index ≤ other.index
  blamed : diagnostic = ⟨.executionModelViolation, some site.location,
    Barrier.controlBarrierLimitation.message⟩

theorem resolve_controlBarriers {graph : CallGraph} (built : CallGraph.ofModule m = .ok graph)
    (nonempty : m.controlBarriers ≠ []) {diagnostic : Diagnostic} :
    m.resolve (.ofLog m.controlBarrierLog) = .error diagnostic ↔
      ∃ site, m.BlamesControlBarrier diagnostic site := by
  have uniform : ∀ entry ∈ m.controlBarrierLog,
      entry.2.limitation = Barrier.controlBarrierLimitation := by
    intro entry member
    obtain ⟨site, -, rfl⟩ := List.mem_map.mp member
    rfl
  rw [resolve_uniform built (controlBarrierLog_ne_nil_iff.mpr nonempty) uniform]
  constructor
  · intro violated
    obtain ⟨position, entry, ⟨registered, excluded, first⟩, rfl⟩ := violated
    obtain ⟨site, found, rfl⟩ := getElem?_controlBarrierLog_iff.mp registered
    refine ⟨site, List.mem_of_getElem? found, excluded, fun other member also => ?_, rfl⟩
    obtain ⟨later, there⟩ := List.mem_iff_getElem?.mp member
    exact (index_le_iff found there).mpr
      (first later _ (getElem?_controlBarrierLog_iff.mpr ⟨other, there, rfl⟩) also)
  · intro blames
    obtain ⟨site, member, excluded, lowest, rfl⟩ := blames
    obtain ⟨position, found⟩ := List.mem_iff_getElem?.mp member
    refine ⟨position, _, ⟨getElem?_controlBarrierLog_iff.mpr ⟨site, found, rfl⟩, excluded, ?_⟩, rfl⟩
    intro later entry registered also
    obtain ⟨other, there, rfl⟩ := getElem?_controlBarrierLog_iff.mp registered
    exact (index_le_iff found there).mp (lowest other (List.mem_of_getElem? there) also)

/-- The second phase rejects a module for an entry point or for a control barrier. -/
theorem resolve_limitations_eq_error_iff
    (named : ∀ function ∈ m.functions, function.id?.isSome) {diagnostic : Diagnostic} :
    m.resolve (m.limitations target) = .error diagnostic ↔
      target.version < ⟨1, 3⟩ ∧ m.controlBarriers ≠ [] ∧ (m.BlamesEntryPoint diagnostic ∨
        m.entryFault? = none ∧ ∃ site, m.BlamesControlBarrier diagnostic site) := by
  by_cases early : target.version < ⟨1, 3⟩
  · rw [limitations_of_version_lt early, and_iff_right early]
    by_cases empty : m.controlBarriers = []
    · simp [empty, controlBarrierLog, resolve_empty]
    · rw [and_iff_right empty, blamesEntryPoint_iff]
      cases built : CallGraph.ofModule m with
      | error fault =>
        have found : m.entryFault? = some fault := by
          rcases CallGraph.ofModule_eq_error_iff.mp built with ⟨-, function, known, lacks⟩ | ⟨-, found⟩
          · simpa [lacks] using named function known
          · exact found
        rw [resolve_eq_fault built (controlBarrierLog_ne_nil_iff.mpr empty)]
        simp [found, eq_comm]
      | ok graph =>
        obtain ⟨-, clean⟩ := CallGraph.exists_ofModule_iff.mp ⟨graph, built⟩
        rw [resolve_controlBarriers built empty]
        simp [clean]
  · simp [limitations_of_not_version_lt early, resolve_empty, early]

theorem resolve_limitations_eq_ok_iff
    (named : ∀ function ∈ m.functions, function.id?.isSome) :
    m.resolve (m.limitations target) = .ok () ↔
      (target.version < ⟨1, 3⟩ → m.controlBarriers ≠ [] → m.entryFault? = none ∧
        ∀ site ∈ m.controlBarriers, ∀ start ∈ m.starts, m.Reaches start.2 site.function →
          start.1 ∈ Barrier.controlBarrierLimitation.allowed) := by
  by_cases early : target.version < ⟨1, 3⟩
  · rw [limitations_of_version_lt early, forall_prop_of_true early]
    by_cases empty : m.controlBarriers = []
    · simp [empty, controlBarrierLog, resolve_empty]
    · rw [forall_prop_of_true empty]
      have logged := controlBarrierLog_ne_nil_iff.mpr empty
      cases built : CallGraph.ofModule m with
      | error fault =>
        have faulty : m.entryFault? ≠ none := fun clean => by
          obtain ⟨graph, found⟩ := CallGraph.exists_ofModule_iff.mpr ⟨named, clean⟩
          cases built.symm.trans found
        simp [resolve_eq_fault built logged, faulty]
      | ok graph =>
        obtain ⟨-, clean⟩ := CallGraph.exists_ofModule_iff.mp ⟨graph, built⟩
        rw [resolve_eq_ok_iff built logged, and_iff_right clean, controlBarrierLog,
          List.forall_mem_map]
  · simp [limitations_of_not_version_lt early, resolve_empty, early]

/-- The scan stops in the first function that does not pass. -/
def BlamesScan (m : Module) (facts : Facts) (options : Options) (diagnostic : Diagnostic) : Prop :=
  ∃ before function after, m.functions = before ++ function :: after ∧
    (∀ earlier ∈ before, earlier.Passes facts options) ∧
    function.Fails facts options (before.flatMap Function.body).length diagnostic

theorem scan_eq_ok_iff {facts : Facts} :
    m.scan facts options = .ok () ↔ ∀ function ∈ m.functions, function.Passes facts options := by
  rw [scan_eq_scanFrom, scanFrom_eq_ok_iff]

theorem named_of_scan {facts : Facts} (passed : m.scan facts options = .ok ()) :
    ∀ function ∈ m.functions, function.id?.isSome :=
  fun function known => (scan_eq_ok_iff.mp passed function known).named

theorem forall_passes_iff {facts : Facts} :
    (∀ function ∈ m.functions, function.Passes facts options) ↔
      (∀ function ∈ m.functions, function.id?.isSome) ∧
      ∀ function ∈ m.functions, ∀ block ∈ function.blocks, ∀ inst ∈ block.instructions,
        inst.opcode.isBarrier → Barrier.Accepts facts options inst := by
  constructor
  · intro passes
    refine ⟨fun function known => (passes function known).named, ?_⟩
    intro function known block inFunction inst inBlock
    have member : inst ∈ function.body := List.mem_flatMap.mpr ⟨block, inFunction, inBlock⟩
    exact (passes function known).accepted inst member
  · intro parts function known
    obtain ⟨named, accepted⟩ := parts
    refine ⟨named function known, fun inst member => ?_⟩
    obtain ⟨block, inFunction, inBlock⟩ := List.mem_flatMap.mp member
    exact accepted function known block inFunction inst inBlock

theorem scan_eq_error_iff {facts : Facts} {diagnostic : Diagnostic} :
    m.scan facts options = .error diagnostic ↔ m.BlamesScan facts options diagnostic := by
  rw [scan_eq_scanFrom, scanFrom_eq_error_iff, BlamesScan]
  simp only [Nat.zero_add]

/-- A module is accepted exactly if its functions have ids, its barriers are accepted, and, when
control barriers are restricted and there is one, the entry points name functions and only execution
models that allow control barriers reach a function that holds one. -/
theorem validate_eq_ok_iff (m : Module) (target : Target) (options : Options) :
    m.validate target options = .ok () ↔
      (∀ function ∈ m.functions, function.id?.isSome) ∧
      (∀ function ∈ m.functions, ∀ block ∈ function.blocks, ∀ inst ∈ block.instructions,
        inst.opcode.isBarrier → Barrier.Accepts (m.facts target) options inst) ∧
      (target.version < ⟨1, 3⟩ → (∃ function ∈ m.functions, function.HoldsControlBarrier) →
        (∀ inst ∈ m.entryPoints, inst.opcode = .entryPoint →
          ∃ model id, inst.start? = some (model, id) ∧
            ∃ function ∈ m.functions, function.id? = some id) ∧
        ∀ function ∈ m.functions, function.HoldsControlBarrier → ∀ id, function.id? = some id →
          ∀ start ∈ m.starts, m.Reaches start.2 id →
            start.1 ∈ [.tessellationControl, .glCompute, .kernel, .taskNV, .meshNV]) := by
  rw [← and_assoc, ← forall_passes_iff, ← scan_eq_ok_iff, validate, validateBy]
  cases verdict : m.scan (m.facts target) options with
  | error diagnostic => simp
  | ok passed =>
    have named (function : Function) (known : function ∈ m.functions) : function.id?.isSome :=
      (scan_eq_ok_iff.mp verdict function known).named
    rw [and_iff_right rfl, ← entryFault?_eq_none_iff, ← controlBarriers_ne_nil_iff named,
      ← forall_controlBarriers_iff]
    exact resolve_limitations_eq_ok_iff named

/-- The diagnostic of a rejected module: that of the first fault in the scan; without one, that of
the first entry point at fault; without one, that of the first control barrier in a function that an
excluded execution model reaches. -/
theorem validate_eq_error_iff (m : Module) (target : Target) (options : Options)
    (diagnostic : Diagnostic) :
    m.validate target options = .error diagnostic ↔
      m.BlamesScan (m.facts target) options diagnostic ∨
      (∀ function ∈ m.functions, function.Passes (m.facts target) options) ∧
        target.version < ⟨1, 3⟩ ∧ (∃ function ∈ m.functions, function.HoldsControlBarrier) ∧
        (m.BlamesEntryPoint diagnostic ∨
          m.entryFault? = none ∧ ∃ site, m.BlamesControlBarrier diagnostic site) := by
  rw [← scan_eq_ok_iff, ← scan_eq_error_iff, validate, validateBy]
  cases verdict : m.scan (m.facts target) options with
  | error found => simp
  | ok passed =>
    have named (function : Function) (known : function ∈ m.functions) : function.id?.isSome :=
      (scan_eq_ok_iff.mp verdict function known).named
    simp only [reduceCtorEq, false_or, true_and, ← controlBarriers_ne_nil_iff named]
    exact resolve_limitations_eq_error_iff named

end Module
end Spirv
