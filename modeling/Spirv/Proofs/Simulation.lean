import Mathlib.Data.List.TakeWhile
import Spirv.Proofs.Acceptance

/-!
# Modules that are judged alike

Two modules are judged alike if their barriers correspond in order, are at fault alike and are
reached by excluded execution models alike, and the same entry points are at fault (`Simulates`).
How far their diagnostics agree is a relation (`Simulates.validate`).
-/
namespace Spirv

def Verdict.andThen (first next : Verdict) : Verdict :=
  match first with
  | .error diagnostic => .error diagnostic
  | .ok () => next

inductive Verdict.Related (R : Diagnostic → Diagnostic → Prop) : Verdict → Verdict → Prop where
  | accepted : Related R (.ok ()) (.ok ())
  | rejected {first second : Diagnostic} (related : R first second) :
      Related R (.error first) (.error second)

namespace Verdict.Related

variable {R : Diagnostic → Diagnostic → Prop}

theorem all {check : α → Verdict} {other : β → Verdict} {list : List α} (f : α → β)
    (related : ∀ member ∈ list, Related R (check member) (other (f member))) :
    Related R (Verdict.all check list) (Verdict.all other (list.map f)) := by
  induction list with
  | nil => exact .accepted
  | cons first rest step =>
    obtain ⟨here, there⟩ := List.forall_mem_cons.mp related
    rw [List.map_cons, Verdict.all, Verdict.all]
    generalize check first = one, other (f first) = two at here
    cases here with
    | accepted => exact step there
    | rejected related => exact .rejected related

theorem andThen {first second next other : Verdict} (phase : Related R first second)
    (rest : first = .ok () → Related R next other) :
    Related R (first.andThen next) (second.andThen other) := by
  cases phase with
  | accepted => exact rest rfl
  | rejected related => exact .rejected related

theorem eq {first second : Verdict} (related : Related Eq first second) : first = second := by
  cases related with
  | accepted => rfl
  | rejected same => rw [same]

/-- Diagnostics that are related by a function are mapped by it. -/
theorem eq_mapError {f : Diagnostic → Diagnostic} {first second : Verdict}
    (related : Related (fun diagnostic image => image = f diagnostic) first second) :
    second = first.mapError f := by
  cases related with
  | accepted => rfl
  | rejected same => exact congrArg Except.error same

end Verdict.Related

theorem Verdict.eq_of_error_iff {first second : Verdict}
    (same : ∀ diagnostic, first = .error diagnostic ↔ second = .error diagnostic) :
    first = second := by
  cases first with
  | error diagnostic => exact ((same diagnostic).mp rfl).symm
  | ok passed =>
    cases second with
    | error diagnostic => cases (same diagnostic).mpr rfl
    | ok passed => rfl

/-! ## Instructions replaced one by one -/

def Block.map (f : Instruction → Instruction) (block : Block) : Block where
  label := block.label.map f
  instructions := block.instructions.map f

def Function.map (f : Instruction → Instruction) (function : Function) : Function where
  definition := function.definition.map f
  parameters := function.parameters.map f
  blocks := function.blocks.map (Block.map f)
  ending := function.ending.map f

def Site.map (f : Instruction → Instruction) (ρ : Ident → Ident) (site : Site) : Site :=
  ⟨f site.inst, ρ site.function, site.index⟩

section Map

variable {f : Instruction → Instruction} {ρ : Ident → Ident}

theorem Function.body_map (function : Function) :
    (function.map f).body = function.body.map f := by
  rw [body, body, map, List.flatMap_map, List.map_flatMap]
  rfl

theorem Function.listing_map (function : Function) :
    (function.map f).listing = function.listing.map f := by
  simp [listing, map, Block.listing, Block.map, Option.toList_map, List.flatMap_map,
    List.map_flatMap]

variable (results : ∀ inst, (f inst).resultId = inst.resultId.map ρ)
include results

theorem Function.id?_map (function : Function) : (function.map f).id? = function.id?.map ρ := by
  rw [id?, id?, map, Option.bind_map, Option.map_bind]
  congr 1
  funext inst
  exact results inst

theorem Function.bodyWithId_map (function : Function) :
    (function.map f).bodyWithId = function.bodyWithId.map fun entry => (ρ entry.1, f entry.2) := by
  rw [bodyWithId, bodyWithId, function.id?_map results, body_map]
  cases function.id? with
  | none => rfl
  | some id =>
    dsimp only [Option.map_some]
    rw [List.map_map, List.map_map]
    rfl

theorem Site.ofFunctions_map (functions : List Function) :
    ofFunctions (functions.map (Function.map f)) = (ofFunctions functions).map (map f ρ) := by
  have bodies : (functions.map (Function.map f)).flatMap Function.bodyWithId =
      (functions.flatMap Function.bodyWithId).map fun entry => (ρ entry.1, f entry.2) := by
    rw [List.flatMap_map, List.map_flatMap]
    congr 1
    funext function
    exact function.bodyWithId_map results
  rw [ofFunctions, ofFunctions, bodies]
  refine List.ext_getElem? fun index => ?_
  simp only [List.getElem?_mapIdx, List.getElem?_map, Option.map_map]
  rfl

/-- Functions that are replaced instruction by instruction are scanned at the same places. -/
theorem Module.scannedSites_map {m other : Module}
    (functions : other.functions = m.functions.map (Function.map f)) :
    other.scannedSites = m.scannedSites.map (Site.map f ρ) := by
  rw [scannedSites, functions, List.takeWhile_map, Site.ofFunctions_map results, scannedSites]
  congr 3
  funext function
  rw [Function.comp_apply, function.id?_map results, Option.isSome_map]

theorem Module.all_named_map {m other : Module}
    (functions : other.functions = m.functions.map (Function.map f)) :
    (other.functions.all fun function => function.id?.isSome) =
      m.functions.all fun function => function.id?.isSome := by
  rw [functions, List.all_map]
  congr 1
  funext function
  rw [Function.comp_apply, function.id?_map results, Option.isSome_map]

end Map

/-! ## Verdicts on modules -/

/-- The diagnostic of a control barrier that an excluded execution model reaches. -/
def Site.excluded (site : Site) : Diagnostic :=
  ⟨.executionModelViolation, some site.location, Barrier.controlBarrierLimitation.message⟩

namespace Module

variable {m other : Module} {target : Target} {options : Options}

open Classical in
noncomputable def reachVerdict (m : Module) (site : Site) : Verdict :=
  if m.Excludes Barrier.controlBarrierLimitation site.function then .error site.excluded else .ok ()

/-- The second phase of validation, without its registry: entry points, then control barriers in
order. -/
noncomputable def deferred (m : Module) (target : Target) : Verdict :=
  if target.version < ⟨1, 3⟩ ∧ m.controlBarriers ≠ [] then
    match m.entryFault? with
    | some fault => .error fault.diagnostic
    | none => Verdict.all m.reachVerdict m.controlBarriers
  else .ok ()

theorem reachVerdict_eq_ok_iff {site : Site} : m.reachVerdict site = .ok () ↔
    ¬m.Excludes Barrier.controlBarrierLimitation site.function := by
  simp [reachVerdict]

theorem reachVerdict_eq_error_iff {site : Site} {diagnostic : Diagnostic} :
    m.reachVerdict site = .error diagnostic ↔
      m.Excludes Barrier.controlBarrierLimitation site.function ∧ diagnostic = site.excluded := by
  unfold reachVerdict
  by_cases excluded : m.Excludes Barrier.controlBarrierLimitation site.function <;>
    simp [excluded, eq_comm]

theorem all_reachVerdict_eq_error_iff {diagnostic : Diagnostic} :
    Verdict.all m.reachVerdict m.controlBarriers = .error diagnostic ↔
      ∃ site, m.BlamesControlBarrier diagnostic site := by
  rw [Verdict.all_eq_error_iff_least m.pairwise_controlBarriers]
  simp only [reachVerdict_eq_error_iff, ne_eq, reachVerdict_eq_ok_iff, not_not]
  constructor
  · intro found
    obtain ⟨site, member, ⟨excluded, blamed⟩, lowest⟩ := found
    exact ⟨site, member, excluded, lowest, blamed⟩
  · intro found
    obtain ⟨site, member, excluded, lowest, blamed⟩ := found
    exact ⟨site, member, ⟨excluded, blamed⟩, lowest⟩

theorem resolve_limitations_eq_deferred
    (named : ∀ function ∈ m.functions, function.id?.isSome) :
    m.resolve (m.limitations target) = m.deferred target := by
  apply Verdict.eq_of_error_iff
  intro diagnostic
  rw [resolve_limitations_eq_error_iff named, ← and_assoc, blamesEntryPoint_iff,
    ← all_reachVerdict_eq_error_iff, deferred]
  by_cases asked : target.version < ⟨1, 3⟩ ∧ m.controlBarriers ≠ []
  · rw [if_pos asked, and_iff_right asked]
    cases m.entryFault? with
    | none => simp
    | some fault => simp [eq_comm]
  · simp [asked]

theorem deferred_eq_ok_iff : m.deferred target = .ok () ↔
    (target.version < ⟨1, 3⟩ → m.controlBarriers ≠ [] → m.entryFault? = none ∧
      ∀ site ∈ m.controlBarriers, ¬m.Excludes Barrier.controlBarrierLimitation site.function) := by
  rw [← and_imp, deferred]
  by_cases asked : target.version < ⟨1, 3⟩ ∧ m.controlBarriers ≠ []
  · rw [if_pos asked, forall_prop_of_true asked]
    cases m.entryFault? with
    | none => simp [Verdict.all_eq_ok_iff, reachVerdict_eq_ok_iff]
    | some fault => simp
  · simp [asked]

/-- Acceptance by the second phase, function by function. -/
theorem deferred_eq_ok_iff_functions (named : ∀ function ∈ m.functions, function.id?.isSome) :
    m.deferred target = .ok () ↔ (target.version < ⟨1, 3⟩ →
      (∃ function ∈ m.functions, function.HoldsControlBarrier) → m.entryFault? = none ∧
        ∀ function ∈ m.functions, function.HoldsControlBarrier → ∀ id, function.id? = some id →
          ¬m.Excludes Barrier.controlBarrierLimitation id) := by
  rw [deferred_eq_ok_iff, controlBarriers_ne_nil_iff named, ← forall_controlBarriers_iff]

/-- A module is accepted if both phases accept it. -/
theorem validate_eq_ok_iff_phases : m.validate target options = .ok () ↔
    (∀ function ∈ m.functions, function.Passes (m.facts target) options) ∧
      m.deferred target = .ok () := by
  rw [← scan_eq_ok_iff, validate, validateBy]
  cases verdict : m.scan (m.facts target) options with
  | error diagnostic => simp
  | ok passed =>
    simp only [true_and]
    rw [← resolve_limitations_eq_deferred (named_of_scan verdict)]
    rfl

theorem reaches_congr (calls : ∀ caller callee, other.Calls caller callee ↔ m.Calls caller callee) :
    other.Reaches = m.Reaches := by
  have same : other.Calls = m.Calls :=
    funext fun caller => funext fun callee => propext (calls caller callee)
  rw [Reaches, Reaches, same]

theorem excludes_iff (reaches : other.Reaches = m.Reaches)
    (starts : ∀ start, start ∈ other.starts ↔ start ∈ m.starts) (limitation : Limitation)
    (function : Ident) : other.Excludes limitation function ↔ m.Excludes limitation function := by
  simp only [Excludes, starts, reaches]

def scannedBarriers (m : Module) : List Site :=
  m.scannedSites.filter fun site => site.opcode.isBarrier

theorem controlBarriers_eq_filter (named : ∀ function ∈ m.functions, function.id?.isSome) :
    m.controlBarriers = m.scannedBarriers.filter fun site => site.opcode = .controlBarrier := by
  rw [scannedBarriers, scannedSites, List.takeWhile_eq_self_iff.mpr named, List.filter_filter,
    controlBarriers]
  refine List.filter_congr fun site _ => ?_
  by_cases same : site.opcode = .controlBarrier <;> simp [same, Opcode.isBarrier]

section Scan

variable {R : Diagnostic → Diagnostic → Prop} {place : Site → Site} {facts otherFacts : Facts}

theorem scan_related
    (named : (other.functions.all fun function => function.id?.isSome) =
      m.functions.all fun function => function.id?.isSome)
    (unnamed : R ModuleFault.functionWithoutId.diagnostic ModuleFault.functionWithoutId.diagnostic)
    (barriers : other.scannedBarriers = m.scannedBarriers.map place)
    (checks : ∀ site ∈ m.scannedBarriers,
      Verdict.Related R (Barrier.check facts .standard options site)
        (Barrier.check otherFacts .standard options (place site))) :
    Verdict.Related R (m.scan facts options) (other.scan otherFacts options) := by
  have verdicts : Verdict.Related R
      (Verdict.all (Barrier.check facts .standard options) m.scannedBarriers)
      (Verdict.all (Barrier.check otherFacts .standard options) other.scannedBarriers) := by
    rw [barriers]
    exact .all place checks
  refine verdicts.andThen fun passed => ?_
  rw [named]
  split
  · exact .accepted
  · exact .rejected unnamed

/-- Scans of the same barriers by rules that find the same faults agree. -/
theorem scan_congr
    (named : (other.functions.all fun function => function.id?.isSome) =
      m.functions.all fun function => function.id?.isSome)
    (barriers : other.scannedBarriers = m.scannedBarriers)
    (faults : ∀ inst, Barrier.fault? otherFacts options inst = Barrier.fault? facts options inst) :
    other.scan otherFacts options = m.scan facts options := by
  have placed : other.scannedBarriers = m.scannedBarriers.map id := by rw [barriers, List.map_id]
  refine (scan_related named rfl placed fun site _ => ?_).eq.symm
  rw [id, Barrier.check_standard, Barrier.check_standard, faults]
  cases Barrier.fault? facts options site.inst with
  | none => exact .accepted
  | some fault => exact .rejected rfl

end Scan

/-- What makes two modules of one kind for validation: `place` takes the barriers of the first, in
order, to those of the second, and `blame` the faults of its entry points. Diagnostics for what
corresponds are related by `R`. -/
structure Simulates (R : Diagnostic → Diagnostic → Prop) (target : Target) (options : Options)
    (m other : Module) (place : Site → Site) (blame : ModuleFault → ModuleFault) : Prop where
  named : (other.functions.all fun function => function.id?.isSome) =
    m.functions.all fun function => function.id?.isSome
  unnamed : R ModuleFault.functionWithoutId.diagnostic ModuleFault.functionWithoutId.diagnostic
  barriers : other.scannedBarriers = m.scannedBarriers.map place
  opcode (site : Site) : (place site).opcode = site.opcode
  fault? (site : Site) : Barrier.fault? (other.facts target) options (place site).inst =
    Barrier.fault? (m.facts target) options site.inst
  rejected (site : Site) (fault : Fault) : site.opcode.isBarrier →
    R (site.fault fault) ((place site).fault fault)
  entryFault? : other.entryFault? = m.entryFault?.map blame
  blamed (fault : ModuleFault) : R fault.diagnostic (blame fault).diagnostic
  excludes (site : Site) : other.Excludes Barrier.controlBarrierLimitation (place site).function ↔
    m.Excludes Barrier.controlBarrierLimitation site.function
  excluded (site : Site) : R site.excluded (place site).excluded

namespace Simulates

variable {R : Diagnostic → Diagnostic → Prop} {place : Site → Site}
  {blame : ModuleFault → ModuleFault}

theorem check (simulates : Simulates R target options m other place blame) {site : Site}
    (isBarrier : site.opcode.isBarrier) :
    Verdict.Related R (Barrier.check (m.facts target) .standard options site)
      (Barrier.check (other.facts target) .standard options (place site)) := by
  rw [Barrier.check_standard, Barrier.check_standard, simulates.fault? site]
  cases Barrier.fault? (m.facts target) options site.inst with
  | none => exact .accepted
  | some fault => exact .rejected (simulates.rejected site fault isBarrier)

theorem scan (simulates : Simulates R target options m other place blame) :
    Verdict.Related R (m.scan (m.facts target) options)
      (other.scan (other.facts target) options) :=
  scan_related simulates.named simulates.unnamed simulates.barriers fun _ member =>
    simulates.check (List.mem_filter.mp member).2

theorem forall_named (simulates : Simulates R target options m other place blame)
    (named : ∀ function ∈ m.functions, function.id?.isSome) :
    ∀ function ∈ other.functions, function.id?.isSome := by
  rw [← List.all_eq_true] at named ⊢
  exact simulates.named.trans named

theorem controlBarriers (simulates : Simulates R target options m other place blame)
    (named : ∀ function ∈ m.functions, function.id?.isSome) :
    other.controlBarriers = m.controlBarriers.map place := by
  rw [controlBarriers_eq_filter named, controlBarriers_eq_filter (simulates.forall_named named),
    simulates.barriers, List.filter_map]
  congr 1
  refine List.filter_congr fun site _ => ?_
  rw [Function.comp_apply, simulates.opcode]

theorem deferred (simulates : Simulates R target options m other place blame)
    (named : ∀ function ∈ m.functions, function.id?.isSome) :
    Verdict.Related R (m.deferred target) (other.deferred target) := by
  unfold Module.deferred
  simp only [simulates.controlBarriers named, simulates.entryFault?, ne_eq, List.map_eq_nil_iff]
  split
  · cases m.entryFault? with
    | some fault => exact .rejected (simulates.blamed fault)
    | none =>
      refine .all place fun site _ => ?_
      unfold reachVerdict
      rw [simulates.excludes site]
      split
      · exact .rejected (simulates.excluded site)
      · exact .accepted
  · exact .accepted

/-- Modules of one kind are both accepted or both rejected, with related diagnostics. -/
theorem validate (simulates : Simulates R target options m other place blame) :
    Verdict.Related R (m.validate target options) (other.validate target options) := by
  refine simulates.scan.andThen fun passed => ?_
  have named := named_of_scan passed
  have phase := simulates.deferred named
  rw [← resolve_limitations_eq_deferred named,
    ← resolve_limitations_eq_deferred (simulates.forall_named named)] at phase
  exact phase

end Simulates

end Module
end Spirv
