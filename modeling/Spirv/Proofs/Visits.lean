import Spirv.Proofs.Renaming
import Spirv.Proofs.Reordering

/-!
# Visits of a whole module

Validation visits the barriers of a module in order until one is at fault
(`validate_eq_visitUntilFault`). A host that goes on after a fault registers more, but reports the
same fault first, and without a fault it is left with the same registry (`validate_eq_visits`).
-/
namespace Spirv

namespace Barrier

variable {facts : Facts} {scopes : ScopeRules} {options : Options}

/-- Visits the barriers among instructions in order and stops at the first that is at fault. Any other
instruction is passed over. -/
def visitUntilFault (facts : Facts) (scopes : ScopeRules) (options : Options) :
    Registry → List Site → Verdict × Registry
  | registry, [] => (.ok (), registry)
  | registry, site :: rest =>
    if site.opcode.isBarrier then
      let (run, registry) := visit facts scopes options registry site
      match run.verdict with
      | .error diagnostic => (.error diagnostic, registry)
      | .ok () => visitUntilFault facts scopes options registry rest
    else visitUntilFault facts scopes options registry rest

/-- The next visit starts from what this one has registered, at fault or not. -/
theorem visitAll_cons (registry : Registry) (site : Site) (rest : List Site) :
    visitAll facts scopes options registry (site :: rest) =
      (check facts scopes options site ::
          (visitAll facts scopes options (record facts.target registry site) rest).1,
        (visitAll facts scopes options (record facts.target registry site) rest).2) :=
  rfl

/-- A registry has no say in a verdict. -/
theorem visitAll_eq (registry : Registry) (sites : List Site) :
    visitAll facts scopes options registry sites =
      (sites.map (check facts scopes options), sites.foldl (record facts.target) registry) := by
  induction sites generalizing registry with
  | nil => rfl
  | cons site rest step => rw [visitAll_cons, step, List.map_cons, List.foldl_cons]

/-- Only barriers register anything. -/
theorem record_of_not_isBarrier {site : Site} (other : site.opcode.isBarrier = false)
    (target : Target) (registry : Registry) : record target registry site = registry := by
  have unlimited : limitation? target site.opcode = none := by
    apply if_neg
    rintro ⟨controlBarrier, -⟩
    rw [controlBarrier] at other
    cases other
  rw [record, unlimited]

/-- To pass over an instruction that is not a barrier is as good as to visit it. -/
theorem visitUntilFault_cons (registry : Registry) (site : Site) (rest : List Site) :
    visitUntilFault facts scopes options registry (site :: rest) =
      match check facts scopes options site with
      | .error diagnostic => (.error diagnostic, record facts.target registry site)
      | .ok () => visitUntilFault facts scopes options (record facts.target registry site) rest := by
  rw [visitUntilFault]
  cases kind : site.opcode.isBarrier with
  | false => rw [check_of_not_isBarrier facts scopes options kind, record_of_not_isBarrier kind]; rfl
  | true => rfl

/-- The first fault that a host finds which goes on is the one that a host finds which stops. Until
then both have the same registry. -/
theorem visitUntilFault_simulates (facts : Facts) (scopes : ScopeRules) (options : Options)
    (registry : Registry) (sites : List Site) :
    (visitUntilFault facts scopes options registry sites).1 =
        Verdict.all id (visitAll facts scopes options registry sites).1 ∧
      (Verdict.all id (visitAll facts scopes options registry sites).1 = .ok () →
        (visitUntilFault facts scopes options registry sites).2 =
          (visitAll facts scopes options registry sites).2) := by
  induction sites generalizing registry with
  | nil => exact ⟨rfl, fun _ => rfl⟩
  | cons site rest step =>
    rw [visitUntilFault_cons, visitAll_cons]
    cases verdict : check facts scopes options site with
    | error diagnostic => exact ⟨rfl, nofun⟩
    | ok passed => exact step _

end Barrier

namespace Module

variable {m : Module}

/-- The scan of functions that have ids is a sequence of checks of all their instructions. -/
theorem scan_of_named (named : ∀ function ∈ m.functions, function.id?.isSome) (facts : Facts)
    (options : Options) : m.scan facts options =
      Verdict.all (Barrier.check facts .standard options) (Site.ofFunctions m.functions) := by
  have all : m.functions.takeWhile (fun function => function.id?.isSome) = m.functions :=
    List.takeWhile_eq_self_iff.mpr named
  rw [scan, scannedSites, all, Verdict.all_filter _ fun site _ other =>
    Barrier.check_of_not_isBarrier facts .standard options other, List.all_eq_true.mpr named]
  cases Verdict.all (Barrier.check facts .standard options) (Site.ofFunctions m.functions) <;> rfl

/-- Validation visits the barriers in order until one is at fault, and resolves what the visits have
registered. -/
theorem validate_eq_visitUntilFault (named : ∀ function ∈ m.functions, function.id?.isSome)
    (target : Target) (options : Options) : m.validate target options =
      (Barrier.visitUntilFault (m.facts target) .standard options ∅
        (Site.ofFunctions m.functions)).1.andThen
      (m.resolve (Barrier.visitUntilFault (m.facts target) .standard options ∅
        (Site.ofFunctions m.functions)).2) := by
  obtain ⟨verdict, registry⟩ := Barrier.visitUntilFault_simulates (m.facts target) .standard options
    ∅ (Site.ofFunctions m.functions)
  have checked : Verdict.all id (Barrier.visitAll (m.facts target) .standard options ∅
      (Site.ofFunctions m.functions)).1 = m.scan (m.facts target) options := by
    rw [Barrier.visitAll_eq, Verdict.all_map, scan_of_named named]
    rfl
  rw [checked] at verdict registry
  rw [validate, validateBy, verdict]
  cases scanned : m.scan (m.facts target) options with
  | error diagnostic => rfl
  | ok passed =>
    rw [registry scanned, Barrier.visitAll_eq]
    rfl

/-- What a host finds that visits every instruction and goes on after a fault. -/
def visits (m : Module) (target : Target) (options : Options) : List Verdict × Registry :=
  Barrier.visitAll (m.facts target) .standard options ∅ (Site.ofFunctions m.functions)

/-- Such a host comes to the same result as validation: the first fault that it has found, or else
what resolving its registry gives. Each verdict is the one that a visit with an empty registry gives. -/
theorem validate_eq_visits (named : ∀ function ∈ m.functions, function.id?.isSome)
    (target : Target) (options : Options) :
    (∀ before diagnostic after, (m.visits target options).1 = before ++ .error diagnostic :: after →
      (∀ verdict ∈ before, verdict = .ok ()) → m.validate target options = .error diagnostic) ∧
    ((∀ verdict ∈ (m.visits target options).1, verdict = .ok ()) →
      m.validate target options = m.resolve (m.visits target options).2) ∧
    (m.visits target options).1 = (Site.ofFunctions m.functions).map fun site =>
      (Barrier.visit (m.facts target) .standard options ∅ site).1.verdict := by
  obtain ⟨verdict, registry⟩ := Barrier.visitUntilFault_simulates (m.facts target) .standard options
    ∅ (Site.ofFunctions m.functions)
  rw [← visits] at verdict registry
  rw [validate_eq_visitUntilFault named, verdict]
  refine ⟨fun before diagnostic after split passed => ?_, fun passed => ?_, ?_⟩
  · have first : Verdict.all id (m.visits target options).1 = .error diagnostic :=
      Verdict.all_eq_error_iff.mpr ⟨before, _, after, split, rfl, passed⟩
    rw [first]
    rfl
  · have clean : Verdict.all id (m.visits target options).1 = .ok () :=
      Verdict.all_eq_ok_iff.mpr passed
    rw [clean, registry clean]
    rfl
  · rw [visits, Barrier.visitAll_eq]
    rfl

/-- Both functions of `barrierBehindCall` and then two control barriers without operands. -/
def faultyBarriers : Module :=
  { barrierBehindCall with
    functions := barrierBehindCall.functions ++ bareBarrier.functions ++ bareBarrier.functions }

def missingOperands (index : Nat) : Diagnostic :=
  ⟨.malformedOperandType, some ⟨.controlBarrier, none, 7, index⟩,
    "OpControlBarrier: expected Execution Scope operand"⟩

theorem validate_eq_visits_faultyBarriers :
    (∀ function ∈ faultyBarriers.functions, function.id?.isSome) ∧
      (faultyBarriers.visits .universal1_0 {}).1 = [.ok (), .ok (), .ok (),
        .error (missingOperands 3), .ok (), .error (missingOperands 5)] ∧
      faultyBarriers.validate .universal1_0 {} = .error (missingOperands 3) ∧
      barrierBehindCall.validate .universal1_0 {} =
        barrierBehindCall.resolve (barrierBehindCall.visits .universal1_0 {}).2 := by
  have named : ∀ function ∈ faultyBarriers.functions, function.id?.isSome := by decide
  have stillNamed : ∀ function ∈ barrierBehindCall.functions, function.id?.isSome := by decide
  have found : (faultyBarriers.visits .universal1_0 {}).1 = [.ok (), .ok (), .ok (),
      .error (missingOperands 3), .ok (), .error (missingOperands 5)] := by decide +kernel
  have clean : ∀ verdict ∈ (barrierBehindCall.visits .universal1_0 {}).1, verdict = .ok () := by
    decide +kernel
  obtain ⟨stops, -, -⟩ := validate_eq_visits named .universal1_0 {}
  obtain ⟨-, resolves, -⟩ := validate_eq_visits stillNamed .universal1_0 {}
  exact ⟨named, found, stops [.ok (), .ok (), .ok ()] _ _ found (by simp), resolves clean⟩

end Module

end Spirv
