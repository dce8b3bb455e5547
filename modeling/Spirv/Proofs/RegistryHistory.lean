import Spirv.Barrier
import Spirv.Proofs.Registry

/-!
# The history of a registry

A client registers a limitation of its own, or an instruction is visited. What a step registers can
be told from the step alone, so a run has a log, and the registry that it leaves answers every query
as its log says (`records_run`).
-/
namespace Spirv

/-- Something done to a registry. Visits may differ in everything, facts and scope rules included. -/
inductive RegistryStep where
  | register (function : Ident) (registration : Registration)
  | visit (facts : Facts) (scopes : ScopeRules) (options : Options) (site : Site)

namespace RegistryStep

def apply (registry : Registry) : RegistryStep → Registry
  | register function registration => registry.register function registration
  | visit facts scopes options site => (Barrier.visit facts scopes options registry site).2

def run (steps : List RegistryStep) : Registry := steps.foldl apply ∅

/-- What the step registers, and for which function. A visit registers something exactly for a
control barrier before version 1.3, whatever is wrong with the instruction. -/
def logged? : RegistryStep → Option (Ident × Registration)
  | register function registration => some (function, registration)
  | visit facts _ _ site =>
    if site.opcode = .controlBarrier ∧ facts.target.version < ⟨1, 3⟩ then
      some (site.function, ⟨Barrier.controlBarrierLimitation, site.location⟩)
    else none

def log (steps : List RegistryStep) : List (Ident × Registration) := steps.filterMap logged?

/-- A step registers its entry and does nothing else. -/
theorem apply_eq (registry : Registry) (step : RegistryStep) :
    step.apply registry =
      step.logged?.elim registry fun entry => registry.register entry.1 entry.2 := by
  cases step with
  | register function registration => rfl
  | visit facts scopes options site =>
    simp only [apply, Barrier.visit, Barrier.record, Barrier.limitation?, logged?]
    by_cases limited : site.opcode = .controlBarrier ∧ facts.target.version < ⟨1, 3⟩
    · rw [if_pos limited, if_pos limited]
      rfl
    · rw [if_neg limited, if_neg limited]
      rfl

theorem run_eq_ofLog (steps : List RegistryStep) : run steps = .ofLog (log steps) :=
  Registry.foldl_eq_foldl_register apply_eq steps ∅

/-- After any steps the registry answers as their log says. -/
theorem records_run (steps : List RegistryStep) : (run steps).Records (log steps) := by
  rw [run_eq_ofLog]
  exact Registry.records_ofLog (log steps)

end RegistryStep

end Spirv
