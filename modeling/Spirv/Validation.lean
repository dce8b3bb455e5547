import Spirv.Barrier
import Spirv.CallGraph.Reaching
import Spirv.Definitions

/-!
# Validation

A module is validated in two phases. The scan checks every barrier in order, and the first
fault ends it. Only when it finds none are the limitations of control barriers resolved, which
takes the call graph; a module without limitations is accepted without looking at its calls.
-/

namespace Spirv

namespace Module

/-- The body instructions that the scan comes to: those before the first function without an
id. -/
def scannedSites (m : Module) : List Site :=
  Site.ofFunctions (m.functions.takeWhile fun function => function.id?.isSome)

/-- Checks the barriers of a module in order. A function without an id ends the scan with a
fault. -/
def scan (m : Module) (facts : Facts) (options : Options) : Verdict :=
  match Verdict.all (Barrier.check facts .standard options)
    (m.scannedSites.filter fun site => site.opcode.isBarrier) with
  | .error diagnostic => .error diagnostic
  | .ok () =>
    if m.functions.all fun function => function.id?.isSome then .ok ()
    else .error ModuleFault.functionWithoutId.diagnostic

def limitations (m : Module) (target : Target) : Registry :=
  (Site.ofFunctions m.functions).foldl (Barrier.record target) ∅

def reachingModels (m : Module) : Except ModuleFault (OrderedMap Ident (List ExecutionModel)) :=
  match built : CallGraph.ofModule m with
  | .error fault => .error fault
  | .ok graph => .ok (graph.reachingModels (CallGraph.closed_of_ofModule built))

/-- Checks limitations against the execution models that reach their functions. A function that
no entry point reaches is not restricted. -/
def resolve (m : Module) (registry : Registry) : Verdict :=
  if registry.isEmpty then .ok ()
  else
    match m.reachingModels with
    | .error fault => .error fault.diagnostic
    | .ok models =>
      Verdict.all (fun function =>
        Verdict.all (registry.resolve function) ((models.get? function).getD []))
        registry.functions

def validateBy (m : Module) (facts : Facts) (options : Options) : Verdict :=
  match m.scan facts options with
  | .error diagnostic => .error diagnostic
  | .ok () => m.resolve (m.limitations facts.target)

def validate (m : Module) (target : Target) (options : Options) : Verdict :=
  m.validateBy (m.facts target) options

end Module

end Spirv
