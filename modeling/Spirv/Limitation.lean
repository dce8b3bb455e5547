import Spirv.OrderedMap
import Spirv.Verdict

/-!
# Execution model limitations

Some instructions are allowed in some execution models only. Until it is known which execution
models reach an instruction, the limitation is registered for the function around it.
-/

namespace Spirv

/-- Restricts the execution models that may reach a function. -/
structure Limitation where
  allowed : List ExecutionModel
  /-- What to say of any other execution model. -/
  message : String
  deriving DecidableEq, Repr

def Limitation.objection? (limitation : Limitation) (model : ExecutionModel) : Option String :=
  if model ∈ limitation.allowed then none else some limitation.message

/-- A limitation with the instruction it comes from. -/
structure Registration where
  limitation : Limitation
  origin : Location
  deriving DecidableEq, Repr

def Registration.check (model : ExecutionModel) (registration : Registration) : Verdict :=
  match registration.limitation.objection? model with
  | none => .ok ()
  | some message => .error ⟨.executionModelViolation, some registration.origin, message⟩

namespace Registration

variable {model : ExecutionModel} {registration : Registration}

theorem check_eq_ok_iff :
    registration.check model = .ok () ↔ model ∈ registration.limitation.allowed := by
  unfold check Limitation.objection?
  by_cases allowed : model ∈ registration.limitation.allowed <;> simp [allowed]

theorem check_eq_error_iff {diagnostic : Diagnostic} :
    registration.check model = .error diagnostic ↔ model ∉ registration.limitation.allowed ∧
      diagnostic = ⟨.executionModelViolation, some registration.origin,
        registration.limitation.message⟩ := by
  unfold check Limitation.objection?
  by_cases allowed : model ∈ registration.limitation.allowed <;> simp [allowed, eq_comm]

end Registration

structure Registry where
  byFunction : OrderedMap Ident (List Registration)

namespace Registry

def empty : Registry := ⟨∅⟩

instance : EmptyCollection Registry := ⟨empty⟩

def register (registry : Registry) (function : Ident) (registration : Registration) : Registry :=
  ⟨registry.byFunction.alter function fun earlier => earlier.getD [] ++ [registration]⟩

def isEmpty (registry : Registry) : Bool := registry.byFunction.isEmpty

/-- The functions with a limitation, in the order of their first one. -/
def functions (registry : Registry) : List Ident := registry.byFunction.keys

def registrations (registry : Registry) (function : Ident) : List Registration :=
  (registry.byFunction.get? function).getD []

def limitations (registry : Registry) (function : Ident) : List Limitation :=
  (registry.registrations function).map Registration.limitation

def resolve (registry : Registry) (function : Ident) (model : ExecutionModel) : Verdict :=
  Verdict.all (Registration.check model) (registry.registrations function)

@[simp] theorem functions_empty : (∅ : Registry).functions = [] := rfl

@[simp] theorem registrations_empty (function : Ident) :
    (∅ : Registry).registrations function = [] := rfl

theorem isEmpty_iff (registry : Registry) : registry.isEmpty = true ↔ registry.functions = [] :=
  registry.byFunction.isEmpty_iff

theorem functions_register (registry : Registry) (function : Ident) (registration : Registration) :
    (registry.register function registration).functions =
      if function ∈ registry.functions then registry.functions
      else registry.functions ++ [function] :=
  registry.byFunction.keys_alter function _

theorem registrations_register (registry : Registry) (function other : Ident)
    (registration : Registration) :
    (registry.register function registration).registrations other =
      if other = function then registry.registrations function ++ [registration]
      else registry.registrations other := by
  unfold registrations register
  rw [OrderedMap.get?_alter]
  split <;> rfl

end Registry

end Spirv
