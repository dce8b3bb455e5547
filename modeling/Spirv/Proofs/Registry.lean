import Spirv.Limitation

/-!
# The registry as a log

A registry holds what was registered, in order, and no more.
-/
namespace Spirv.Registry

def ofLog (log : List (Ident × Registration)) : Registry :=
  log.foldl (fun registry entry => registry.register entry.1 entry.2) ∅

/-- Steps that register at most one entry each come to registering a log. -/
theorem foldl_eq_foldl_register {apply : Registry → α → Registry}
    {logged? : α → Option (Ident × Registration)}
    (registers : ∀ registry step, apply registry step =
      (logged? step).elim registry fun entry => registry.register entry.1 entry.2)
    (steps : List α) (registry : Registry) :
    steps.foldl apply registry = (steps.filterMap logged?).foldl
      (fun registry entry => registry.register entry.1 entry.2) registry := by
  induction steps generalizing registry with
  | nil => rfl
  | cons step rest ih =>
    rw [List.foldl_cons, ih, registers, List.filterMap_cons]
    cases logged? step <;> rfl

theorem byFunction_foldl_register (log : List (Ident × Registration)) (registry : Registry) :
    (log.foldl (fun registry entry => registry.register entry.1 entry.2) registry).byFunction =
      log.foldl (fun map entry => map.alter entry.1 fun earlier => earlier.getD [] ++ [entry.2])
        registry.byFunction := by
  induction log generalizing registry with
  | nil => rfl
  | cons entry rest step => exact step _

/-- Functions come in the order of their first registration. -/
theorem functions_ofLog (log : List (Ident × Registration)) :
    (ofLog log).functions = (log.map Prod.fst).eraseDups := by
  unfold functions ofLog
  rw [byFunction_foldl_register, OrderedMap.keys_foldl_alter Prod.fst
    (fun entry earlier => earlier.getD [] ++ [entry.2])]
  change [] ++ _ = _
  rw [List.nil_append, List.filter_eq_self.mpr]
  intro function _
  exact decide_eq_true List.not_mem_nil

theorem registrations_foldl_register (log : List (Ident × Registration)) (registry : Registry)
    (function : Ident) :
    (log.foldl (fun registry entry => registry.register entry.1 entry.2) registry).registrations
      function = registry.registrations function ++
        (log.filter fun entry => entry.1 = function).map Prod.snd := by
  induction log generalizing registry with
  | nil => simp
  | cons entry rest step =>
    rw [List.foldl_cons, step, registrations_register, List.filter_cons]
    by_cases same : function = entry.1
    · simp [same]
    · simp [same, Ne.symm same]

theorem registrations_ofLog (log : List (Ident × Registration)) (function : Ident) :
    (ofLog log).registrations function =
      (log.filter fun entry => entry.1 = function).map Prod.snd := by
  rw [ofLog, registrations_foldl_register, registrations_empty, List.nil_append]

theorem isEmpty_ofLog_iff (log : List (Ident × Registration)) :
    (ofLog log).isEmpty = true ↔ log = [] := by
  rw [isEmpty_iff, functions_ofLog]
  cases log <;> simp [List.eraseDups_cons]

theorem limitations_ofLog (log : List (Ident × Registration)) (function : Ident) :
    (ofLog log).limitations function =
      (log.filter fun entry => entry.1 = function).map fun entry => entry.2.limitation := by
  rw [limitations, registrations_ofLog, List.map_map]
  rfl

/-- Resolution goes through the whole log and passes over the entries for other functions. -/
theorem resolve_ofLog (log : List (Ident × Registration)) (function : Ident)
    (model : ExecutionModel) :
    (ofLog log).resolve function model =
      Verdict.all (fun entry => if entry.1 = function then entry.2.check model else .ok ()) log := by
  have kept : ∀ entry ∈ log.filter fun entry => entry.1 = function,
      entry.2.check model = if entry.1 = function then entry.2.check model else .ok () := by
    intro entry member
    rw [if_pos (of_decide_eq_true (List.mem_filter.mp member).2)]
  rw [resolve, registrations_ofLog, Verdict.all_map, Verdict.all_congr kept, Verdict.all_filter]
  intro entry _ other
  exact if_neg (of_decide_eq_false other)

theorem resolve_ofLog_eq_ok_iff {log : List (Ident × Registration)} {function : Ident}
    {model : ExecutionModel} : (ofLog log).resolve function model = .ok () ↔
      ∀ entry ∈ log, entry.1 = function → model ∈ entry.2.limitation.allowed := by
  rw [resolve_ofLog, Verdict.all_eq_ok_iff]
  refine forall₂_congr fun entry _ => ?_
  by_cases same : entry.1 = function <;> simp [same, Registration.check_eq_ok_iff]

/-- The first entry for the function that does not allow the execution model is blamed. -/
theorem resolve_ofLog_eq_error_iff {log : List (Ident × Registration)} {function : Ident}
    {model : ExecutionModel} {diagnostic : Diagnostic} :
    (ofLog log).resolve function model = .error diagnostic ↔
      ∃ before entry after, log = before ++ entry :: after ∧ entry.1 = function ∧
        model ∉ entry.2.limitation.allowed ∧
        diagnostic = ⟨.executionModelViolation, some entry.2.origin,
          entry.2.limitation.message⟩ ∧
        ∀ earlier ∈ before, earlier.1 = function → model ∈ earlier.2.limitation.allowed := by
  rw [resolve_ofLog, Verdict.all_eq_error_iff]
  refine exists_congr fun before => exists_congr fun entry => exists_congr fun after =>
    and_congr_right fun _ => ?_
  have earlier : (∀ other ∈ before,
      (if other.1 = function then other.2.check model else .ok ()) = .ok ()) ↔
      ∀ other ∈ before, other.1 = function → model ∈ other.2.limitation.allowed := by
    rw [← Verdict.all_eq_ok_iff, ← resolve_ofLog, resolve_ofLog_eq_ok_iff]
  rw [earlier]
  by_cases same : entry.1 = function
  · rw [if_pos same, Registration.check_eq_error_iff, and_iff_right same, and_assoc]
  · simp [same]

structure Records (registry : Registry) (log : List (Ident × Registration)) : Prop where
  /-- Each function once, in the order of first entries. -/
  functions : registry.functions = (log.map Prod.fst).eraseDups
  isEmpty : registry.isEmpty = true ↔ log = []
  /-- What is held for a function is what the log has for it, in order. -/
  registrations (function : Ident) : registry.registrations function =
    (log.filter fun entry => entry.1 = function).map Prod.snd
  limitations (function : Ident) : registry.limitations function =
    (log.filter fun entry => entry.1 = function).map fun entry => entry.2.limitation
  resolve_ok (function : Ident) (model : ExecutionModel) :
    registry.resolve function model = .ok () ↔
      ∀ entry ∈ log, entry.1 = function → model ∈ entry.2.limitation.allowed
  /-- The first entry for the function that does not allow the execution model is blamed. -/
  resolve_error (function : Ident) (model : ExecutionModel) (diagnostic : Diagnostic) :
    registry.resolve function model = .error diagnostic ↔
      ∃ before entry after, log = before ++ entry :: after ∧ entry.1 = function ∧
        model ∉ entry.2.limitation.allowed ∧
        diagnostic = ⟨.executionModelViolation, some entry.2.origin,
          entry.2.limitation.message⟩ ∧
        ∀ earlier ∈ before, earlier.1 = function → model ∈ earlier.2.limitation.allowed

theorem records_ofLog (log : List (Ident × Registration)) : (ofLog log).Records log where
  functions := functions_ofLog log
  isEmpty := isEmpty_ofLog_iff log
  registrations := registrations_ofLog log
  limitations := limitations_ofLog log
  resolve_ok _ _ := resolve_ofLog_eq_ok_iff
  resolve_error _ _ _ := resolve_ofLog_eq_error_iff

end Spirv.Registry
