import Mathlib.Data.List.Pairwise
import Spirv.Proofs.Judgement
import Spirv.Proofs.Simulation

/-!
# Reordering of a module

Where an id has one definition, the order of definitions does not matter. So functions may change
places (`validate_perm_functions`), and so may the instructions of any other section
(`validate_sectionsPermuted`).
-/
namespace Spirv

section UniqueKeys

variable {key : α → Option β} {list other : List α}

theorem eq_of_key (unique : (list.filterMap key).Nodup) {value : β} {first second : α}
    (one : first ∈ list) (two : second ∈ list) (here : key first = some value)
    (there : key second = some value) : first = second := by
  by_contra differ
  have apart := List.pairwise_filterMap.mp unique
  have symmetric : Std.Symm fun a b : α => ∀ x, key a = some x → ∀ y, key b = some y → x ≠ y :=
    ⟨fun a b distinct y atB x atA => (distinct x atA y atB).symm⟩
  exact apart.forall one two differ value here value there rfl

variable [DecidableEq β]

/-- With one member for a key, looking it up is membership. -/
theorem findRev?_eq_some_iff (unique : (list.filterMap key).Nodup) {value : β} {member : α} :
    (list.findRev? fun member => key member = some value) = some member ↔
      member ∈ list ∧ key member = some value := by
  rw [List.findRev?_eq_find?_reverse]
  constructor
  · intro found
    exact ⟨List.mem_reverse.mp (List.mem_of_find?_eq_some found),
      by simpa using List.find?_some found⟩
  · intro held
    obtain ⟨listed, here⟩ := held
    cases found : list.reverse.find? fun member => key member = some value with
    | none => simpa [here] using List.find?_eq_none.mp found member (List.mem_reverse.mpr listed)
    | some first =>
      have known := List.mem_reverse.mp (List.mem_of_find?_eq_some found)
      have same : key first = some value := by simpa using List.find?_some found
      rw [eq_of_key unique known listed same here]

theorem findRev?_perm (unique : (list.filterMap key).Nodup) (perm : list.Perm other) (value : β) :
    (other.findRev? fun member => key member = some value) =
      list.findRev? fun member => key member = some value := by
  refine Option.ext fun member => ?_
  rw [findRev?_eq_some_iff unique,
    findRev?_eq_some_iff ((perm.filterMap key).nodup_iff.mp unique), perm.mem_iff]

end UniqueKeys

/-- The ids of functions are among the ids of their instructions. -/
theorem Function.filterMap_id?_sublist (functions : List Function) :
    (functions.filterMap id?).Sublist
      ((functions.flatMap listing).filterMap Instruction.resultId) := by
  induction functions with
  | nil => exact .slnil
  | cons function rest step =>
    have here : function.id?.toList.Sublist (function.listing.filterMap Instruction.resultId) := by
      rw [listing, List.append_assoc, List.append_assoc, List.filterMap_append]
      refine .trans ?_ (List.sublist_append_left _ _)
      rw [id?]
      cases function.definition with
      | none => exact .slnil
      | some inst => cases named : inst.resultId <;> simp [named]
    rw [List.flatMap_cons, List.filterMap_append]
    cases named : function.id? with
    | none =>
      rw [List.filterMap_cons_none named]
      exact step.trans (List.sublist_append_right _ _)
    | some id =>
      rw [List.filterMap_cons_some named]
      rw [named] at here
      exact here.append step

namespace Module

variable {m other : Module} {target : Target} {options : Options}

/-- No id has two definitions. -/
def UniqueIds (m : Module) : Prop := (m.listing.filterMap Instruction.resultId).Nodup

instance (m : Module) : Decidable m.UniqueIds := inferInstanceAs (Decidable (List.Nodup _))

theorem UniqueIds.functions (unique : m.UniqueIds) : (m.functions.filterMap Function.id?).Nodup := by
  refine List.Nodup.sublist ((Function.filterMap_id?_sublist _).trans ?_) unique
  exact (List.sublist_append_right _ _).filterMap _

theorem UniqueIds.definition?_perm (unique : m.UniqueIds) (perm : m.listing.Perm other.listing)
    (id : Ident) : other.definition? id = m.definition? id :=
  findRev?_perm unique perm id

theorem UniqueIds.function?_perm (unique : m.UniqueIds) (perm : m.functions.Perm other.functions) :
    other.function? = m.function? := by
  funext id
  exact findRev?_perm unique.functions perm id

theorem reaches_eq (same : other.function? = m.function?) : other.Reaches = m.Reaches := by
  refine reaches_congr fun caller callee => ?_
  constructor
  · intro calls
    exact ⟨same ▸ calls.called, same ▸ calls.defined⟩
  · intro calls
    exact ⟨same ▸ calls.called, same ▸ calls.defined⟩

theorem passes_iff {facts renamed : Facts} (same : facts.Renamed id renamed) (function : Function) :
    function.Passes renamed options ↔ function.Passes facts options := by
  have accepts (inst : Instruction) :
      Barrier.Accepts renamed options inst ↔ Barrier.Accepts facts options inst := by
    rw [Barrier.accepts_iff_fault?, Barrier.accepts_iff_fault?, Barrier.fault?_same same]
  constructor
  · intro passes
    exact ⟨passes.named, fun inst member kind =>
      (accepts inst).mp (passes.accepted inst member kind)⟩
  · intro passes
    exact ⟨passes.named, fun inst member kind =>
      (accepts inst).mpr (passes.accepted inst member kind)⟩

/-! ## Functions -/

def withFunctions (m : Module) (functions : List Function) : Module := { m with functions }

@[simp] theorem functions_withFunctions (m : Module) (functions : List Function) :
    (m.withFunctions functions).functions = functions := rfl

section Functions

variable {functions : List Function}

theorem facts_perm_functions (unique : m.UniqueIds) (perm : m.functions.Perm functions)
    (target : Target) :
    (m.facts target).Renamed id ((m.withFunctions functions).facts target) := by
  have listing : m.listing.Perm (m.withFunctions functions).listing :=
    (perm.flatMap_right Function.listing).append_left _
  exact facts_same (unique.definition?_perm listing) (fun _ => Iff.rfl) rfl target

theorem entryFault?_perm_functions (perm : m.functions.Perm functions) :
    (m.withFunctions functions).entryFault? = none ↔ m.entryFault? = none := by
  rw [entryFault?_eq_none_iff, entryFault?_eq_none_iff]
  simp only [functions_withFunctions, perm.mem_iff]
  rfl

theorem function?_perm_functions (unique : m.UniqueIds) (perm : m.functions.Perm functions) :
    (m.withFunctions functions).function? = m.function? :=
  unique.function?_perm perm

theorem deferred_perm_functions (unique : m.UniqueIds) (perm : m.functions.Perm functions)
    (named : ∀ function ∈ m.functions, function.id?.isSome) :
    (m.withFunctions functions).deferred target = .ok () ↔ m.deferred target = .ok () := by
  have renamed : ∀ function ∈ (m.withFunctions functions).functions, function.id?.isSome :=
    fun function known => named function (perm.mem_iff.mpr known)
  have excludes (id : Ident) :
      (m.withFunctions functions).Excludes Barrier.controlBarrierLimitation id ↔
        m.Excludes Barrier.controlBarrierLimitation id :=
    excludes_iff (reaches_eq (function?_perm_functions unique perm)) (fun _ => Iff.rfl) _ id
  rw [deferred_eq_ok_iff_functions named, deferred_eq_ok_iff_functions renamed,
    entryFault?_perm_functions perm]
  simp only [excludes, functions_withFunctions, perm.mem_iff]

theorem modelsReaching_perm_functions (unique : m.UniqueIds) (perm : m.functions.Perm functions)
    (function : Ident) :
    (m.withFunctions functions).modelsReaching function = m.modelsReaching function := by
  unfold modelsReaching
  rw [reaches_eq (function?_perm_functions unique perm)]
  rfl

/-- The order of functions decides neither whether a module is accepted nor which execution models
reach a function. -/
theorem validate_perm_functions (unique : m.UniqueIds) (perm : m.functions.Perm functions)
    (target : Target) (options : Options) :
    ((m.withFunctions functions).validate target options = .ok () ↔
      m.validate target options = .ok ()) ∧
    ∀ graph (built : CallGraph.ofModule m = .ok graph), ∃ other,
      ∃ rebuilt : CallGraph.ofModule (m.withFunctions functions) = .ok other,
        ∀ function,
          (function ∈ (other.reachingModels (CallGraph.closed_of_ofModule rebuilt)).keys ↔
            function ∈ (graph.reachingModels (CallGraph.closed_of_ofModule built)).keys) ∧
          (other.reachingModels (CallGraph.closed_of_ofModule rebuilt)).get? function =
            (graph.reachingModels (CallGraph.closed_of_ofModule built)).get? function := by
  constructor
  · have passes (function : Function) :
        function.Passes ((m.withFunctions functions).facts target) options ↔
          function.Passes (m.facts target) options :=
      passes_iff (facts_perm_functions unique perm target) function
    rw [validate_eq_ok_iff_phases, validate_eq_ok_iff_phases]
    simp only [passes, functions_withFunctions, ← perm.mem_iff]
    exact and_congr_right fun passed =>
      deferred_perm_functions unique perm fun function known => (passed function known).named
  · intro graph built
    obtain ⟨named, clean⟩ := CallGraph.exists_ofModule_iff.mp ⟨graph, built⟩
    obtain ⟨other, rebuilt⟩ := CallGraph.exists_ofModule_iff.mpr
      ⟨fun function known => named function (perm.mem_iff.mpr known),
        (entryFault?_perm_functions perm).mpr clean⟩
    refine ⟨other, rebuilt, fun function => ?_⟩
    have same : (other.reachingModels (CallGraph.closed_of_ofModule rebuilt)).get? function =
        (graph.reachingModels (CallGraph.closed_of_ofModule built)).get? function := by
      rw [CallGraph.get?_reachingModels rebuilt, CallGraph.get?_reachingModels built,
        modelsReaching_perm_functions unique perm]
    rw [OrderedMap.mem_keys_iff, OrderedMap.mem_keys_iff, same]
    exact ⟨Iff.rfl, rfl⟩

end Functions

/-- Function 2 holds a control barrier. It is an entry point, and function 1, an entry point of an
execution model without control barriers, calls it. -/
def barrierBehindCall : Module :=
  { ofCalls [(.glCompute, 2), (.fragment, 1)] [(1, [2])] with
    typesGlobalValues := [
      ⟨.typeInt, none, some 10, [.literalInt32 32, .literalInt32 0]⟩,
      ⟨.constant, some 10, some 11, [.literalInt32 2]⟩,
      ⟨.constant, some 10, some 12, [.literalInt32 0]⟩]
    functions := (ofCalls [] [(1, [2])]).functions ++ [{
      definition := some ⟨.other "Function", none, some 2, []⟩
      parameters := []
      blocks := [⟨none, [⟨.controlBarrier, none, none,
        [.idScope 11, .idScope 11, .idMemorySemantics 12]⟩]⟩]
      ending := none }] }

def barrierBehindCallGraph : CallGraph where
  functions := [1, 2]
  entryPoints := [(1, .glCompute), (0, .fragment)]
  callees := [[1], []]

theorem barrierBehindCall_reaches : barrierBehindCall.Reaches 1 2 :=
  .single ⟨⟨_, rfl, ⟨.functionCall, none, none, [.idRef 2]⟩, by decide, rfl, rfl⟩, rfl⟩

theorem barrierBehindCall_not_accepted : barrierBehindCall.validate .universal1_0 {} ≠ .ok () := by
  intro accepted
  obtain ⟨-, passed⟩ := validate_eq_ok_iff_phases.mp accepted
  obtain ⟨-, allowed⟩ := deferred_eq_ok_iff.mp passed (by decide) (by decide)
  have barrier : (⟨⟨.controlBarrier, none, none, [.idScope 11, .idScope 11, .idMemorySemantics 12]⟩,
      2, 1⟩ : Site) ∈ barrierBehindCall.controlBarriers := by decide
  exact allowed _ barrier ⟨(.fragment, 1), by decide, barrierBehindCall_reaches, by decide⟩

theorem validate_perm_functions_reverse :
    barrierBehindCall.UniqueIds ∧
      ∃ reversed, reversed = barrierBehindCall.withFunctions barrierBehindCall.functions.reverse ∧
        reversed.validate .universal1_0 {} ≠ .ok () ∧
        ∃ other, ∃ rebuilt : CallGraph.ofModule reversed = .ok other,
          2 ∈ (other.reachingModels (CallGraph.closed_of_ofModule rebuilt)).keys := by
  have unique : barrierBehindCall.UniqueIds := by decide
  have built : CallGraph.ofModule barrierBehindCall = .ok barrierBehindCallGraph := by rfl
  obtain ⟨accepted, graphs⟩ := validate_perm_functions unique (List.reverse_perm _).symm
    .universal1_0 {}
  obtain ⟨other, rebuilt, same⟩ := graphs _ built
  refine ⟨unique, _, rfl, mt accepted.mp barrierBehindCall_not_accepted, other, rebuilt, ?_⟩
  have reached : barrierBehindCall.modelsReaching 2 ≠ [] :=
    modelsReaching_ne_nil_iff.mpr ⟨(.fragment, 1), by decide, barrierBehindCall_reaches⟩
  rw [(same 2).1, OrderedMap.mem_keys_iff, CallGraph.get?_reachingModels built, if_neg reached]
  rfl

/-! ## Sections before the functions -/

structure SectionsPermuted (m other : Module) : Prop where
  capabilities : m.capabilities.Perm other.capabilities
  extensions : m.extensions.Perm other.extensions
  extInstImports : m.extInstImports.Perm other.extInstImports
  memoryModel : other.memoryModel = m.memoryModel
  entryPoints : m.entryPoints.Perm other.entryPoints
  executionModes : m.executionModes.Perm other.executionModes
  debugStringSource : m.debugStringSource.Perm other.debugStringSource
  debugNames : m.debugNames.Perm other.debugNames
  debugModuleProcessed : m.debugModuleProcessed.Perm other.debugModuleProcessed
  annotations : m.annotations.Perm other.annotations
  typesGlobalValues : m.typesGlobalValues.Perm other.typesGlobalValues
  functions : other.functions = m.functions

namespace SectionsPermuted

theorem listing (permuted : m.SectionsPermuted other) : m.listing.Perm other.listing := by
  unfold Module.listing
  rw [permuted.memoryModel, permuted.functions]
  exact permuted.capabilities.append permuted.extensions |>.append permuted.extInstImports
    |>.append_right _ |>.append permuted.entryPoints |>.append permuted.executionModes
    |>.append permuted.debugStringSource |>.append permuted.debugNames
    |>.append permuted.debugModuleProcessed |>.append permuted.annotations
    |>.append permuted.typesGlobalValues |>.append_right _

theorem facts (permuted : m.SectionsPermuted other) (unique : m.UniqueIds) (target : Target) :
    (m.facts target).Renamed id (other.facts target) := by
  refine facts_same (unique.definition?_perm permuted.listing) (fun capability => ?_) ?_ target
  · exact (permuted.capabilities.filterMap _).symm.mem_iff
  · rw [chosenMemoryModel, chosenMemoryModel, permuted.memoryModel]

theorem mem_starts_iff (permuted : m.SectionsPermuted other) (start : ExecutionModel × Ident) :
    start ∈ other.starts ↔ start ∈ m.starts :=
  ((permuted.entryPoints.filter _).filterMap _).symm.mem_iff

theorem simulates (permuted : m.SectionsPermuted other) (unique : m.UniqueIds)
    (clean : m.entryFault? = none) (target : Target) (options : Options) :
    Simulates Eq target options m other id id where
  named := by rw [permuted.functions]
  unnamed := rfl
  barriers := by
    rw [List.map_id, scannedBarriers, scannedBarriers, scannedSites, scannedSites,
      permuted.functions]
  opcode _ := rfl
  fault? site := Barrier.fault?_same (permuted.facts unique target) options site.inst
  rejected _ _ _ := rfl
  entryFault? := by
    rw [clean, Option.map_none, entryFault?_eq_none_iff]
    rw [entryFault?_eq_none_iff] at clean
    intro inst member
    rw [permuted.functions]
    exact clean inst (permuted.entryPoints.mem_iff.mpr member)
  blamed _ := rfl
  excludes site := by
    refine excludes_iff (reaches_eq ?_) permuted.mem_starts_iff _ _
    funext id
    rw [function?, function?, permuted.functions]
  excluded _ := rfl

end SectionsPermuted

/-- The order within the other sections does not matter at all, that of the entry points included. -/
theorem validate_sectionsPermuted (unique : m.UniqueIds)
    (entries : ∀ inst ∈ m.entryPoints, inst.opcode = .entryPoint → ∃ model id,
      inst.start? = some (model, id) ∧ ∃ function ∈ m.functions, function.id? = some id)
    (permuted : m.SectionsPermuted other) (target : Target) (options : Options) :
    other.validate target options = m.validate target options :=
  (permuted.simulates unique (entryFault?_eq_none_iff.mpr entries) target options).validate.eq.symm

theorem validate_sectionsPermuted_reverse :
    ∃ reversed, barrierBehindCall.SectionsPermuted reversed ∧
      reversed.entryPoints = barrierBehindCall.entryPoints.reverse ∧
      reversed.validate .universal1_0 {} ≠ .ok () := by
  have unique : barrierBehindCall.UniqueIds := by decide
  have clean : barrierBehindCall.entryFault? = none := by rfl
  have permuted : barrierBehindCall.SectionsPermuted
      { barrierBehindCall with
        entryPoints := barrierBehindCall.entryPoints.reverse
        typesGlobalValues := barrierBehindCall.typesGlobalValues.reverse } :=
    { capabilities := .refl _, extensions := .refl _, extInstImports := .refl _, memoryModel := rfl
      entryPoints := (List.reverse_perm _).symm, executionModes := .refl _
      debugStringSource := .refl _, debugNames := .refl _, debugModuleProcessed := .refl _
      annotations := .refl _, typesGlobalValues := (List.reverse_perm _).symm, functions := rfl }
  refine ⟨_, permuted, rfl, ?_⟩
  rw [validate_sectionsPermuted unique (entryFault?_eq_none_iff.mp clean) permuted]
  exact barrierBehindCall_not_accepted

end Module

end Spirv
