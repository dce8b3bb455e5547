import Mathlib.Data.Prod.Lex
import Spirv.Proofs.ReachingModels
import Spirv.Proofs.Registry

/-!
# Resolution of a registry

Resolution goes through functions, through the execution models that reach each, and through the
registrations for it. Flattened, these loops are one sequence in lexicographic order
(`pairwise_rank_encounters`), and the first encounter that is not allowed is the least one.
-/
namespace Spirv

/-- A sequence of checks in the order of a rank reports the failure of least rank. -/
theorem Verdict.all_eq_error_iff_least [LinearOrder β] {check : α → Verdict} {rank : α → β}
    {list : List α} (ordered : list.Pairwise fun a b => rank a < rank b) {diagnostic : Diagnostic} :
    all check list = .error diagnostic ↔ ∃ failing ∈ list, check failing = .error diagnostic ∧
      ∀ other ∈ list, check other ≠ .ok () → rank failing ≤ rank other := by
  constructor
  · intro fails
    obtain ⟨before, failing, after, rfl, found, passes⟩ := all_eq_error_iff.mp fails
    refine ⟨failing, by simp, found, fun other member otherFails => ?_⟩
    obtain ⟨-, later, -⟩ := List.pairwise_append.mp ordered
    rcases List.mem_append.mp member with earlier | rest
    · exact absurd (passes other earlier) otherFails
    · rcases List.mem_cons.mp rest with rfl | rest
      · exact le_refl _
      · exact le_of_lt (List.rel_of_pairwise_cons later rest)
  · intro first
    obtain ⟨failing, member, found, least⟩ := first
    cases verdict : all check list with
    | ok passed =>
      have passes := all_eq_ok_iff.mp verdict failing member
      cases found.symm.trans passes
    | error reported =>
      obtain ⟨before, first, after, rfl, fails, passes⟩ := all_eq_error_iff.mp verdict
      obtain ⟨-, later, -⟩ := List.pairwise_append.mp ordered
      rcases List.mem_append.mp member with earlier | rest
      · cases found.symm.trans (passes failing earlier)
      · rcases List.mem_cons.mp rest with rfl | rest
        · exact fails.symm.trans found
        · have above := List.rel_of_pairwise_cons later rest
          have below := least first (by simp) (by simp [fails])
          exact absurd below (not_le_of_gt above)

theorem findIdx_le_of_getElem? {keep : α → Bool} {list : List α} {position : Nat} {member : α}
    (found : list[position]? = some member) (kept : keep member) : list.findIdx keep ≤ position := by
  obtain ⟨bound, rfl⟩ := List.getElem?_eq_some_iff.mp found
  by_contra less
  have skipped := List.not_of_lt_findIdx (Nat.lt_of_not_le less)
  cases kept.symm.trans skipped

theorem exists_getElem?_findIdx (keep : α → Bool) {list : List α} {position : Nat} {member : α}
    (found : list[position]? = some member) (kept : keep member) :
    ∃ first, list[list.findIdx keep]? = some first ∧ keep first := by
  have bound := List.findIdx_lt_length_of_exists ⟨member, List.mem_of_getElem? found, kept⟩
  exact ⟨_, List.getElem?_eq_getElem bound, List.findIdx_getElem⟩

/-- A registration, by its position in a log, and an execution model that it is asked about. -/
structure Encounter where
  function : Ident
  model : ExecutionModel
  position : Nat
  registration : Registration

def Encounter.verdict (encounter : Encounter) : Verdict :=
  encounter.registration.check encounter.model

theorem Encounter.verdict_eq_error_iff {encounter : Encounter} {diagnostic : Diagnostic} :
    encounter.verdict = .error diagnostic ↔
      encounter.model ∉ encounter.registration.limitation.allowed ∧
        diagnostic = ⟨.executionModelViolation, some encounter.registration.origin,
          encounter.registration.limitation.message⟩ :=
  Registration.check_eq_error_iff

theorem Encounter.verdict_eq_ok_iff {encounter : Encounter} :
    encounter.verdict = .ok () ↔ encounter.model ∈ encounter.registration.limitation.allowed :=
  Registration.check_eq_ok_iff

namespace Module

variable {m : Module} {log : List (Ident × Registration)}

structure Meets (m : Module) (log : List (Ident × Registration)) (encounter : Encounter) : Prop where
  registered : log[encounter.position]? = some (encounter.function, encounter.registration)
  reached : ∃ id, (encounter.model, id) ∈ m.starts ∧ m.Reaches id encounter.function

structure Violates (m : Module) (log : List (Ident × Registration)) (encounter : Encounter) : Prop
    extends m.Meets log encounter where
  excluded : encounter.model ∉ encounter.registration.limitation.allowed

/-- Encounters are ordered by the first registration for their function, then by the first entry
point with their model that reaches it, then by their registration. -/
noncomputable def rank (m : Module) (log : List (Ident × Registration)) (encounter : Encounter) :
    Nat ×ₗ Nat ×ₗ Nat :=
  toLex (log.findIdx fun entry => entry.1 = encounter.function,
    toLex (m.firstStart encounter.function encounter.model, encounter.position))

theorem rank_le_iff {first second : Encounter} :
    m.rank log first ≤ m.rank log second ↔
      log.findIdx (fun entry => entry.1 = first.function) <
          log.findIdx (fun entry => entry.1 = second.function) ∨
        log.findIdx (fun entry => entry.1 = first.function) =
          log.findIdx (fun entry => entry.1 = second.function) ∧
        (m.firstStart first.function first.model < m.firstStart second.function second.model ∨
          m.firstStart first.function first.model = m.firstStart second.function second.model ∧
            first.position ≤ second.position) := by
  simp only [rank, Prod.Lex.toLex_le_toLex]

noncomputable def encounters (m : Module) (log : List (Ident × Registration)) : List Encounter :=
  (log.map Prod.fst).eraseDups.flatMap fun function =>
    (m.modelsReaching function).flatMap fun model =>
      (log.zipIdx.filter fun entry => entry.1.1 = function).map fun entry =>
        ⟨function, model, entry.2, entry.1.2⟩

theorem mem_encounters_iff {encounter : Encounter} :
    encounter ∈ m.encounters log ↔ m.Meets log encounter := by
  obtain ⟨function, model, position, registration⟩ := encounter
  simp only [encounters, List.mem_flatMap, List.mem_eraseDups, mem_modelsReaching, List.mem_map,
    List.mem_filter, decide_eq_true_eq, Encounter.mk.injEq]
  constructor
  · rintro ⟨_, -, _, reached, ⟨⟨⟨_, _⟩, _⟩, ⟨listed, rfl⟩, rfl, rfl, rfl, rfl⟩⟩
    exact ⟨List.mem_zipIdx_iff_getElem?.mp listed, reached⟩
  · intro meets
    obtain ⟨registered, reached⟩ := meets
    exact ⟨function, ⟨_, List.mem_of_getElem? registered, rfl⟩, model, reached,
      ((function, registration), position), ⟨List.mem_zipIdx_iff_getElem?.mpr registered, rfl⟩,
      rfl, rfl, rfl, rfl⟩

theorem pairwise_zipIdx (list : List α) :
    list.zipIdx.Pairwise fun first second => first.2 < second.2 := by
  rw [← List.pairwise_map (f := Prod.snd), List.zipIdx_map_snd]
  exact List.pairwise_lt_range'

theorem pairwise_rank_encounters (m : Module) (log : List (Ident × Registration)) :
    (m.encounters log).Pairwise fun a b => m.rank log a < m.rank log b := by
  have functions := pairwise_findIdx_eraseDups Prod.fst (fun _ => true) log
  rw [List.filter_eq_self.mpr (by simp)] at functions
  apply List.pairwise_flatMap.mpr
  constructor
  · intro function _
    apply List.pairwise_flatMap.mpr
    constructor
    · intro model _
      apply List.pairwise_map.mpr
      apply ((pairwise_zipIdx log).filter _).imp
      intro first second less
      simp [rank, Prod.Lex.toLex_lt_toLex, less]
    · apply (m.pairwise_modelsReaching function).imp
      intro first second less a memberA b memberB
      obtain ⟨_, -, rfl⟩ := List.mem_map.mp memberA
      obtain ⟨_, -, rfl⟩ := List.mem_map.mp memberB
      simp [rank, Prod.Lex.toLex_lt_toLex, less]
  · apply functions.imp
    intro first second less a memberA b memberB
    simp only [List.mem_flatMap, List.mem_map] at memberA memberB
    obtain ⟨_, -, _, -, rfl⟩ := memberA
    obtain ⟨_, -, _, -, rfl⟩ := memberB
    have earlier : (log.findIdx fun entry => entry.1 = first) <
        log.findIdx fun entry => entry.1 = second := by simpa [beq_eq_decide] using less
    simp [rank, Prod.Lex.toLex_lt_toLex, earlier]

theorem reachingModels_eq {graph : CallGraph} (built : CallGraph.ofModule m = .ok graph) :
    m.reachingModels = .ok (graph.reachingModels (CallGraph.closed_of_ofModule built)) := by
  unfold reachingModels
  split
  next fault failed => cases built.symm.trans failed
  next other again =>
    cases built.symm.trans again
    rfl

theorem getD_reachingModels {graph : CallGraph} (built : CallGraph.ofModule m = .ok graph)
    (function : Ident) :
    ((graph.reachingModels (CallGraph.closed_of_ofModule built)).get? function).getD [] =
      m.modelsReaching function := by
  rw [CallGraph.get?_reachingModels built]
  by_cases empty : m.modelsReaching function = [] <;> simp [empty]

theorem reachingModels_eq_error {fault : ModuleFault} (failed : CallGraph.ofModule m = .error fault) :
    m.reachingModels = .error fault := by
  unfold reachingModels
  split
  next found again => rw [← Except.error.inj (failed.symm.trans again)]
  next graph built => cases failed.symm.trans built

theorem resolve_registry (log : List (Ident × Registration)) (function : Ident) :
    (Registry.ofLog log).resolve function = fun model =>
      Verdict.all Encounter.verdict ((log.zipIdx.filter fun entry => entry.1.1 = function).map
        fun entry => ⟨function, model, entry.2, entry.1.2⟩) := by
  funext model
  have unnumbered : log.filter (fun entry => entry.1 = function) =
      (log.zipIdx.filter fun entry => entry.1.1 = function).map Prod.fst := by
    conv_lhs => rw [← List.zipIdx_map_fst 0 log, List.filter_map]
    rfl
  rw [Registry.resolve, Registry.registrations_ofLog, unnumbered, List.map_map, Verdict.all_map,
    Verdict.all_map]
  rfl

theorem resolve_eq_encounters {graph : CallGraph} (built : CallGraph.ofModule m = .ok graph)
    (nonempty : log ≠ []) :
    m.resolve (.ofLog log) = Verdict.all Encounter.verdict (m.encounters log) := by
  unfold resolve
  rw [if_neg (mt (Registry.isEmpty_ofLog_iff log).mp nonempty), reachingModels_eq built]
  simp only [encounters, Verdict.all_flatMap, Registry.functions_ofLog, resolve_registry,
    getD_reachingModels built]

theorem resolve_eq_ok_iff {graph : CallGraph} (built : CallGraph.ofModule m = .ok graph)
    (nonempty : log ≠ []) :
    m.resolve (.ofLog log) = .ok () ↔ ∀ entry ∈ log, ∀ start ∈ m.starts,
      m.Reaches start.2 entry.1 → start.1 ∈ entry.2.limitation.allowed := by
  rw [resolve_eq_encounters built nonempty, Verdict.all_eq_ok_iff]
  constructor
  · intro allowed entry member start begins reaches
    obtain ⟨position, listed⟩ := List.mem_iff_getElem?.mp member
    exact Encounter.verdict_eq_ok_iff.mp (allowed ⟨entry.1, start.1, position, entry.2⟩
      (mem_encounters_iff.mpr ⟨listed, start.2, begins, reaches⟩))
  · intro allowed encounter member
    obtain ⟨registered, id, begins, reaches⟩ := mem_encounters_iff.mp member
    exact Encounter.verdict_eq_ok_iff.mpr
      (allowed _ (List.mem_of_getElem? registered) (encounter.model, id) begins reaches)

theorem resolve_eq_error_iff {graph : CallGraph} (built : CallGraph.ofModule m = .ok graph)
    (nonempty : log ≠ []) {diagnostic : Diagnostic} :
    m.resolve (.ofLog log) = .error diagnostic ↔ ∃ violation, m.Violates log violation ∧
      (∀ other, m.Violates log other → m.rank log violation ≤ m.rank log other) ∧
      diagnostic = ⟨.executionModelViolation, some violation.registration.origin,
        violation.registration.limitation.message⟩ := by
  rw [resolve_eq_encounters built nonempty,
    Verdict.all_eq_error_iff_least (pairwise_rank_encounters m log)]
  constructor
  · intro first
    obtain ⟨violation, member, fails, least⟩ := first
    obtain ⟨excluded, rfl⟩ := Encounter.verdict_eq_error_iff.mp fails
    refine ⟨violation, ⟨mem_encounters_iff.mp member, excluded⟩, fun other violates => ?_, rfl⟩
    exact least other (mem_encounters_iff.mpr violates.toMeets)
      (mt Encounter.verdict_eq_ok_iff.mp violates.excluded)
  · intro first
    obtain ⟨violation, violates, least, rfl⟩ := first
    refine ⟨violation, mem_encounters_iff.mpr violates.toMeets,
      Encounter.verdict_eq_error_iff.mpr ⟨violates.excluded, rfl⟩, fun other member fails => ?_⟩
    exact least other ⟨mem_encounters_iff.mp member, mt Encounter.verdict_eq_ok_iff.mpr fails⟩

/-- An entry point whose execution model the limitation does not allow reaches the function. -/
def Excludes (m : Module) (limitation : Limitation) (function : Ident) : Prop :=
  ∃ start ∈ m.starts, m.Reaches start.2 function ∧ start.1 ∉ limitation.allowed

structure FirstExcluded (m : Module) (limitation : Limitation) (log : List (Ident × Registration))
    (position : Nat) (entry : Ident × Registration) : Prop where
  registered : log[position]? = some entry
  excluded : m.Excludes limitation entry.1
  first : ∀ (other : Nat) (later : Ident × Registration), log[other]? = some later →
    m.Excludes limitation later.1 → position ≤ other

theorem FirstExcluded.unique {limitation : Limitation} {position other : Nat}
    {entry later : Ident × Registration} (here : m.FirstExcluded limitation log position entry)
    (there : m.FirstExcluded limitation log other later) : entry = later := by
  obtain rfl : position = other := Nat.le_antisymm
    (here.first _ _ there.registered there.excluded)
    (there.first _ _ here.registered here.excluded)
  exact Option.some.inj (here.registered.symm.trans there.registered)

/-- Where all registrations carry one limitation, a least violation stands no later than the first
registration for its function, which objects to the same execution model. -/
theorem position_le_findIdx_of_least {limitation : Limitation}
    (uniform : ∀ entry ∈ log, entry.2.limitation = limitation) {violation : Encounter}
    (violates : m.Violates log violation)
    (least : ∀ other, m.Violates log other → m.rank log violation ≤ m.rank log other) :
    violation.position ≤ log.findIdx fun entry => entry.1 = violation.function := by
  have listed := violates.registered
  have kept : decide ((violation.function, violation.registration).1 = violation.function) = true :=
    decide_eq_true rfl
  obtain ⟨⟨function, registration⟩, found, same⟩ := exists_getElem?_findIdx
    (fun entry => decide (entry.1 = violation.function)) listed kept
  obtain rfl : function = violation.function := by simpa using same
  have carried := uniform _ (List.mem_of_getElem? listed)
  have again := uniform _ (List.mem_of_getElem? found)
  dsimp only at carried again
  have excluded : violation.model ∉ registration.limitation.allowed := by
    rw [again, ← carried]
    exact violates.excluded
  have below := least ⟨violation.function, violation.model,
    log.findIdx fun entry => entry.1 = violation.function, registration⟩
    ⟨⟨found, violates.reached⟩, excluded⟩
  simpa [rank_le_iff] using below

theorem firstExcluded_of_least {limitation : Limitation}
    (uniform : ∀ entry ∈ log, entry.2.limitation = limitation) {violation : Encounter}
    (violates : m.Violates log violation)
    (least : ∀ other, m.Violates log other → m.rank log violation ≤ m.rank log other) :
    m.FirstExcluded limitation log violation.position
      (violation.function, violation.registration) := by
  have carried := uniform _ (List.mem_of_getElem? violates.registered)
  obtain ⟨id, begins, reaches⟩ := violates.reached
  refine ⟨violates.registered, ⟨_, begins, reaches, carried ▸ violates.excluded⟩, ?_⟩
  rintro position ⟨function, registration⟩ found ⟨start, starts, reached, excluded⟩
  rw [← uniform _ (List.mem_of_getElem? found)] at excluded
  have below := least ⟨function, start.1, position, registration⟩
    ⟨⟨found, start.2, starts, reached⟩, excluded⟩
  have firsts : (log.findIdx fun entry => entry.1 = violation.function) ≤
      log.findIdx fun entry => entry.1 = function := Prod.Lex.monotone_fst _ _ below
  calc violation.position
      ≤ log.findIdx fun entry => entry.1 = violation.function :=
        position_le_findIdx_of_least uniform violates least
    _ ≤ log.findIdx fun entry => entry.1 = function := firsts
    _ ≤ position := findIdx_le_of_getElem? found (by simp)

/-- If all registrations carry one limitation, the first whose function it excludes is blamed. -/
theorem resolve_uniform {graph : CallGraph} (built : CallGraph.ofModule m = .ok graph)
    (nonempty : log ≠ []) {limitation : Limitation}
    (uniform : ∀ entry ∈ log, entry.2.limitation = limitation) {diagnostic : Diagnostic} :
    m.resolve (.ofLog log) = .error diagnostic ↔ ∃ position entry,
      m.FirstExcluded limitation log position entry ∧
        diagnostic = ⟨.executionModelViolation, some entry.2.origin, limitation.message⟩ := by
  have blamed {reported : Diagnostic} (fails : m.resolve (.ofLog log) = .error reported) :
      ∃ position entry, m.FirstExcluded limitation log position entry ∧
        reported = ⟨.executionModelViolation, some entry.2.origin, limitation.message⟩ := by
    obtain ⟨violation, violates, least, rfl⟩ := (resolve_eq_error_iff built nonempty).mp fails
    refine ⟨_, _, firstExcluded_of_least uniform violates least, ?_⟩
    rw [← uniform _ (List.mem_of_getElem? violates.registered)]
  refine ⟨blamed, ?_⟩
  rintro ⟨position, entry, here, rfl⟩
  cases verdict : m.resolve (.ofLog log) with
  | ok passed =>
    obtain ⟨start, begins, reaches, excluded⟩ := here.excluded
    have member := List.mem_of_getElem? here.registered
    have allowed := (resolve_eq_ok_iff built nonempty).mp verdict entry member start begins reaches
    rw [uniform entry member] at allowed
    exact absurd allowed excluded
  | error reported =>
    obtain ⟨other, later, there, rfl⟩ := blamed verdict
    rw [here.unique there]

theorem resolve_empty (m : Module) : m.resolve (.ofLog []) = .ok () := rfl

theorem resolve_eq_fault {fault : ModuleFault} (failed : CallGraph.ofModule m = .error fault)
    (nonempty : log ≠ []) : m.resolve (.ofLog log) = .error fault.diagnostic := by
  unfold resolve
  rw [if_neg (mt (Registry.isEmpty_ofLog_iff log).mp nonempty), reachingModels_eq_error failed]

/-- What resolution says of any log of registrations. An empty one is accepted whatever the module.
Otherwise a fault of the call graph counts, then the least violation; a function that no entry point
reaches, and an id that is no function's, has none. -/
theorem resolve_log (m : Module) (log : List (Ident × Registration)) :
    (log = [] → m.resolve (.ofLog log) = .ok ()) ∧
    (log ≠ [] → ∀ fault, CallGraph.ofModule m = .error fault →
      m.resolve (.ofLog log) = .error fault.diagnostic) ∧
    (log ≠ [] → ∀ graph, CallGraph.ofModule m = .ok graph →
      (m.resolve (.ofLog log) = .ok () ↔ ∀ entry ∈ log, ∀ start ∈ m.starts,
        m.Reaches start.2 entry.1 → start.1 ∈ entry.2.limitation.allowed) ∧
      (∀ diagnostic, m.resolve (.ofLog log) = .error diagnostic ↔
        ∃ violation, m.Violates log violation ∧
          (∀ other, m.Violates log other → m.rank log violation ≤ m.rank log other) ∧
          diagnostic = ⟨.executionModelViolation, some violation.registration.origin,
            violation.registration.limitation.message⟩) ∧
      ∀ function, m.function? function = none →
        ∀ start ∈ m.starts, ¬m.Reaches start.2 function) := by
  refine ⟨?_, fun nonempty fault failed => resolve_eq_fault failed nonempty, ?_⟩
  · rintro rfl
    exact resolve_empty m
  · intro nonempty graph built
    refine ⟨resolve_eq_ok_iff built nonempty, fun diagnostic => resolve_eq_error_iff built nonempty, ?_⟩
    intro function undefined start begins reaches
    obtain ⟨-, clean⟩ := CallGraph.exists_ofModule_iff.mp ⟨graph, built⟩
    have defined :=
      isSome_function?_of_reaches (isSome_function?_of_mem_starts clean begins) reaches
    rw [undefined] at defined
    cases defined

/-- Two functions with two limitations each, after one for an id that is no function's. -/
def interleaved : List (Ident × Registration) :=
  [(9, ⟨⟨[], "nowhere"⟩, ⟨.other "Kill", none, 9, 0⟩⟩),
    (3, ⟨⟨[.fragment], "not in compute"⟩, ⟨.other "Kill", none, 3, 1⟩⟩),
    (2, ⟨⟨[.glCompute], "not in fragment"⟩, ⟨.other "Kill", none, 2, 2⟩⟩),
    (3, ⟨⟨[.glCompute], "not in fragment"⟩, ⟨.other "Kill", none, 3, 3⟩⟩),
    (3, ⟨⟨[], "nowhere"⟩, ⟨.other "Kill", none, 3, 4⟩⟩),
    (2, ⟨⟨[], "nowhere"⟩, ⟨.other "Kill", none, 2, 5⟩⟩)]

theorem mutualCalls_firstStart_lt {model : ExecutionModel} (other : model ≠ .fragment) :
    mutualCalls.firstStart 3 .fragment < mutualCalls.firstStart 3 model := by
  have starts : mutualCalls.starts = [(.fragment, 1), (.glCompute, 2), (.fragment, 3)] := by rfl
  simp [firstStart, starts, List.findIdx_cons, mutualCalls_reaches.2, Ne.symm other]

/-- All limitations but the first are violated. The fourth counts: function 3 is registered before
function 2, a fragment entry point stands before the compute one, and the fifth comes later. -/
theorem resolve_log_mutualCalls : mutualCalls.resolve (.ofLog interleaved) =
    .error ⟨.executionModelViolation, some ⟨.other "Kill", none, 3, 3⟩, "not in fragment"⟩ := by
  have built : CallGraph.ofModule mutualCalls = .ok mutualCallsGraph := by rfl
  obtain ⟨-, reported, undefined⟩ := (resolve_log mutualCalls interleaved).2.2 (by decide) _ built
  let least : Encounter := ⟨3, .fragment, 3, interleaved[3].2⟩
  refine (reported _).mpr ⟨least, ⟨⟨rfl, 1, by decide, mutualCalls_reaches.2⟩, by decide⟩, ?_, rfl⟩
  rintro ⟨function, model, position, registration⟩ ⟨⟨registered, id, begins, reaches⟩, excluded⟩
  rw [rank_le_iff]
  match position, registered with
  | 0, registered =>
    obtain ⟨rfl, -⟩ := Prod.mk.inj (Option.some.inj registered)
    exact absurd reaches (undefined 9 (by rfl) (model, id) begins)
  | 1, registered =>
    obtain ⟨rfl, rfl⟩ := Prod.mk.inj (Option.some.inj registered)
    have compute : model ≠ .fragment := fun same => excluded (List.mem_singleton.mpr same)
    exact .inr ⟨rfl, .inl (mutualCalls_firstStart_lt compute)⟩
  | 2, registered | 5, registered =>
    obtain ⟨rfl, -⟩ := Prod.mk.inj (Option.some.inj registered)
    have earlier : (interleaved.findIdx fun entry => entry.1 = 3) <
        interleaved.findIdx fun entry => entry.1 = 2 := by decide
    exact .inl earlier
  | 3, registered | 4, registered =>
    obtain ⟨rfl, rfl⟩ := Prod.mk.inj (Option.some.inj registered)
    by_cases same : model = .fragment
    · subst same
      exact .inr ⟨rfl, .inr ⟨rfl, by decide⟩⟩
    · exact .inr ⟨rfl, .inl (mutualCalls_firstStart_lt same)⟩

end Module

end Spirv
