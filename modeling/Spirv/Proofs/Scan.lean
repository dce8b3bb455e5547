import Spirv.Validation

/-!
# The scan

`scanFrom` goes through the functions with a running count of body instructions; the sites that the
scan checks have the same positions (`scan_eq_scanFrom`). What a barrier is accused of does not
depend on where it stands (`check_standard`).
-/
namespace Spirv

variable {facts : Facts} {options : Options}

def OperandCheck.fault? (facts : Facts) (options : Options) (opcode : Opcode) (asked : OperandCheck) :
    Option Fault :=
  match match asked with
    | executionScope id => ScopeRules.checkExecution facts id
    | memoryScope id => ScopeRules.checkMemory facts id
    | memorySemantics id => MemorySemantics.check facts options opcode id with
  | .error fault => some fault
  | .ok () => none

theorem OperandCheck.fault?_eq_none_iff {opcode : Opcode} {asked : OperandCheck} :
    asked.fault? facts options opcode = none ↔
      match asked with
      | executionScope id => ScopeRules.checkExecution facts id = .ok ()
      | memoryScope id => ScopeRules.checkMemory facts id = .ok ()
      | memorySemantics id => MemorySemantics.check facts options opcode id = .ok () := by
  cases asked with
  | executionScope id =>
    simp only [fault?]
    cases ScopeRules.checkExecution facts id <;> simp
  | memoryScope id =>
    simp only [fault?]
    cases ScopeRules.checkMemory facts id <;> simp
  | memorySemantics id =>
    simp only [fault?]
    cases MemorySemantics.check facts options opcode id <;> simp

namespace Barrier

def fault? (facts : Facts) (options : Options) (inst : Instruction) : Option Fault :=
  match operandChecks facts inst with
  | .error fault => some fault
  | .ok checks => checks.findSome? (OperandCheck.fault? facts options inst.opcode)

theorem fault?_eq_none_iff {inst : Instruction} : fault? facts options inst = none ↔
    ∃ checks, operandChecks facts inst = .ok checks ∧
      ∀ asked ∈ checks, asked.fault? facts options inst.opcode = none := by
  unfold fault?
  cases operandChecks facts inst with
  | error fault => simp
  | ok checks => simp [List.findSome?_eq_none_iff]

theorem verdict_standard (site : Site) (asked : OperandCheck) :
    asked.verdict facts .standard options site =
      match asked.fault? facts options site.opcode with
      | none => .ok ()
      | some fault => .error (site.fault fault) := by
  cases asked with
  | executionScope id =>
    simp only [OperandCheck.verdict, ScopeRules.standard, OperandCheck.fault?]
    cases ScopeRules.checkExecution facts id <;> rfl
  | memoryScope id =>
    simp only [OperandCheck.verdict, ScopeRules.standard, OperandCheck.fault?]
    cases ScopeRules.checkMemory facts id <;> rfl
  | memorySemantics id =>
    simp only [OperandCheck.verdict, OperandCheck.fault?]
    cases MemorySemantics.check facts options site.opcode id <;> rfl

/-- The place of an instruction decides where it is blamed, not what for. -/
theorem check_standard (site : Site) :
    check facts .standard options site =
      match fault? facts options site.inst with
      | none => .ok ()
      | some fault => .error (site.fault fault) := by
  unfold check examine fault?
  cases operandChecks facts site.inst with
  | error fault => rfl
  | ok checks =>
    dsimp only
    rw [Run.verdict_of]
    induction checks with
    | nil => rfl
    | cons first rest step =>
      rw [Verdict.all, verdict_standard, List.findSome?_cons, Site.opcode]
      cases first.fault? facts options site.inst.opcode with
      | none => exact step
      | some fault => rfl

/-- An instruction is accepted by the standard rules, wherever it stands. -/
def Accepts (facts : Facts) (options : Options) (inst : Instruction) : Prop :=
  ∀ function index, check facts .standard options ⟨inst, function, index⟩ = .ok ()

theorem accepts_iff_fault? {inst : Instruction} :
    Accepts facts options inst ↔ fault? facts options inst = none := by
  constructor
  · intro accepts
    have passes := accepts 0 0
    rw [check_standard] at passes
    cases found : fault? facts options inst with
    | none => rfl
    | some fault => simp [found] at passes
  · intro clean function index
    rw [check_standard]
    dsimp only
    rw [clean]

theorem check_eq_ok_iff {site : Site} :
    check facts .standard options site = .ok () ↔ Accepts facts options site.inst := by
  rw [accepts_iff_fault?, check_standard]
  cases fault? facts options site.inst <;> simp

theorem exists_fault_of_check {site : Site} {diagnostic : Diagnostic}
    (fails : check facts .standard options site = .error diagnostic) :
    ∃ fault, fault? facts options site.inst = some fault ∧ diagnostic = site.fault fault := by
  rw [check_standard] at fails
  cases found : fault? facts options site.inst with
  | none => simp [found] at fails
  | some fault =>
    rw [found] at fails
    cases fails
    exact ⟨fault, rfl, rfl⟩

/-- A barrier is blamed at its own place. -/
theorem location_of_check {site : Site} {diagnostic : Diagnostic}
    (fails : check facts .standard options site = .error diagnostic) :
    diagnostic.location = some site.location := by
  obtain ⟨fault, -, rfl⟩ := exists_fault_of_check fails
  rfl

theorem isBarrier_of_check {site : Site} {diagnostic : Diagnostic}
    (fails : check facts .standard options site = .error diagnostic) : site.opcode.isBarrier := by
  cases kind : site.opcode.isBarrier with
  | true => rfl
  | false =>
    have passes := check_of_not_isBarrier facts .standard options kind
    cases fails.symm.trans passes

theorem accepts_of_not_isBarrier {inst : Instruction} (other : inst.opcode.isBarrier = false) :
    Accepts facts options inst :=
  fun _ _ => check_of_not_isBarrier facts .standard options other

end Barrier

namespace Site

/-- The body instructions of functions that have an id, numbered from `start`. -/
def numbered (start : Nat) (functions : List Function) : List Site :=
  (functions.flatMap Function.bodyWithId).mapIdx fun offset (function, inst) =>
    ⟨inst, function, start + offset⟩

theorem numbered_zero (functions : List Function) : numbered 0 functions = ofFunctions functions := by
  simp [numbered, ofFunctions]

def ofInstructions (id : Ident) (start : Nat) (insts : List Instruction) : List Site :=
  insts.mapIdx fun offset inst => ⟨inst, id, start + offset⟩

theorem numbered_cons {function : Function} {id : Ident} (named : function.id? = some id)
    (start : Nat) (rest : List Function) :
    numbered start (function :: rest) =
      ofInstructions id start function.body ++ numbered (start + function.body.length) rest := by
  unfold numbered ofInstructions
  rw [List.flatMap_cons, List.mapIdx_append]
  simp only [Function.bodyWithId, named, List.length_map]
  congr 1
  · refine List.ext_getElem? fun offset => ?_
    rw [List.getElem?_mapIdx, List.getElem?_map, Option.map_map, List.getElem?_mapIdx]
    rfl
  · congr 1
    funext offset entry
    rw [Nat.add_assoc, Nat.add_comm offset]

theorem ofInstructions_split (id : Ident) (start : Nat) (before after : List Instruction)
    (inst : Instruction) :
    ofInstructions id start (before ++ inst :: after) = ofInstructions id start before ++
      ⟨inst, id, start + before.length⟩ ::
        after.mapIdx fun offset other => ⟨other, id, start + (offset + 1 + before.length)⟩ := by
  rw [ofInstructions, List.mapIdx_append, List.mapIdx_cons, Nat.zero_add]
  rfl

/-- Each site in a list of numbered instructions comes from a place among the instructions. -/
theorem exists_of_ofInstructions_split {id : Ident} {start : Nat} {insts : List Instruction}
    {earlier later : List Site} {site : Site}
    (split : ofInstructions id start insts = earlier ++ site :: later) :
    ∃ before inst after, insts = before ++ inst :: after ∧
      site = ⟨inst, id, start + before.length⟩ ∧ earlier = ofInstructions id start before := by
  obtain ⟨before, tail, rfl, rfl, rest⟩ := List.mapIdx_eq_append_iff.mp split
  obtain ⟨inst, after, rfl, rfl, -⟩ := List.mapIdx_eq_cons_iff.mp rest
  exact ⟨before, inst, after, rfl, by rw [Nat.zero_add], rfl⟩

end Site

/-- Of numbered instructions only the barriers have to be accepted. -/
theorem Barrier.check_ofInstructions_iff {id : Ident} {start : Nat} {insts : List Instruction} :
    (∀ site ∈ Site.ofInstructions id start insts, check facts .standard options site = .ok ()) ↔
      ∀ inst ∈ insts, inst.opcode.isBarrier → Accepts facts options inst := by
  constructor
  · intro passes inst member _
    obtain ⟨offset, bound, rfl⟩ := List.mem_iff_getElem.mp member
    have listed : ⟨insts[offset], id, start + offset⟩ ∈ Site.ofInstructions id start insts :=
      List.mem_mapIdx.mpr ⟨offset, bound, rfl⟩
    exact check_eq_ok_iff.mp (passes _ listed)
  · intro accepted site listed
    obtain ⟨offset, bound, rfl⟩ := List.mem_mapIdx.mp listed
    apply check_eq_ok_iff.mpr
    cases kind : insts[offset].opcode.isBarrier with
    | true => exact accepted _ (List.getElem_mem bound) kind
    | false => exact accepts_of_not_isBarrier kind

namespace Function

structure Passes (facts : Facts) (options : Options) (function : Function) : Prop where
  named : function.id?.isSome
  accepted : ∀ inst ∈ function.body, inst.opcode.isBarrier → Barrier.Accepts facts options inst

/-- The function has no id, or it has one and `diagnostic` is for its first barrier that is not
accepted, when `start` body instructions come before it. -/
inductive Fails (facts : Facts) (options : Options) (start : Nat) (function : Function) :
    Diagnostic → Prop where
  | unnamed (lacks : function.id? = none) :
      Fails facts options start function
        ⟨.invalidModule, none, ModuleFault.functionWithoutId.message⟩
  | barrier {id : Ident} {before after : List Instruction} {inst : Instruction}
      {diagnostic : Diagnostic} (named : function.id? = some id)
      (body : function.body = before ++ inst :: after)
      (accepted : ∀ earlier ∈ before, earlier.opcode.isBarrier →
        Barrier.Accepts facts options earlier)
      (isBarrier : inst.opcode.isBarrier)
      (rejected : Barrier.check facts .standard options ⟨inst, id, start + before.length⟩ =
        .error diagnostic)
      (location : diagnostic.location =
        some ⟨inst.opcode, inst.resultId, id, start + before.length⟩) :
      Fails facts options start function diagnostic

def verdict (facts : Facts) (options : Options) (start : Nat) (function : Function) : Verdict :=
  match function.id? with
  | none => .error ModuleFault.functionWithoutId.diagnostic
  | some id => Verdict.all (Barrier.check facts .standard options)
      (Site.ofInstructions id start function.body)

theorem verdict_eq_ok_iff {start : Nat} {function : Function} :
    function.verdict facts options start = .ok () ↔ function.Passes facts options := by
  unfold verdict
  cases named : function.id? with
  | none =>
    constructor
    · intro passes
      cases passes
    · intro passes
      have isNamed := passes.named
      rw [named] at isNamed
      cases isNamed
  | some id =>
    simp only [Verdict.all_eq_ok_iff, Barrier.check_ofInstructions_iff]
    exact ⟨fun accepted => ⟨by simp [named], accepted⟩, fun passes => passes.accepted⟩

theorem fails_of_verdict {start : Nat} {function : Function} {diagnostic : Diagnostic}
    (fails : function.verdict facts options start = .error diagnostic) :
    function.Fails facts options start diagnostic := by
  unfold verdict at fails
  cases named : function.id? with
  | none =>
    rw [named] at fails
    cases fails
    exact .unnamed named
  | some id =>
    rw [named] at fails
    obtain ⟨earlier, site, later, split, rejected, passes⟩ := Verdict.all_eq_error_iff.mp fails
    obtain ⟨before, inst, after, body, rfl, rfl⟩ := Site.exists_of_ofInstructions_split split
    have accepted := Barrier.check_ofInstructions_iff.mp passes
    exact .barrier named body accepted (Barrier.isBarrier_of_check rejected) rejected
      (Barrier.location_of_check rejected)

theorem verdict_of_fails {start : Nat} {function : Function} {diagnostic : Diagnostic}
    (fails : function.Fails facts options start diagnostic) :
    function.verdict facts options start = .error diagnostic := by
  unfold verdict
  cases fails with
  | unnamed lacks =>
    rewrite [lacks]
    rfl
  | barrier named body accepted isBarrier rejected location =>
    rw [named]
    apply Verdict.all_eq_error_iff.mpr
    exact ⟨_, _, _, body ▸ Site.ofInstructions_split _ _ _ _ _, rejected,
      Barrier.check_ofInstructions_iff.mpr accepted⟩

theorem verdict_eq_error_iff {start : Nat} {function : Function} {diagnostic : Diagnostic} :
    function.verdict facts options start = .error diagnostic ↔
      function.Fails facts options start diagnostic :=
  ⟨fails_of_verdict, verdict_of_fails⟩

end Function

def scanFrom (facts : Facts) (options : Options) : Nat → List Function → Verdict
  | _, [] => .ok ()
  | start, function :: rest =>
    match function.verdict facts options start with
    | .error diagnostic => .error diagnostic
    | .ok () => scanFrom facts options (start + function.body.length) rest

theorem scanFrom_eq_ok_iff {start : Nat} {functions : List Function} :
    scanFrom facts options start functions = .ok () ↔
      ∀ function ∈ functions, function.Passes facts options := by
  induction functions generalizing start with
  | nil => simp [scanFrom]
  | cons function rest step =>
    have here : function.verdict facts options start = .ok () ↔ function.Passes facts options :=
      Function.verdict_eq_ok_iff
    rw [scanFrom, List.forall_mem_cons, ← here]
    cases verdict : function.verdict facts options start with
    | error diagnostic => simp
    | ok passed => simp [step]

theorem scanFrom_eq_error_iff {start : Nat} {functions : List Function} {diagnostic : Diagnostic} :
    scanFrom facts options start functions = .error diagnostic ↔
      ∃ before function after, functions = before ++ function :: after ∧
        (∀ earlier ∈ before, earlier.Passes facts options) ∧
        function.Fails facts options (start + (before.flatMap Function.body).length) diagnostic := by
  induction functions generalizing start with
  | nil => simp [scanFrom]
  | cons function rest step =>
    rw [scanFrom]
    cases verdict : function.verdict facts options start with
    | error found =>
      constructor
      · rintro ⟨⟩
        exact ⟨[], function, rest, rfl, by simp, Function.verdict_eq_error_iff.mp verdict⟩
      · intro stops
        obtain ⟨before, failing, after, split, passes, fails⟩ := stops
        cases before with
        | nil =>
          obtain ⟨rfl, -⟩ := List.cons.inj split
          exact verdict.symm.trans (Function.verdict_eq_error_iff.mpr fails)
        | cons head tail =>
          obtain ⟨rfl, -⟩ := List.cons.inj split
          have passed := passes function List.mem_cons_self
          cases verdict.symm.trans (Function.verdict_eq_ok_iff.mpr passed)
    | ok passed =>
      have passed := Function.verdict_eq_ok_iff.mp verdict
      rw [step]
      constructor
      · intro stops
        obtain ⟨before, failing, after, rfl, passes, fails⟩ := stops
        refine ⟨function :: before, failing, after, rfl,
          List.forall_mem_cons.mpr ⟨passed, passes⟩, ?_⟩
        simpa [Nat.add_assoc] using fails
      · intro stops
        obtain ⟨before, failing, after, split, passes, fails⟩ := stops
        cases before with
        | nil =>
          obtain ⟨rfl, -⟩ := List.cons.inj split
          cases verdict.symm.trans (Function.verdict_eq_error_iff.mpr fails)
        | cons head tail =>
          obtain ⟨rfl, rfl⟩ := List.cons.inj split
          refine ⟨tail, failing, after, rfl, (List.forall_mem_cons.mp passes).2, ?_⟩
          simpa [Nat.add_assoc] using fails

theorem scanFrom_eq_sites (start : Nat) (functions : List Function) :
    scanFrom facts options start functions =
      match Verdict.all (Barrier.check facts .standard options)
        (Site.numbered start (functions.takeWhile fun function => function.id?.isSome)) with
      | .error diagnostic => .error diagnostic
      | .ok () =>
        if functions.all fun function => function.id?.isSome then .ok ()
        else .error ModuleFault.functionWithoutId.diagnostic := by
  induction functions generalizing start with
  | nil => rfl
  | cons function rest step =>
    rw [scanFrom, Function.verdict]
    cases named : function.id? with
    | none => simp [named, Site.numbered]
    | some id =>
      rw [List.takeWhile_cons_of_pos (by simp [named]), Site.numbered_cons named, Verdict.all_append,
        step]
      dsimp only
      cases Verdict.all (Barrier.check facts .standard options) (Site.ofInstructions id start function.body) with
      | error diagnostic => rfl
      | ok passed => simp [named]

theorem Module.scan_eq_scanFrom (m : Module) (facts : Facts) (options : Options) :
    m.scan facts options = scanFrom facts options 0 m.functions := by
  rewrite [scanFrom_eq_sites, Site.numbered_zero, scan, scannedSites, Verdict.all_filter]
  · rfl
  · exact fun site _ other => Barrier.check_of_not_isBarrier facts .standard options other

end Spirv
