import Spirv.Proofs.Judgement
import Spirv.Proofs.Simulation

/-!
# Insertion of irrelevant instructions

An edit marks the instructions that are inserted, so it holds the module before and the one after.
Instructions that do not count leave the verdict as it was, and positions in a diagnostic move on
by the insertions before them (`validate_after`).
-/
namespace Spirv

structure Entry where
  inst : Instruction
  inserted : Bool
  deriving DecidableEq, Repr

namespace Entry

def original (inst : Instruction) : Entry := ⟨inst, false⟩

def isOriginal (entry : Entry) : Bool := !entry.inserted

def view (keep : Entry → Bool) (entries : List Entry) : List Instruction :=
  (entries.filter keep).map inst

def viewWithId (keep : Entry → Bool) (entries : List (Ident × Entry)) : List (Ident × Instruction) :=
  (entries.filter fun entry => keep entry.2).map fun entry => (entry.1, entry.2.inst)

/-- How many insertions come before the original entry at a position among the original ones. -/
def insertedBefore : List Entry → Nat → Nat
  | [], _ => 0
  | ⟨_, true⟩ :: rest, position => insertedBefore rest position + 1
  | ⟨_, false⟩ :: _, 0 => 0
  | ⟨_, false⟩ :: rest, position + 1 => insertedBefore rest position

theorem view_append (keep : Entry → Bool) (before after : List Entry) :
    view keep (before ++ after) = view keep before ++ view keep after := by
  simp [view]

theorem view_flatMap (keep : Entry → Bool) (f : α → List Entry) (list : List α) :
    view keep (list.flatMap f) = list.flatMap fun member => view keep (f member) := by
  simp [view, List.filter_flatMap, List.map_flatMap]

theorem viewWithId_cons_inserted (id : Ident) (inst : Instruction) (rest : List (Ident × Entry)) :
    viewWithId isOriginal ((id, ⟨inst, true⟩) :: rest) = viewWithId isOriginal rest := rfl

theorem viewWithId_cons_original (id : Ident) (inst : Instruction) (rest : List (Ident × Entry)) :
    viewWithId isOriginal ((id, ⟨inst, false⟩) :: rest) = (id, inst) :: viewWithId isOriginal rest :=
  rfl

theorem viewWithId_flatMap (keep : Entry → Bool) (f : α → List (Ident × Entry)) (list : List α) :
    viewWithId keep (list.flatMap f) = list.flatMap fun member => viewWithId keep (f member) := by
  simp [viewWithId, List.filter_flatMap, List.map_flatMap]

theorem view_original {keep : Entry → Bool} (kept : ∀ inst, keep (original inst))
    (insts : List Instruction) : view keep (insts.map original) = insts := by
  induction insts with
  | nil => rfl
  | cons first rest step =>
    rw [view, List.map_cons, List.filter_cons_of_pos (kept first), List.map_cons]
    exact congrArg (first :: ·) step

/-- Instructions of a kind that is not inserted are the same before and after. -/
theorem filter_view {p : Instruction → Bool} {entries : List Entry}
    (skips : ∀ entry ∈ entries, entry.inserted → p entry.inst = false) :
    (view (fun _ => true) entries).filter p = (view isOriginal entries).filter p := by
  rw [view, view, List.filter_map, List.filter_map, List.filter_filter, List.filter_filter]
  congr 1
  refine List.filter_congr fun entry member => ?_
  cases mark : entry.inserted with
  | false => simp [isOriginal, mark]
  | true => simp [skips entry member mark]

theorem insertedBefore_append (before after : List Entry) {position : Nat}
    (bound : position < (before.filter isOriginal).length) :
    insertedBefore (before ++ after) position = insertedBefore before position := by
  induction before generalizing position with
  | nil => simp at bound
  | cons first rest step =>
    obtain ⟨inst, inserted⟩ := first
    cases inserted with
    | true =>
      rw [List.cons_append, insertedBefore, insertedBefore, step]
      simpa [isOriginal] using bound
    | false =>
      cases position with
      | zero => rfl
      | succ earlier =>
        rw [List.cons_append, insertedBefore, insertedBefore, step]
        simpa [isOriginal] using bound

end Entry

structure Block.Edit where
  label : Option Instruction
  entries : List Entry

structure Function.Edit where
  definition : Option Instruction
  parameters : List Instruction
  blocks : List Block.Edit
  ending : Option Instruction

structure Module.Edit where
  capabilities : List Instruction
  extensions : List Entry
  extInstImports : List Entry
  memoryModel : Option Instruction
  entryPoints : List Entry
  executionModes : List Entry
  debugStringSource : List Entry
  debugNames : List Entry
  debugModuleProcessed : List Entry
  annotations : List Entry
  typesGlobalValues : List Entry
  functions : List Function.Edit

namespace Block.Edit

def listing (edit : Block.Edit) : List Entry :=
  edit.label.toList.map .original ++ edit.entries

def view (keep : Entry → Bool) (edit : Block.Edit) : Block :=
  ⟨edit.label, Entry.view keep edit.entries⟩

end Block.Edit

namespace Function.Edit

def id? (edit : Function.Edit) : Option Ident := edit.definition.bind Instruction.resultId

def body (edit : Function.Edit) : List Entry := edit.blocks.flatMap Block.Edit.entries

def listing (edit : Function.Edit) : List Entry :=
  edit.definition.toList.map .original ++ edit.parameters.map .original ++
    edit.blocks.flatMap Block.Edit.listing ++ edit.ending.toList.map .original

def view (keep : Entry → Bool) (edit : Function.Edit) : Function where
  definition := edit.definition
  parameters := edit.parameters
  blocks := edit.blocks.map (Block.Edit.view keep)
  ending := edit.ending

variable (edit : Function.Edit) (keep : Entry → Bool)

@[simp] theorem id?_view : (edit.view keep).id? = edit.id? := rfl

theorem body_view : (edit.view keep).body = Entry.view keep edit.body := by
  rw [Function.body, body, Entry.view_flatMap, view, List.flatMap_map]
  rfl

theorem listing_view {keep : Entry → Bool} (kept : ∀ inst, keep (.original inst)) :
    (edit.view keep).listing = Entry.view keep edit.listing := by
  simp only [Function.listing, listing, view, Block.listing, Block.Edit.listing, Block.Edit.view,
    Entry.view_append, Entry.view_original kept, Entry.view_flatMap, List.flatMap_map]

/-- Insertions are made into the body only. -/
theorem mem_body_of_inserted {entry : Entry} (member : entry ∈ edit.listing)
    (inserted : entry.inserted) : entry ∈ edit.body := by
  have marked (insts : List Instruction) : entry ∉ insts.map .original := by
    intro listed
    obtain ⟨inst, -, rfl⟩ := List.mem_map.mp listed
    cases inserted
  simp only [listing, List.mem_append, marked, false_or, or_false, List.mem_flatMap,
    Block.Edit.listing] at member
  exact List.mem_flatMap.mpr member

/-- The entries of the body with the id of the function; none without an id. -/
def bodyWithId : List (Ident × Entry) :=
  match edit.id? with
  | none => []
  | some id => edit.body.map (id, ·)

theorem bodyWithId_view :
    (edit.view keep).bodyWithId = Entry.viewWithId keep edit.bodyWithId := by
  rw [Function.bodyWithId, bodyWithId, id?_view, body_view]
  cases edit.id? with
  | none => rfl
  | some id =>
    dsimp only
    rw [Entry.view, Entry.viewWithId, List.filter_map, List.map_map, List.map_map]
    rfl

theorem map_snd_bodyWithId (named : edit.id?.isSome) : edit.bodyWithId.map Prod.snd = edit.body := by
  obtain ⟨id, same⟩ := Option.isSome_iff_exists.mp named
  simp [bodyWithId, same, Function.comp_def]

/-- Where no call is inserted the function holds the calls that it held. -/
theorem mem_listing_iff (silent : ∀ entry ∈ edit.body, entry.inserted →
      entry.inst.opcode ≠ .functionCall) {inst : Instruction} (call : inst.opcode = .functionCall) :
    inst ∈ (edit.view fun _ => true).listing ↔ inst ∈ (edit.view Entry.isOriginal).listing := by
  have calls : ((edit.view fun _ => true).listing.filter fun inst => inst.opcode = .functionCall) =
      (edit.view Entry.isOriginal).listing.filter fun inst => inst.opcode = .functionCall := by
    rw [listing_view edit fun _ => rfl, listing_view edit fun _ => rfl]
    refine Entry.filter_view fun entry member inserted => ?_
    exact decide_eq_false (silent entry (edit.mem_body_of_inserted member inserted) inserted)
  simpa [call] using congrArg (inst ∈ ·) calls

end Function.Edit

/-! ## Positions -/

namespace Site

def number (start : Nat) (entries : List (Ident × Instruction)) : List Site :=
  entries.mapIdx fun offset (function, inst) => ⟨inst, function, start + offset⟩

theorem number_zero (functions : List Function) :
    number 0 (functions.flatMap Function.bodyWithId) = ofFunctions functions := by
  simp [number, ofFunctions]

theorem number_cons (start : Nat) (first : Ident × Instruction) (rest : List (Ident × Instruction)) :
    number start (first :: rest) = ⟨first.2, first.1, start⟩ :: number (start + 1) rest := by
  rw [number, List.mapIdx_cons, number]
  congr 1
  congr 1
  funext offset entry
  rw [Nat.add_assoc, Nat.add_comm offset]

/-- The site moved on by as many positions as `count` says for its own. -/
def shift (count : Nat → Nat) (site : Site) : Site :=
  { site with index := site.index + count site.index }

/-- Barriers keep their order, and each moves on by the insertions before it. The first `extra` of
them are before the entries at hand. -/
theorem filter_isBarrier_number (entries : List (Ident × Entry))
    (silent : ∀ entry ∈ entries, entry.2.inserted → entry.2.inst.opcode.isBarrier = false)
    {count : Nat → Nat} (start extra : Nat)
    (counts : ∀ offset < (Entry.viewWithId Entry.isOriginal entries).length,
      count (start + offset) = extra + Entry.insertedBefore (entries.map Prod.snd) offset) :
    (number (start + extra) (Entry.viewWithId (fun _ => true) entries)).filter
        (fun site => site.opcode.isBarrier) =
      ((number start (Entry.viewWithId Entry.isOriginal entries)).filter
        fun site => site.opcode.isBarrier).map (shift count) := by
  -- `start` counts the originals that are passed and `extra` the insertions; `count` stays.
  induction entries generalizing start extra with
  | nil => rfl
  | cons first rest step =>
    obtain ⟨here, there⟩ := List.forall_mem_cons.mp silent
    have listed : Entry.viewWithId (fun _ => true) (first :: rest) =
      (first.1, first.2.inst) :: Entry.viewWithId (fun _ => true) rest := rfl
    obtain ⟨id, inst, inserted⟩ := first
    rw [listed, number_cons]
    cases inserted with
    | true =>
      rw [Entry.viewWithId_cons_inserted] at counts ⊢
      rw [List.filter_cons_of_neg (by simpa [opcode] using here rfl), Nat.add_assoc]
      refine step there start (extra + 1) fun offset bound => ?_
      rw [counts offset bound, List.map_cons, Entry.insertedBefore]
      omega
    | false =>
      rw [Entry.viewWithId_cons_original] at counts ⊢
      have own : shift count ⟨inst, id, start⟩ = ⟨inst, id, start + extra⟩ := by
        have counted := counts 0 (by simp)
        rw [Nat.add_zero, List.map_cons, Entry.insertedBefore, Nat.add_zero] at counted
        rw [shift, counted]
      have later := step there (start + 1) extra fun offset bound => by
        have counted := counts (offset + 1) (by simpa using bound)
        rw [List.map_cons, Entry.insertedBefore] at counted
        rw [← counted, Nat.add_assoc, Nat.add_comm 1]
      rw [number_cons, Nat.add_right_comm, List.filter_cons, List.filter_cons, later]
      cases kind : inst.opcode.isBarrier with
      | true => simp [opcode, kind, own]
      | false => simp [opcode, kind]

end Site

def Diagnostic.shift (count : Nat → Nat) (diagnostic : Diagnostic) : Diagnostic :=
  { diagnostic with
    location := diagnostic.location.map fun location =>
      { location with index := location.index + count location.index } }

/-! ## Modules -/

namespace Module.Edit

def body (edit : Module.Edit) : List Entry := edit.functions.flatMap Function.Edit.body

def listing (edit : Module.Edit) : List Entry :=
  edit.capabilities.map .original ++ edit.extensions ++ edit.extInstImports ++
    edit.memoryModel.toList.map .original ++ edit.entryPoints ++ edit.executionModes ++
    edit.debugStringSource ++ edit.debugNames ++ edit.debugModuleProcessed ++ edit.annotations ++
    edit.typesGlobalValues ++ edit.functions.flatMap Function.Edit.listing

def view (keep : Entry → Bool) (edit : Module.Edit) : Module where
  capabilities := edit.capabilities
  extensions := Entry.view keep edit.extensions
  extInstImports := Entry.view keep edit.extInstImports
  memoryModel := edit.memoryModel
  entryPoints := Entry.view keep edit.entryPoints
  executionModes := Entry.view keep edit.executionModes
  debugStringSource := Entry.view keep edit.debugStringSource
  debugNames := Entry.view keep edit.debugNames
  debugModuleProcessed := Entry.view keep edit.debugModuleProcessed
  annotations := Entry.view keep edit.annotations
  typesGlobalValues := Entry.view keep edit.typesGlobalValues
  functions := edit.functions.map (Function.Edit.view keep)

def before (edit : Module.Edit) : Module := edit.view Entry.isOriginal

def after (edit : Module.Edit) : Module := edit.view fun _ => true

/-- No id is defined by an insertion, and no barrier, call or entry point is inserted where it
counts. Elsewhere any instruction may be. -/
structure Irrelevant (edit : Module.Edit) : Prop where
  nameless : ∀ entry ∈ edit.listing, entry.inserted → entry.inst.resultId = none
  barriers : ∀ entry ∈ edit.body, entry.inserted → entry.inst.opcode.isBarrier = false
  calls : ∀ entry ∈ edit.body, entry.inserted → entry.inst.opcode ≠ .functionCall
  entryPoints : ∀ entry ∈ edit.entryPoints, entry.inserted → entry.inst.opcode ≠ .entryPoint

def scanned (edit : Module.Edit) : List (Ident × Entry) :=
  (edit.functions.takeWhile fun function => function.id?.isSome).flatMap Function.Edit.bodyWithId

section View

variable (edit : Module.Edit) {keep : Entry → Bool}

theorem listing_view (kept : ∀ inst, keep (.original inst)) :
    (edit.view keep).listing = Entry.view keep edit.listing := by
  have functions (function : Function.Edit) :
      (function.view keep).listing = Entry.view keep function.listing := function.listing_view kept
  simp only [Module.listing, listing, view, Entry.view_append, Entry.view_original kept,
    Entry.view_flatMap, List.flatMap_map, functions]

theorem function?_view (id : Ident) : (edit.view keep).function? id =
    (edit.functions.findRev? fun function => function.id? = some id).map
      (Function.Edit.view keep) := by
  rw [function?, view, findRev?_map]
  rfl

theorem isSome_function?_view (id : Ident) : ((edit.view keep).function? id).isSome =
    (edit.functions.findRev? fun function => function.id? = some id).isSome := by
  rw [function?_view, Option.isSome_map]

theorem scannedSites_view :
    (edit.view keep).scannedSites = Site.number 0 (Entry.viewWithId keep edit.scanned) := by
  have bodies (function : Function.Edit) : (function.view keep).bodyWithId =
      Entry.viewWithId keep function.bodyWithId := function.bodyWithId_view keep
  rw [scannedSites, view, List.takeWhile_map, ← Site.number_zero, List.flatMap_map, scanned,
    Entry.viewWithId_flatMap]
  simp only [bodies]
  rfl

theorem scanned_prefix : edit.scanned.map Prod.snd <+: edit.body := by
  have bodies : edit.scanned.map Prod.snd =
      (edit.functions.takeWhile fun function => function.id?.isSome).flatMap
        Function.Edit.body := by
    rw [scanned, List.map_flatMap]
    refine List.flatMap_congr fun function member => ?_
    have named : function.id?.isSome :=
      List.mem_takeWhile_imp (p := fun function : Function.Edit => function.id?.isSome) member
    exact function.map_snd_bodyWithId named
  obtain ⟨rest, split⟩ := List.takeWhile_prefix (l := edit.functions)
    fun function => function.id?.isSome
  refine ⟨rest.flatMap Function.Edit.body, ?_⟩
  rw [bodies, ← List.flatMap_append, split]
  rfl

end View

namespace Irrelevant

variable {edit : Module.Edit} (irrelevant : edit.Irrelevant)
include irrelevant

theorem definition? (id : Ident) : edit.after.definition? id = edit.before.definition? id := by
  rw [Module.definition?, Module.definition?, ← findRev?_filter, ← findRev?_filter _ edit.before.listing,
    after, before, edit.listing_view fun _ => rfl, edit.listing_view fun _ => rfl]
  refine congrArg (List.findRev? _) (Entry.filter_view fun entry member inserted => ?_)
  rw [irrelevant.nameless entry member inserted]
  rfl

theorem facts (target : Target) : (edit.before.facts target).Renamed id (edit.after.facts target) :=
  facts_same irrelevant.definition? (fun _ => Iff.rfl) rfl target

theorem entryInstructions : edit.after.entryInstructions = edit.before.entryInstructions :=
  Entry.filter_view fun entry member inserted =>
    decide_eq_false (irrelevant.entryPoints entry member inserted)

theorem entryFault? : edit.after.entryFault? = edit.before.entryFault? := by
  have faults (inst : Instruction) : edit.after.startFault? inst = edit.before.startFault? inst := by
    simp only [startFault?, after, before, isSome_function?_view]
  rw [Module.entryFault?, Module.entryFault?, irrelevant.entryInstructions, funext faults]

theorem called_iff {caller callee : Ident} :
    (∃ function, edit.after.function? caller = some function ∧ ∃ inst ∈ function.listing,
        inst.opcode = .functionCall ∧ inst.idOperand? 0 = some callee) ↔
      ∃ function, edit.before.function? caller = some function ∧ ∃ inst ∈ function.listing,
        inst.opcode = .functionCall ∧ inst.idOperand? 0 = some callee := by
  simp only [after, before, function?_view, Option.map_eq_some_iff, exists_exists_and_eq_and]
  refine exists_congr fun function => and_congr_right fun found => exists_congr fun inst => ?_
  have known : function ∈ edit.functions := mem_of_findRev? found
  have silent (entry : Entry) (member : entry ∈ function.body) : entry.inserted →
      entry.inst.opcode ≠ .functionCall :=
    irrelevant.calls entry (List.mem_flatMap.mpr ⟨function, known, member⟩)
  constructor
  · intro called
    exact ⟨(function.mem_listing_iff silent called.2.1).mp called.1, called.2⟩
  · intro called
    exact ⟨(function.mem_listing_iff silent called.2.1).mpr called.1, called.2⟩

theorem reaches : edit.after.Reaches = edit.before.Reaches := by
  have defined (id : Ident) :
      (edit.after.function? id).isSome = (edit.before.function? id).isSome := by
    rw [after, before, isSome_function?_view, isSome_function?_view]
  refine reaches_congr fun caller callee => ?_
  constructor
  · intro calls
    exact ⟨irrelevant.called_iff.mp calls.called, defined callee ▸ calls.defined⟩
  · intro calls
    exact ⟨irrelevant.called_iff.mpr calls.called, defined callee ▸ calls.defined⟩

theorem scannedBarriers : edit.after.scannedBarriers =
    edit.before.scannedBarriers.map (Site.shift (Entry.insertedBefore edit.body)) := by
  rw [Module.scannedBarriers, Module.scannedBarriers, after, before, scannedSites_view,
    scannedSites_view]
  obtain ⟨rest, split⟩ := edit.scanned_prefix
  have silent (entry : Ident × Entry) (member : entry ∈ edit.scanned) :
      entry.2.inserted → entry.2.inst.opcode.isBarrier = false :=
    irrelevant.barriers entry.2
      (split ▸ List.mem_append_left rest (List.mem_map_of_mem member))
  refine Site.filter_isBarrier_number edit.scanned silent 0 0 fun offset bound => ?_
  rw [Nat.zero_add, Nat.zero_add, ← split]
  refine Entry.insertedBefore_append _ rest ?_
  simpa [Entry.viewWithId, List.filter_map, Function.comp_def] using bound

theorem simulates (target : Target) (options : Options) :
    Simulates
      (fun diagnostic image => image = diagnostic.shift (Entry.insertedBefore edit.body))
      target options edit.before edit.after (Site.shift (Entry.insertedBefore edit.body)) id where
  named := by
    rw [after, before, view, view, List.all_map, List.all_map]
    rfl
  unnamed := rfl
  barriers := irrelevant.scannedBarriers
  opcode _ := rfl
  fault? site := Barrier.fault?_same (irrelevant.facts target) options site.inst
  rejected _ _ _ := rfl
  entryFault? := by rw [irrelevant.entryFault?, Option.map_id_fun, id_eq]
  blamed _ := rfl
  excludes site := by
    refine excludes_iff irrelevant.reaches (fun start => ?_) _ _
    rw [starts, starts, irrelevant.entryInstructions]
  excluded _ := rfl

end Irrelevant

/-- A module with irrelevant insertions is accepted if it was accepted before. Otherwise it is rejected
with the diagnostic from before, whose position moves on by the insertions before it. -/
theorem validate_after {edit : Module.Edit} (irrelevant : edit.Irrelevant) (target : Target) (options : Options) :
    edit.after.validate target options =
      (edit.before.validate target options).mapError
        (Diagnostic.shift (Entry.insertedBefore edit.body)) :=
  (irrelevant.simulates target options).validate.eq_mapError

/-- A control barrier without operands, with an insertion on either side. A barrier inserted among the
annotations counts for nothing. -/
def bareBarrier : Module.Edit where
  capabilities := []
  extensions := []
  extInstImports := []
  memoryModel := none
  entryPoints := []
  executionModes := []
  debugStringSource := []
  debugNames := []
  debugModuleProcessed := []
  annotations := [⟨⟨.controlBarrier, none, none, []⟩, true⟩]
  typesGlobalValues := []
  functions := [{
    definition := some ⟨.other "Function", none, some 7, []⟩
    parameters := []
    blocks := [⟨none, [⟨⟨.other "Nop", none, none, []⟩, true⟩,
      ⟨⟨.controlBarrier, none, none, []⟩, false⟩, ⟨⟨.other "Nop", none, none, []⟩, true⟩]⟩]
    ending := none }]

theorem validate_after_bareBarrier : bareBarrier.Irrelevant ∧
    bareBarrier.before.validate default {} = .error ⟨.malformedOperandType,
      some ⟨.controlBarrier, none, 7, 0⟩, "OpControlBarrier: expected Execution Scope operand"⟩ ∧
    bareBarrier.after.validate default {} = .error ⟨.malformedOperandType,
      some ⟨.controlBarrier, none, 7, 1⟩, "OpControlBarrier: expected Execution Scope operand"⟩ := by
  have irrelevant : bareBarrier.Irrelevant :=
    ⟨by decide, by decide, by decide, by decide⟩
  have rejected : bareBarrier.before.validate default {} = .error ⟨.malformedOperandType,
      some ⟨.controlBarrier, none, 7, 0⟩, "OpControlBarrier: expected Execution Scope operand"⟩ := by
    rfl
  refine ⟨irrelevant, rejected, ?_⟩
  rw [validate_after irrelevant, rejected]
  rfl

end Module.Edit
end Spirv
