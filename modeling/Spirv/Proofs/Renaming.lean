import Spirv.Proofs.Judgement
import Spirv.Proofs.Simulation

/-!
# Renaming of ids

A module whose ids are renamed one to one is judged as it was (`validate_rename`). The one message
that holds an id is that of an entry point which names no function; its third letter sets it apart
from all others.
-/
namespace Spirv

variable (ρ : Ident → Ident)

def Block.rename (block : Block) : Block where
  label := block.label.map (Instruction.rename ρ)
  instructions := block.instructions.map (Instruction.rename ρ)

def Function.rename (function : Function) : Function where
  definition := function.definition.map (Instruction.rename ρ)
  parameters := function.parameters.map (Instruction.rename ρ)
  blocks := function.blocks.map (Block.rename ρ)
  ending := function.ending.map (Instruction.rename ρ)

def Module.rename (m : Module) : Module where
  capabilities := m.capabilities.map (Instruction.rename ρ)
  extensions := m.extensions.map (Instruction.rename ρ)
  extInstImports := m.extInstImports.map (Instruction.rename ρ)
  memoryModel := m.memoryModel.map (Instruction.rename ρ)
  entryPoints := m.entryPoints.map (Instruction.rename ρ)
  executionModes := m.executionModes.map (Instruction.rename ρ)
  debugStringSource := m.debugStringSource.map (Instruction.rename ρ)
  debugNames := m.debugNames.map (Instruction.rename ρ)
  debugModuleProcessed := m.debugModuleProcessed.map (Instruction.rename ρ)
  annotations := m.annotations.map (Instruction.rename ρ)
  typesGlobalValues := m.typesGlobalValues.map (Instruction.rename ρ)
  functions := m.functions.map (Function.rename ρ)

def Site.rename (site : Site) : Site :=
  ⟨site.inst.rename ρ, ρ site.function, site.index⟩

def Location.rename (location : Location) : Location :=
  { location with resultId := location.resultId.map ρ, function := ρ location.function }

def ModuleFault.rename : ModuleFault → ModuleFault
  | entryPointNotFunction id => entryPointNotFunction (ρ id)
  | other => other

/-- How a diagnostic follows a renaming. The id in the message about an entry point that names no
function is renamed; any other message stays. -/
inductive Diagnostic.Renamed : Diagnostic → Diagnostic → Prop where
  | entryPoint (id : Ident) : Renamed (ModuleFault.entryPointNotFunction id).diagnostic
      (ModuleFault.entryPointNotFunction (ρ id)).diagnostic
  | other (kind : FailureKind) (location : Option Location) (message : String)
      (noId : ∀ id, message ≠ (ModuleFault.entryPointNotFunction id).message) :
      Renamed ⟨kind, location, message⟩ ⟨kind, location.map (Location.rename ρ), message⟩

section Messages

def thirdLetter (text : String) : Option Char := text.toList[2]?

theorem thirdLetter_append {before : String} (long : 2 < before.toList.length) (after : String) :
    thirdLetter (before ++ after) = thirdLetter before := by
  rw [thirdLetter, thirdLetter, String.toList_append, List.getElem?_append_left long]

theorem thirdLetter_entryPointNotFunction (id : Ident) :
    thirdLetter (ModuleFault.entryPointNotFunction id).message = some 'E' := by
  change thirdLetter ("OpEntryPoint Entry Point <id> " ++ toString id.toNat ++
    " is not a function") = _
  rw [String.append_assoc, thirdLetter_append (by decide)]
  decide

theorem ne_entryPointNotFunction {message : String} (other : thirdLetter message ≠ some 'E')
    (id : Ident) : message ≠ (ModuleFault.entryPointNotFunction id).message := by
  intro same
  rw [same, thirdLetter_entryPointNotFunction] at other
  exact other rfl

theorem Opcode.thirdLetter_mnemonic {opcode : Opcode} (isBarrier : opcode.isBarrier) :
    2 < opcode.mnemonic.toList.length ∧ thirdLetter opcode.mnemonic ≠ some 'E' := by
  rcases Opcode.isBarrier_iff.mp isBarrier with rfl | rfl | rfl | rfl <;> decide

/-- All messages but three begin with the instruction. -/
theorem Fault.exists_message_eq_or_mem (opcode : Opcode) (fault : Fault) :
    (∃ text, fault.message opcode = opcode.mnemonic ++ ": " ++ text) ∨
      fault ∈ [runtimeScope, runtimeSemantics, sequentiallyConsistentInVulkanModel] := by
  cases fault with
  | runtimeScope | runtimeSemantics | sequentiallyConsistentInVulkanModel => exact .inr (by simp)
  | _ => exact .inl ⟨_, rfl⟩

theorem Fault.thirdLetter_message {opcode : Opcode} (isBarrier : opcode.isBarrier) (fault : Fault) :
    thirdLetter (fault.message opcode) ≠ some 'E' := by
  rcases fault.exists_message_eq_or_mem opcode with ⟨text, same⟩ | apart
  · obtain ⟨long, other⟩ := Opcode.thirdLetter_mnemonic isBarrier
    rw [same, String.append_assoc, thirdLetter_append long]
    exact other
  · simp only [List.mem_cons, List.not_mem_nil, or_false] at apart
    rcases apart with rfl | rfl | rfl <;> simp only [message] <;> decide

end Messages

namespace Diagnostic.Renamed

theorem site (site : Site) (fault : Fault) (isBarrier : site.opcode.isBarrier) :
    Renamed ρ (site.fault fault) ((site.rename ρ).fault fault) :=
  .other _ _ _ (ne_entryPointNotFunction (fault.thirdLetter_message isBarrier))

theorem excluded (site : Site) : Renamed ρ site.excluded (site.rename ρ).excluded :=
  .other _ _ _ (ne_entryPointNotFunction (by decide))

theorem module (fault : ModuleFault) :
    Renamed ρ fault.diagnostic (fault.rename ρ).diagnostic := by
  cases fault with
  | entryPointNotFunction id => exact .entryPoint id
  | functionWithoutId => exact .other _ none _ (ne_entryPointNotFunction (by decide))
  | malformedEntryPoint => exact .other _ none _ (ne_entryPointNotFunction (by decide))

end Diagnostic.Renamed

theorem Instruction.start?_rename (inst : Instruction) :
    (inst.rename ρ).start? = inst.start?.map fun start => (start.1, ρ start.2) := by
  rw [start?, start?, rename, List.getElem?_map, List.getElem?_map]
  cases inst.operands[0]? with
  | none => rfl
  | some first =>
    cases first with
    | executionModel model =>
      cases inst.operands[1]? with
      | none => rfl
      | some second => cases second <;> rfl
    | _ => rfl

namespace Function

variable (function : Function)

@[simp] theorem id?_rename : (function.rename ρ).id? = function.id?.map ρ :=
  function.id?_map fun _ => rfl

@[simp] theorem listing_rename :
    (function.rename ρ).listing = function.listing.map (Instruction.rename ρ) :=
  function.listing_map

end Function

namespace Module

theorem listing_rename (m : Module) :
    (m.rename ρ).listing = m.listing.map (Instruction.rename ρ) := by
  simp [listing, rename, Option.toList_map, List.flatMap_map, List.map_flatMap]

theorem scannedBarriers_rename (m : Module) :
    (m.rename ρ).scannedBarriers = m.scannedBarriers.map (Site.rename ρ) := by
  have sites : (m.rename ρ).scannedSites = m.scannedSites.map (Site.rename ρ) :=
    scannedSites_map (fun _ => rfl) rfl
  rw [scannedBarriers, sites, List.filter_map]
  rfl

theorem declaredCapabilities_rename (m : Module) :
    (m.rename ρ).declaredCapabilities = m.declaredCapabilities := by
  rw [declaredCapabilities, declaredCapabilities, rename, List.filterMap_map]
  congr 1
  funext inst
  change ((inst.operands.map _).head?).bind _ = _
  rw [List.head?_map, Option.bind_map]
  congr 1
  funext operand
  exact operand.capability?_rename ρ

theorem chosenMemoryModel_rename (m : Module) :
    (m.rename ρ).chosenMemoryModel = m.chosenMemoryModel := by
  rw [chosenMemoryModel, chosenMemoryModel, rename, Option.bind_map]
  congr 2
  funext inst
  change ((inst.operands.map _)[1]?).bind _ = _
  rw [List.getElem?_map, Option.bind_map]
  congr 1
  funext operand
  exact operand.memoryModel?_rename ρ

theorem entryInstructions_rename (m : Module) :
    (m.rename ρ).entryInstructions = m.entryInstructions.map (Instruction.rename ρ) := by
  rw [entryInstructions, rename, List.filter_map]
  rfl

theorem starts_rename (m : Module) :
    (m.rename ρ).starts = m.starts.map fun start => (start.1, ρ start.2) := by
  rw [starts, starts, entryInstructions_rename, List.filterMap_map, List.map_filterMap]
  congr 1
  funext inst
  exact inst.start?_rename ρ

section Injective

variable {ρ} (injective : Function.Injective ρ)
include injective

theorem definition?_rename (m : Module) (id : Ident) :
    (m.rename ρ).definition? (ρ id) = (m.definition? id).map (Instruction.rename ρ) := by
  have same (inst : Instruction) : (inst.rename ρ).resultId = some (ρ id) ↔ inst.resultId = some id :=
    (Option.map_injective injective).eq_iff (b := some id)
  rw [definition?, listing_rename, findRev?_map]
  simp only [same]
  rfl

theorem function?_rename (m : Module) (id : Ident) :
    (m.rename ρ).function? (ρ id) = (m.function? id).map (Function.rename ρ) := by
  have same (function : Function) : (function.rename ρ).id? = some (ρ id) ↔ function.id? = some id := by
    rw [Function.id?_rename]
    exact (Option.map_injective injective).eq_iff (b := some id)
  rw [function?, rename, findRev?_map]
  simp only [same]
  rfl

theorem startFault?_rename (m : Module) (inst : Instruction) :
    (m.rename ρ).startFault? (inst.rename ρ) = (m.startFault? inst).map (ModuleFault.rename ρ) := by
  rw [startFault?, startFault?, Instruction.start?_rename]
  cases inst.start? with
  | none => rfl
  | some start =>
    dsimp only [Option.map_some]
    rw [function?_rename injective, Option.isSome_map]
    split <;> rfl

theorem entryFault?_rename (m : Module) :
    (m.rename ρ).entryFault? = m.entryFault?.map (ModuleFault.rename ρ) := by
  rw [entryFault?, entryFault?, entryInstructions_rename, List.findSome?_map, List.map_findSome?]
  congr 1
  funext inst
  exact startFault?_rename injective m inst

/-- A renamed function calls the renamed functions that it called. -/
theorem calls_rename_iff (m : Module) {caller callee : Ident} :
    (m.rename ρ).Calls (ρ caller) callee ↔ ∃ origin, ρ origin = callee ∧ m.Calls caller origin := by
  constructor
  · intro calls
    obtain ⟨function, found, inst, listed, opcode, names⟩ := calls.called
    rw [function?_rename injective] at found
    obtain ⟨old, known, rfl⟩ := Option.map_eq_some_iff.mp found
    rw [Function.listing_rename] at listed
    obtain ⟨call, here, rfl⟩ := List.mem_map.mp listed
    rw [Instruction.idOperand?_rename] at names
    obtain ⟨origin, named, rfl⟩ := Option.map_eq_some_iff.mp names
    have defined := calls.defined
    rw [function?_rename injective, Option.isSome_map] at defined
    exact ⟨origin, rfl, ⟨old, known, call, here, opcode, named⟩, defined⟩
  · intro found
    obtain ⟨origin, rfl, ⟨function, known, inst, listed, opcode, names⟩, defined⟩ := found
    refine ⟨⟨function.rename ρ, ?_, inst.rename ρ, ?_, opcode, ?_⟩, ?_⟩
    · rw [function?_rename injective, known, Option.map_some]
    · rw [Function.listing_rename]
      exact List.mem_map_of_mem listed
    · rw [Instruction.idOperand?_rename, names, Option.map_some]
    · rw [function?_rename injective, Option.isSome_map]
      exact defined

theorem reaches_rename_iff (m : Module) {start function : Ident} :
    (m.rename ρ).Reaches (ρ start) (ρ function) ↔ m.Reaches start function := by
  constructor
  · intro reaches
    suffices came : ∃ origin, ρ origin = ρ function ∧ m.Reaches start origin by
      obtain ⟨origin, same, reached⟩ := came
      exact injective same ▸ reached
    generalize ρ function = target at reaches
    induction reaches with
    | refl => exact ⟨start, rfl, .refl⟩
    | tail _ calls step =>
      obtain ⟨caller, rfl, reached⟩ := step
      obtain ⟨callee, rfl, called⟩ := (calls_rename_iff injective m).mp calls
      exact ⟨callee, rfl, reached.tail called⟩
  · intro reaches
    induction reaches with
    | refl => exact .refl
    | tail _ calls step => exact step.tail ((calls_rename_iff injective m).mpr ⟨_, rfl, calls⟩)

theorem excludes_rename_iff (m : Module) (limitation : Limitation) {function : Ident} :
    (m.rename ρ).Excludes limitation (ρ function) ↔ m.Excludes limitation function := by
  simp only [Excludes, starts_rename, List.mem_map, exists_exists_and_eq_and,
    reaches_rename_iff injective]

theorem facts_rename (m : Module) (target : Target) :
    (m.facts target).Renamed ρ ((m.rename ρ).facts target) :=
  facts_renamed (definition?_rename injective m)
    (fun capability => by rw [declaredCapabilities_rename]) (chosenMemoryModel_rename ρ m) target

theorem simulates_rename (m : Module) (target : Target) (options : Options) :
    Simulates (Diagnostic.Renamed ρ) target options m (m.rename ρ) (Site.rename ρ)
      (ModuleFault.rename ρ) where
  named := all_named_map (fun _ => rfl) rfl
  unnamed := .module ρ .functionWithoutId
  barriers := scannedBarriers_rename ρ m
  opcode _ := rfl
  fault? site := Barrier.fault?_rename (facts_rename injective m target) options site.inst
  rejected := .site ρ
  entryFault? := entryFault?_rename injective m
  blamed := .module ρ
  excludes _ := excludes_rename_iff injective m _
  excluded := .excluded ρ

/-- A module and its renaming are both accepted or both rejected, the second with the diagnostic of
the first for the new ids. -/
theorem validate_rename (m : Module) (target : Target) (options : Options) :
    Verdict.Related (Diagnostic.Renamed ρ) (m.validate target options)
      ((m.rename ρ).validate target options) :=
  (simulates_rename injective m target options).validate

end Injective

def bareBarrier : Module :=
  { ofCalls [(.fragment, 7)] [] with
    functions := [{
      definition := some ⟨.other "Function", none, some 7, []⟩
      parameters := []
      blocks := [⟨none, [⟨.other "Nop", none, none, []⟩, ⟨.controlBarrier, none, none, []⟩]⟩]
      ending := none }] }

theorem validate_rename_bareBarrier : Function.Injective (fun id : Ident => id + 14) ∧
    ∃ diagnostic, (bareBarrier.rename fun id => id + 14).validate default {} = .error diagnostic ∧
      Diagnostic.Renamed (fun id => id + 14) ⟨.malformedOperandType,
        some ⟨.controlBarrier, none, 7, 1⟩, "OpControlBarrier: expected Execution Scope operand"⟩
        diagnostic := by
  have injective : Function.Injective (fun id : Ident => id + 14) := fun a b same => by
    simpa using same
  have rejected : bareBarrier.validate default {} = .error ⟨.malformedOperandType,
      some ⟨.controlBarrier, none, 7, 1⟩, "OpControlBarrier: expected Execution Scope operand"⟩ := by
    rfl
  have related := validate_rename injective bareBarrier default {}
  rw [rejected] at related
  generalize (bareBarrier.rename _).validate default {} = verdict at related ⊢
  cases related with
  | rejected renamed => exact ⟨injective, _, rfl, renamed⟩

end Module

end Spirv
