import Spirv.Proofs.SemanticsWords

/-!
# The deciding rule

The first rule that finds a fault in a word decides which fault is reported (`decidingRule?`). It
sees only what the earlier ones let pass (`decidingRule?_conditions`), and of the bits that stand
for no flag no more than whether there are any (`fault?_flagBits`).
-/
namespace Spirv

/-- In a Vulkan target the options ask a control barrier for a storage class, unless its semantics
are relaxed. -/
def SemanticsContext.AsksControlBarrierStorage (context : SemanticsContext) : Prop :=
  context.inVulkan ∧ context.opcode = .controlBarrier ∧ context.controlBarrierStorageClass

/-- The first value that a function gives is the value of the first member that has one. -/
theorem findSome?_eq_bind_find? (f : α → Option β) (list : List α) :
    list.findSome? f = (list.find? fun member => (f member).isSome).bind f := by
  induction list with
  | nil => rfl
  | cons first rest step =>
    rw [List.findSome?_cons, List.find?_cons]
    cases value : f first with
    | none => exact step
    | some found => exact value.symm

/-- A member is found first if the test holds of it and fails of the members before it. -/
theorem find?_eq_some_iff_takeWhile [DecidableEq α] {test : α → Bool} {list : List α} {member : α}
    (listed : member ∈ list) : list.find? test = some member ↔
      test member ∧ ∀ earlier ∈ list.takeWhile (· ≠ member), test earlier = false := by
  induction list with
  | nil => cases listed
  | cons first rest step =>
    by_cases same : first = member
    · subst same
      cases passes : test first with
      | true => simp [passes]
      | false =>
        have never : rest.find? test ≠ some first := by
          intro found
          cases passes.symm.trans (List.find?_some found)
        simp [passes, never]
    · have later : member ∈ rest := (List.mem_cons.mp listed).resolve_left (Ne.symm same)
      rw [List.takeWhile_cons_of_pos (by simpa using same), List.forall_mem_cons]
      cases passes : test first with
      | true => simp [passes, same]
      | false => simpa [passes] using step later

/-! ## The first rule that finds a fault -/

def SemanticsRule.earlier (rule : SemanticsRule) : List SemanticsRule := all.takeWhile (· ≠ rule)

namespace MemorySemantics

variable {context : SemanticsContext} {semantics : MemorySemantics} {rule : SemanticsRule}

/-- The first rule that finds a fault. -/
def decidingRule? (context : SemanticsContext) (semantics : MemorySemantics) :
    Option SemanticsRule :=
  SemanticsRule.all.find? fun rule => (rule.fault? context semantics).isSome

/-- The fault of a word is that of the deciding rule. -/
theorem fault?_eq_bind_decidingRule? : fault? context semantics =
    (decidingRule? context semantics).bind (SemanticsRule.fault? context semantics) :=
  findSome?_eq_bind_find? _ _

theorem decidingRule?_eq_some_iff : decidingRule? context semantics = some rule ↔
    rule.fault? context semantics ≠ none ∧
      ∀ earlier ∈ rule.earlier, earlier.fault? context semantics = none := by
  rw [decidingRule?, find?_eq_some_iff_takeWhile rule.mem_all, Option.isSome_iff_ne_none]
  simp only [Option.isSome_eq_false_iff, Option.isNone_iff_eq_none]
  rfl

/-- The rules that are asked before the one that decides let the word pass. -/
theorem passes_of_decidingRule? (decides : decidingRule? context semantics = some rule)
    (earlier : SemanticsRule) (before : earlier ∈ rule.earlier) :
    earlier.fault? context semantics = none :=
  (decidingRule?_eq_some_iff.mp decides).2 earlier before

end MemorySemantics

/-! ## Bits without a flag -/

namespace SemanticsRule

variable {context : SemanticsContext} {first second semantics : MemorySemantics}

theorem vulkanTargetFault?_congr (same : ∀ flag, first.has flag = second.has flag)
    (relaxed : context.AsksControlBarrierStorage → (first = .relaxed ↔ second = .relaxed)) :
    vulkanTargetFault? context first = vulkanTargetFault? context second := by
  unfold vulkanTargetFault?
  rw [MemorySemantics.hasAny_congr same, MemorySemantics.orderCount_congr same]
  split
  next => rfl
  next inVulkan =>
    split
    next => rfl
    next opcode =>
      refine if_congr (and_congr_right fun strict => ?_) rfl rfl
      rw [ne_eq, ne_eq, relaxed ⟨not_not.mp inVulkan, opcode, strict⟩]
    next => rfl

/-- A rule finds the same in words with the same flags. Where a word is asked whether it is relaxed,
that has to be the same too. -/
theorem fault?_congr (same : ∀ flag, first.has flag = second.has flag)
    (relaxed : context.AsksControlBarrierStorage → (first = .relaxed ↔ second = .relaxed))
    (rule : SemanticsRule) : rule.fault? context first = rule.fault? context second := by
  have groups := MemorySemantics.hasAny_congr same
  cases rule with
  | sequentialOrder => simp only [fault?, sequentialOrderFault?, same]
  | gatedFlags => simp only [fault?, gatedFlagsFault?, funext same]
  | singleOrder => simp only [fault?, singleOrderFault?, MemorySemantics.orderCount_congr same]
  | availabilityOrder => simp only [fault?, availabilityOrderFault?, same, groups]
  | visibilityOrder => simp only [fault?, visibilityOrderFault?, same, groups]
  | vulkanTarget => exact vulkanTargetFault?_congr same relaxed
  | availabilityStorage => simp only [fault?, availabilityStorageFault?, groups]

/-- A word without flags passes every rule but the one for the target. -/
theorem fault?_of_unflagged (unflagged : ∀ flag, semantics.has flag = false) {rule : SemanticsRule}
    (other : rule ≠ .vulkanTarget) : rule.fault? context semantics = none := by
  cases rule with
  | vulkanTarget => contradiction
  | gatedFlags => simp [fault?, gatedFlagsFault?, funext unflagged]
  | singleOrder => simp [fault?, singleOrderFault?, MemorySemantics.orderCount, funext unflagged]
  | sequentialOrder | availabilityOrder | visibilityOrder =>
    simp [fault?, sequentialOrderFault?, availabilityOrderFault?, visibilityOrderFault?, unflagged]
  | availabilityStorage =>
    simp [fault?, availabilityStorageFault?, MemorySemantics.hasAny, unflagged]

/-- Where a control barrier is asked for a storage class, a word without flags passes only if it is
relaxed. -/
theorem vulkanTarget_of_unflagged (asks : context.AsksControlBarrierStorage)
    (unflagged : ∀ flag, semantics.has flag = false) :
    fault? context semantics .vulkanTarget =
      if semantics = .relaxed then none else some .neitherRelaxedNorStorageClassInVulkan := by
  obtain ⟨inVulkan, opcode, strict⟩ := asks
  simp [fault?, vulkanTargetFault?, inVulkan, opcode, strict, MemorySemantics.hasAny, unflagged]

end SemanticsRule

namespace MemorySemantics

open SemanticsFlag

variable {context : SemanticsContext} {semantics : MemorySemantics} {rule : SemanticsRule}

theorem fault?_congr {first second : MemorySemantics}
    (same : ∀ flag, first.has flag = second.has flag)
    (relaxed : context.AsksControlBarrierStorage → (first = .relaxed ↔ second = .relaxed)) :
    fault? context first = fault? context second := by
  rw [fault?, fault?, funext (SemanticsRule.fault?_congr same relaxed)]

@[simp] theorem has_flagBits (semantics : MemorySemantics) (flag : SemanticsFlag) :
    (⟨semantics.flagBits⟩ : MemorySemantics).has flag = semantics.has flag := by
  have again : (⟨semantics.flagBits⟩ : MemorySemantics).flagBits = semantics.flagBits := by
    rw [flagBits, flagBits, UInt32.and_assoc]
    rfl
  apply Bool.eq_iff_iff.mpr
  rw [← flagBits_and_word_ne_zero_iff, ← flagBits_and_word_ne_zero_iff, again]

theorem flagBits_of_bits_eq_zero (unset : semantics.bits = 0) : semantics.flagBits = 0 := by
  rw [flagBits, unset]
  exact UInt32.zero_and

theorem has_of_flagBits_eq_zero (unflagged : semantics.flagBits = 0) (flag : SemanticsFlag) :
    semantics.has flag = false := by
  apply Bool.eq_false_iff.mpr
  rw [ne_eq, ← flagBits_and_word_ne_zero_iff, unflagged, not_not]
  exact UInt32.zero_and

theorem fault?_relaxed (asks : context.AsksControlBarrierStorage) :
    fault? context .relaxed = none := by
  rw [fault?_eq_none_iff]
  intro rule
  by_cases target : rule = .vulkanTarget
  · rw [target, SemanticsRule.vulkanTarget_of_unflagged asks has_relaxed, if_pos rfl]
  · exact SemanticsRule.fault?_of_unflagged has_relaxed target

/-- Bits without a flag alone are not relaxed, and no storage class either. -/
theorem fault?_of_unflagged (asks : context.AsksControlBarrierStorage)
    (unrelaxed : semantics.bits ≠ 0) (unflagged : semantics.flagBits = 0) :
    fault? context semantics = some .neitherRelaxedNorStorageClassInVulkan := by
  have absent := has_of_flagBits_eq_zero unflagged
  have found : SemanticsRule.fault? context semantics .vulkanTarget =
      some .neitherRelaxedNorStorageClassInVulkan := by
    rw [SemanticsRule.vulkanTarget_of_unflagged asks absent, if_neg (mt eq_relaxed_iff.mp unrelaxed)]
  have decides : decidingRule? context semantics = some .vulkanTarget := by
    rw [decidingRule?_eq_some_iff, found]
    refine ⟨nofun, fun earlier member => SemanticsRule.fault?_of_unflagged absent ?_⟩
    rintro rfl
    exact absurd member (by decide)
  rw [fault?_eq_bind_decidingRule?, decides, Option.bind_some, found]

/-- The bits of a word that stand for no flag change its fault in one case: where a control barrier
is asked for a storage class, they keep a word without flags from being relaxed. -/
theorem fault?_flagBits (context : SemanticsContext) (semantics : MemorySemantics) :
    (fault? context ⟨semantics.flagBits⟩ = fault? context semantics ↔
      ¬(context.AsksControlBarrierStorage ∧ semantics.bits ≠ 0 ∧ semantics.flagBits = 0)) ∧
    (context.AsksControlBarrierStorage ∧ semantics.bits ≠ 0 ∧ semantics.flagBits = 0 →
      (∃ fault, fault? context semantics = some fault ∧ fault.kind = .missingStorageClassBit) ∧
        fault? context ⟨semantics.flagBits⟩ = none) := by
  have apart (exceptional : context.AsksControlBarrierStorage ∧ semantics.bits ≠ 0 ∧
      semantics.flagBits = 0) :
      fault? context semantics = some .neitherRelaxedNorStorageClassInVulkan ∧
        fault? context ⟨semantics.flagBits⟩ = none := by
    obtain ⟨asks, unrelaxed, unflagged⟩ := exceptional
    rw [fault?_of_unflagged asks unrelaxed unflagged, unflagged]
    exact ⟨rfl, fault?_relaxed asks⟩
  refine ⟨⟨fun alike exceptional => ?_, fun ordinary => ?_⟩, fun exceptional => ?_⟩
  · obtain ⟨found, passes⟩ := apart exceptional
    cases passes.symm.trans (alike.trans found)
  · refine fault?_congr semantics.has_flagBits fun asks => ?_
    rw [eq_relaxed_iff, eq_relaxed_iff]
    refine ⟨fun unflagged => ?_, flagBits_of_bits_eq_zero⟩
    by_contra unrelaxed
    exact ordinary ⟨asks, unrelaxed, unflagged⟩
  · obtain ⟨found, passes⟩ := apart exceptional
    exact ⟨⟨_, found, rfl⟩, passes⟩

/-! ## When a late rule decides -/

/-- The word asks for something to be made available or visible, with an order that allows it, and
lacks a storage class; and no rule of the target asks for one before. -/
structure LacksStorageOnly (context : SemanticsContext) (semantics : MemorySemantics) : Prop where
  capability : context.hasVulkanMemoryModel
  moves : semantics.MakesAvailable ∨ semantics.MakesVisible
  storage : semantics.storageBits = 0
  /-- Exactly one memory order. -/
  order : semantics.orderBits = 2 ∨ semantics.orderBits = 4 ∨ semantics.orderBits = 8 ∨
    semantics.orderBits = 0x10
  available : semantics.MakesAvailable → semantics.orderBits = 4 ∨ semantics.orderBits = 8
  visible : semantics.MakesVisible → semantics.orderBits = 2 ∨ semantics.orderBits = 8
  memoryBarrier : ¬(context.inVulkan ∧ context.opcode = .memoryBarrier)
  controlBarrier : ¬context.AsksControlBarrierStorage

theorem hasVulkanMemoryModel_of_moves (moves : semantics.MakesAvailable ∨ semantics.MakesVisible)
    (passes : SemanticsRule.fault? context semantics .gatedFlags = none) :
    context.hasVulkanMemoryModel := by
  by_contra undeclared
  obtain ⟨-, notAvailable, notVisible⟩ :=
    SemanticsRule.gatedFlags_iff.mp passes (Bool.eq_false_iff.mpr undeclared)
  exact moves.elim notAvailable notVisible

/-- Each rule on availability or visibility finds a fault only in a word that asks for either. -/
theorem moves_of_fault? (found : rule.fault? context semantics ≠ none)
    (late : rule = .availabilityOrder ∨ rule = .visibilityOrder ∨ rule = .availabilityStorage) :
    semantics.MakesAvailable ∨ semantics.MakesVisible := by
  rw [makesAvailable_iff, makesVisible_iff]
  by_contra still
  obtain ⟨notAvailable, notVisible⟩ := not_or.mp still
  rcases late with rfl | rfl | rfl
  · simp [SemanticsRule.fault?, SemanticsRule.availabilityOrderFault?, notAvailable] at found
  · simp [SemanticsRule.fault?, SemanticsRule.visibilityOrderFault?, notVisible] at found
  · simp [SemanticsRule.fault?, SemanticsRule.availabilityStorageFault?, hasAny, notAvailable,
      notVisible] at found

/-- Only in a Vulkan target may an order be missing. -/
theorem eq_vulkanTarget_of_missingOrder {fault : Fault}
    (found : rule.fault? context semantics = some fault)
    (kind : fault.kind = .missingMemoryOrderBit) :
    rule = .vulkanTarget ∧ semantics.orderCount = 0 := by
  have other {broken : Prop} [Decidable broken] {cause : Fault}
      (found : (if broken then some cause else none) = some fault) : cause = fault := by
    obtain ⟨-, blamed⟩ := Option.ite_none_right_eq_some.mp found
    exact Option.some.inj blamed
  cases rule with
  | sequentialOrder | singleOrder | availabilityOrder | visibilityOrder | availabilityStorage =>
    obtain rfl := other found
    cases kind
  | gatedFlags =>
    simp only [SemanticsRule.fault?, SemanticsRule.gatedFlagsFault?,
      Option.ite_none_left_eq_some, Option.map_eq_some_iff] at found
    obtain ⟨-, flag, -, rfl⟩ := found
    cases kind
  | vulkanTarget =>
    refine ⟨rfl, ?_⟩
    simp only [SemanticsRule.fault?, SemanticsRule.vulkanTargetFault?] at found
    split at found
    next => cases found
    next =>
      split at found
      next =>
        by_contra ordered
        rw [if_neg ordered] at found
        obtain ⟨-, blamed⟩ := Option.ite_none_left_eq_some.mp found
        cases blamed
        cases kind
      next =>
        obtain rfl := other found
        cases kind
      next => cases found

theorem not_moves_of_missingOrder {fault : Fault} (found : fault? context semantics = some fault)
    (kind : fault.kind = .missingMemoryOrderBit) :
    ¬semantics.MakesAvailable ∧ ¬semantics.MakesVisible := by
  rw [fault?_eq_bind_decidingRule?] at found
  obtain ⟨rule, decides, blamed⟩ := Option.bind_eq_some_iff.mp found
  obtain ⟨rfl, unordered⟩ := eq_vulkanTarget_of_missingOrder blamed kind
  have single : semantics.orderCount ≤ 1 := by omega
  have none : semantics.orderBits = 0 := orderCount_eq_zero_iff.mp unordered
  have available := (SemanticsRule.availabilityOrder_iff single).mp
    (passes_of_decidingRule? decides .availabilityOrder (by decide))
  have visible := (SemanticsRule.visibilityOrder_iff single).mp
    (passes_of_decidingRule? decides .visibilityOrder (by decide))
  rw [none] at available visible
  exact ⟨fun asked => absurd (available asked) (by decide),
    fun asked => absurd (visible asked) (by decide)⟩

theorem lacksStorageOnly_of_decidingRule?
    (decides : decidingRule? context semantics = some .availabilityStorage) :
    semantics.LacksStorageOnly context := by
  have found := (decidingRule?_eq_some_iff.mp decides).1
  have passes := passes_of_decidingRule? decides
  have moves := moves_of_fault? found (.inr (.inr rfl))
  have storage : semantics.storageBits = 0 := by
    by_contra stored
    exact found (SemanticsRule.availabilityStorage_iff.mpr fun _ => stored)
  have single := SemanticsRule.singleOrder_iff.mp (passes .singleOrder (by decide))
  have available :=
    (SemanticsRule.availabilityOrder_iff single).mp (passes .availabilityOrder (by decide))
  have visible :=
    (SemanticsRule.visibilityOrder_iff single).mp (passes .visibilityOrder (by decide))
  obtain ⟨memoryBarrier, controlBarrier⟩ :=
    SemanticsRule.vulkanTarget_iff.mp (passes .vulkanTarget (by decide))
  rw [storage, UInt32.zero_and] at memoryBarrier controlBarrier
  refine ⟨hasVulkanMemoryModel_of_moves moves (passes .gatedFlags (by decide)), moves, storage, ?_,
    available, visible, fun ⟨inVulkan, opcode⟩ => (memoryBarrier inVulkan opcode).2 rfl, ?_⟩
  · rcases moves with asked | asked
    · exact (available asked).elim (fun four => .inr (.inl four))
        fun eight => .inr (.inr (.inl eight))
    · exact (visible asked).elim .inl fun eight => .inr (.inr (.inl eight))
  · rintro ⟨inVulkan, opcode, strict⟩
    -- A word without any bit asks for nothing to be moved.
    have unset := (controlBarrier inVulkan opcode strict).resolve_right (not_not.mpr rfl)
    have absent := has_of_flagBits_eq_zero (flagBits_of_bits_eq_zero unset)
    rw [makesAvailable_iff, makesVisible_iff, absent, absent] at moves
    exact moves.elim nofun nofun

theorem LacksStorageOnly.decides (lacks : semantics.LacksStorageOnly context) :
    decidingRule? context semantics = some .availabilityStorage := by
  have single : semantics.orderCount ≤ 1 := orderCount_le_one_iff.mpr (.inr lacks.order)
  have notSequential : semantics.orderBits ≠ 0x10 := by
    intro sequential
    have available := lacks.available
    have visible := lacks.visible
    rw [sequential] at available visible
    exact lacks.moves.elim (fun asked => absurd (available asked) (by decide))
      fun asked => absurd (visible asked) (by decide)
  rw [decidingRule?_eq_some_iff, ne_eq, SemanticsRule.availabilityStorage_iff]
  refine ⟨fun stored => stored lacks.moves lacks.storage, fun earlier before => ?_⟩
  cases earlier with
  | sequentialOrder =>
    exact (SemanticsRule.sequentialOrder_iff single).mpr fun order => absurd order notSequential
  | gatedFlags =>
    refine SemanticsRule.gatedFlags_iff.mpr fun undeclared => ?_
    cases undeclared.symm.trans lacks.capability
  | singleOrder => exact SemanticsRule.singleOrder_iff.mpr single
  | availabilityOrder => exact (SemanticsRule.availabilityOrder_iff single).mpr lacks.available
  | visibilityOrder => exact (SemanticsRule.visibilityOrder_iff single).mpr lacks.visible
  | vulkanTarget =>
    refine SemanticsRule.vulkanTarget_iff.mpr ⟨fun inVulkan opcode => ?_, ?_⟩
    · exact absurd ⟨inVulkan, opcode⟩ lacks.memoryBarrier
    · intro inVulkan opcode strict
      exact absurd ⟨inVulkan, opcode, strict⟩ lacks.controlBarrier
  | availabilityStorage => exact absurd before (by decide)

/-- The fault of a word is that of the first rule that finds one. The rules on what is made available
or visible are the first only if the capability for either is declared; an order is missed only where
nothing is made available or visible; and the last rule decides exactly for the words that lack
nothing but a storage class. -/
theorem decidingRule?_conditions (context : SemanticsContext) (semantics : MemorySemantics) :
    fault? context semantics =
      (decidingRule? context semantics).bind (SemanticsRule.fault? context semantics) ∧
    (∀ rule ∈ [SemanticsRule.availabilityOrder, .visibilityOrder, .availabilityStorage],
      decidingRule? context semantics = some rule → context.hasVulkanMemoryModel) ∧
    (∀ fault, fault? context semantics = some fault → fault.kind = .missingMemoryOrderBit →
      ¬semantics.MakesAvailable ∧ ¬semantics.MakesVisible) ∧
    (decidingRule? context semantics = some .availabilityStorage ↔
      semantics.LacksStorageOnly context) := by
  refine ⟨fault?_eq_bind_decidingRule?, fun rule late decides => ?_,
    fun fault => not_moves_of_missingOrder, lacksStorageOnly_of_decidingRule?,
    LacksStorageOnly.decides⟩
  have gated : ∀ rule ∈ [SemanticsRule.availabilityOrder, .visibilityOrder, .availabilityStorage],
      .gatedFlags ∈ rule.earlier := by decide
  refine hasVulkanMemoryModel_of_moves ?_ (passes_of_decidingRule? decides _ (gated rule late))
  exact moves_of_fault? (decidingRule?_eq_some_iff.mp decides).1 (by simpa using late)

end MemorySemantics

end Spirv
