import Mathlib.Data.List.Sublists
import Mathlib.Data.Nat.Bitwise
import Spirv.MemorySemantics.Rules

/-!
# Memory semantics as words

What rules ask of flags can be read off the bits of a word, because masking it by a group of flags
leaves the flags of the group that are set (`and_mask`). `fault?_eq_none_iff_permitted` joins the
rules into one description of the words that pass.
-/
namespace Spirv

namespace SemanticsFlag

def word (flag : SemanticsFlag) : Word := .ofNat (2 ^ flag.bit)

def mask : List SemanticsFlag → Word
  | [] => 0
  | flag :: rest => flag.word ||| mask rest

theorem toNat_word (flag : SemanticsFlag) : flag.word.toNat = 2 ^ flag.bit := by
  cases flag <;> rfl

theorem word_ne_zero (flag : SemanticsFlag) : flag.word ≠ 0 := by
  cases flag <;> decide

theorem word_injective {flag other : SemanticsFlag} (same : flag.word = other.word) :
    flag = other := by
  revert same
  cases flag <;> cases other <;> decide

theorem mask_eq_zero_iff {flags : List SemanticsFlag} : mask flags = 0 ↔ flags = [] := by
  cases flags with
  | nil => simp [mask]
  | cons flag rest => simp [mask, UInt32.or_eq_zero_iff, flag.word_ne_zero]

@[simp] theorem mask_singleton (flag : SemanticsFlag) : mask [flag] = flag.word := UInt32.or_zero

end SemanticsFlag

namespace MemorySemantics

open SemanticsFlag

variable {semantics : MemorySemantics}

theorem and_or_distrib_left (a b c : Word) : a &&& (b ||| c) = a &&& b ||| a &&& c := by
  apply UInt32.toNat_inj.mp
  simp only [UInt32.toNat_and, UInt32.toNat_or, Nat.and_or_distrib_left]

theorem and_word (flag : SemanticsFlag) :
    semantics.bits &&& flag.word = if semantics.has flag then flag.word else 0 := by
  apply UInt32.toNat_inj.mp
  rw [UInt32.toNat_and, toNat_word, Nat.and_two_pow, ← has]
  cases semantics.has flag <;> simp [toNat_word]

/-- A mask leaves the flags that are set. -/
theorem and_mask (flags : List SemanticsFlag) :
    semantics.bits &&& mask flags = mask (flags.filter semantics.has) := by
  induction flags with
  | nil => simp [mask]
  | cons flag rest step =>
    rw [mask, and_or_distrib_left, step, and_word, List.filter_cons]
    cases semantics.has flag with
    | true => rfl
    | false => exact UInt32.zero_or

/-! ## Groups of bits -/

def flagBits (semantics : MemorySemantics) : Word := semantics.bits &&& 0xFFDE

/-- The bits for memory orders: `0x2` acquire, `0x4` release, `0x8` both, `0x10` sequentially
consistent. -/
def orderBits (semantics : MemorySemantics) : Word := semantics.flagBits &&& 0x1E

/-- The bits for storage classes. Those in `0x1940` are the ones that Vulkan supports. -/
def storageBits (semantics : MemorySemantics) : Word := semantics.flagBits &&& 0x1FC0

def MakesAvailable (semantics : MemorySemantics) : Prop := semantics.flagBits &&& 0x2000 ≠ 0

def MakesVisible (semantics : MemorySemantics) : Prop := semantics.flagBits &&& 0x4000 ≠ 0

theorem flagBits_and_mask (flags : List SemanticsFlag) :
    semantics.flagBits &&& mask flags = mask (flags.filter semantics.has) := by
  have inside : 0xFFDE &&& mask flags = mask flags := by
    induction flags with
    | nil => rfl
    | cons flag rest step =>
      have first : 0xFFDE &&& flag.word = flag.word := by cases flag <;> rfl
      rw [mask, and_or_distrib_left, first, step]
  rw [flagBits, UInt32.and_assoc, inside, and_mask]

theorem flagBits_and_mask_ne_zero_iff (semantics : MemorySemantics) (flags : List SemanticsFlag) :
    semantics.flagBits &&& mask flags ≠ 0 ↔ semantics.hasAny flags := by
  rw [flagBits_and_mask, ne_eq, mask_eq_zero_iff, List.filter_eq_nil_iff]
  simp [hasAny]

theorem flagBits_and_word_ne_zero_iff (semantics : MemorySemantics) (flag : SemanticsFlag) :
    semantics.flagBits &&& flag.word ≠ 0 ↔ semantics.has flag := by
  rw [← mask_singleton, flagBits_and_mask_ne_zero_iff]
  simp [hasAny]

theorem orderBits_eq : semantics.orderBits = mask (memoryOrders.filter semantics.has) :=
  flagBits_and_mask memoryOrders

theorem storageBits_ne_zero_iff : semantics.storageBits ≠ 0 ↔ semantics.hasAny storageClasses :=
  semantics.flagBits_and_mask_ne_zero_iff storageClasses

theorem vulkanStorageBits_ne_zero_iff :
    semantics.storageBits &&& 0x1940 ≠ 0 ↔ semantics.hasAny vulkanStorageClasses := by
  rw [storageBits, UInt32.and_assoc]
  exact semantics.flagBits_and_mask_ne_zero_iff vulkanStorageClasses

theorem makesAvailable_iff : semantics.MakesAvailable ↔ semantics.has makeAvailable :=
  semantics.flagBits_and_word_ne_zero_iff makeAvailable

theorem makesVisible_iff : semantics.MakesVisible ↔ semantics.has makeVisible :=
  semantics.flagBits_and_word_ne_zero_iff makeVisible

theorem orderCount_eq_zero_iff : semantics.orderCount = 0 ↔ semantics.orderBits = 0 := by
  rw [orderBits_eq, mask_eq_zero_iff, orderCount, List.countP_eq_length_filter,
    List.length_eq_zero_iff]

/-- The order bits show at most one order if no two of them are set. -/
theorem orderCount_le_one_iff : semantics.orderCount ≤ 1 ↔
    semantics.orderBits = 0 ∨ semantics.orderBits = 2 ∨ semantics.orderBits = 4 ∨
      semantics.orderBits = 8 ∨ semantics.orderBits = 0x10 := by
  have groups : ∀ orders ∈ memoryOrders.sublists, orders.length ≤ 1 ↔ mask orders = 0 ∨
      mask orders = 2 ∨ mask orders = 4 ∨ mask orders = 8 ∨ mask orders = 0x10 := by decide
  rw [orderBits_eq, orderCount, List.countP_eq_length_filter]
  exact groups _ (List.mem_sublists.mpr List.filter_sublist)

/-- The only memory order is the one whose bit is left. -/
theorem has_iff_orderBits_eq {flag : SemanticsFlag} (order : flag ∈ memoryOrders)
    (single : semantics.orderCount ≤ 1) : semantics.has flag ↔ semantics.orderBits = flag.word := by
  have listed : semantics.has flag ↔ flag ∈ memoryOrders.filter semantics.has := by
    simp [order]
  rw [orderCount, List.countP_eq_length_filter] at single
  rw [listed, orderBits_eq]
  rcases Nat.le_one_iff_eq_zero_or_eq_one.mp single with unordered | ordered
  · rw [List.length_eq_zero_iff.mp unordered]
    simp [mask, flag.word_ne_zero.symm]
  · obtain ⟨only, left⟩ := List.length_eq_one_iff.mp ordered
    rw [left, mask_singleton, List.mem_singleton]
    exact ⟨fun same => same ▸ rfl, fun same => (word_injective same).symm⟩

/-! ## Permitted words -/

structure Permitted (context : SemanticsContext) (semantics : MemorySemantics) : Prop where
  /-- At most one memory order. -/
  order : semantics.orderBits = 0 ∨ semantics.orderBits = 2 ∨ semantics.orderBits = 4 ∨
    semantics.orderBits = 8 ∨ semantics.orderBits = 0x10
  sequential : semantics.orderBits = 0x10 → context.memoryModel ≠ .vulkan
  gated : context.hasVulkanMemoryModel = false →
    semantics.flagBits &&& 0x1000 = 0 ∧ ¬semantics.MakesAvailable ∧ ¬semantics.MakesVisible
  availableAndVisible : semantics.MakesAvailable → semantics.MakesVisible →
    semantics.orderBits = 8
  available : semantics.MakesAvailable → ¬semantics.MakesVisible →
    semantics.orderBits = 4 ∨ semantics.orderBits = 8
  visible : semantics.MakesVisible → ¬semantics.MakesAvailable →
    semantics.orderBits = 2 ∨ semantics.orderBits = 8
  storage : semantics.MakesAvailable ∨ semantics.MakesVisible → semantics.storageBits ≠ 0
  memoryBarrier : context.inVulkan → context.opcode = .memoryBarrier →
    semantics.orderBits ≠ 0 ∧ semantics.storageBits &&& 0x1940 ≠ 0
  controlBarrier : context.inVulkan → context.opcode = .controlBarrier →
    context.controlBarrierStorageClass →
      semantics.bits = 0 ∨ semantics.storageBits &&& 0x1940 ≠ 0

end MemorySemantics

namespace SemanticsRule

open SemanticsFlag MemorySemantics

variable {context : SemanticsContext} {semantics : MemorySemantics}

theorem singleOrder_iff :
    fault? context semantics .singleOrder = none ↔ semantics.orderCount ≤ 1 := by
  simp [fault?, singleOrderFault?]

theorem gatedFlags_iff : fault? context semantics .gatedFlags = none ↔
    (context.hasVulkanMemoryModel = false → semantics.flagBits &&& 0x1000 = 0 ∧
      ¬semantics.MakesAvailable ∧ ¬semantics.MakesVisible) := by
  have output : semantics.flagBits &&& 0x1000 = 0 ↔ ¬semantics.has outputMemory :=
    not_ne_iff.symm.trans (semantics.flagBits_and_word_ne_zero_iff outputMemory).not
  rw [makesAvailable_iff, makesVisible_iff, output]
  cases declared : context.hasVulkanMemoryModel <;>
    simp [fault?, gatedFlagsFault?, declared, SemanticsFlag.gated]

theorem vulkanTarget_iff : fault? context semantics .vulkanTarget = none ↔
    (context.inVulkan → context.opcode = .memoryBarrier →
      semantics.orderBits ≠ 0 ∧ semantics.storageBits &&& 0x1940 ≠ 0) ∧
    (context.inVulkan → context.opcode = .controlBarrier → context.controlBarrierStorageClass →
      semantics.bits = 0 ∨ semantics.storageBits &&& 0x1940 ≠ 0) := by
  rw [ne_eq, ← orderCount_eq_zero_iff, vulkanStorageBits_ne_zero_iff, ← eq_relaxed_iff]
  simp only [fault?, vulkanTargetFault?]
  cases context.inVulkan with
  | false => simp
  | true =>
    cases opcode : context.opcode with
    | memoryBarrier =>
      by_cases unordered : semantics.orderCount = 0 <;> simp [unordered]
    | controlBarrier => simp [imp_iff_not_or]
    | _ => simp

theorem availabilityStorage_iff : fault? context semantics .availabilityStorage = none ↔
    (semantics.MakesAvailable ∨ semantics.MakesVisible → semantics.storageBits ≠ 0) := by
  rw [makesAvailable_iff, makesVisible_iff, storageBits_ne_zero_iff]
  simp [fault?, availabilityStorageFault?, hasAny]

/-! With at most one memory order, the rules on orders read off which one it is. -/

section Single

variable (single : semantics.orderCount ≤ 1)
include single

theorem sequentialOrder_iff : fault? context semantics .sequentialOrder = none ↔
    (semantics.orderBits = 0x10 → context.memoryModel ≠ .vulkan) := by
  have order : semantics.has sequentiallyConsistent ↔ semantics.orderBits = 0x10 :=
    has_iff_orderBits_eq (by decide) single
  rw [← order]
  simp [fault?, sequentialOrderFault?, imp_not_comm]

theorem availabilityOrder_iff : fault? context semantics .availabilityOrder = none ↔
    (semantics.MakesAvailable → semantics.orderBits = 4 ∨ semantics.orderBits = 8) := by
  have onRelease : semantics.has release ↔ semantics.orderBits = 4 :=
    has_iff_orderBits_eq (by decide) single
  have onBoth : semantics.has acquireRelease ↔ semantics.orderBits = 8 :=
    has_iff_orderBits_eq (by decide) single
  rw [makesAvailable_iff, ← onRelease, ← onBoth]
  simp [fault?, availabilityOrderFault?, hasAny, or_iff_not_imp_left]

theorem visibilityOrder_iff : fault? context semantics .visibilityOrder = none ↔
    (semantics.MakesVisible → semantics.orderBits = 2 ∨ semantics.orderBits = 8) := by
  have onAcquire : semantics.has acquire ↔ semantics.orderBits = 2 :=
    has_iff_orderBits_eq (by decide) single
  have onBoth : semantics.has acquireRelease ↔ semantics.orderBits = 8 :=
    has_iff_orderBits_eq (by decide) single
  rw [makesVisible_iff, ← onAcquire, ← onBoth]
  simp [fault?, visibilityOrderFault?, hasAny, or_iff_not_imp_left]

/-- Together the rules on availability and visibility ask for a release where something is made
available and for an acquire where something is made visible. No single order but the one for both is
a release and an acquire at once. -/
theorem availability_and_visibilityOrder_iff :
    fault? context semantics .availabilityOrder = none ∧
        fault? context semantics .visibilityOrder = none ↔
      (semantics.MakesAvailable → semantics.MakesVisible → semantics.orderBits = 8) ∧
      (semantics.MakesAvailable → ¬semantics.MakesVisible →
        semantics.orderBits = 4 ∨ semantics.orderBits = 8) ∧
      (semantics.MakesVisible → ¬semantics.MakesAvailable →
        semantics.orderBits = 2 ∨ semantics.orderBits = 8) := by
  rw [availabilityOrder_iff single, visibilityOrder_iff single]
  constructor
  · rintro ⟨available, visible⟩
    refine ⟨fun isAvailable isVisible => ?_, fun isAvailable _ => available isAvailable,
      fun isVisible _ => visible isVisible⟩
    rcases available isAvailable with released | both
    · rcases visible isVisible with acquired | both
      · rw [released] at acquired
        cases acquired
      · exact both
    · exact both
  · rintro ⟨both, available, visible⟩
    constructor
    · intro isAvailable
      by_cases isVisible : semantics.MakesVisible
      · exact .inr (both isAvailable isVisible)
      · exact available isAvailable isVisible
    · intro isVisible
      by_cases isAvailable : semantics.MakesAvailable
      · exact .inr (both isAvailable isVisible)
      · exact visible isVisible isAvailable

end Single

end SemanticsRule

namespace MemorySemantics

/-- A word passes the rules exactly if its bits are as permitted. -/
theorem fault?_eq_none_iff_permitted (context : SemanticsContext) (semantics : MemorySemantics) :
    fault? context semantics = none ↔ semantics.Permitted context := by
  rw [fault?_eq_none_iff]
  constructor
  · intro passes
    have single := SemanticsRule.singleOrder_iff.mp (passes .singleOrder)
    obtain ⟨availableAndVisible, available, visible⟩ :=
      (SemanticsRule.availability_and_visibilityOrder_iff single).mp
        ⟨passes .availabilityOrder, passes .visibilityOrder⟩
    obtain ⟨memoryBarrier, controlBarrier⟩ :=
      SemanticsRule.vulkanTarget_iff.mp (passes .vulkanTarget)
    exact {
      order := orderCount_le_one_iff.mp single
      sequential := (SemanticsRule.sequentialOrder_iff single).mp (passes .sequentialOrder)
      gated := SemanticsRule.gatedFlags_iff.mp (passes .gatedFlags)
      availableAndVisible
      available
      visible
      storage := SemanticsRule.availabilityStorage_iff.mp (passes .availabilityStorage)
      memoryBarrier
      controlBarrier }
  · intro permitted rule
    have single := orderCount_le_one_iff.mpr permitted.order
    have ordered : SemanticsRule.fault? context semantics .availabilityOrder = none ∧
        SemanticsRule.fault? context semantics .visibilityOrder = none :=
      (SemanticsRule.availability_and_visibilityOrder_iff single).mpr
        ⟨permitted.availableAndVisible, permitted.available, permitted.visible⟩
    cases rule with
    | singleOrder => exact SemanticsRule.singleOrder_iff.mpr single
    | sequentialOrder => exact (SemanticsRule.sequentialOrder_iff single).mpr permitted.sequential
    | gatedFlags => exact SemanticsRule.gatedFlags_iff.mpr permitted.gated
    | availabilityOrder => exact ordered.left
    | visibilityOrder => exact ordered.right
    | vulkanTarget =>
      exact SemanticsRule.vulkanTarget_iff.mpr ⟨permitted.memoryBarrier, permitted.controlBarrier⟩
    | availabilityStorage => exact SemanticsRule.availabilityStorage_iff.mpr permitted.storage

end MemorySemantics

end Spirv
