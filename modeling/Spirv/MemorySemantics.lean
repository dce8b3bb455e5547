import Spirv.Vocabulary

/-!
# Memory semantics

A Memory Semantics operand is a word with one bit for each of fourteen flags. Rules read a word
through its flags, so a bit without a flag says nothing; only the comparison with `relaxed` sees
the whole word.
-/

namespace Spirv

inductive SemanticsFlag where
  | acquire
  | release
  | acquireRelease
  | sequentiallyConsistent
  | uniformMemory
  | subgroupMemory
  | workgroupMemory
  | crossWorkgroupMemory
  | atomicCounterMemory
  | imageMemory
  | outputMemory
  | makeAvailable
  | makeVisible
  | volatile
  deriving DecidableEq, Repr

namespace SemanticsFlag

/-- The flags in the order of their bits. -/
def all : List SemanticsFlag :=
  [acquire, release, acquireRelease, sequentiallyConsistent, uniformMemory, subgroupMemory,
    workgroupMemory, crossWorkgroupMemory, atomicCounterMemory, imageMemory, outputMemory,
    makeAvailable, makeVisible, volatile]

/-- The position of the flag's bit, counted from the lowest. -/
def bit : SemanticsFlag → Nat
  | acquire => 1
  | release => 2
  | acquireRelease => 3
  | sequentiallyConsistent => 4
  | uniformMemory => 6
  | subgroupMemory => 7
  | workgroupMemory => 8
  | crossWorkgroupMemory => 9
  | atomicCounterMemory => 10
  | imageMemory => 11
  | outputMemory => 12
  | makeAvailable => 13
  | makeVisible => 14
  | volatile => 15

def name : SemanticsFlag → String
  | acquire => "Acquire"
  | release => "Release"
  | acquireRelease => "AcquireRelease"
  | sequentiallyConsistent => "SequentiallyConsistent"
  | uniformMemory => "UniformMemory"
  | subgroupMemory => "SubgroupMemory"
  | workgroupMemory => "WorkgroupMemory"
  | crossWorkgroupMemory => "CrossWorkgroupMemory"
  | atomicCounterMemory => "AtomicCounterMemory"
  | imageMemory => "ImageMemory"
  | outputMemory => "OutputMemoryKHR"
  | makeAvailable => "MakeAvailableKHR"
  | makeVisible => "MakeVisibleKHR"
  | volatile => "Volatile"

/-- A barrier imposes at most one of these orders. -/
def memoryOrders : List SemanticsFlag :=
  [acquire, release, acquireRelease, sequentiallyConsistent]

/-- The storage classes that a Vulkan target lets a barrier apply to. -/
def vulkanStorageClasses : List SemanticsFlag :=
  [uniformMemory, workgroupMemory, imageMemory, outputMemory]

def storageClasses : List SemanticsFlag :=
  vulkanStorageClasses ++ [subgroupMemory, crossWorkgroupMemory, atomicCounterMemory]

/-- The flags that the Vulkan memory model introduces, in the order in which rules look for
them. -/
def gated : List SemanticsFlag := [outputMemory, makeAvailable, makeVisible]

end SemanticsFlag

structure MemorySemantics where
  bits : Word
  deriving DecidableEq, Repr

namespace MemorySemantics

open SemanticsFlag

/-- The word with no bit set, of a flag or not. -/
def relaxed : MemorySemantics := ⟨0⟩

def has (semantics : MemorySemantics) (flag : SemanticsFlag) : Bool :=
  semantics.bits.toNat.testBit flag.bit

def hasAny (semantics : MemorySemantics) (flags : List SemanticsFlag) : Bool :=
  flags.any semantics.has

def orderCount (semantics : MemorySemantics) : Nat :=
  memoryOrders.countP semantics.has

theorem eq_relaxed_iff {semantics : MemorySemantics} :
    semantics = relaxed ↔ semantics.bits = 0 := by
  obtain ⟨bits⟩ := semantics
  simp [relaxed]

@[simp] theorem has_relaxed (flag : SemanticsFlag) : relaxed.has flag = false := by
  simp [has, relaxed]

/-- Whether a flag of a group is set is decided by the flags of the word alone. -/
theorem hasAny_congr {a b : MemorySemantics} (same : ∀ flag, a.has flag = b.has flag)
    (flags : List SemanticsFlag) : a.hasAny flags = b.hasAny flags := by
  simp [hasAny, funext same]

theorem orderCount_congr {a b : MemorySemantics} (same : ∀ flag, a.has flag = b.has flag) :
    a.orderCount = b.orderCount := by
  simp [orderCount, funext same]

end MemorySemantics

end Spirv
