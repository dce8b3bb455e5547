import Spirv.Vocabulary

/-!
# Memory and addressing models

The two choices that a module's `OpMemoryModel` instruction makes. Barrier rules look at the
memory model only.
-/

namespace Spirv

inductive MemoryModel where
  | simple
  | glsl450
  | openCL
  | vulkan
  deriving DecidableEq, Repr

namespace MemoryModel

def all : List MemoryModel := [simple, glsl450, openCL, vulkan]

def name : MemoryModel → String
  | simple => "Simple"
  | glsl450 => "GLSL450"
  | openCL => "OpenCL"
  | vulkan => "Vulkan"

instance : Vocabulary MemoryModel where
  all := all
  name := name
  mem_all value := by cases value <;> decide
  nodup_names := by decide

def ofName? : String → Option MemoryModel := Vocabulary.ofName?

end MemoryModel

inductive AddressingModel where
  | logical
  | physical32
  | physical64
  | physicalStorageBuffer64
  deriving DecidableEq, Repr

namespace AddressingModel

def all : List AddressingModel := [logical, physical32, physical64, physicalStorageBuffer64]

def name : AddressingModel → String
  | logical => "Logical"
  | physical32 => "Physical32"
  | physical64 => "Physical64"
  | physicalStorageBuffer64 => "PhysicalStorageBuffer64"

instance : Vocabulary AddressingModel where
  all := all
  name := name
  mem_all value := by cases value <;> decide
  nodup_names := by decide

def ofName? : String → Option AddressingModel := Vocabulary.ofName?

end AddressingModel

end Spirv
