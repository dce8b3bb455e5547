import Spirv.Vocabulary

/-!
# Target environments

The client interface that a module is checked for. A target fixes the highest SPIR-V version
it accepts, and some rules hold in Vulkan targets only.
-/

namespace Spirv

structure Version where
  major : Nat
  minor : Nat
  deriving DecidableEq, Repr

namespace Version

/-- Versions are ordered by major number first. -/
instance : LT Version where
  lt a b := a.major < b.major ∨ (a.major = b.major ∧ a.minor < b.minor)

theorem lt_def {a b : Version} :
    a < b ↔ a.major < b.major ∨ (a.major = b.major ∧ a.minor < b.minor) := Iff.rfl

instance (a b : Version) : Decidable (a < b) :=
  decidable_of_iff _ lt_def.symm

end Version

inductive Target where
  | universal1_0
  | universal1_1
  | universal1_2
  | universal1_3
  | universal1_4
  | universal1_5
  | vulkan1_0
  | vulkan1_1
  /-- Vulkan 1.1 with the extension that accepts SPIR-V 1.4. -/
  | vulkan1_1Spirv1_4
  | vulkan1_2
  | openCL1_2
  | openCLEmbedded1_2
  | openCL2_0
  | openCLEmbedded2_0
  | openCL2_1
  | openCLEmbedded2_1
  | openCL2_2
  | openCLEmbedded2_2
  | openGL4_0
  | openGL4_1
  | openGL4_2
  | openGL4_3
  | openGL4_5
  | webGPU0
  deriving DecidableEq, Repr

namespace Target

def all : List Target :=
  [universal1_0, universal1_1, universal1_2, universal1_3, universal1_4, universal1_5,
    vulkan1_0, vulkan1_1, vulkan1_1Spirv1_4, vulkan1_2,
    openCL1_2, openCLEmbedded1_2, openCL2_0, openCLEmbedded2_0, openCL2_1, openCLEmbedded2_1,
    openCL2_2, openCLEmbedded2_2,
    openGL4_0, openGL4_1, openGL4_2, openGL4_3, openGL4_5, webGPU0]

/-- The target taken when none is named. -/
instance : Inhabited Target := ⟨universal1_5⟩

def name : Target → String
  | universal1_0 => "Universal_1_0"
  | universal1_1 => "Universal_1_1"
  | universal1_2 => "Universal_1_2"
  | universal1_3 => "Universal_1_3"
  | universal1_4 => "Universal_1_4"
  | universal1_5 => "Universal_1_5"
  | vulkan1_0 => "Vulkan_1_0"
  | vulkan1_1 => "Vulkan_1_1"
  | vulkan1_1Spirv1_4 => "Vulkan_1_1_Spirv_1_4"
  | vulkan1_2 => "Vulkan_1_2"
  | openCL1_2 => "OpenCL_1_2"
  | openCLEmbedded1_2 => "OpenCLEmbedded_1_2"
  | openCL2_0 => "OpenCL_2_0"
  | openCLEmbedded2_0 => "OpenCLEmbedded_2_0"
  | openCL2_1 => "OpenCL_2_1"
  | openCLEmbedded2_1 => "OpenCLEmbedded_2_1"
  | openCL2_2 => "OpenCL_2_2"
  | openCLEmbedded2_2 => "OpenCLEmbedded_2_2"
  | openGL4_0 => "OpenGL_4_0"
  | openGL4_1 => "OpenGL_4_1"
  | openGL4_2 => "OpenGL_4_2"
  | openGL4_3 => "OpenGL_4_3"
  | openGL4_5 => "OpenGL_4_5"
  | webGPU0 => "WebGPU_0"

instance : Vocabulary Target where
  all := all
  name := name
  mem_all value := by cases value <;> decide
  nodup_names := by decide

def ofName? : String → Option Target := Vocabulary.ofName?

def version : Target → Version
  | universal1_0 | vulkan1_0 | openCL1_2 | openCLEmbedded1_2 | openCL2_0 | openCLEmbedded2_0
  | openCL2_1 | openCLEmbedded2_1 | openGL4_0 | openGL4_1 | openGL4_2 | openGL4_3
  | openGL4_5 => ⟨1, 0⟩
  | universal1_1 => ⟨1, 1⟩
  | universal1_2 | openCL2_2 | openCLEmbedded2_2 => ⟨1, 2⟩
  | universal1_3 | vulkan1_1 | webGPU0 => ⟨1, 3⟩
  | universal1_4 | vulkan1_1Spirv1_4 => ⟨1, 4⟩
  | universal1_5 | vulkan1_2 => ⟨1, 5⟩

def isVulkan : Target → Bool
  | vulkan1_0 | vulkan1_1 | vulkan1_1Spirv1_4 | vulkan1_2 => true
  | _ => false

end Target

end Spirv
