import Spirv.Vocabulary

/-!
# Capabilities

A module declares the features it relies on. Two of them decide barrier rules; any other
is carried by its name.
-/

namespace Spirv

inductive Capability where
  | shader
  | vulkanMemoryModel
  | other (name : String)
  deriving DecidableEq, Repr

namespace Capability

/-- The capabilities with a constructor of their own. -/
def known : List Capability := [shader, vulkanMemoryModel]

def name : Capability → String
  | shader => "Shader"
  | vulkanMemoryModel => "VulkanMemoryModel"
  | other name => name

def ofName (text : String) : Capability := (findNamed? name known text).getD (other text)

@[simp] theorem name_ofName (text : String) : (ofName text).name = text :=
  name_getD_findNamed? rfl

end Capability

end Spirv
