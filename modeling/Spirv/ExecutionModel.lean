import Spirv.Vocabulary

/-!
# Execution models

The stage or kind of program that an entry point starts.
-/

namespace Spirv

inductive ExecutionModel where
  | vertex
  | tessellationControl
  | tessellationEvaluation
  | geometry
  | fragment
  | glCompute
  | kernel
  | taskNV
  | meshNV
  | rayGenerationNV
  | intersectionNV
  | anyHitNV
  | closestHitNV
  | missNV
  | callableNV
  deriving DecidableEq, Repr

namespace ExecutionModel

def all : List ExecutionModel :=
  [vertex, tessellationControl, tessellationEvaluation, geometry, fragment, glCompute, kernel,
    taskNV, meshNV, rayGenerationNV, intersectionNV, anyHitNV, closestHitNV, missNV, callableNV]

def name : ExecutionModel → String
  | vertex => "Vertex"
  | tessellationControl => "TessellationControl"
  | tessellationEvaluation => "TessellationEvaluation"
  | geometry => "Geometry"
  | fragment => "Fragment"
  | glCompute => "GLCompute"
  | kernel => "Kernel"
  | taskNV => "TaskNV"
  | meshNV => "MeshNV"
  | rayGenerationNV => "RayGenerationNV"
  | intersectionNV => "IntersectionNV"
  | anyHitNV => "AnyHitNV"
  | closestHitNV => "ClosestHitNV"
  | missNV => "MissNV"
  | callableNV => "CallableNV"

instance : Vocabulary ExecutionModel where
  all := all
  name := name
  mem_all value := by cases value <;> decide
  nodup_names := by decide

def ofName? : String → Option ExecutionModel := Vocabulary.ofName?

end ExecutionModel

end Spirv
