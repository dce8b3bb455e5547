import Spirv.Module

/-!
# Sites

A rule judges an instruction where it stands in the module. Positions count every body
instruction, so they do not depend on which instructions the rules look at.
-/

namespace Spirv

/-- A body instruction in the function with id `function`, at position `index` among all body
instructions of the module. -/
structure Site where
  inst : Instruction
  function : Ident
  index : Nat
  deriving DecidableEq, Repr

def Site.opcode (site : Site) : Opcode := site.inst.opcode

/-- The body instructions of a function, each with the id of the function; none for a function
without an id. -/
def Function.bodyWithId (function : Function) : List (Ident × Instruction) :=
  match function.id? with
  | none => []
  | some id => function.body.map fun inst => (id, inst)

def Site.ofFunctions (functions : List Function) : List Site :=
  (functions.flatMap Function.bodyWithId).mapIdx fun index (function, inst) =>
    ⟨inst, function, index⟩

/-- What a diagnostic keeps of a site. -/
structure Location where
  opcode : Opcode
  resultId : Option Ident
  function : Ident
  index : Nat
  deriving DecidableEq, Repr

def Site.location (site : Site) : Location :=
  ⟨site.opcode, site.inst.resultId, site.function, site.index⟩

/-- A site stands at the position that it names. -/
theorem Site.index_of_getElem?_ofFunctions {functions : List Function} {position : Nat} {site : Site}
    (found : (ofFunctions functions)[position]? = some site) : site.index = position := by
  simp only [ofFunctions, List.getElem?_mapIdx, Option.map_eq_some_iff] at found
  obtain ⟨_, _, rfl⟩ := found
  rfl

end Spirv
