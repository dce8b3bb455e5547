/-!
# Words and names

A module is a stream of 32-bit words, some of which are ids. The values of its enumerations
also go by names, and one lookup reads the names of all of them.
-/

namespace Spirv

abbrev Word := UInt32

/-- A word that stands for the result of an instruction. -/
abbrev Ident := Word

section Lookup

variable {α : Type} {name : α → String} {values : List α} {value : α} {text : String}

def findNamed? (name : α → String) (values : List α) (text : String) : Option α :=
  values.find? fun value => name value = text

theorem name_of_findNamed? (found : findNamed? name values text = some value) :
    name value = text := by
  simpa using List.find?_some found

theorem findNamed?_name (distinct : (values.map name).Nodup) (member : value ∈ values) :
    findNamed? name values (name value) = some value := by
  induction values with
  | nil => contradiction
  | cons first rest ih =>
    obtain ⟨fresh, distinct⟩ := List.nodup_cons.mp distinct
    rcases List.mem_cons.mp member with rfl | member
    · simp [findNamed?]
    · have other : name first ≠ name value :=
        fun same => fresh (same ▸ List.mem_map_of_mem member)
      simpa [findNamed?, other] using ih distinct member

/-- Where unlisted names have a value too, reading a name loses nothing of it. -/
theorem name_getD_findNamed? (unlisted : name value = text) :
    name ((findNamed? name values text).getD value) = text := by
  cases found : findNamed? name values text with
  | none => exact unlisted
  | some listed => exact name_of_findNamed? found

end Lookup

/-- An enumeration: finitely many values, each under a name of its own. -/
class Vocabulary (α : Type) where
  all : List α
  name : α → String
  mem_all : ∀ value, value ∈ all
  nodup_names : (all.map name).Nodup

namespace Vocabulary

variable {α : Type} [Vocabulary α]

def ofName? (text : String) : Option α := findNamed? name all text

@[simp] theorem ofName?_name (value : α) : ofName? (name value) = some value :=
  findNamed?_name nodup_names (mem_all value)

end Vocabulary

end Spirv
