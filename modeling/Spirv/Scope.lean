import Spirv.Vocabulary

/-!
# Scopes

How far a barrier's synchronisation or memory effect extends. A scope operand holds a number;
the scopes are numbered from zero, without gaps.
-/

namespace Spirv

inductive Scope where
  | crossDevice
  | device
  | workgroup
  | subgroup
  | invocation
  | queueFamily
  | shaderCall
  deriving DecidableEq, Repr

namespace Scope

/-- The scopes in the order of their numbers. -/
def all : List Scope :=
  [crossDevice, device, workgroup, subgroup, invocation, queueFamily, shaderCall]

/-- A number past the last scope stands for none. -/
def ofWord? (value : Word) : Option Scope := all[value.toNat]?

def number : Scope → Word
  | crossDevice => 0
  | device => 1
  | workgroup => 2
  | subgroup => 3
  | invocation => 4
  | queueFamily => 5
  | shaderCall => 6

def name : Scope → String
  | crossDevice => "CrossDevice"
  | device => "Device"
  | workgroup => "Workgroup"
  | subgroup => "Subgroup"
  | invocation => "Invocation"
  | queueFamily => "QueueFamily"
  | shaderCall => "ShaderCallKHR"

instance : Vocabulary Scope where
  all := all
  name := name
  mem_all value := by cases value <;> decide
  nodup_names := by decide

def ofName? : String → Option Scope := Vocabulary.ofName?

theorem ofWord?_eq_none_iff (value : Word) : ofWord? value = none ↔ 6 < value.toNat :=
  List.getElem?_eq_none_iff

theorem number_inj {scope other : Scope} : scope.number = other.number ↔ scope = other := by
  cases scope <;> cases other <;> decide

/-- The numbers up to 6 are the numbers of scopes. -/
theorem exists_number_eq_iff {value : Word} : (∃ scope : Scope, scope.number = value) ↔ value ≤ 6 := by
  constructor
  · rintro ⟨scope, rfl⟩
    cases scope <;> decide
  · intro small
    have bound : value.toNat ≤ 6 := small
    have cases : value = 0 ∨ value = 1 ∨ value = 2 ∨ value = 3 ∨ value = 4 ∨ value = 5 ∨
        value = 6 := by
      simp only [← UInt32.toNat_inj, UInt32.reduceToNat]
      omega
    rcases cases with rfl | rfl | rfl | rfl | rfl | rfl | rfl
    · exact ⟨crossDevice, rfl⟩
    · exact ⟨device, rfl⟩
    · exact ⟨workgroup, rfl⟩
    · exact ⟨subgroup, rfl⟩
    · exact ⟨invocation, rfl⟩
    · exact ⟨queueFamily, rfl⟩
    · exact ⟨shaderCall, rfl⟩

theorem ofWord?_number (scope : Scope) : ofWord? scope.number = some scope := by
  cases scope <;> rfl

theorem ofWord?_eq_some_iff {value : Word} {scope : Scope} :
    ofWord? value = some scope ↔ value = scope.number := by
  constructor
  · intro found
    have small : value.toNat ≤ 6 := by
      by_cases past : 6 < value.toNat
      · cases found.symm.trans ((ofWord?_eq_none_iff value).mpr past)
      · omega
    obtain ⟨other, rfl⟩ := exists_number_eq_iff.mpr small
    cases found.symm.trans other.ofWord?_number
    rfl
  · rintro rfl
    exact scope.ofWord?_number

end Scope

end Spirv
