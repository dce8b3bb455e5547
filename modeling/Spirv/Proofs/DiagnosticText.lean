import Spirv.Diagnostic

/-!
# The text of a diagnostic

A message may look like a position or like a diagnostic of its own, so the text is told apart from
the front: no phrase holds a colon or a dash (`breaksAt_lead`), and a position ends with its digits
(`breaksAt_digits`).
-/
namespace Spirv

structure BreaksAt (test : α → Bool) (before after : List α) : Prop where
  before : ∀ member ∈ before, test member = true
  after : ∀ member ∈ after.head?, test member = false

namespace BreaksAt

variable {test : α → Bool} {before before' after after' : List α}

theorem takeWhile_append (breaks : BreaksAt test before after) :
    (before ++ after).takeWhile test = before := by
  rw [List.takeWhile_append_of_pos breaks.before]
  cases after with
  | nil => simp
  | cons first rest => simp [breaks.after first rfl]

/-- A list breaks in one way. -/
theorem append_eq_append_iff (breaks : BreaksAt test before after)
    (breaks' : BreaksAt test before' after') :
    before ++ after = before' ++ after' ↔ before = before' ∧ after = after' := by
  constructor
  · intro same
    have first : before = before' := by
      rw [← breaks.takeWhile_append, same, breaks'.takeWhile_append]
    subst first
    exact ⟨rfl, List.append_cancel_left same⟩
  · rintro ⟨rfl, rfl⟩
    rfl

end BreaksAt

/-- Decimal digits are read back. -/
theorem toDigits_inj {number number' : Nat} :
    Nat.toDigits 10 number = Nat.toDigits 10 number' ↔ number = number' := by
  constructor
  · intro same
    have read := congrArg (fun digits => Nat.ofDigitChars 10 digits 0) same
    simpa using read
  · rintro rfl
    rfl

theorem FailureKind.phrase_injective {kind kind' : FailureKind} (same : kind.phrase = kind'.phrase) :
    kind = kind' := by
  revert same
  cases kind <;> cases kind' <;> decide

namespace Diagnostic

/-- A colon comes before a position and a dash before a message; neither is part of a phrase. -/
def inPhrase (letter : Char) : Bool := letter ≠ ':' && letter ≠ '-'

/-- The text before the first colon or dash. A blank comes before a dash. -/
def lead (kind : FailureKind) : Option Nat → List Char
  | none => kind.phrase.toList ++ [' ']
  | some _ => kind.phrase.toList

def dashed (message : String) : List Char := '-' :: ' ' :: message.toList

def remainder (message : String) : Option Nat → List Char
  | none => dashed message
  | some index => ':' :: (Nat.toDigits 10 index ++ ' ' :: dashed message)

def index? (diagnostic : Diagnostic) : Option Nat := diagnostic.location.map Location.index

theorem index?_eq_index?_iff {first second : Diagnostic} : first.index? = second.index? ↔
    first.location = none ∧ second.location = none ∨
      ∃ here there, first.location = some here ∧ second.location = some there ∧
        here.index = there.index := by
  unfold index?
  cases first.location <;> cases second.location <;> simp

theorem toList_render (diagnostic : Diagnostic) : diagnostic.render.toList =
    lead diagnostic.kind diagnostic.index? ++ remainder diagnostic.message diagnostic.index? := by
  unfold render index?
  cases diagnostic.location with
  | none => simp [position, lead, remainder, dashed]
  | some location => simp [position, lead, remainder, dashed]

variable {kind kind' : FailureKind} {shown shown' : Option Nat} {message message' : String}

theorem all_inPhrase (kind : FailureKind) : kind.phrase.toList.all inPhrase = true := by
  cases kind <;> decide

theorem breaksAt_lead (kind : FailureKind) (message : String) (shown : Option Nat) :
    BreaksAt inPhrase (lead kind shown) (remainder message shown) := by
  have phrase := List.all_eq_true.mp (all_inPhrase kind)
  cases shown with
  | none =>
    refine ⟨fun letter member => ?_, by simp [remainder, dashed, inPhrase]⟩
    rcases List.mem_append.mp member with ofPhrase | blank
    · exact phrase letter ofPhrase
    · rw [List.mem_singleton.mp blank]
      rfl
  | some index => exact ⟨phrase, by simp [remainder, inPhrase]⟩

theorem breaksAt_digits (index : Nat) (message : String) :
    BreaksAt Char.isDigit (Nat.toDigits 10 index) (' ' :: dashed message) where
  before _ digit := Nat.isDigit_of_mem_toDigits (by decide) (by decide) digit
  after _ first := by
    cases first
    rfl

theorem lead_inj : lead kind shown = lead kind' shown ↔ kind = kind' := by
  constructor
  · intro same
    apply FailureKind.phrase_injective
    cases shown with
    | none => exact String.toList_inj.mp (List.append_cancel_right same)
    | some index => exact String.toList_inj.mp same
  · rintro rfl
    rfl

theorem dashed_inj : dashed message = dashed message' ↔ message = message' := by
  simp [dashed, String.toList_inj]

theorem remainder_inj : remainder message shown = remainder message' shown' ↔
    message = message' ∧ shown = shown' := by
  cases shown with
  | none =>
    cases shown' with
    | none => simp [remainder, dashed_inj]
    | some index' => simp [remainder, dashed]
  | some index =>
    cases shown' with
    | none => simp [remainder, dashed]
    | some index' =>
      have broken := (breaksAt_digits index message).append_eq_append_iff
        (breaksAt_digits index' message')
      simp [remainder, broken, toDigits_inj, dashed_inj, and_comm]

/-- The text comes apart into kind, message and index in one way. -/
theorem lead_append_remainder_inj :
    lead kind shown ++ remainder message shown = lead kind' shown' ++ remainder message' shown' ↔
      kind = kind' ∧ message = message' ∧ shown = shown' := by
  rw [(breaksAt_lead kind message shown).append_eq_append_iff (breaksAt_lead kind' message' shown'),
    remainder_inj]
  constructor
  · rintro ⟨sameLead, sameMessage, rfl⟩
    exact ⟨lead_inj.mp sameLead, sameMessage, rfl⟩
  · rintro ⟨sameKind, sameMessage, rfl⟩
    exact ⟨lead_inj.mpr sameKind, sameMessage, rfl⟩

/-- Diagnostics have the same text exactly if they have the same kind, the same message, and either
both no location or both one with the same index. -/
theorem render_eq_render_iff (first second : Diagnostic) :
    first.render = second.render ↔ first.kind = second.kind ∧ first.message = second.message ∧
      (first.location = none ∧ second.location = none ∨
        ∃ here there, first.location = some here ∧ second.location = some there ∧
          here.index = there.index) := by
  rw [← String.toList_inj, toList_render, toList_render, lead_append_remainder_inj,
    index?_eq_index?_iff]

end Diagnostic

end Spirv
