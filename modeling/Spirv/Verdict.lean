import Spirv.Diagnostic

/-!
# Sequences of checks

Checks are made one after the other, and the first that fails decides: no later one is made.
`all_eq_ok_iff` and `all_eq_error_iff` say when a sequence passes and which failure it reports.
-/

namespace Spirv

abbrev Verdict := Except Diagnostic Unit

/-- Accepts a list if the check accepts each member; otherwise the first failure counts. -/
def Verdict.all (check : α → Verdict) : List α → Verdict
  | [] => .ok ()
  | first :: rest =>
    match check first with
    | .error diagnostic => .error diagnostic
    | .ok () => all check rest

namespace Verdict

variable {check : α → Verdict}

@[simp] theorem all_nil : all check [] = .ok () := rfl

theorem all_cons_ok {first : α} {rest : List α} (passes : check first = .ok ()) :
    all check (first :: rest) = all check rest := by
  simp [all, passes]

theorem all_cons_error {first : α} {rest : List α} {diagnostic : Diagnostic}
    (fails : check first = .error diagnostic) :
    all check (first :: rest) = .error diagnostic := by
  simp [all, fails]

theorem all_eq_ok_iff {list : List α} :
    all check list = .ok () ↔ ∀ member ∈ list, check member = .ok () := by
  induction list with
  | nil => simp
  | cons first rest step =>
    cases verdict : check first with
    | error diagnostic => simp [all_cons_error verdict, verdict]
    | ok passed => simp [all_cons_ok verdict, step, verdict]

/-- A failure is that of a member before which every member passes. -/
theorem all_eq_error_iff {list : List α} {diagnostic : Diagnostic} :
    all check list = .error diagnostic ↔
      ∃ before failing after, list = before ++ failing :: after ∧
        check failing = .error diagnostic ∧ ∀ member ∈ before, check member = .ok () := by
  induction list with
  | nil => simp
  | cons first rest step =>
    cases verdict : check first with
    | error found =>
      rw [all_cons_error verdict]
      constructor
      · rintro ⟨⟩
        exact ⟨[], first, rest, rfl, verdict, by simp⟩
      · intro split
        obtain ⟨before, failing, after, split, fails, passes⟩ := split
        cases before with
        | nil =>
          obtain ⟨rfl, -⟩ := List.cons.inj split
          exact verdict.symm.trans fails
        | cons head tail =>
          obtain ⟨rfl, -⟩ := List.cons.inj split
          cases verdict.symm.trans (passes first List.mem_cons_self)
    | ok passed =>
      rw [all_cons_ok verdict, step]
      constructor
      · intro split
        obtain ⟨before, failing, after, rfl, fails, passes⟩ := split
        exact ⟨first :: before, failing, after, rfl, fails,
          List.forall_mem_cons.mpr ⟨verdict, passes⟩⟩
      · intro split
        obtain ⟨before, failing, after, split, fails, passes⟩ := split
        cases before with
        | nil =>
          obtain ⟨rfl, -⟩ := List.cons.inj split
          cases verdict.symm.trans fails
        | cons head tail =>
          obtain ⟨rfl, rfl⟩ := List.cons.inj split
          exact ⟨tail, failing, after, rfl, fails, (List.forall_mem_cons.mp passes).2⟩

theorem all_congr {other : α → Verdict} {list : List α}
    (same : ∀ member ∈ list, check member = other member) : all check list = all other list := by
  induction list with
  | nil => rfl
  | cons first rest step =>
    obtain ⟨here, there⟩ := List.forall_mem_cons.mp same
    rw [all, all, here, step there]

theorem all_map (f : β → α) (list : List β) :
    all check (list.map f) = all (fun member => check (f member)) list := by
  induction list with
  | nil => rfl
  | cons first rest step => rw [List.map_cons, all, all, step]

theorem all_append (before after : List α) :
    all check (before ++ after) =
      match all check before with
      | .error diagnostic => .error diagnostic
      | .ok () => all check after := by
  induction before with
  | nil => rfl
  | cons first rest step =>
    cases verdict : check first with
    | error diagnostic => simp [all_cons_error verdict]
    | ok passed => simp [all_cons_ok verdict, step]

/-- Members that pass anyway need not be checked. -/
theorem all_filter {keep : α → Bool} (list : List α)
    (passes : ∀ member ∈ list, keep member = false → check member = .ok ()) :
    all check (list.filter keep) = all check list := by
  induction list with
  | nil => rfl
  | cons first rest step =>
    obtain ⟨here, there⟩ := List.forall_mem_cons.mp passes
    cases kept : keep first with
    | false => rw [List.filter_cons_of_neg (by simp [kept]), step there, all_cons_ok (here kept)]
    | true => rw [List.filter_cons_of_pos kept, all, all, step there]

/-- Checks on lists that are made one list after the other are one sequence of checks. -/
theorem all_flatMap (f : β → List α) (list : List β) :
    all check (list.flatMap f) = all (fun member => all check (f member)) list := by
  induction list with
  | nil => rfl
  | cons first rest step => rw [List.flatMap_cons, all_append, all, step]

end Verdict

/-- What a sequence of checks did: the checks made, in order, and the verdict. -/
structure Run (α : Type) where
  made : List α
  verdict : Verdict

def Run.of (check : α → Verdict) : List α → Run α
  | [] => ⟨[], .ok ()⟩
  | first :: rest =>
    match check first with
    | .error diagnostic => ⟨[first], .error diagnostic⟩
    | .ok () => ⟨first :: (of check rest).made, (of check rest).verdict⟩

theorem Run.of_cons_error {check : α → Verdict} {first : α} {rest : List α}
    {diagnostic : Diagnostic} (fails : check first = .error diagnostic) :
    Run.of check (first :: rest) = ⟨[first], .error diagnostic⟩ := by
  simp [of, fails]

theorem Run.of_cons_ok {check : α → Verdict} {first : α} {rest : List α}
    (passes : check first = .ok ()) :
    Run.of check (first :: rest) = ⟨first :: (of check rest).made, (of check rest).verdict⟩ := by
  simp [of, passes]

/-- The last check is made and decides. -/
theorem Run.of_singleton (check : α → Verdict) (last : α) :
    Run.of check [last] = ⟨[last], check last⟩ := by
  cases verdict : check last <;> simp [of, verdict]

@[simp] theorem Run.verdict_of (check : α → Verdict) (list : List α) :
    (Run.of check list).verdict = Verdict.all check list := by
  induction list with
  | nil => rfl
  | cons first rest step => cases verdict : check first <;> simp [of, Verdict.all, verdict, step]

end Spirv
