/-!
# Ordered maps

A finite map that lists its keys in the order in which they were first given a value. Its two
views are `keys` and `get?`; `keys_alter` and `get?_alter` say what a change does to them.
-/

namespace Spirv

structure OrderedMap (κ : Type u) (α : Type v) where
  entries : List (κ × α)
  nodup_keys : (entries.map Prod.fst).Nodup

namespace OrderedMap

variable {κ : Type u} {α : Type v}

def empty : OrderedMap κ α := ⟨[], .nil⟩

instance : EmptyCollection (OrderedMap κ α) := ⟨empty⟩

instance : Inhabited (OrderedMap κ α) := ⟨∅⟩

def keys (map : OrderedMap κ α) : List κ := map.entries.map Prod.fst

def isEmpty (map : OrderedMap κ α) : Bool := map.entries.isEmpty

@[simp] theorem keys_empty : (∅ : OrderedMap κ α).keys = [] := rfl

theorem isEmpty_iff (map : OrderedMap κ α) : map.isEmpty = true ↔ map.keys = [] := by
  simp [isEmpty, keys]

variable [DecidableEq κ]

def get? (map : OrderedMap κ α) (key : κ) : Option α := map.entries.lookup key

/-- Changes the value beside `key` by `change`, which is told whether there was one; a new key
goes to the end. -/
def alterEntries (key : κ) (change : Option α → α) : List (κ × α) → List (κ × α)
  | [] => [(key, change none)]
  | (other, value) :: rest =>
    if other = key then (other, change (some value)) :: rest
    else (other, value) :: alterEntries key change rest

theorem keys_alterEntries (key : κ) (change : Option α → α) (entries : List (κ × α)) :
    (alterEntries key change entries).map Prod.fst =
      if key ∈ entries.map Prod.fst then entries.map Prod.fst
      else entries.map Prod.fst ++ [key] := by
  induction entries with
  | nil => rfl
  | cons entry rest step =>
    obtain ⟨other, value⟩ := entry
    by_cases same : other = key
    · simp [alterEntries, same]
    · simp only [alterEntries, same, if_false, List.map_cons, step, List.mem_cons,
        Ne.symm same, false_or]
      split <;> rfl

theorem lookup_alterEntries (key other : κ) (change : Option α → α)
    (entries : List (κ × α)) :
    (alterEntries key change entries).lookup other =
      if other = key then some (change (entries.lookup key)) else entries.lookup other := by
  induction entries with
  | nil => by_cases same : other = key <;> simp [alterEntries, same]
  | cons entry rest step =>
    obtain ⟨first, value⟩ := entry
    by_cases here : first = key
    · subst here
      by_cases same : other = first
      · simp [alterEntries, same]
      · simp [alterEntries, same, List.lookup_cons, beq_false_of_ne same]
    · by_cases same : other = key
      · subst same
        simp [alterEntries, here, List.lookup_cons, beq_false_of_ne (Ne.symm here), step]
      · simp [alterEntries, here, List.lookup_cons, step, same]

def alter (map : OrderedMap κ α) (key : κ) (change : Option α → α) : OrderedMap κ α where
  entries := alterEntries key change map.entries
  nodup_keys := by
    rw [keys_alterEntries]
    split
    · exact map.nodup_keys
    next absent =>
      exact List.nodup_append.mpr ⟨map.nodup_keys, by simp, fun key member other last same =>
        absent (by simpa [same, List.mem_singleton.mp last] using member)⟩

def insert (map : OrderedMap κ α) (key : κ) (value : α) : OrderedMap κ α :=
  map.alter key fun _ => value

/-- Inserts pairs in order, so a repeated key keeps its first place and takes its last value. -/
def ofList (pairs : List (κ × α)) : OrderedMap κ α :=
  pairs.foldl (fun map pair => map.insert pair.1 pair.2) ∅

@[simp] theorem get?_empty (key : κ) : (∅ : OrderedMap κ α).get? key = none := rfl

theorem keys_alter (map : OrderedMap κ α) (key : κ) (change : Option α → α) :
    (map.alter key change).keys = if key ∈ map.keys then map.keys else map.keys ++ [key] :=
  keys_alterEntries key change map.entries

theorem get?_alter (map : OrderedMap κ α) (key other : κ) (change : Option α → α) :
    (map.alter key change).get? other =
      if other = key then some (change (map.get? key)) else map.get? other :=
  lookup_alterEntries key other change map.entries

theorem keys_insert (map : OrderedMap κ α) (key : κ) (value : α) :
    (map.insert key value).keys = if key ∈ map.keys then map.keys else map.keys ++ [key] :=
  keys_alter map key _

theorem get?_insert (map : OrderedMap κ α) (key other : κ) (value : α) :
    (map.insert key value).get? other = if other = key then some value else map.get? other :=
  get?_alter map key other _

theorem mem_keys_iff (map : OrderedMap κ α) (key : κ) :
    key ∈ map.keys ↔ (map.get? key).isSome := by
  unfold keys get?
  induction map.entries with
  | nil => simp
  | cons entry rest step =>
    by_cases same : key = entry.1
    · simp [same]
    · obtain ⟨first, value⟩ := entry
      simp only [List.map_cons, List.mem_cons, same, false_or, List.lookup_cons,
        beq_false_of_ne same, step]

/-- A run of changes appends the keys that are new, each once and in the order they come. -/
theorem keys_foldl_alter (key : β → κ) (change : β → Option α → α) (items : List β)
    (map : OrderedMap κ α) :
    (items.foldl (fun map item => map.alter (key item) (change item)) map).keys =
      map.keys ++ ((items.map key).filter fun key => key ∉ map.keys).eraseDups := by
  induction items generalizing map with
  | nil => simp
  | cons item rest step =>
    rw [List.foldl_cons, step, keys_alter, List.map_cons]
    by_cases old : key item ∈ map.keys
    · simp [old]
    · simp only [old, if_false, List.filter_cons, not_false_eq_true, decide_true, if_true,
        List.eraseDups_cons, List.filter_filter, List.append_assoc, List.singleton_append]
      congr 3
      refine List.filter_congr fun other _ => ?_
      simp [and_comm, Bool.beq_eq_decide_eq]

/-- A run of changes acts on each key by the changes that are for that key. -/
theorem get?_foldl_alter (key : β → κ) (change : β → Option α → α) (items : List β)
    (map : OrderedMap κ α) (wanted : κ) :
    (items.foldl (fun map item => map.alter (key item) (change item)) map).get? wanted =
      items.foldl (fun value item => if wanted = key item then some (change item value) else value)
        (map.get? wanted) := by
  induction items generalizing map with
  | nil => rfl
  | cons item rest step =>
    rw [List.foldl_cons, List.foldl_cons, step, get?_alter]
    by_cases same : wanted = key item <;> simp [same]

theorem keys_ofList (pairs : List (κ × α)) :
    (ofList pairs).keys = (pairs.map Prod.fst).eraseDups := by
  have laid := keys_foldl_alter Prod.fst (fun pair _ => pair.2) pairs (∅ : OrderedMap κ α)
  rw [keys_empty, List.nil_append, List.filter_eq_self.mpr (by simp)] at laid
  exact laid

/-- Of the values given to a key the last stays. -/
theorem get?_ofList (pairs : List (κ × α)) (key : κ) :
    (ofList pairs).get? key = (pairs.findRev? fun pair => pair.1 = key).map Prod.snd := by
  suffices run : ∀ held : Option α,
      pairs.foldl (fun value pair => if key = pair.1 then some pair.2 else value) held =
        ((pairs.findRev? fun pair => pair.1 = key).map Prod.snd).or held by
    have laid := get?_foldl_alter Prod.fst (fun pair _ => pair.2) pairs (∅ : OrderedMap κ α) key
    rw [run, get?_empty, Option.or_none] at laid
    exact laid
  induction pairs with
  | nil => intro held; rfl
  | cons pair rest step =>
    intro held
    rw [List.foldl_cons, step, List.findRev?]
    cases later : rest.findRev? fun pair => pair.1 = key with
    | some found => rfl
    | none => by_cases same : key = pair.1 <;> simp [same, eq_comm]

end OrderedMap

end Spirv
