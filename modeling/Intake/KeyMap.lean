/-!
# Finite maps by key

A finite map is the list of its entries, in the order in which their keys first arrived, with no
key listed twice.  Lookup, replacement and removal are described through `get?`, which is the only
view the rest of the library reasons with; `size` counts the keys.
-/

namespace Intake

/-- A finite map kept as its entries in order of arrival. -/
structure KeyMap (Key : Type u) (Value : Type v) where
  /-- The entries, oldest key first. -/
  entries : List (Key × Value)
  /-- No key has two entries. -/
  nodup : (entries.map Prod.fst).Nodup

namespace KeyMap

variable {Key : Type u} {Value : Type v}

/-- The map without entries. -/
def empty : KeyMap Key Value := ⟨[], List.nodup_nil⟩

instance : EmptyCollection (KeyMap Key Value) := ⟨empty⟩

instance : Inhabited (KeyMap Key Value) := ⟨empty⟩

/-- The keys, oldest first. -/
def keys (map : KeyMap Key Value) : List Key := map.entries.map Prod.fst

/-- The values, in the order of their keys. -/
def values (map : KeyMap Key Value) : List Value := map.entries.map Prod.snd

/-- Changes every value. -/
def mapValues {Other : Type w} (change : Value → Other) (map : KeyMap Key Value) :
    KeyMap Key Other :=
  ⟨map.entries.map fun entry => (entry.1, change entry.2), by
    simpa [Function.comp_def] using map.nodup⟩

/-- Number of keys. -/
def size (map : KeyMap Key Value) : Nat := map.entries.length

/-- Whether no key is present. -/
def isEmpty (map : KeyMap Key Value) : Bool := map.entries.isEmpty

section Operations

variable [DecidableEq Key]

/-- The value of the first entry for a key. -/
def find (key : Key) : List (Key × Value) → Option Value
  | [] => none
  | (other, value) :: rest => if other = key then some value else find key rest

/-- Entries with the value of one key replaced, or the key added at the end. -/
def put (key : Key) (value : Value) : List (Key × Value) → List (Key × Value)
  | [] => [(key, value)]
  | (other, old) :: rest =>
      if other = key then (key, value) :: rest else (other, old) :: put key value rest

/-- Entries without those of one key. -/
def drop (key : Key) (entries : List (Key × Value)) : List (Key × Value) :=
  entries.filter fun entry => entry.1 ≠ key

theorem mem_keys_put {key other : Key} {value : Value} {entries : List (Key × Value)} :
    other ∈ (put key value entries).map Prod.fst ↔
      other = key ∨ other ∈ entries.map Prod.fst := by
  induction entries with
  | nil => simp [put]
  | cons entry rest ih =>
      obtain ⟨name, old⟩ := entry
      by_cases same : name = key
      · subst same
        simp [put]
      · simp only [put, same, if_false, List.map_cons, List.mem_cons, ih]
        constructor
        · rintro (h | h | h) <;> simp [h]
        · rintro (h | h | h) <;> simp [h]

theorem nodup_put {key : Key} {value : Value} {entries : List (Key × Value)}
    (distinct : (entries.map Prod.fst).Nodup) :
    ((put key value entries).map Prod.fst).Nodup := by
  induction entries with
  | nil => simp [put]
  | cons entry rest ih =>
      obtain ⟨name, old⟩ := entry
      simp only [List.map_cons, List.nodup_cons] at distinct
      by_cases same : name = key
      · subst same
        simpa [put] using distinct
      · simp only [put, same, if_false, List.map_cons, List.nodup_cons, mem_keys_put]
        exact ⟨by simpa using distinct.1, ih distinct.2⟩

theorem nodup_drop {key : Key} {entries : List (Key × Value)}
    (distinct : (entries.map Prod.fst).Nodup) :
    ((drop key entries).map Prod.fst).Nodup :=
  distinct.sublist (List.Sublist.map _ List.filter_sublist)

theorem find_put (key other : Key) (value : Value) (entries : List (Key × Value)) :
    find other (put key value entries) =
      if key = other then some value else find other entries := by
  induction entries with
  | nil => simp [put, find]
  | cons entry rest ih =>
      obtain ⟨name, old⟩ := entry
      by_cases same : name = key
      · subst same
        simp only [put, if_true, find]
        split <;> rfl
      · simp only [put, same, if_false, find, ih]
        by_cases this : name = other
        · subst this
          simp [Ne.symm same]
        · simp [this]

theorem put_put (key : Key) (first second : Value) (entries : List (Key × Value)) :
    put key second (put key first entries) = put key second entries := by
  induction entries with
  | nil => simp [put]
  | cons entry rest ih =>
      obtain ⟨name, old⟩ := entry
      by_cases same : name = key
      · simp [put, same]
      · simp [put, same, ih]

theorem put_of_find {key : Key} {value : Value} {entries : List (Key × Value)}
    (held : find key entries = some value) : put key value entries = entries := by
  induction entries with
  | nil => simp [find] at held
  | cons entry rest ih =>
      obtain ⟨name, old⟩ := entry
      by_cases same : name = key
      · simpa [put, find, same, eq_comm] using held
      · simp only [find, same, if_false] at held
        simp [put, same, ih held]

theorem find_drop (key other : Key) (entries : List (Key × Value)) :
    find other (drop key entries) = if key = other then none else find other entries := by
  induction entries with
  | nil => simp [drop, find]
  | cons entry rest ih =>
      obtain ⟨name, old⟩ := entry
      simp only [drop] at ih
      by_cases same : name = key
      · subst same
        simp only [drop, List.filter_cons, ne_eq, not_true_eq_false, decide_false,
          Bool.false_eq_true, if_false, ih, find]
        split <;> rfl
      · simp only [drop, List.filter_cons, ne_eq, same, not_false_eq_true, decide_true, if_true,
          find, ih]
        by_cases this : name = other
        · subst this
          simp [Ne.symm same]
        · simp [this]

theorem find_eq_none_iff {key : Key} {entries : List (Key × Value)} :
    find key entries = none ↔ key ∉ entries.map Prod.fst := by
  induction entries with
  | nil => simp [find]
  | cons entry rest ih =>
      obtain ⟨name, old⟩ := entry
      by_cases same : name = key
      · simp [find, same]
      · simp [find, same, ih, Ne.symm same]

theorem mem_of_find {key : Key} {value : Value} {entries : List (Key × Value)}
    (held : find key entries = some value) : (key, value) ∈ entries := by
  induction entries with
  | nil => simp [find] at held
  | cons entry rest ih =>
      obtain ⟨name, old⟩ := entry
      by_cases same : name = key
      · simp only [find, same, if_true, Option.some.injEq] at held
        simp [same, held]
      · simp only [find, same, if_false] at held
        exact List.mem_cons_of_mem _ (ih held)

/-- The value held for a key. -/
def get? (map : KeyMap Key Value) (key : Key) : Option Value := find key map.entries

/-- Whether a key is present. -/
def contains (map : KeyMap Key Value) (key : Key) : Bool := (map.get? key).isSome

/-- Sets the value of a key; a new key arrives last, a known one keeps its place. -/
def insert (map : KeyMap Key Value) (key : Key) (value : Value) : KeyMap Key Value :=
  ⟨put key value map.entries, nodup_put map.nodup⟩

/-- Removes a key. -/
def erase (map : KeyMap Key Value) (key : Key) : KeyMap Key Value :=
  ⟨drop key map.entries, nodup_drop map.nodup⟩

@[simp]
theorem get?_empty (key : Key) : (empty : KeyMap Key Value).get? key = none := rfl

theorem get?_insert (map : KeyMap Key Value) (key other : Key) (value : Value) :
    (map.insert key value).get? other = if key = other then some value else map.get? other :=
  find_put key other value map.entries

@[simp]
theorem get?_insert_self (map : KeyMap Key Value) (key : Key) (value : Value) :
    (map.insert key value).get? key = some value := by
  simp [get?_insert]

/-- Of two values that are set for a key the second stays. -/
theorem insert_insert (map : KeyMap Key Value) (key : Key) (first second : Value) :
    (map.insert key first).insert key second = map.insert key second := by
  simp only [insert, put_put]

/-- Setting the value that is held changes nothing. -/
theorem insert_of_get? {map : KeyMap Key Value} {key : Key} {value : Value}
    (held : map.get? key = some value) : map.insert key value = map := by
  simp only [insert, put_of_find held]

theorem get?_erase (map : KeyMap Key Value) (key other : Key) :
    (map.erase key).get? other = if key = other then none else map.get? other :=
  find_drop key other map.entries

@[simp]
theorem get?_erase_self (map : KeyMap Key Value) (key : Key) :
    (map.erase key).get? key = none := by
  simp [get?_erase]

theorem find_map {Other : Type w} (change : Value → Other) (key : Key)
    (entries : List (Key × Value)) :
    find key (entries.map fun entry => (entry.1, change entry.2)) =
      (find key entries).map change := by
  induction entries with
  | nil => rfl
  | cons entry rest ih =>
      obtain ⟨name, value⟩ := entry
      by_cases same : name = key
      · simp [find, same]
      · simp [find, same, ih]

@[simp]
theorem get?_mapValues {Other : Type w} (change : Value → Other) (map : KeyMap Key Value)
    (key : Key) : (map.mapValues change).get? key = (map.get? key).map change :=
  find_map change key map.entries

theorem get?_eq_none_iff {map : KeyMap Key Value} {key : Key} :
    map.get? key = none ↔ key ∉ map.keys :=
  find_eq_none_iff

end Operations

end KeyMap
end Intake
