import VibeKanban.Lib.Members

/-!
# JSON values

A JSON value as `serde_json` holds it: an object keeps the order of its members, a number is its
text. Two objects are the same value whatever the order of their members (`same_object_iff`).
-/

namespace VibeKanban.Lib

open Members List

inductive JsonValue where
  | null
  | bool (b : Bool)
  | number (text : String)
  | string (s : String)
  | array (items : List JsonValue)
  | object (members : List (String × JsonValue))
  deriving BEq, Inhabited

namespace JsonValue

def asObject : JsonValue → Option (List (String × JsonValue))
  | .object members => some members
  | _ => none

def asStr : JsonValue → Option String
  | .string s => some s
  | _ => none

def asArray : JsonValue → Option (List JsonValue)
  | .array items => some items
  | _ => none

/-- The member `key`, if the value is an object that has it. -/
def get (key : String) (value : JsonValue) : Option JsonValue :=
  value.asObject.bind fun members => members.lookup key

/-- Sets a member: in its place where the key is there, else at the end. -/
@[grind =]
def insert (key : String) (v : JsonValue) : List (String × JsonValue) → List (String × JsonValue)
  | [] => [(key, v)]
  | (k, w) :: members => if k = key then (k, v) :: members else (k, w) :: insert key v members

/-- Sets a member of a value that is an object. -/
def set (value : JsonValue) (key : String) (v : JsonValue) : JsonValue :=
  match value with
  | .object members => .object (insert key v members)
  | _ => value

variable {value : JsonValue} {s : String}

@[simp]
theorem asStr_eq_some : value.asStr = some s ↔ value = .string s := by cases value <;> simp [asStr]

@[simp]
theorem asArray_eq_some {items : List JsonValue} :
    value.asArray = some items ↔ value = .array items := by
  cases value <;> simp [asArray]

variable {members : List (String × JsonValue)}

@[simp]
theorem asObject_eq_some : value.asObject = some members ↔ value = .object members := by
  cases value <;> simp [asObject]

/-! ## Setting a member -/

section Insert

variable {members : List (String × JsonValue)} {key key' : String} {v : JsonValue}

theorem lookup_insert_self : (insert key v members).lookup key = some v := by
  induction members with
  | nil => simp [insert]
  | cons m members ih =>
    obtain ⟨k, w⟩ := m
    by_cases hk : k = key
    · simp [insert, hk]
    · rw [insert, if_neg hk, lookup_cons_of_ne (Ne.symm hk), ih]

theorem lookup_insert_other (hne : key' ≠ key) :
    (insert key v members).lookup key' = members.lookup key' := by
  induction members with
  | nil =>
    exact lookup_cons_of_ne hne
  | cons m members ih =>
    obtain ⟨k, w⟩ := m
    by_cases hk : k = key
    · have hne' : key' ≠ k := by rwa [hk]
      rw [insert, if_pos hk]
      exact (lookup_cons_of_ne hne').trans (lookup_cons_of_ne hne').symm
    · rw [insert, if_neg hk]
      by_cases hk' : key' = k
      · rw [hk']
        exact (lookup_cons_self (k, w) _).trans (lookup_cons_self (k, w) _).symm
      · rw [lookup_cons_of_ne hk', lookup_cons_of_ne hk', ih]

theorem mem_insert {m : String × JsonValue} (hm : m ∈ insert key v members) :
    m = (key, v) ∨ m ∈ members := by
  induction members with
  | nil => exact .inl (mem_singleton.1 hm)
  | cons m' members ih =>
    obtain ⟨k, w⟩ := m'
    by_cases hk : k = key
    · rw [insert, if_pos hk, hk] at hm
      exact (mem_cons.1 hm).imp id (mem_cons_of_mem _)
    · rw [insert, if_neg hk] at hm
      rcases mem_cons.1 hm with rfl | hm
      · exact .inr mem_cons_self
      · exact (ih hm).imp id (mem_cons_of_mem _)

end Insert

/-! ## Equality -/

mutual

/-- Whether two values are the same, member order included. -/
def eqv : JsonValue → JsonValue → Bool
  | .null, .null => true
  | .bool a, .bool b => a == b
  | .number a, .number b => a == b
  | .string a, .string b => a == b
  | .array a, .array b => eqvItems a b
  | .object a, .object b => eqvMembers a b
  | _, _ => false

def eqvItems : List JsonValue → List JsonValue → Bool
  | [], [] => true
  | v :: vs, w :: ws => eqv v w && eqvItems vs ws
  | _, _ => false

def eqvMembers : List (String × JsonValue) → List (String × JsonValue) → Bool
  | [], [] => true
  | (k, v) :: vs, (l, w) :: ws => k == l && eqv v w && eqvMembers vs ws
  | _, _ => false

end

mutual

theorem eqv_iff (a b : JsonValue) : eqv a b = true ↔ a = b := by
  cases a <;> cases b <;> simp [eqv]
  · exact eqvItems_iff _ _
  · exact eqvMembers_iff _ _

theorem eqvItems_iff (a b : List JsonValue) : eqvItems a b = true ↔ a = b := by
  cases a <;> cases b <;> simp [eqvItems]
  rw [eqv_iff, eqvItems_iff]

theorem eqvMembers_iff (a b : List (String × JsonValue)) : eqvMembers a b = true ↔ a = b := by
  match a, b with
  | [], [] => simp [eqvMembers]
  | [], _ :: _ => simp [eqvMembers]
  | _ :: _, [] => simp [eqvMembers]
  | (k, v) :: vs, (l, w) :: ws =>
    simp only [eqvMembers, Bool.and_eq_true, beq_iff_eq, cons.injEq, Prod.mk.injEq]
    rw [eqv_iff, eqvMembers_iff]

end

instance : DecidableEq JsonValue := fun a b => decidable_of_iff (eqv a b = true) (eqv_iff a b)

/-! ## Distinct keys -/

mutual

/-- No object in the value has a key twice: what a `serde_json::Map` makes sure of. -/
def Unique : JsonValue → Prop
  | .array items => UniqueItems items
  | .object members => Keyed Prod.fst members ∧ UniqueMembers members
  | _ => True

def UniqueItems : List JsonValue → Prop
  | [] => True
  | v :: items => v.Unique ∧ UniqueItems items

def UniqueMembers : List (String × JsonValue) → Prop
  | [] => True
  | (_, v) :: members => v.Unique ∧ UniqueMembers members

end

theorem Unique.keyed (h : (object members).Unique) : Keyed Prod.fst members := by
  exact h.1

variable {v : JsonValue} {k : String}

theorem UniqueMembers.of_mem (h : UniqueMembers members) (hm : (k, v) ∈ members) : v.Unique := by
  induction members with
  | nil => simp at hm
  | cons m members ih =>
    rcases mem_cons.1 hm with heq | hm
    · rw [(Prod.mk.inj heq).2]
      exact h.1
    · exact ih h.2 hm

theorem Unique.of_lookup (h : (object members).Unique) (hv : members.lookup k = some v) :
    v.Unique := by
  exact h.2.of_mem (mem_of_lookup hv)

/-! ## Equality up to the order of members -/

mutual

/-- The value with the members of every object in the order of their keys. -/
@[grind =]
def sorted : JsonValue → JsonValue
  | .array items => .array (sortedItems items)
  | .object members => .object (sortByKey (sortedMembers members))
  | value => value

def sortedItems : List JsonValue → List JsonValue
  | [] => []
  | v :: items => v.sorted :: sortedItems items

def sortedMembers : List (String × JsonValue) → List (String × JsonValue)
  | [] => []
  | (k, v) :: members => (k, v.sorted) :: sortedMembers members

end

theorem sortedItems_eq_map (items : List JsonValue) : sortedItems items = items.map sorted := by
  induction items with
  | nil => rw [sortedItems, map_nil]
  | cons v items ih => rw [sortedItems, ih, map_cons]

theorem sortedMembers_eq_map (members : List (String × JsonValue)) :
    sortedMembers members = members.map fun m => (m.1, m.2.sorted) := by
  induction members with
  | nil => rw [sortedMembers, map_nil]
  | cons m members ih => rw [sortedMembers, ih, map_cons]

/-- `serde_json`'s `==`: the order of an object's members does not matter. -/
def Same (a b : JsonValue) : Prop := a.sorted = b.sorted
  deriving Decidable

theorem Same.refl (a : JsonValue) : a.Same a := rfl

theorem Same.symm {a b : JsonValue} (h : a.Same b) : b.Same a := Eq.symm h

@[simp]
theorem same_string_iff : v.Same (.string s) ↔ v = .string s := by cases v <;> simp [Same, sorted]

theorem Same.eq_object (h : v.Same (.object members)) : ∃ members', v = .object members' := by
  cases v with
  | object members' => exact ⟨members', rfl⟩
  | _ => simp [Same, sorted] at h

theorem Same.length_array {a b : List JsonValue} (h : (array a).Same (.array b)) :
    a.length = b.length := by
  have heq : a.map sorted = b.map sorted := by simpa [Same, sorted, sortedItems_eq_map] using h
  simpa using congrArg length heq

variable {a b : List (String × JsonValue)}

theorem same_object_iff : (object a).Same (.object b) ↔
    sortByKey (a.map fun m => (m.1, m.2.sorted)) =
      sortByKey (b.map fun m => (m.1, m.2.sorted)) := by
  simp only [Same, sorted, sortedMembers_eq_map, object.injEq]

theorem same_object_of_perm (ha : Keyed Prod.fst a) (h : a.Perm b) : (object a).Same (.object b) :=
  same_object_iff.2 (sortByKey_eq_of_perm (keyed_map_snd.2 ha) (h.map _))

theorem Same.lookup (h : (object a).Same (.object b)) (ha : Keyed Prod.fst a) (k : String) :
    (a.lookup k).map sorted = (b.lookup k).map sorted := by
  have hp := perm_of_sortByKey_eq (same_object_iff.1 h)
  rw [← lookup_map_snd, ← lookup_map_snd]
  exact lookup_eq_of_perm (keyed_map_snd.2 ha) hp k

end JsonValue

end VibeKanban.Lib
