import VibeKanban.Lib.Json

/-!
# JSON Patch

The operations `add`, `remove` and `replace` of RFC 6902. A pointer is the list of its tokens;
`applyPatch_under` moves a patch into a member.
-/

namespace VibeKanban.Lib

/-- The tokens of a pointer of RFC 6901. -/
abbrev Pointer := List String

inductive PatchOp where
  | add (path : Pointer) (value : JsonValue)
  | remove (path : Pointer)
  | replace (path : Pointer) (value : JsonValue)

namespace JsonValue

/-- The index below `n` that a token names. -/
def index (token : String) (n : ℕ) : Option ℕ := (List.range n).find? fun i => toString i = token

/-- The value that a token names. -/
def child (value : JsonValue) (token : String) : Option JsonValue :=
  match value with
  | .object members => members.lookup token
  | .array items => (index token items.length).bind fun i => items[i]?
  | _ => none

/-- Sets the value that a token names. -/
def setChild (value : JsonValue) (token : String) (v : JsonValue) : JsonValue :=
  match value with
  | .object members => .object (insert token v members)
  | .array items => ((index token items.length).map fun i => array (items.set i v)).getD value
  | _ => value

/-- Edits the container that the last token of a pointer refers to. -/
def editAt (f : String → JsonValue → Option JsonValue) : Pointer → JsonValue → Option JsonValue
  | [], _ => none
  | [token], value => f token value
  | token :: path, value =>
    (value.child token).bind fun c => (editAt f path c).map (value.setChild token)

/-- Adds a member, or an item before an index or at the end. -/
def addChild (v : JsonValue) (token : String) : JsonValue → Option JsonValue
  | .object members => some (.object (insert token v members))
  | .array items =>
    if token = "-" then some (.array (items ++ [v]))
    else (index token (items.length + 1)).map fun i => .array (items.insertIdx i v)
  | _ => none

/-- Removes a member or an item that is there. -/
def removeChild (token : String) : JsonValue → Option JsonValue
  | .object members =>
    (members.lookup token).map fun _ => .object (members.filter fun member => member.1 ≠ token)
  | .array items => (index token items.length).map fun i => .array (items.eraseIdx i)
  | _ => none

/-- Replaces a member or an item that is there. -/
def replaceChild (v : JsonValue) (token : String) (value : JsonValue) : Option JsonValue :=
  (value.child token).map fun _ => value.setChild token v

end JsonValue

open JsonValue List JsonValue

namespace PatchOp

/-- The value after the operation, if it applies. -/
def apply : PatchOp → JsonValue → Option JsonValue
  | .add [] v, _ => some v
  | .replace [] v, _ => some v
  | .add path v, value => editAt (addChild v) path value
  | .remove path, value => editAt removeChild path value
  | .replace path v, value => editAt (replaceChild v) path value

/-- The operations, each on the value that the one before it leaves. -/
def applyPatch (ops : List PatchOp) (value : JsonValue) : Option JsonValue :=
  ops.foldlM (fun value op => op.apply value) value

/-- The operation below a member. -/
def under (key : String) : PatchOp → PatchOp
  | .add path v => .add (key :: path) v
  | .remove path => .remove (key :: path)
  | .replace path v => .replace (key :: path) v

def path : PatchOp → Pointer
  | .add path _ | .remove path | .replace path _ => path

end PatchOp

open PatchOp

variable {ops ops' : List PatchOp} {op : PatchOp} {value value' : JsonValue}
  {key : String} {members : List (String × JsonValue)}

@[simp]
theorem applyPatch_nil (value : JsonValue) : applyPatch [] value = some value := rfl

@[simp]
theorem applyPatch_cons (op : PatchOp) (ops : List PatchOp) (value : JsonValue) :
    applyPatch (op :: ops) value = (op.apply value).bind (applyPatch ops) := rfl

theorem applyPatch_append (ops ops' : List PatchOp) (value : JsonValue) :
    applyPatch (ops ++ ops') value = (applyPatch ops value).bind (applyPatch ops') := by
  induction ops generalizing value with
  | nil => rfl
  | cons op ops ih =>
    rw [cons_append, applyPatch_cons, applyPatch_cons, Option.bind_assoc]
    congr 1
    funext value'
    exact ih value'

/-! ## Below a member -/

namespace JsonValue

theorem insert_of_lookup (h : members.lookup key = some value) :
    insert key value members = members := by
  induction members with
  | nil => simp at h
  | cons m members ih =>
    obtain ⟨k, w⟩ := m
    by_cases hk : k = key
    · rw [hk, lookup_cons_self] at h
      simp [insert, hk, Option.some.inj h]
    · rw [Members.lookup_cons_of_ne (Ne.symm hk)] at h
      rw [insert, if_neg hk, ih h]

theorem insert_insert (v w : JsonValue) (members : List (String × JsonValue)) :
    insert key w (insert key v members) = insert key w members := by
  induction members with
  | nil => simp [insert]
  | cons m members ih =>
    obtain ⟨k, u⟩ := m
    by_cases hk : k = key
    · simp [insert, hk]
    · simp [insert, hk, ih]

end JsonValue

theorem editAt_cons {f : String → JsonValue → Option JsonValue} {path : Pointer}
    (hlookup : members.lookup key = some value) (hpath : path ≠ []) :
    editAt f (key :: path) (.object members) =
      (editAt f path value).map fun v => .object (insert key v members) := by
  cases path with
  | nil => exact absurd rfl hpath
  | cons token path =>
    show ((object members).child key).bind _ = _
    show (members.lookup key).bind _ = _
    rw [hlookup]
    rfl

theorem apply_under (hlookup : members.lookup key = some value) (hpath : op.path ≠ []) :
    (op.under key).apply (.object members) =
      (op.apply value).map fun v => .object (insert key v members) := by
  cases op with
  | add path v | replace path v =>
    cases path with
    | nil => exact absurd rfl hpath
    | cons token path => exact editAt_cons hlookup (cons_ne_nil _ _)
  | remove path => exact editAt_cons hlookup hpath

theorem applyPatch_under (hlookup : members.lookup key = some value)
    (hpath : ∀ op ∈ ops, op.path ≠ []) (h : applyPatch ops value = some value') :
    applyPatch (ops.map (under key)) (.object members) =
      some (.object (insert key value' members)) := by
  induction ops generalizing value members with
  | nil =>
    rw [← Option.some.inj h, insert_of_lookup hlookup]
    rfl
  | cons op ops ih =>
    rw [applyPatch_cons] at h
    obtain ⟨v, hv, hrest⟩ := Option.bind_eq_some_iff.1 h
    rw [map_cons, applyPatch_cons, apply_under hlookup (hpath op mem_cons_self), hv]
    rw [← insert_insert v value' members]
    exact ih lookup_insert_self (fun o ho => hpath o (mem_cons_of_mem op ho)) hrest

/-- A patch of several members, each with its own operations. -/
theorem applyPatch_members {changes : List (String × List PatchOp)}
    (hkeyed : Keyed Prod.fst changes) (hpath : ∀ c ∈ changes, ∀ op ∈ c.2, op.path ≠ [])
    (hvalue : ∀ c ∈ changes, ∃ v v', members.lookup c.1 = some v ∧ applyPatch c.2 v = some v') :
    ∃ members', applyPatch (changes.flatMap fun c => c.2.map (under c.1)) (.object members) =
        some (.object members') ∧
      (∀ c ∈ changes, members'.lookup c.1 = (members.lookup c.1).bind (applyPatch c.2)) ∧
      ∀ key ∉ changes.map Prod.fst, members'.lookup key = members.lookup key := by
  induction changes generalizing members with
  | nil => exact ⟨members, rfl, fun c hc => absurd hc not_mem_nil, fun _ _ => rfl⟩
  | cons c changes ih =>
    obtain ⟨hne, hkeyed⟩ := Members.keyed_cons_iff.1 hkeyed
    obtain ⟨v, v', hlookup, happly⟩ := hvalue c mem_cons_self
    have hother : ∀ d ∈ changes,
        (insert c.1 v' members).lookup d.1 = members.lookup d.1 :=
      fun d hd => lookup_insert_other (hne d hd)
    have hvalue' : ∀ d ∈ changes, ∃ w w',
        (insert c.1 v' members).lookup d.1 = some w ∧ applyPatch d.2 w = some w' := by
      intro d hd
      rw [hother d hd]
      exact hvalue d (mem_cons_of_mem c hd)
    obtain ⟨members', hrest, hchanged, hsame⟩ :=
      ih hkeyed (fun d hd => hpath d (mem_cons_of_mem c hd)) hvalue'
    have hnotMem : c.1 ∉ changes.map Prod.fst := by
      intro hmem
      obtain ⟨d, hd, heq⟩ := mem_map.1 hmem
      exact hne d hd heq
    refine ⟨members', ?_, fun d hd => ?_, fun key hkey => ?_⟩
    · rw [flatMap_cons, applyPatch_append,
        applyPatch_under hlookup (hpath c mem_cons_self) happly]
      exact hrest
    · rcases mem_cons.1 hd with rfl | hd
      · rw [hsame d.1 hnotMem, lookup_insert_self, hlookup]
        exact happly.symm
      · rw [hchanged d hd, hother d hd]
    · rw [map_cons, mem_cons, not_or] at hkey
      rw [hsame key hkey.2, lookup_insert_other hkey.1]

theorem apply_replace (h : (members.lookup key).isSome) (v : JsonValue) :
    (PatchOp.replace [key] v).apply (.object members) =
      some (.object (insert key v members)) := by
  obtain ⟨w, hw⟩ := Option.isSome_iff_exists.1 h
  show replaceChild v key (.object members) = _
  show (members.lookup key).map _ = _
  rw [hw]
  rfl

/-! ## Arrays -/

@[simp]
theorem index_zero (n : ℕ) : index "0" (n + 1) = some 0 := by
  unfold index
  rw [range_succ_eq_map, find?_cons_of_pos]
  decide

@[simp]
theorem apply_push (v : JsonValue) (items : List JsonValue) :
    (PatchOp.add ["-"] v).apply (.array items) = some (.array (items ++ [v])) := by
  show addChild v "-" (.array items) = _
  simp [addChild]

theorem apply_pop {items : List JsonValue} (hne : items ≠ []) :
    (PatchOp.remove ["0"]).apply (.array items) = some (.array items.tail) := by
  cases items with
  | nil => exact absurd rfl hne
  | cons v items =>
    show (index "0" (items.length + 1)).map _ = _
    rw [index_zero]
    rfl

end VibeKanban.Lib
