import VibeKanban.Messages.Entries

/-!
# Replayed patches (`logs/utils/patch.rs`, `normalized_log_cache.rs`)

Two readers of the patches of a conversation. The deduplicated stream of a process turns `add` into
`replace` and back, by the paths that were sent before. A history whose beginning is missing is
materialized with the positions of the entries that survive.

* `applicable_fixStream_iff`, `not_applicable_readded`: when a client can apply the stream.
* `rebased_agrees`, `not_agrees_inserted`: when the materialized history is what a client has.
-/

namespace VibeKanban.Messages

open Lib List PatchOperation Option

/-- `PatchOperation::path` -/
def PatchOperation.path : PatchOperation → String
  | .add path _ | .remove path | .replace path _ | .move _ path | .copy _ path | .test path _ =>
    path

/-! ## The list of entries -/

inductive EntryEdit where
  | add (index : ℕ) (value : JsonValue)
  | remove (index : ℕ)
  | replace (index : ℕ) (value : JsonValue)

/-- An operation on the entry that `index` reads from its path. -/
def PatchOperation.entryEdit (index : String → Option ℕ) : PatchOperation → Option EntryEdit
  | .add path value => (index path).map (.add · value)
  | .remove path => (index path).map .remove
  | .replace path value => (index path).map (.replace · value)
  | _ => none

/-- RFC 6902 for an array. -/
def EntryEdit.apply (entries : List JsonValue) : EntryEdit → Option (List JsonValue)
  | .add i value => if i ≤ entries.length then some (entries.insertIdx i value) else none
  | .remove i => if i < entries.length then some (entries.eraseIdx i) else none
  | .replace i value => if i < entries.length then some (entries.set i value) else none

/-! ## `fix_patch_ops` (`patch.rs`, lines 226-249) -/

/-- The body of the loop. -/
def fixPatchOp (sentPaths : Finset String) (op : PatchOperation) : PatchOperation × Finset String :=
  let pathSent : Bool := op.path ∈ sentPaths
  let op := match op, pathSent with
    | .add path value, true => .replace path value
    | .replace path value, false => .add path value
    | op, _ => op
  (op, if pathSent then sentPaths else insert op.path sentPaths)

def fixPatchOps (patch : Patch) (sentPaths : Finset String) : Patch × Finset String :=
  patch.foldl (fun s op => let r := fixPatchOp s.2 op; (s.1 ++ [r.1], r.2)) ([], sentPaths)

/-- The patches of a stream, with one set (`container.rs`, lines 2178-2204). -/
def fixStream : List Patch → Finset String → List Patch
  | [], _ => []
  | patch :: patches, sentPaths =>
    let r := fixPatchOps patch sentPaths
    r.1 :: fixStream patches r.2

/-- The path of a removal or a replacement is there, and that of an addition is not. -/
def EntryEdit.fits (entries : List JsonValue) : EntryEdit → Bool
  | .add i _ => entries.length ≤ i
  | .remove i | .replace i _ => i < entries.length

def clientStep (entries : List JsonValue) (op : PatchOperation) : Option (List JsonValue) :=
  ((op.entryEdit arrayIndex).filter (EntryEdit.fits entries)).bind (EntryEdit.apply entries)

/-- A client that starts without entries can apply every operation. -/
def Applicable (patches : List Patch) : Prop := (patches.flatten.foldlM clientStep []).isSome

instance (patches : List Patch) : Decidable (Applicable patches) :=
  inferInstanceAs (Decidable (_ = true))

def PatchOperation.isRemove : PatchOperation → Bool
  | .remove _ => true
  | _ => false

/-- How many paths the operations name. -/
def named (ops : Patch) : ℕ := (ops.map PatchOperation.path).toFinset.card

def removed (ops : Patch) : ℕ := ops.countP isRemove

/-- The operation names an entry that is there, or the next one if none was removed. -/
def InBounds (before : Patch) (op : PatchOperation) : Prop :=
  ∀ i ∈ arrayIndex op.path, i + removed before < named before ∨
    op.isRemove = false ∧ removed before = 0 ∧ i = named before

def fixOps : Patch → Finset String → Patch
  | [], _ => []
  | op :: ops, sentPaths => (fixPatchOp sentPaths op).1 :: fixOps ops (fixPatchOp sentPaths op).2

section Repair

variable {sent : Finset String} {ops : Patch} {op : PatchOperation} {edit : EntryEdit}
  {entries entries' : List JsonValue}

theorem fixPatchOps_eq (ops rest out : Patch) (sent : Finset String) :
    ((ops.foldl (fun s op => ((s.1 ++ [(fixPatchOp s.2 op).1], (fixPatchOp s.2 op).2) :
        Patch × Finset String)) (out, sent)).1 ++
      fixOps rest (ops.foldl (fun s op => ((s.1 ++ [(fixPatchOp s.2 op).1],
        (fixPatchOp s.2 op).2) : Patch × Finset String)) (out, sent)).2) =
      out ++ fixOps (ops ++ rest) sent := by
  induction ops generalizing out sent with
  | nil => rfl
  | cons op ops ih =>
    rw [foldl_cons, ih]
    simp [fixOps]

theorem flatten_fixStream (patches : List Patch) (sent : Finset String) :
    (fixStream patches sent).flatten = fixOps patches.flatten sent := by
  induction patches generalizing sent with
  | nil => rfl
  | cons patch patches ih =>
    rw [fixStream, flatten_cons, flatten_cons, ih]
    exact fixPatchOps_eq patch patches.flatten [] sent

theorem snd_fixPatchOp (sent : Finset String) (op : PatchOperation) :
    (fixPatchOp sent op).2 = insert op.path sent := by
  by_cases h : op.path ∈ sent
  · simp [fixPatchOp, h]
  · cases op <;> simp_all [fixPatchOp, path]

theorem fixOps_concat (ops : Patch) (op : PatchOperation) (sent : Finset String) :
    fixOps (ops ++ [op]) sent =
      fixOps ops sent ++ [(fixPatchOp (sent ∪ (ops.map PatchOperation.path).toFinset) op).1] := by
  induction ops generalizing sent with
  | nil => simp [fixOps]
  | cons o ops ih =>
    rw [cons_append, fixOps, ih, snd_fixPatchOp, fixOps, snd_fixPatchOp, cons_append, map_cons,
      toFinset_cons, Finset.union_insert, Finset.insert_union]

/-- The first paths were sent, and as many as were not removed are there. -/
structure Tracks (ops : Patch) (length : ℕ) : Prop where
  length_add : length + removed ops = named ops
  mem_iff : ∀ path i, arrayIndex path = some i →
    (path ∈ ops.map PatchOperation.path ↔ i < named ops)

theorem named_concat : named (ops ++ [op]) =
    if op.path ∈ ops.map PatchOperation.path then named ops else named ops + 1 := by
  unfold named
  rw [map_append, toFinset_append, map_singleton, toFinset_cons, toFinset_nil,
    insert_empty_eq, Finset.union_comm, ← Finset.insert_eq]
  split_ifs with h
  · rw [Finset.insert_eq_of_mem (List.mem_toFinset.2 h)]
  · rw [Finset.card_insert_of_notMem (mt List.mem_toFinset.1 h)]

theorem Tracks.concat {n : ℕ} (h : Tracks ops entries.length) {i : ℕ}
    (hi : arrayIndex op.path = some i) (hle : i ≤ named ops)
    (hn : n + removed (ops ++ [op]) = named (ops ++ [op])) : Tracks (ops ++ [op]) n := by
  refine ⟨hn, fun path j hj => ?_⟩
  have hpath : path = op.path ↔ j = i := by
    constructor
    · rintro rfl
      exact some.inj (hj.symm.trans hi)
    · rintro rfl
      have hentry := fun {p : String} (h : arrayIndex p = some j) =>
        of_decide_eq_true (filter_eq_some_iff.1 h).2
      exact (hentry hj).symm.trans (hentry hi)
  have hnew := h.mem_iff op.path i hi
  rw [map_append, mem_append, map_singleton, mem_singleton, h.mem_iff path j hj, hpath,
    named_concat]
  split_ifs <;> grind

section

variable {path : String} {value : JsonValue} {i : ℕ} (hi : arrayIndex path = some i)
include hi

theorem clientStep_add : clientStep entries (.add path value) =
    if i = entries.length then some (entries.insertIdx i value) else none := by
  simp only [clientStep, entryEdit, hi, map_some, Option.filter_some, EntryEdit.fits]
  grind [EntryEdit.apply]

theorem clientStep_replace : clientStep entries (.replace path value) =
    if i < entries.length then some (entries.set i value) else none := by
  simp only [clientStep, entryEdit, hi, map_some, Option.filter_some, EntryEdit.fits]
  grind [EntryEdit.apply]

theorem clientStep_remove : clientStep entries (.remove path) =
    if i < entries.length then some (entries.eraseIdx i) else none := by
  simp only [clientStep, entryEdit, hi, map_some, Option.filter_some, EntryEdit.fits]
  grind [EntryEdit.apply]

end

theorem fixPatchOp_cases (hedit : (op.entryEdit arrayIndex).isSome) :
    ∃ i, arrayIndex op.path = some i ∧ (op = .remove op.path ∨ ∃ value, op.isRemove = false ∧
      ∀ sent, (fixPatchOp sent op).1 =
        if op.path ∈ sent then .replace op.path value else .add op.path value) := by
  cases op with
  | add path value | replace path value =>
    obtain ⟨i, hi⟩ := Option.isSome_iff_exists.1 ((Option.isSome_map ..).symm.trans hedit)
    refine ⟨i, hi, .inr ⟨value, rfl, fun sent => ?_⟩⟩
    by_cases h : path ∈ sent <;> simp [fixPatchOp, PatchOperation.path, h]
  | remove path =>
    obtain ⟨i, hi⟩ := Option.isSome_iff_exists.1 ((Option.isSome_map ..).symm.trans hedit)
    exact ⟨i, hi, .inl rfl⟩
  | _ => cases hedit

/-- What is sent of an operation applies exactly if the operation is in bounds. -/
theorem clientStep_fixPatchOp (h : Tracks ops entries.length)
    (hedit : (op.entryEdit arrayIndex).isSome) :
    let sent := (ops.map PatchOperation.path).toFinset
    (∀ entries', clientStep entries (fixPatchOp sent op).1 = some entries' →
        Tracks (ops ++ [op]) entries'.length) ∧
      ((clientStep entries (fixPatchOp sent op).1).isSome ↔ InBounds ops op) := by
  intro sent
  obtain ⟨i, hi, hop⟩ := fixPatchOp_cases hedit
  have hlength := h.length_add
  have hsent : op.path ∈ sent ↔ i < named ops := List.mem_toFinset.trans (h.mem_iff _ i hi)
  have hnamed : named (ops ++ [op]) = if i < named ops then named ops else named ops + 1 := by
    simp only [named_concat, h.mem_iff _ i hi]
  have hremoved : removed (ops ++ [op]) = removed ops + if op.isRemove then 1 else 0 := by
    rw [removed, countP_append, countP_singleton]
    rfl
  have hbounds : InBounds ops op ↔ i + removed ops < named ops ∨
      op.isRemove = false ∧ removed ops = 0 ∧ i = named ops := by
    simp [InBounds, hi]
  rw [hbounds]
  rcases hop with hop | ⟨value, hkind, hfix⟩
  · have hfix : (fixPatchOp sent op).1 = .remove op.path := by
      rw [hop]
      rfl
    have hkind : op.isRemove = true := by rw [hop]; rfl
    rw [hfix, clientStep_remove hi]
    split_ifs with hlt
    · refine ⟨fun entries' heq => h.concat hi (by omega) ?_, by simp; omega⟩
      cases heq
      rw [hremoved, hnamed, length_eraseIdx_of_lt hlt]
      grind
    · simp [hkind]
      omega
  · simp only [hfix, hsent]
    split_ifs with hin
    · rw [clientStep_replace hi]
      split_ifs with hlt
      · refine ⟨fun entries' heq => h.concat hi (by omega) ?_, by simp; omega⟩
        cases heq
        rw [hremoved, hnamed, length_set]
        grind
      · simp
        omega
    · rw [clientStep_add hi]
      split_ifs with hlast
      · refine ⟨fun entries' heq => h.concat hi (by omega) ?_, by simp [hkind]; omega⟩
        cases heq
        rw [hremoved, hnamed, length_insertIdx_of_le_length hlast.le]
        grind
      · simp
        omega

theorem forall_take_concat (ops : Patch) (op : PatchOperation)
    {P : Patch → PatchOperation → Prop} :
    (∀ (n : ℕ) o, (ops ++ [op])[n]? = some o → P ((ops ++ [op]).take n) o) ↔
      (∀ (n : ℕ) o, ops[n]? = some o → P (ops.take n) o) ∧ P ops op := by
  constructor
  · intro h
    refine ⟨fun n o ho => ?_, by simpa using h ops.length op (by simp)⟩
    have hlt := (List.getElem?_eq_some_iff.1 ho).1
    have hold := h n o (by rwa [getElem?_append_left hlt])
    rwa [take_append_of_le_length hlt.le] at hold
  · rintro ⟨h, hlast⟩ n o ho
    rcases Nat.lt_trichotomy n ops.length with hlt | rfl | hgt
    · rw [getElem?_append_left hlt] at ho
      rw [take_append_of_le_length hlt.le]
      exact h n o ho
    · simp_all
    · rw [getElem?_eq_none (by simp; omega)] at ho
      cases ho

theorem isSome_foldlM_fixOps (hedits : ∀ op ∈ ops, (op.entryEdit arrayIndex).isSome) :
    (∀ entries, (fixOps ops ∅).foldlM clientStep [] = some entries → Tracks ops entries.length) ∧
      (((fixOps ops ∅).foldlM clientStep []).isSome ↔
        ∀ (n : ℕ) op, ops[n]? = some op → InBounds (ops.take n) op) := by
  induction ops using reverseRecOn with
  | nil =>
    refine ⟨fun entries h => ?_, by simp [fixOps]⟩
    cases h
    exact ⟨rfl, by simp [named]⟩
  | append_singleton ops op ih =>
    obtain ⟨htracks, hall⟩ := ih fun o ho => hedits o (mem_append_left _ ho)
    rw [forall_take_concat, ← hall, fixOps_concat, Finset.empty_union, foldlM_append]
    cases hrun : (fixOps ops ∅).foldlM clientStep [] with
    | none => simp
    | some entries =>
      have hstep := clientStep_fixPatchOp (htracks entries hrun)
        (hedits op (mem_append_right _ (mem_singleton_self op)))
      simpa using hstep

/-- The client can apply every operation exactly if each names an entry that is
there, or the next one if none was removed. -/
theorem applicable_fixStream_iff (patches : List Patch)
    (h : ∀ op ∈ patches.flatten, (op.entryEdit arrayIndex).isSome) :
    Applicable (fixStream patches ∅) ↔ ∀ (n : ℕ) op, patches.flatten[n]? = some op →
      InBounds (patches.flatten.take n) op := by
  rw [Applicable, flatten_fixStream]
  exact (isSome_foldlM_fixOps h).2

theorem applicable_fixStream_removed :
    let patches : List Patch := [[.add "/entries/0" .null], [.add "/entries/1" .null],
      [.remove "/entries/0"], [.replace "/entries/0" .null]]
    Applicable (fixStream patches ∅) ↔ ∀ (n : ℕ) op, patches.flatten[n]? = some op →
      InBounds (patches.flatten.take n) op :=
  applicable_fixStream_iff _ (by decide +kernel)

/-- An entry that is removed and added again is sent as a replacement, and one that is added after
a removal leaves a gap. -/
theorem not_applicable_readded :
    ¬ Applicable (fixStream [[.add "/entries/0" .null], [.remove "/entries/0"],
        [.add "/entries/0" .null]] ∅) ∧
      ¬ Applicable (fixStream [[.add "/entries/0" .null], [.remove "/entries/0"],
        [.add "/entries/1" .null]] ∅) := by
  decide +kernel

end Repair

/-! ## `materialize_entries` (`normalized_log_cache.rs`, lines 94-166) -/

def strictStep (entries : List JsonValue) (op : PatchOperation) : Option (List JsonValue) :=
  (op.entryEdit arrayIndex).bind (EntryEdit.apply entries)

/-- `materialize_entries`, for operations on `/entries/<index>`. -/
def materializeEntries (patches : List Patch) : Option (List JsonValue) :=
  patches.flatten.foldlM strictStep []

/-- The variables of `materialize_entries_rebased`. -/
structure Rebased where
  entries : List JsonValue
  positions : ℕ → Option ℕ
  dropped : ℕ

def Rebased.start : Rebased := ⟨[], fun _ => none, 0⟩

/-- The body of its loop. -/
def Rebased.step (s : Rebased) (op : PatchOperation) : Rebased :=
  match op.entryEdit entryIndex with
  | some (.add index value) =>
    { s with
      positions := Function.update s.positions index (some s.entries.length)
      entries := s.entries ++ [value] }
  | some (.replace index value) =>
    match s.positions index with
    | some position => { s with entries := s.entries.set position value }
    | none => { s with dropped := s.dropped + 1 }
  | some (.remove index) =>
    match s.positions index with
    | some position =>
      { s with
        entries := s.entries.eraseIdx position
        positions := fun k => if k = index then none else
          (s.positions k).map fun mapped => if position < mapped then mapped - 1 else mapped }
    | none => { s with dropped := s.dropped + 1 }
  | none => { s with dropped := s.dropped + 1 }

def materializeEntriesRebased (patches : List Patch) : List JsonValue × ℕ :=
  let s := patches.flatten.foldl Rebased.step Rebased.start
  (s.entries, s.dropped)

/-- The indices at which the entries were added. -/
def EntryEdit.births (births : List ℕ) : EntryEdit → List ℕ
  | .add i _ => births.insertIdx i i
  | .remove i => births.eraseIdx i
  | .replace _ _ => births

def births (ops : Patch) : List ℕ :=
  (ops.filterMap (entryEdit arrayIndex)).foldl EntryEdit.births []

def EntryEdit.InPlace (births : List ℕ) : EntryEdit → Prop
  | .add i _ => i = births.length
  | .remove i | .replace i _ => births[i]? = some i

def InPlace (ops : Patch) : Prop :=
  ∀ (n : ℕ) op edit, ops[n]? = some op → op.entryEdit arrayIndex = some edit →
    edit.InPlace (births (ops.take n))

def Agrees (patches : List Patch) : Prop :=
  (materializeEntries patches).map (·, 0) = some (materializeEntriesRebased patches)

def values (ops : Patch) : List JsonValue :=
  ops.filterMap fun
    | .add _ value | .replace _ value => some value
    | _ => none

def EntryEdit.values : EntryEdit → List JsonValue
  | .add _ value | .replace _ value => [value]
  | .remove _ => []

section Rebase

variable {s : Rebased} {entries entries' : List JsonValue} {indices : List ℕ} {edit : EntryEdit}
  {op : PatchOperation} {ops : Patch}

/-- The state is that of the array; an entry that is where it was added is found there. -/
structure Rebased.Follows (s : Rebased) (indices : List ℕ) (entries : List JsonValue) : Prop where
  same : s.entries = entries
  dropped : s.dropped = 0
  length : indices.length = entries.length
  le : ∀ (p k : ℕ), indices[p]? = some k → p ≤ k
  sound : ∀ (k p : ℕ), s.positions k = some p → indices[p]? = some k
  here : ∀ p : ℕ, indices[p]? = some p → s.positions p = some p

theorem entryEdit_entryIndex (h : op.entryEdit arrayIndex = some edit) :
    op.entryEdit entryIndex = some edit := by
  have hindex : ∀ path i, arrayIndex path = some i → entryIndex path = some i :=
    fun path i h => (filter_eq_some_iff.1 h).1
  cases op <;> simp_all [entryEdit] <;> grind

theorem Rebased.Follows.step (h : s.Follows indices entries) (hplace : edit.InPlace indices)
    (happly : edit.apply entries = some entries') (hedit : op.entryEdit arrayIndex = some edit) :
    (s.step op).Follows (edit.births indices) entries' := by
  obtain ⟨rfl, hdropped, hlength, hle, hsound, hhere⟩ := h
  rw [Rebased.step, entryEdit_entryIndex hedit]
  cases edit with simp only [EntryEdit.apply, EntryEdit.InPlace, EntryEdit.births] at *
  | add i value =>
    subst hplace
    rw [hlength, if_pos le_rfl, insertIdx_length_self, some.injEq] at happly
    constructor <;> grind [Function.update]
  | replace i value =>
    constructor <;> grind
  | remove i =>
    rw [hhere i hplace]
    have hmoved : ∀ p k, p ≠ i → indices[p]? = some k →
        (indices.eraseIdx i)[if i < p then p - 1 else p]? = some k := by
      intro p k hp hk
      grind
    have hstays : ∀ p : ℕ, (indices.eraseIdx i)[p]? = some p → p < i ∧ indices[p]? = some p := by
      intro p hp
      grind
    refine ⟨by grind, hdropped, by grind, ?_, ?_, ?_⟩
    · intro p k hk
      grind
    · intro k p hp
      dsimp only at hp
      split at hp
      · cases hp
      · next hk =>
        obtain ⟨q, hq, rfl⟩ := map_eq_some_iff.1 hp
        refine hmoved q k ?_ (hsound k q hq)
        rintro rfl
        exact hk (some.inj ((hsound k q hq).symm.trans hplace))
    · intro p hp
      obtain ⟨hlt, hp⟩ := hstays p hp
      simp [hhere p hp, hlt.ne, hlt.le]

theorem values_eq (hedit : op.entryEdit arrayIndex = some edit) : values [op] = edit.values := by
  cases op <;> simp_all [entryEdit, values] <;> grind [EntryEdit.values]

theorem Rebased.Follows.inPlace (h : s.Follows indices entries) (hnodup : entries.Nodup)
    (hfresh : ∀ v ∈ values [op], v ∉ entries) (happly : edit.apply entries = some entries')
    (hedit : op.entryEdit arrayIndex = some edit) (hsame : (s.step op).entries = entries')
    (hdropped : (s.step op).dropped = 0) : edit.InPlace indices := by
  obtain ⟨rfl, -, hlength, -, hsound, -⟩ := h
  rw [values_eq hedit] at hfresh
  rw [Rebased.step, entryEdit_entryIndex hedit] at hsame hdropped
  cases edit with
  | add i value =>
    have hnot := hfresh value (by simp [EntryEdit.values])
    simp only [EntryEdit.apply, EntryEdit.InPlace] at *
    have hget := congrArg (·[i]?) hsame
    grind
  | replace i value =>
    have hnot := hfresh value (by simp [EntryEdit.values])
    simp only [EntryEdit.apply, EntryEdit.InPlace] at *
    cases hp : s.positions i with
    | none => simp [hp] at hdropped
    | some p =>
      have hget := congrArg (·[i]?) hsame
      grind
  | remove i =>
    simp only [EntryEdit.apply, EntryEdit.InPlace] at *
    cases hp : s.positions i with
    | none => simp [hp] at hdropped
    | some p =>
      have hlt : i < s.entries.length := by grind
      -- the entry that the array loses is still there
      have hmem : s.entries[i] ∈ s.entries.eraseIdx i → False := by
        rw [mem_eraseIdx_iff_getElem?]
        rintro ⟨j, hne, hj⟩
        exact hne ((getElem?_inj hlt hnodup).1 (by grind)).symm
      have hkeeps : p ≠ i → s.entries[i] ∈ s.entries.eraseIdx p := fun hne =>
        mem_eraseIdx_iff_getElem?.2 ⟨i, Ne.symm hne, getElem?_eq_getElem hlt⟩
      grind

theorem strict_concat : (ops ++ [op]).foldlM strictStep [] = some entries' ↔
    ∃ entries edit, ops.foldlM strictStep [] = some entries ∧
      op.entryEdit arrayIndex = some edit ∧ edit.apply entries = some entries' := by
  simp [foldlM_append, strictStep, bind_eq_some_iff]

theorem inPlace_concat (hedit : op.entryEdit arrayIndex = some edit) :
    InPlace (ops ++ [op]) ↔ InPlace ops ∧ edit.InPlace (births ops) := by
  have hconcat := forall_take_concat ops op
    (P := fun before o => ∀ e, o.entryEdit arrayIndex = some e → e.InPlace (births before))
  unfold InPlace
  grind

theorem births_concat (hedit : op.entryEdit arrayIndex = some edit) :
    births (ops ++ [op]) = edit.births (births ops) := by
  simp [births, hedit]

theorem follows_of_inPlace (hstrict : ops.foldlM strictStep [] = some entries)
    (hplace : InPlace ops) : (ops.foldl Rebased.step .start).Follows (births ops) entries := by
  induction ops using reverseRecOn generalizing entries with
  | nil =>
    cases hstrict
    constructor <;> simp [births, Rebased.start]
  | append_singleton ops op ih =>
    obtain ⟨entries, edit, hstrict, hedit, happly⟩ := strict_concat.1 hstrict
    obtain ⟨hplace, hlast⟩ := (inPlace_concat hedit).1 hplace
    rw [foldl_concat, births_concat hedit]
    exact (ih hstrict hplace).step hlast happly hedit

theorem subperm_of_apply (hedit : op.entryEdit arrayIndex = some edit)
    (happly : edit.apply entries = some entries') : entries' <+~ values [op] ++ entries := by
  rw [values_eq hedit]
  cases edit with
      simp only [EntryEdit.apply, ite_none_right_eq_some, some.injEq] at happly
  | add i value =>
    obtain ⟨hle, rfl⟩ := happly
    exact (perm_insertIdx value entries hle).subperm
  | replace i value =>
    obtain ⟨hlt, rfl⟩ := happly
    exact (set_perm_cons_eraseIdx hlt value).subperm.trans
      ((subperm_cons value).2 (eraseIdx_sublist entries i).subperm)
  | remove i =>
    obtain ⟨-, rfl⟩ := happly
    exact (eraseIdx_sublist entries i).subperm

theorem subperm_values (hstrict : ops.foldlM strictStep [] = some entries) :
    entries <+~ values ops := by
  induction ops using reverseRecOn generalizing entries with
  | nil =>
    cases hstrict
    exact .refl []
  | append_singleton ops op ih =>
    obtain ⟨entries, edit, hstrict, hedit, happly⟩ := strict_concat.1 hstrict
    have hstep := subperm_of_apply hedit happly
    rw [values, filterMap_append]
    exact hstep.trans (((subperm_append_left _).2 (ih hstrict)).trans perm_append_comm.subperm)

theorem agrees_iff {patches : List Patch} (hstrict : materializeEntries patches = some entries) :
    Agrees patches ↔ materializeEntriesRebased patches = (entries, 0) := by
  rw [Agrees, hstrict]
  simp [eq_comm]

theorem forall_agrees_concat : (∀ n, Agrees [(ops ++ [op]).take n]) ↔
    (∀ n, Agrees [ops.take n]) ∧ Agrees [ops ++ [op]] := by
  constructor
  · intro h
    refine ⟨fun n => ?_, take_length (l := ops ++ [op]) ▸ h _⟩
    rcases le_total n ops.length with hle | hle
    · simpa [take_append_of_le_length hle] using h n
    · simpa [take_of_length_le hle] using h ops.length
  · rintro ⟨hops, hlast⟩ n
    rcases Nat.lt_or_ge ops.length n with hlt | hle
    · rwa [take_of_length_le (by simpa using hlt)]
    · rw [take_append_of_le_length hle]
      exact hops n

/-- By induction on the history: the state follows the array as long as it was in place. -/
theorem forall_agrees_iff (hstrict : ops.foldlM strictStep [] = some entries)
    (hvalues : (values ops).Nodup) : (∀ n, Agrees [ops.take n]) ↔ InPlace ops := by
  induction ops using reverseRecOn generalizing entries with
  | nil => simp [InPlace, Agrees, materializeEntries, materializeEntriesRebased, Rebased.start]
  | append_singleton ops op ih =>
    have hmaterialized : materializeEntries [ops ++ [op]] = some entries := by
      simpa [materializeEntries] using hstrict
    have hagrees := agrees_iff hmaterialized
    obtain ⟨before, edit, hbefore, hedit, happly⟩ := strict_concat.1 hstrict
    rw [values, filterMap_append] at hvalues
    obtain ⟨hold, -, hfresh⟩ := nodup_append.1 hvalues
    obtain ⟨l, hperm, hsub⟩ := subperm_values hbefore
    rw [forall_agrees_concat, inPlace_concat hedit, ih hbefore hold]
    refine and_congr_right fun hplace => hagrees.trans ?_
    have hfollows := follows_of_inPlace hbefore hplace
    simp only [materializeEntriesRebased, flatten_singleton, foldl_concat, Prod.mk.injEq]
    constructor
    · rintro ⟨hsame, hdropped⟩
      refine hfollows.inPlace (hperm.nodup_iff.1 (hold.sublist hsub)) ?_ happly hedit hsame hdropped
      exact fun v hv hin => hfresh v (hsub.subset (hperm.mem_iff.2 hin)) v hv rfl
    · intro hlast
      have := hfollows.step hlast happly hedit
      exact ⟨this.same, this.dropped⟩

/-- The two agree when every entry is added at the end and stays where it was
added until it is replaced or removed. Where all values differ they agree only then, if they are to
agree at every moment of the history. -/
theorem rebased_agrees (patches : List Patch) (entries : List JsonValue)
    (h : materializeEntries patches = some entries) :
    (InPlace patches.flatten → materializeEntriesRebased patches = (entries, 0)) ∧
      ((values patches.flatten).Nodup →
        ((∀ n, Agrees [patches.flatten.take n]) ↔ InPlace patches.flatten)) := by
  refine ⟨fun hplace => ?_, forall_agrees_iff h⟩
  have hfollows := follows_of_inPlace h hplace
  exact Prod.ext hfollows.same hfollows.dropped

theorem rebased_agrees_replaced :
    (InPlace [.add "/entries/0" .null, .replace "/entries/0" (.bool true)] →
        materializeEntriesRebased [[.add "/entries/0" .null],
          [.replace "/entries/0" (.bool true)]] = ([.bool true], 0)) ∧
      ((values [.add "/entries/0" .null, .replace "/entries/0" (.bool true)]).Nodup →
        ((∀ n, Agrees [[.add "/entries/0" .null, .replace "/entries/0" (.bool true)].take n]) ↔
          InPlace [.add "/entries/0" .null, .replace "/entries/0" (.bool true)])) :=
  rebased_agrees [[.add "/entries/0" .null], [.replace "/entries/0" (.bool true)]] _
    (by decide +kernel)

/-- An entry that is added before another is put behind it. -/
theorem not_agrees_inserted :
    materializeEntries [[.add "/entries/0" .null], [.add "/entries/0" (.bool true)]] =
        some [.bool true, .null] ∧
      materializeEntriesRebased [[.add "/entries/0" .null], [.add "/entries/0" (.bool true)]] =
        ([.null, .bool true], 0) := by
  decide +kernel

end Rebase

end VibeKanban.Messages
