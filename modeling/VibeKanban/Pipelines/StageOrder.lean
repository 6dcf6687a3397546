import VibeKanban.Pipelines.Block

/-!
# The canonical order of stages (`pipeline_block.rs`, lines 47-121)

* `canonicalStageOrder_canonical`: every stage once, in an order that respects each pipeline if
  there is one, and the first-seen stage wherever there is a choice; and the loop never subtracts
  from zero.
-/

namespace VibeKanban.Pipelines

open Lib Lib.Kahn List Backend Index Pipelines.Graph
open Delivery (Text)

/-! ## The promise -/

def allStages (pipelines : List BlockPipeline) : List BlockStage :=
  pipelines.flatMap BlockPipeline.stages

def BlockPipeline.ids (p : BlockPipeline) : List Text := p.stages.map BlockStage.id

/-- The stage `b` comes right after `a` in a pipeline. -/
def RightAfter (pipelines : List BlockPipeline) (a b : Text) : Prop :=
  ∃ p ∈ pipelines, (a, b) ∈ p.pairs

def Acyclic (pipelines : List BlockPipeline) : Prop :=
  ∀ id, ¬ Relation.TransGen (RightAfter pipelines) id id

def position (pipelines : List BlockPipeline) (id : Text) : ℕ :=
  ((allStages pipelines).map BlockStage.id).idxOf id

/-- A stage that can stand after the stages `before`: whatever must precede it is there. -/
structure Ready (pipelines : List BlockPipeline) (before : List Text) (id : Text) : Prop where
  mem : id ∈ (allStages pipelines).map BlockStage.id
  notMem : id ∉ before
  preceded : ∀ a, RightAfter pipelines a id → a ∈ before

/-- What the stages `ordered` are to the pipelines. -/
structure Canonical (pipelines : List BlockPipeline) (ordered : List BlockStage) : Prop where
  nodup : (ordered.map BlockStage.id).Nodup
  complete : ∀ id, id ∈ ordered.map BlockStage.id ↔ id ∈ (allStages pipelines).map BlockStage.id
  content : ∀ s ∈ ordered, (allStages pipelines).find? (fun t => t.id = s.id) = some s
  respects : Acyclic pipelines → ∀ p ∈ pipelines, p.ids.Sublist (ordered.map BlockStage.id)
  firstSeen : Acyclic pipelines → ∀ before id after,
    ordered.map BlockStage.id = before ++ id :: after →
      Ready pipelines before id ∧
        ∀ other, Ready pipelines before other → position pipelines id ≤ position pipelines other

/-! ## The loop with checked subtraction -/

namespace Backend

/-- `release`; `none` is the panic of `*deg -= 1` at zero. -/
def releaseChecked (state : (Text → Option ℕ) × List Text) (succ : Text) :
    Option ((Text → Option ℕ) × List Text) :=
  if state.1 succ = some 0 then none else some (release state succ)

/-- `placeNext` with the subtractions checked. -/
def placeNextChecked (hash : HashOrder) (index : Index) (graph : Graph ℕ) (s : Loop Text ℕ) :
    Option (Loop Text ℕ) :=
  match s.ready.argmin fun id => (index.firstSeen id).getD (2 ^ 64 - 1) with
  | none => some s
  | some next => do
    let ready := s.ready.filter (· ≠ next)
    let state ← match graph.adjacency next with
      | some succs => (hash.successors next succs).foldlM releaseChecked (s.indegree, ready)
      | none => some (s.indegree, ready)
    return {
      ready := state.2
      ordered := s.ordered ++ [next]
      remaining := s.remaining.filter (· ≠ next)
      indegree := state.1 }

/-- `while !ready.is_empty()`; `none` is also a loop that has not ended after `fuel` turns. -/
def runChecked (body : Loop Text ℕ → Option (Loop Text ℕ)) : ℕ → Loop Text ℕ → Option (Loop Text ℕ)
  | 0, s => if s.ready = [] then some s else none
  | fuel + 1, s => if s.ready = [] then some s else (body s).bind (runChecked body fuel)

/-- `canonical_stage_order` with the subtractions checked. -/
def canonicalStageOrderChecked (hash : HashOrder) (pipelines : List BlockPipeline) :
    Option (List BlockStage) := do
  let index := indexStages pipelines
  let graph := connectStages ℕ index.ids pipelines
  let s ← runChecked (placeNextChecked hash index graph) index.ids.length (start hash index graph)
  let ordered :=
    if s.remaining = [] then s.ordered
    else s.ordered ++ (hash.rest s.remaining).mergeSort (notAfter index)
  return ordered.filterMap fun id => index.byId.lookup id

end Backend

/-! ## The index -/

variable {index : Index} {s : BlockStage} {stages : List BlockStage} {id : Text}
  {pipelines : List BlockPipeline}

theorem lookup_see : (index.see s).byId.lookup id =
    (index.byId.lookup id).or (if s.id = id then some s else none) := by
  by_cases hs : (index.byId.lookup s.id).isSome
  · rw [see, if_pos hs]
    by_cases hid : s.id = id
    · rw [← hid, Option.or_of_isSome hs]
    · rw [if_neg hid, Option.or_none]
  · rw [see, if_neg hs, lookup_append]
    congr 1
    by_cases hid : s.id = id
    · simp [hid]
    · rw [if_neg hid]
      rw [lookup_cons, beq_eq_false_iff_ne.2 (Ne.symm hid)]
      rfl

theorem lookup_foldl_see : (stages.foldl see index).byId.lookup id =
    (index.byId.lookup id).or (stages.find? fun s => s.id = id) := by
  induction stages generalizing index with
  | nil => rw [find?_nil, Option.or_none, foldl_nil]
  | cons s stages ih =>
    rw [foldl_cons, ih, lookup_see, Option.or_assoc, find?_cons]
    congr 1
    by_cases hid : s.id = id <;> simp [hid]

theorem lookup_indexStages : (indexStages pipelines).byId.lookup id =
    (allStages pipelines).find? fun s => s.id = id := by
  rw [indexStages, lookup_foldl_see]
  rfl

theorem mem_ids_iff :
    id ∈ (indexStages pipelines).ids ↔ id ∈ (allStages pipelines).map BlockStage.id := by
  rw [← isSome_lookup, lookup_indexStages, find?_isSome, mem_map]
  simp

theorem pairwise_ids_foldl (stages : List BlockStage) :
    ((stages.foldl see ⟨[], fun _ => none, 0⟩).ids).Pairwise fun a b =>
      (stages.map BlockStage.id).idxOf a < (stages.map BlockStage.id).idxOf b := by
  induction stages using reverseRecOn with
  | nil => exact Pairwise.nil
  | append_singleton stages s ih =>
    have hmem : ∀ a ∈ (stages.foldl see ⟨[], fun _ => none, 0⟩).ids,
        a ∈ stages.map BlockStage.id := by
      intro a ha
      rw [← isSome_lookup, lookup_foldl_see] at ha
      simpa using ha
    have hold : ∀ a ∈ stages.map BlockStage.id,
        ((stages ++ [s]).map BlockStage.id).idxOf a = (stages.map BlockStage.id).idxOf a := by
      intro a ha
      rw [map_append, idxOf_append_of_mem ha]
    have hpairs : ((stages.foldl see ⟨[], fun _ => none, 0⟩).ids).Pairwise fun a b =>
        ((stages ++ [s]).map BlockStage.id).idxOf a <
          ((stages ++ [s]).map BlockStage.id).idxOf b := by
      refine ih.imp_of_mem ?_
      intro a b ha hb hlt
      rwa [hold a (hmem a ha), hold b (hmem b hb)]
    rw [foldl_append, foldl_cons, foldl_nil, ids_see]
    split
    · exact hpairs
    · next hnew =>
      rw [pairwise_append]
      refine ⟨hpairs, pairwise_singleton _ _, ?_⟩
      intro a ha b hb
      have hnotin : s.id ∉ stages.map BlockStage.id := by
        rw [← isSome_lookup, lookup_foldl_see] at hnew
        simpa using hnew
      rw [mem_singleton.1 hb, hold a (hmem a ha), map_append, idxOf_append_of_notMem hnotin]
      have hlt := idxOf_lt_length_of_mem (hmem a ha)
      omega

theorem pairwise_position :
    (indexStages pipelines).ids.Pairwise fun a b => position pipelines a < position pipelines b :=
  pairwise_ids_foldl _

/-! ## The graph -/

section Graph

variable {N : Type} [AddMonoidWithOne N] {graph : Graph N} {ids : List Text} {a b : Text}
  {pairs : List (Text × Text)} {pair : Text × Text}

theorem Graph.mem_succ_connect (h : (graph.adjacency pair.1).isSome) :
    b ∈ (graph.connect pair).succ a ↔ b ∈ graph.succ a ∨ pair = (a, b) := by
  obtain ⟨adj, hadj⟩ := Option.isSome_iff_exists.1 h
  obtain ⟨start, stop⟩ := pair
  replace hadj : graph.adjacency start = some adj := hadj
  by_cases hmem : stop ∈ adj <;> rw [connect, hadj]
  · simp only [hmem, if_true]
    constructor
    · exact .inl
    · rintro (hb | heq)
      · exact hb
      · cases heq
        rw [succ, hadj]
        exact hmem
  · simp only [hmem, if_false]
    by_cases ha : a = start
    · subst ha
      simp [succ, hadj, eq_comm]
    · simp [succ, ha, Ne.symm ha]

theorem Graph.isSome_connect (h : (graph.adjacency a).isSome) :
    ((graph.connect pair).adjacency a).isSome := by
  unfold connect
  split
  · split
    · exact h
    · by_cases ha : a = pair.1
      · simp [ha]
      · simp [ha, h]
  · exact h

theorem Graph.mem_succ_foldl (h : ∀ pair ∈ pairs, (graph.adjacency pair.1).isSome) :
    b ∈ (pairs.foldl connect graph).succ a ↔ b ∈ graph.succ a ∨ (a, b) ∈ pairs := by
  induction pairs generalizing graph with
  | nil => simp
  | cons pair pairs ih =>
    have hpairs : ∀ p ∈ pairs, ((graph.connect pair).adjacency p.1).isSome :=
      fun p hp => isSome_connect (h p (mem_cons_of_mem _ hp))
    rw [foldl_cons, ih hpairs, mem_succ_connect (h pair mem_cons_self),
      mem_cons, or_assoc, eq_comm (a := (a, b))]

/-- The edges of the graph are the neighbours in the pipelines. -/
theorem mem_succ_iff : b ∈ (connectStages N (indexStages pipelines).ids pipelines).succ a ↔
    RightAfter pipelines a b := by
  have hsome : ∀ pair ∈ pipelines.flatMap BlockPipeline.pairs,
      (({ indegree := fun id => if id ∈ (indexStages pipelines).ids then some 0 else none
          adjacency := fun id => if id ∈ (indexStages pipelines).ids then some [] else none } :
        Graph N).adjacency pair.1).isSome := by
    intro pair hpair
    simp [(mem_ids_of_mem_pairs hpair).1]
  rw [connectStages, mem_succ_foldl hsome, RightAfter, mem_flatMap]
  constructor
  · rintro (hb | hb)
    · simp only [succ] at hb
      split at hb <;> simp at hb
    · exact hb
  · exact .inr

end Graph

theorem edge_iff {a b : Text} : Edge (indexStages pipelines).ids
        (connectStages ℕ (indexStages pipelines).ids pipelines).succ a b ↔
      RightAfter pipelines a b := by
  rw [Edge, mem_succ_iff]
  constructor
  · exact fun h => h.2
  · intro h
    obtain ⟨p, hp, hpair⟩ := h
    exact ⟨(mem_ids_of_mem_pairs (mem_flatMap.2 ⟨p, hp, hpair⟩)).1, p, hp, hpair⟩

/-! ## The order -/

section Order

variable {before after : List Text}

variable (pipelines) in
/-- The ids that both sources compute. -/
def stageOrder : List Text :=
  order (indexStages pipelines).ids (connectStages ℕ (indexStages pipelines).ids pipelines).succ

theorem stageOrder_perm : (stageOrder pipelines).Perm (indexStages pipelines).ids :=
  order_perm good_indexStages.nodup

theorem map_id_canonicalStageOrder {hash : Backend.HashOrder} :
    (canonicalStageOrder hash pipelines).map BlockStage.id = stageOrder pipelines := by
  rw [canonicalStageOrder_eq, map_filterMap]
  have hfound : ∀ id ∈ stageOrder pipelines,
      ((indexStages pipelines).byId.lookup id).map BlockStage.id = some id := by
    intro id hid
    obtain ⟨s, hs⟩ := Option.isSome_iff_exists.1
      (isSome_lookup.2 (stageOrder_perm.mem_iff.1 hid))
    rw [hs]
    rw [lookup_indexStages] at hs
    simpa using List.find?_some hs
  exact (filterMap_congr hfound).trans filterMap_some

theorem ready_iff : Ready pipelines before id ↔ id ∈ (indexStages pipelines).ids ∧
    Free (indexStages pipelines).ids
      (connectStages ℕ (indexStages pipelines).ids pipelines).succ before id := by
  rw [free_iff, mem_ids_iff]
  constructor
  · rintro ⟨hmem, hnot, hpreceded⟩
    exact ⟨hmem, hnot, fun y _ hy => hpreceded y (mem_succ_iff.1 hy)⟩
  · rintro ⟨hmem, hnot, hpreceded⟩
    refine ⟨hmem, hnot, ?_⟩
    intro a ha
    obtain ⟨hids, hsucc⟩ := edge_iff.2 ha
    exact hpreceded a hids hsucc

theorem ready_of_stageOrder (hacyclic : Acyclic pipelines)
    (h : stageOrder pipelines = before ++ id :: after) : Ready pipelines before id ∧
      ∀ other, Ready pipelines before other → position pipelines id ≤ position pipelines other := by
  have hedges : ∀ x, ¬ Relation.TransGen (Edge (indexStages pipelines).ids
      (connectStages ℕ (indexStages pipelines).ids pipelines).succ) x x :=
    fun x hcycle => hacyclic x (hcycle.lift (fun id => id) fun _ _ => edge_iff.1)
  have hnext := next?_of_order hedges h
  refine ⟨ready_iff.2 ⟨mem_of_next? hnext, free_of_next? hnext⟩, ?_⟩
  intro other hother
  obtain ⟨hmem, hfree⟩ := ready_iff.1 hother
  obtain ⟨-, l, r, hids, hnot⟩ := find?_eq_some_iff_append.1 hnext
  rw [hids] at hmem
  rcases mem_append.1 hmem with hl | hr
  · simpa [hfree] using hnot other hl
  · have hpairwise : (l ++ id :: r).Pairwise fun a b =>
        position pipelines a < position pipelines b := hids ▸ pairwise_position
    rw [pairwise_append, pairwise_cons] at hpairwise
    rcases mem_cons.1 hr with rfl | hr
    · exact Nat.le_refl _
    · exact Nat.le_of_lt (hpairwise.2.1.1 other hr)

theorem isChain_of_zip_tail {R : Text → Text → Prop} {ids : List Text}
    (h : ∀ pair ∈ ids.zip ids.tail, R pair.1 pair.2) : ids.IsChain R := by
  induction ids with
  | nil => exact .nil
  | cons a ids ih =>
    cases ids with
    | nil => exact .singleton a
    | cons b ids =>
      refine .cons_cons (h (a, b) mem_cons_self) (ih ?_)
      exact fun pair hpair => h pair (mem_cons_of_mem _ hpair)

/-- Without cycles, the order keeps to the order of each pipeline. -/
theorem ids_sublist_stageOrder (hacyclic : Acyclic pipelines) {p : BlockPipeline}
    (hp : p ∈ pipelines) : p.ids.Sublist (stageOrder pipelines) := by
  let r : Text → Text → Prop := fun a b =>
    (stageOrder pipelines).idxOf a < (stageOrder pipelines).idxOf b
  have hmem : ∀ id ∈ p.ids, id ∈ stageOrder pipelines := by
    intro id hid
    obtain ⟨s, hs, rfl⟩ := mem_map.1 hid
    rw [stageOrder_perm.mem_iff, mem_ids_iff]
    exact mem_map_of_mem (mem_flatMap.2 ⟨p, hp, hs⟩)
  have hsorted : p.ids.Pairwise r := by
    apply (isChain_of_zip_tail _).pairwise
    intro pair hpair
    obtain ⟨before, after, hsplit⟩ :=
      append_of_mem (hmem pair.2 (mem_of_mem_tail (of_mem_zip hpair).2))
    obtain ⟨hready, -⟩ := ready_of_stageOrder hacyclic hsplit
    have hbefore := hready.preceded pair.1 ⟨p, hp, hpair⟩
    show (stageOrder pipelines).idxOf pair.1 < (stageOrder pipelines).idxOf pair.2
    rw [hsplit, idxOf_append_of_mem hbefore, idxOf_append_of_notMem hready.notMem]
    have hlt := idxOf_lt_length_of_mem hbefore
    omega
  have hnodup : (stageOrder pipelines).Nodup := stageOrder_perm.nodup_iff.2 good_indexStages.nodup
  apply sublist_of_subperm_of_pairwise (r := r)
  · refine Nodup.subperm (hsorted.imp ?_) hmem
    intro a b hab heq
    exact Nat.ne_of_lt hab (heq ▸ rfl)
  · exact hsorted
  · rw [pairwise_iff_getElem]
    intro i j hi hj hij
    show (stageOrder pipelines).idxOf _ < (stageOrder pipelines).idxOf _
    rwa [hnodup.idxOf_getElem, hnodup.idxOf_getElem]

end Order

/-! ## No subtraction from zero -/

namespace Backend

variable {hash : HashOrder} {graph : Graph ℕ} {loop : Loop Text ℕ} {next : Text}

theorem foldlM_releaseChecked {succs : List Text} {s : (Text → Option ℕ) × List Text}
    (hsuccs : succs.Nodup) (h : ∀ x ∈ succs, s.1 x ≠ some 0) :
    succs.foldlM releaseChecked s = some (succs.foldl release s) := by
  induction succs generalizing s with
  | nil => rfl
  | cons a succs ih =>
    obtain ⟨hnotin, hnodup⟩ := nodup_cons.1 hsuccs
    rw [foldlM_cons, releaseChecked, if_neg (h a mem_cons_self), foldl_cons]
    apply ih hnodup
    intro x hx
    have hne : x ≠ a := fun heq => hnotin (heq ▸ hx)
    have hsame : (release s a).1 x = s.1 x := by
      unfold release
      split
      · exact Function.update_of_ne hne _ _
      · rfl
    rw [hsame]
    exact h x (mem_cons_of_mem _ hx)

theorem placeNextChecked_eq (hindex : index.Good) (hgraph : graph.Good index.ids)
    (h : Inv index.ids graph.succ Nat.cast loop)
    (hnext : next? index.ids graph.succ loop.ordered = some next) :
    placeNextChecked hash index graph loop = some (placeNext hash index graph loop) := by
  have hadj := hgraph.adjacency next (mem_of_next? hnext)
  obtain ⟨hnodup, hsub⟩ := hgraph.succ next (mem_of_next? hnext)
  have hperm := hash.successors_perm next (graph.succ next)
  have hfold := foldlM_releaseChecked
    (s := (loop.indegree, loop.ready.filter (· ≠ next))) (hperm.nodup_iff.2 hnodup) (by
      intro x hx hzero
      have hx := hperm.mem_iff.1 hx
      have hpos := waiting_pos hindex.nodup hnext hx
      have hsome := (h.indegree x (hsub hx)).symm.trans hzero
      exact Nat.ne_of_gt hpos (Option.some.inj hsome))
  rw [placeNextChecked, placeNext, argmin_ready hindex h hnext]
  simp only [hadj, hfold]
  rfl

theorem runChecked_eq (hindex : index.Good) (hgraph : graph.Good index.ids) {fuel : ℕ}
    (h : Inv index.ids graph.succ Nat.cast loop)
    (hfuel : index.ids.length ≤ loop.ordered.length + fuel) :
    runChecked (placeNextChecked hash index graph) fuel loop =
      some (run (placeNext hash index graph) fuel loop) := by
  induction fuel generalizing loop with
  | zero =>
    have hnone : next? index.ids graph.succ (place index.ids graph.succ 0 loop.ordered) = none :=
      next?_place h.nodup h.subset hfuel
    exact if_pos (h.ready_eq_nil_iff.2 hnone)
  | succ fuel ih =>
    rw [runChecked, run]
    split
    · rfl
    · next hready =>
      obtain ⟨next, hnext⟩ := Option.ne_none_iff_exists'.1 fun hnone =>
        hready (h.ready_eq_nil_iff.2 hnone)
      obtain ⟨hinv, hordered⟩ :
          Inv index.ids graph.succ Nat.cast (placeNext hash index graph loop) ∧ _ :=
        placeNext_spec hindex hgraph h hnext
      rw [placeNextChecked_eq hindex hgraph h hnext, Option.bind_some]
      apply ih hinv
      rw [hordered, length_append, length_singleton]
      omega

theorem canonicalStageOrderChecked_eq (hash : HashOrder) (pipelines : List BlockPipeline) :
    canonicalStageOrderChecked hash pipelines = some (canonicalStageOrder hash pipelines) := by
  have hgraph : (connectStages ℕ (indexStages pipelines).ids pipelines).Good _ := good_connectStages
  unfold canonicalStageOrderChecked
  dsimp only
  rw [runChecked_eq good_indexStages hgraph (start_inv good_indexStages hgraph)
    (Nat.le_add_left _ _)]
  rfl

end Backend

/-! ## Main result -/

/-- The order is canonical and the same for every order of the hash sets and for
the user interface, and no number underflows. -/
theorem canonicalStageOrder_canonical (hash : Backend.HashOrder) (pipelines : List BlockPipeline) :
    Canonical pipelines (Backend.canonicalStageOrder hash pipelines) ∧
      (∀ hash', Backend.canonicalStageOrder hash' pipelines =
        Backend.canonicalStageOrder hash pipelines) ∧
      Ui.canonicalStageOrder pipelines = Backend.canonicalStageOrder hash pipelines ∧
      Backend.canonicalStageOrderChecked hash pipelines =
        some (Backend.canonicalStageOrder hash pipelines) := by
  refine ⟨⟨?_, ?_, ?_, ?_, ?_⟩, ?_, stage_order_agrees,
    Backend.canonicalStageOrderChecked_eq hash pipelines⟩
  · rw [map_id_canonicalStageOrder]
    exact stageOrder_perm.nodup_iff.2 good_indexStages.nodup
  · intro id
    rw [map_id_canonicalStageOrder, stageOrder_perm.mem_iff, mem_ids_iff]
  · intro s hs
    rw [Backend.canonicalStageOrder_eq] at hs
    obtain ⟨id, -, hlookup⟩ := mem_filterMap.1 hs
    rw [lookup_indexStages] at hlookup
    have hid : s.id = id := by simpa using List.find?_some hlookup
    rw [hid]
    exact hlookup
  · intro hacyclic p hp
    rw [map_id_canonicalStageOrder]
    exact ids_sublist_stageOrder hacyclic hp
  · intro hacyclic before id after h
    rw [map_id_canonicalStageOrder] at h
    exact ready_of_stageOrder hacyclic h
  · intro hash'
    rw [Backend.canonicalStageOrder_eq, Backend.canonicalStageOrder_eq]

end VibeKanban.Pipelines
