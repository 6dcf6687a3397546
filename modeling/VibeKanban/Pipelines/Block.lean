import VibeKanban.Lib.Kahn
import VibeKanban.Lib.Cut
import VibeKanban.Delivery.Prompt

/-!
# The pipeline block of an issue (`pipeline_block.rs` and `taskPipeline.ts`)

The block that lists the stages of an issue's pipelines is composed by the backend
(`api-types/src/pipeline_block.rs`) and by the user interface
(`web-core/src/shared/lib/pipeline/taskPipeline.ts`). A map that is only looked up is a function;
one whose keys are iterated is a list of its entries, oldest first. The order in which the backend
iterates a hash set is a parameter (`HashOrder`).

* `same_description_iff`: when the two compose the same description.
-/

namespace VibeKanban.Pipelines

open Lib Lib.Kahn List Function
open Delivery (Text isWhitespace)

/-! ## Data -/

structure BlockStage where
  id : Text
  promptFragment : Text

structure BlockPipeline where
  name : Text
  stages : List BlockStage

local instance lawfulText : LawfulBEq Text := inferInstance

def PIPELINE_START : Text := "<!-- vk:pipeline:start -->".toList

def PIPELINE_END : Text := "<!-- vk:pipeline:end -->".toList

def ORDER_INSTRUCTION : Text :=
  ("Execute these stages in the order listed. Do not add, skip, or reorder stages. " ++
    "As you begin each numbered stage below, output a single line exactly " ++
    "`VK-PIPELINE-STAGE: N` (N = the number of the stage you are starting) so pipeline " ++
    "progress can be tracked.").toList

/-! ## The graph of the stages -/

/-- `by_id`, `first_seen` and `seen_idx`. -/
structure Index where
  byId : List (Text × BlockStage)
  firstSeen : Text → Option ℕ
  seenIdx : ℕ

/-- The ids of the stages, by their first occurrence. -/
def Index.ids (index : Index) : List Text := index.byId.map Prod.fst

/-- One turn of the loop that both sources begin with (`pipeline_block.rs` 51-61,
`taskPipeline.ts` 91-96). -/
def Index.see (index : Index) (s : BlockStage) : Index where
  byId := if (index.byId.lookup s.id).isSome then index.byId else index.byId ++ [(s.id, s)]
  firstSeen :=
    if (index.firstSeen s.id).isSome then index.firstSeen
    else update index.firstSeen s.id (some index.seenIdx)
  seenIdx := if (index.firstSeen s.id).isSome then index.seenIdx else index.seenIdx + 1

def indexStages (pipelines : List BlockPipeline) : Index :=
  (pipelines.flatMap BlockPipeline.stages).foldl Index.see ⟨[], fun _ => none, 0⟩

/-- `indegree` and `adjacency`. -/
structure Graph (N : Type) where
  indegree : Text → Option N
  adjacency : Text → Option (List Text)

section Graph

variable {N : Type} [AddMonoidWithOne N]

/-- One pair of neighbours (`pipeline_block.rs` 67-77, `taskPipeline.ts` 104-114). -/
def Graph.connect (graph : Graph N) (pair : Text × Text) : Graph N :=
  match graph.adjacency pair.1 with
  | some adj =>
    if pair.2 ∈ adj then graph
    else
      { indegree :=
          update graph.indegree pair.2 (some ((graph.indegree pair.2).getD 0 + 1))
        adjacency := update graph.adjacency pair.1 (some (adj ++ [pair.2])) }
  | none => graph

/-- `p.stages.windows(2)`. -/
def BlockPipeline.pairs (p : BlockPipeline) : List (Text × Text) :=
  let ids := p.stages.map BlockStage.id
  ids.zip ids.tail

variable (N) in
def connectStages (ids : List Text) (pipelines : List BlockPipeline) : Graph N :=
  (pipelines.flatMap BlockPipeline.pairs).foldl Graph.connect
    { indegree := fun id => if id ∈ ids then some 0 else none
      adjacency := fun id => if id ∈ ids then some [] else none }

end Graph

/-- Whether `a` was not seen after `b`, for the fallback of both sources. -/
def notAfter (index : Index) (a b : Text) : Bool :=
  (index.firstSeen a).getD 0 ≤ (index.firstSeen b).getD 0

/-! ## What the graph is -/

/-- The stages that are indexed so far. -/
structure Index.Good (index : Index) : Prop where
  nodup : index.ids.Nodup
  firstSeen : ∀ id i, index.firstSeen id = some i ↔ index.ids[i]? = some id
  seenIdx : index.seenIdx = index.ids.length

variable {index : Index} {s : BlockStage} {stages : List BlockStage} {id : Text}
  {pipelines : List BlockPipeline}

theorem Index.isSome_lookup : (index.byId.lookup id).isSome = true ↔ id ∈ index.ids := by
  rw [lookup_isSome_iff, Index.ids, mem_map]
  constructor
  · rintro ⟨entry, hmem, heq⟩
    exact ⟨entry, hmem, (beq_iff_eq.1 heq).symm⟩
  · rintro ⟨entry, hmem, heq⟩
    exact ⟨entry, hmem, beq_iff_eq.2 heq.symm⟩

theorem Index.Good.mem_iff (h : index.Good) :
    (index.firstSeen id).isSome = true ↔ id ∈ index.ids := by
  rw [Option.isSome_iff_exists, mem_iff_getElem?]
  simp only [h.firstSeen]

theorem Index.ids_see :
    (index.see s).ids = if s.id ∈ index.ids then index.ids else index.ids ++ [s.id] := by
  by_cases hs : s.id ∈ index.ids
  · rw [Index.ids, Index.see, if_pos (Index.isSome_lookup.2 hs), if_pos hs, Index.ids]
  · rw [Index.ids, Index.see, if_neg fun h => hs (Index.isSome_lookup.1 h), if_neg hs,
      map_append, Index.ids]
    rfl

theorem Index.Good.see (h : index.Good) : (index.see s).Good := by
  by_cases hs : s.id ∈ index.ids
  · refine ⟨?_, ?_, ?_⟩
    · rw [Index.ids_see, if_pos hs]
      exact h.nodup
    · rw [Index.ids_see, if_pos hs]
      simp [Index.see, h.mem_iff.2 hs, h.firstSeen]
    · rw [Index.ids_see, if_pos hs]
      simp [Index.see, h.mem_iff.2 hs, h.seenIdx]
  · have hnone : (index.firstSeen s.id).isSome = false := by
      rw [Bool.eq_false_iff]
      exact fun hsome => hs (h.mem_iff.1 hsome)
    refine ⟨?_, ?_, ?_⟩
    · rw [Index.ids_see, if_neg hs, ← concat_eq_append]
      exact Nodup.concat hs h.nodup
    · intro id i
      rw [Index.ids_see, if_neg hs]
      show (if (index.firstSeen s.id).isSome = true then index.firstSeen
        else update index.firstSeen s.id (some index.seenIdx)) id = some i ↔ _
      rw [hnone, if_neg Bool.false_ne_true, h.seenIdx]
      rcases Nat.lt_or_ge i index.ids.length with hi | hi
      · rw [getElem?_append_left hi]
        by_cases hid : id = s.id
        · have hne : index.ids[i]? ≠ some id := fun h => hs (hid ▸ mem_of_getElem? h)
          rw [hid, update_self]
          rw [hid] at hne
          simp [hne]
          omega
        · rw [update_of_ne hid, h.firstSeen]
      · rw [getElem?_append_right hi]
        by_cases hid : id = s.id
        · rw [hid, update_self, getElem?_singleton]
          split
          all_goals
            simp
            omega
        · rw [update_of_ne hid, h.firstSeen, getElem?_eq_none hi, getElem?_singleton]
          have hne : s.id ≠ id := Ne.symm hid
          simp [hne]
    · rw [Index.ids_see, if_neg hs]
      simp [Index.see, hnone, h.seenIdx]

theorem good_foldl (h : index.Good) : (stages.foldl Index.see index).Good := by
  induction stages generalizing index with
  | nil => exact h
  | cons s stages ih => exact ih h.see

theorem mem_ids_foldl (h : id ∈ index.ids ∨ ∃ s ∈ stages, s.id = id) :
    id ∈ (stages.foldl Index.see index).ids := by
  induction stages generalizing index with
  | nil =>
    rcases h with h | ⟨s, hs, -⟩
    · exact h
    · cases hs
  | cons s stages ih =>
    apply ih
    have hsee : id ∈ (index.see s).ids ↔ id ∈ index.ids ∨ id = s.id := by
      rw [Index.ids_see]
      split
      · next hs => exact ⟨.inl, fun hid => hid.elim (fun h => h) fun h => h ▸ hs⟩
      · simp
    rw [hsee]
    rcases h with h | ⟨s', hs', heq⟩
    · exact .inl (.inl h)
    · rcases mem_cons.1 hs' with rfl | hs'
      · exact .inl (.inr heq.symm)
      · exact .inr ⟨s', hs', heq⟩

theorem good_indexStages : (indexStages pipelines).Good :=
  good_foldl ⟨nodup_nil, by simp [Index.ids], rfl⟩

theorem mem_ids_of_mem_pairs {pair : Text × Text}
    (h : pair ∈ pipelines.flatMap BlockPipeline.pairs) :
    pair.1 ∈ (indexStages pipelines).ids ∧ pair.2 ∈ (indexStages pipelines).ids := by
  obtain ⟨p, hp, hpair⟩ := mem_flatMap.1 h
  have hmem : ∀ id ∈ p.stages.map BlockStage.id, id ∈ (indexStages pipelines).ids := by
    intro id hid
    obtain ⟨s, hs, rfl⟩ := mem_map.1 hid
    exact mem_ids_foldl (.inr ⟨s, mem_flatMap.2 ⟨p, hp, hs⟩, rfl⟩)
  obtain ⟨hfrom, hto⟩ := of_mem_zip hpair
  exact ⟨hmem _ hfrom, hmem _ (mem_of_mem_tail hto)⟩

theorem Index.Good.pairwise (h : index.Good) :
    index.ids.Pairwise fun a b =>
      ∃ i j, index.firstSeen a = some i ∧ index.firstSeen b = some j ∧ i < j := by
  rw [pairwise_iff_getElem]
  intro i j hi hj hlt
  refine ⟨i, j, ?_, ?_, hlt⟩
  · rw [h.firstSeen, getElem?_eq_getElem hi]
  · rw [h.firstSeen, getElem?_eq_getElem hj]

section Graph

variable {N M : Type} [AddMonoidWithOne N] [AddMonoidWithOne M] {graph : Graph N}
  {graph' : Graph M} {ids : List Text} {pair : Text × Text} {pairs : List (Text × Text)}

/-- The stages that follow a stage. -/
def Graph.succ (graph : Graph N) (id : Text) : List Text := (graph.adjacency id).getD []

/-- The numbers of `indegree` count the edges of `adjacency`. -/
structure Graph.Good (ids : List Text) (graph : Graph N) : Prop where
  adjacency : ∀ id ∈ ids, graph.adjacency id = some (graph.succ id)
  succ : ∀ id ∈ ids, (graph.succ id).Nodup ∧ graph.succ id ⊆ ids
  indegree : ∀ x ∈ ids, graph.indegree x = some (waiting ids graph.succ [] x : N)

theorem Graph.connect_adjacency (h : graph.adjacency = graph'.adjacency) :
    (graph.connect pair).adjacency = (graph'.connect pair).adjacency := by
  unfold Graph.connect
  rw [← h]
  split
  · split
    · exact h
    · rfl
  · exact h

theorem Graph.Good.connect (h : graph.Good ids) (hids : ids.Nodup) (hfrom : pair.1 ∈ ids)
    (hto : pair.2 ∈ ids) : (graph.connect pair).Good ids := by
  obtain ⟨start, stop⟩ := pair
  have hadj := h.adjacency start hfrom
  by_cases hmem : stop ∈ graph.succ start
  · rw [Graph.connect, hadj]
    simpa [hmem] using h
  · have hconnect : graph.connect (start, stop) =
        { indegree := update graph.indegree stop (some ((graph.indegree stop).getD 0 + 1))
          adjacency := update graph.adjacency start (some (graph.succ start ++ [stop])) } := by
      rw [Graph.connect, hadj]
      exact if_neg hmem
    have hstart : (graph.connect (start, stop)).succ start = graph.succ start ++ [stop] := by
      rw [hconnect]
      simp [Graph.succ]
    have hother : ∀ id, id ≠ start → (graph.connect (start, stop)).succ id = graph.succ id := by
      intro id hid
      rw [hconnect]
      simp [Graph.succ, hid]
    refine ⟨?_, ?_, ?_⟩
    · intro id hid
      by_cases hs : id = start
      · rw [hs, hstart, hconnect]
        exact update_self _ _ _
      · rw [hother id hs, ← h.adjacency id hid, hconnect]
        exact update_of_ne hs _ _
    · intro id hid
      by_cases hs : id = start
      · rw [hs, hstart, ← concat_eq_append]
        refine ⟨Nodup.concat hmem (h.succ start hfrom).1, ?_⟩
        rw [concat_eq_append, append_subset]
        exact ⟨(h.succ start hfrom).2, cons_subset.2 ⟨hto, nil_subset _⟩⟩
      · rw [hother id hs]
        exact h.succ id hid
    · intro x hx
      by_cases hs : x = stop
      · have hwaiting : waiting ids (graph.connect (start, stop)).succ [] x =
            waiting ids graph.succ [] x + 1 := by
          apply countP_eq_add_one hids hfrom
          · simp [hs, hmem]
          · simp [hs, hstart]
          · intro y _ hy
            rw [hother y hy]
        rw [hwaiting, hs, Nat.cast_add, Nat.cast_one]
        rw [hconnect]
        show update graph.indegree stop _ stop = _
        rw [update_self, h.indegree stop hto]
        rfl
      · have hwaiting : waiting ids (graph.connect (start, stop)).succ [] x =
            waiting ids graph.succ [] x := by
          apply countP_congr
          intro y _
          by_cases hy : y = start
          · simp [hy, hstart, hs]
          · rw [hother y hy]
        rw [hwaiting, ← h.indegree x hx, hconnect]
        exact update_of_ne hs _ _

theorem Graph.Good.foldl (h : graph.Good ids) (hids : ids.Nodup)
    (hpairs : ∀ pair ∈ pairs, pair.1 ∈ ids ∧ pair.2 ∈ ids) :
    (pairs.foldl Graph.connect graph).Good ids := by
  induction pairs generalizing graph with
  | nil => exact h
  | cons pair pairs ih =>
    obtain ⟨hfrom, hto⟩ := hpairs pair mem_cons_self
    exact ih (h.connect hids hfrom hto) fun pair hp => hpairs pair (mem_cons_of_mem _ hp)

theorem foldl_connect_adjacency (h : graph.adjacency = graph'.adjacency) :
    (pairs.foldl Graph.connect graph).adjacency = (pairs.foldl Graph.connect graph').adjacency := by
  induction pairs generalizing graph graph' with
  | nil => exact h
  | cons pair pairs ih => exact ih (Graph.connect_adjacency h)

variable (N M) in
theorem succ_connectStages :
    (connectStages N ids pipelines).succ = (connectStages M ids pipelines).succ := by
  have h : (connectStages N ids pipelines).adjacency = (connectStages M ids pipelines).adjacency :=
    foldl_connect_adjacency rfl
  funext id
  rw [Graph.succ, Graph.succ, h]

theorem good_connectStages :
    (connectStages N (indexStages pipelines).ids pipelines).Good (indexStages pipelines).ids := by
  apply Graph.Good.foldl _ good_indexStages.nodup fun pair => mem_ids_of_mem_pairs
  refine ⟨?_, ?_, ?_⟩
  · intro id hid
    simp [Graph.succ, hid]
  · intro id hid
    simp [Graph.succ, hid]
  · intro x hx
    have hnone : waiting (indexStages pipelines).ids
        (Graph.succ { indegree := fun id =>
                        if id ∈ (indexStages pipelines).ids then some 0 else none
                      adjacency := fun id =>
                        if id ∈ (indexStages pipelines).ids then some [] else none : Graph N })
        [] x = 0 := by
      rw [waiting, countP_eq_zero]
      intro y hy
      simp [Graph.succ, hy]
    rw [hnone, Nat.cast_zero]
    exact if_pos hx

theorem Graph.Good.inv (h : graph.Good ids) (hids : ids.Nodup) {ready : List Text}
    (hready : ∀ x, x ∈ ready ↔ x ∈ ids ∧ waiting ids graph.succ [] x = 0) :
    Inv ids graph.succ (Nat.cast : ℕ → N)
      { ready := ready, ordered := [], remaining := ids, indegree := graph.indegree } := by
  refine ⟨nodup_nil, nil_subset ids, ?_, ?_, hids, h.indegree, ?_⟩
  · intro x
    rw [hready, Free]
    simp
  · simp
  · simp

end Graph

/-! ## The backend -/

namespace Backend

/-- The orders in which one call iterates its hash sets. -/
structure HashOrder where
  ready : List Text → List Text
  successors : Text → List Text → List Text
  rest : List Text → List Text
  ready_perm : ∀ l, (ready l).Perm l
  successors_perm : ∀ id l, (successors id l).Perm l
  rest_perm : ∀ l, (rest l).Perm l

/-- Sets that are iterated in the order of their insertions. -/
def HashOrder.inserted : HashOrder where
  ready l := l
  successors _ l := l
  rest l := l
  ready_perm := Perm.refl
  successors_perm _ := Perm.refl
  rest_perm := Perm.refl

/-- `str::trim`. -/
def trim (text : Text) : Text := Lib.trim isWhitespace text

/-- `compose_executor_line` (line 32). -/
def composeExecutorLine (executor : Option Text) : Text :=
  let trimmed := (executor.map trim).getD []
  if trimmed = [] then []
  else
    "- Run this task with the **".toList ++ trimmed ++
      "** execution agent: pass `executor: \"".toList ++ trimmed ++
      "\"` when starting the workspace.".toList

/-- One successor of the stage that is next (lines 97-104). The number is not zero before. -/
def release (state : (Text → Option ℕ) × List Text) (succ : Text) : (Text → Option ℕ) × List Text :=
  match state.1 succ with
  | some deg =>
    (update state.1 succ (some (deg - 1)), if deg - 1 = 0 then state.2 ++ [succ] else state.2)
  | none => state

section StageOrder

variable (hash : HashOrder) (index : Index) (graph : Graph ℕ)

/-- The body of the loop (lines 87-106). -/
def placeNext (s : Loop Text ℕ) : Loop Text ℕ :=
  match s.ready.argmin fun id => (index.firstSeen id).getD (2 ^ 64 - 1) with
  | none => s
  | some next =>
    let ready := s.ready.filter (· ≠ next)
    let state := match graph.adjacency next with
      | some succs => (hash.successors next succs).foldl release (s.indegree, ready)
      | none => (s.indegree, ready)
    { ready := state.2
      ordered := s.ordered ++ [next]
      remaining := s.remaining.filter (· ≠ next)
      indegree := state.1 }

/-- The variables before the loop (lines 79-85). -/
def start : Loop Text ℕ where
  ready := (hash.ready index.ids).filter fun id => (graph.indegree id).getD 0 = 0
  ordered := []
  remaining := index.ids
  indegree := graph.indegree

end StageOrder

/-- `canonical_stage_order` (line 47). -/
def canonicalStageOrder (hash : HashOrder) (pipelines : List BlockPipeline) : List BlockStage :=
  let index := indexStages pipelines
  let graph := connectStages ℕ index.ids pipelines
  let s := run (placeNext hash index graph) index.ids.length (start hash index graph)
  let ordered :=
    if s.remaining = [] then s.ordered
    else s.ordered ++ (hash.rest s.remaining).mergeSort (notAfter index)
  ordered.filterMap fun id => index.byId.lookup id

/-- `compose_pipeline_block` (line 127). -/
def composePipelineBlock (hash : HashOrder) (pipelines : List BlockPipeline)
    (enabled : Finset Text) (executor : Option Text) : Text :=
  let executorLine := composeExecutorLine executor
  let stages := (canonicalStageOrder hash pipelines).filter fun s => s.id ∈ enabled
  if stages = [] ∧ executorLine = [] then []
  else
    let heading :=
      if pipelines = [] then "## Pipeline".toList
      else "## Pipeline: ".toList ++ " + ".toList.intercalate (pipelines.map BlockPipeline.name)
    let lines :=
      [heading, []] ++ (if stages ≠ [] then [ORDER_INSTRUCTION, []] else []) ++
        (if executorLine ≠ [] then executorLine :: (if stages ≠ [] then [[]] else []) else []) ++
        stages.mapIdx fun i s => Nat.toDigits 10 (i + 1) ++ ". ".toList ++ s.promptFragment
    PIPELINE_START ++ '\n' :: ['\n'].intercalate lines ++ '\n' :: PIPELINE_END

/-- `append_pipeline_block` (line 177). -/
def appendPipelineBlock (description : Option Text) (block : Text) : Option Text :=
  if block = [] then description
  else
    match description.map trim with
    | some base => if base ≠ [] then some (base ++ "\n\n".toList ++ block) else some block
    | none => some block

end Backend

/-! ## The user interface -/

namespace Ui

/-- The characters that `trim` and `\s` mean in JavaScript. -/
def isWhitespace (c : Char) : Bool :=
  9 ≤ c.toNat && c.toNat ≤ 13 || 0x2000 ≤ c.toNat && c.toNat ≤ 0x200A ||
    [0x20, 0xA0, 0x1680, 0x2028, 0x2029, 0x202F, 0x205F, 0x3000, 0xFEFF].contains c.toNat

/-- `String.prototype.trim`. -/
def trim (text : Text) : Text := Lib.trim isWhitespace text

/-- `composeExecutorLine` (line 41). -/
def composeExecutorLine (executor : Option Text) : Text :=
  let trimmed := trim (executor.getD [])
  if trimmed = [] then []
  else
    "- Run this task with the **".toList ++ trimmed ++
      "** execution agent: pass `executor: \"".toList ++ trimmed ++
      "\"` when starting the workspace.".toList

/-- `firstSeen.get(id) ?? Number.POSITIVE_INFINITY`. -/
def seen (index : Index) (id : Text) : WithTop ℕ := (index.firstSeen id).elim ⊤ WithTop.some

/-- `takeSmallestFirstSeen` (line 122). -/
def takeSmallestFirstSeen (index : Index) : List Text → Option Text
  | [] => none
  | first :: rest =>
    some ((first :: rest).foldl
      (fun best id => if seen index id < best.2 then (id, seen index id) else best)
      (first, seen index first)).1

/-- One successor of the stage that is next (lines 140-144). -/
def release (state : (Text → Option ℤ) × List Text) (succ : Text) : (Text → Option ℤ) × List Text :=
  let deg := (state.1 succ).getD 0 - 1
  (update state.1 succ (some deg), if deg = 0 then state.2 ++ [succ] else state.2)

section StageOrder

variable (index : Index) (graph : Graph ℤ)

/-- The body of the loop (lines 135-145). -/
def placeNext (s : Loop Text ℤ) : Loop Text ℤ :=
  match takeSmallestFirstSeen index s.ready with
  | none => s
  | some next =>
    let ready := s.ready.filter (· ≠ next)
    let state := ((graph.adjacency next).getD []).foldl release (s.indegree, ready)
    { ready := state.2
      ordered := s.ordered ++ [next]
      remaining := s.remaining.filter (· ≠ next)
      indegree := state.1 }

/-- The variables before the loop (lines 116-120). -/
def start : Loop Text ℤ where
  ready := index.ids.filter fun id => (graph.indegree id).getD 0 = 0
  ordered := []
  remaining := index.ids
  indegree := graph.indegree

end StageOrder

/-- `canonicalStageOrder` (line 85). -/
def canonicalStageOrder (pipelines : List BlockPipeline) : List BlockStage :=
  let index := indexStages pipelines
  let graph := connectStages ℤ index.ids pipelines
  let s := run (placeNext index graph) index.ids.length (start index graph)
  let ordered :=
    if s.remaining ≠ [] then s.ordered ++ s.remaining.mergeSort (notAfter index) else s.ordered
  ordered.filterMap fun id => index.byId.lookup id

/-- `composePipelineBlock` (line 231), without `options`. -/
def composePipelineBlock (pipelines : List BlockPipeline) (enabled : Finset Text)
    (customText : Text) (executor : Option Text) : Text :=
  let executorLine := composeExecutorLine executor
  let trimmedCustom := trim customText
  let stages := (canonicalStageOrder pipelines).filter fun s => s.id ∈ enabled
  if stages = [] ∧ executorLine = [] ∧ trimmedCustom = [] then []
  else
    let heading :=
      if pipelines = [] then "## Pipeline".toList
      else "## Pipeline: ".toList ++ " + ".toList.intercalate (pipelines.map BlockPipeline.name)
    let trailing := if trimmedCustom ≠ [] then [trimmedCustom] else []
    let lines :=
      [heading, []] ++ (if stages ≠ [] then [ORDER_INSTRUCTION, []] else []) ++
        (if executorLine ≠ [] then executorLine :: (if stages ≠ [] then [[]] else []) else []) ++
        (stages.mapIdx fun i s => Nat.toDigits 10 (i + 1) ++ ". ".toList ++ s.promptFragment) ++
        (if trailing ≠ [] then
          (if stages ≠ [] ∨ executorLine ≠ [] then [[]] else []) ++
            [['\n'].intercalate trailing] else [])
    PIPELINE_START ++ '\n' :: ['\n'].intercalate lines ++ '\n' :: PIPELINE_END

/-- What ends a line in a regular expression. -/
def isLineTerminator (c : Char) : Bool :=
  c = '\n' || c = '\r' || c.toNat = 0x2028 || c.toNat = 0x2029

/-- Whether `## Pipeline(?::.*)?$` matches at the beginning of the text. -/
def matchesHeading (text : Text) : Bool :=
  let rest := text.drop "## Pipeline".toList.length
  "## Pipeline".toList.isPrefixOf text && rest.head?.all fun c => c = ':' || isLineTerminator c

/-- The text before the first match of `HEADING_LINE_RE` (line 310). -/
def beforeHeading : Bool → Text → Option Text
  | lineStart, [] => if lineStart && matchesHeading [] then some [] else none
  | lineStart, c :: text =>
    if lineStart && matchesHeading (c :: text) then some []
    else (beforeHeading (isLineTerminator c) text).map (c :: ·)

/-- `replace(/\s+$/, '')`. -/
def trimEnd (text : Text) : Text := text.rdropWhile isWhitespace

/-- `stripPipelineBlock` (line 318). -/
def stripPipelineBlock (description : Text) : Text :=
  match cutAt PIPELINE_START description with
  | none =>
    match beforeHeading true description with
    | none => description
    | some before => trimEnd before
  | some (before, rest) =>
    let after := match cutAt PIPELINE_END (PIPELINE_START ++ rest) with
      | none => []
      | some (_, after) => after
    trimEnd (before ++ after)

/-- `appendPipelineToDescription` (line 357). -/
def appendPipelineToDescription (description : Option Text) (block : Text) : Text :=
  let base := stripPipelineBlock (description.getD [])
  if block = [] then base
  else if base ≠ [] then base ++ "\n\n".toList ++ block
  else block

end Ui

/-! ## One order -/

/-- Numbers that grow with `first_seen`. -/
theorem Index.Good.pairwise_rank {β : Type} [Preorder β] {rank : Text → β} {r : ℕ → β}
    (h : index.Good) (hr : ∀ i j, i < j → r i < r j)
    (hrank : ∀ id i, index.firstSeen id = some i → rank id = r i) :
    index.ids.Pairwise fun a b => rank a < rank b := by
  apply h.pairwise.imp
  rintro a b ⟨i, j, ha, hb, hlt⟩
  rw [hrank a i ha, hrank b j hb]
  exact hr i j hlt

theorem Index.Good.pairwise_firstSeen (h : index.Good) (default : ℕ) :
    index.ids.Pairwise fun a b =>
      (index.firstSeen a).getD default < (index.firstSeen b).getD default := by
  apply h.pairwise_rank fun i j hlt => hlt
  intro id i hid
  rw [hid, Option.getD_some]

/-- The ids that both sources compute, whatever the order of the set is. -/
theorem ordered_eq {N : Type} {count : ℕ → N} {succ : Text → List Text} {s : Loop Text N}
    {rest : List Text} (hindex : index.Good) (h : Inv index.ids succ count s)
    (hperm : rest.Perm s.remaining)
    (hplaced : s.ordered = place index.ids succ index.ids.length []) :
    (if s.remaining = [] then s.ordered else s.ordered ++ rest.mergeSort (notAfter index)) =
      order index.ids succ := by
  have hsorted : (rest.mergeSort (notAfter index)).Pairwise fun a b => notAfter index a b := by
    apply pairwise_mergeSort
    · intro a b c hab hbc
      rw [notAfter, decide_eq_true_eq] at *
      omega
    · intro a b
      rw [notAfter, notAfter, Bool.or_eq_true, decide_eq_true_eq, decide_eq_true_eq]
      omega
  have hrest := h.append_rest (hindex.pairwise_firstSeen 0)
    ((mergeSort_perm rest (notAfter index)).trans hperm)
    (hsorted.imp fun hab => of_decide_eq_true hab) hplaced
  split
  · next hnil =>
    rw [hnil, perm_nil] at hperm
    rw [← hrest, hperm, mergeSort_nil, append_nil]
  · exact hrest

namespace Backend

theorem releases : Releases (Nat.cast : ℕ → ℕ) release := by
  intro indegree ready x n h
  simp [release, h]

variable {hash : HashOrder} {graph : Graph ℕ} {s : Loop Text ℕ} {next : Text}

theorem argmin_ready {succ : Text → List Text} (hindex : index.Good)
    (h : Inv index.ids succ Nat.cast s) (hnext : next? index.ids succ s.ordered = some next) :
    s.ready.argmin (fun id => (index.firstSeen id).getD (2 ^ 64 - 1)) = some next := by
  cases hmin : s.ready.argmin fun id => (index.firstSeen id).getD (2 ^ 64 - 1) with
  | none =>
    rw [argmin_eq_none, h.ready_eq_nil_iff, hnext] at hmin
    cases hmin
  | some x =>
    rw [← hnext]
    exact (h.next?_eq (hindex.pairwise_firstSeen (2 ^ 64 - 1)) (argmin_mem hmin)
      fun y hy => le_of_mem_argmin hy hmin).symm

theorem placeNext_spec (hindex : index.Good) (hgraph : graph.Good index.ids)
    (h : Inv index.ids graph.succ Nat.cast s)
    (hnext : next? index.ids graph.succ s.ordered = some next) :
    Inv index.ids graph.succ Nat.cast (placeNext hash index graph s) ∧
      (placeNext hash index graph s).ordered = s.ordered ++ [next] := by
  have hmin := argmin_ready hindex h hnext
  have hadj := hgraph.adjacency next (mem_of_next? hnext)
  have hplace : placeNext hash index graph s =
      { ready := ((hash.successors next (graph.succ next)).foldl release
          (s.indegree, s.ready.filter (· ≠ next))).2
        ordered := s.ordered ++ [next]
        remaining := s.remaining.filter (· ≠ next)
        indegree := ((hash.successors next (graph.succ next)).foldl release
          (s.indegree, s.ready.filter (· ≠ next))).1 } := by
    rw [placeNext, hmin]
    simp only [hadj]
  rw [hplace]
  exact ⟨h.step hindex.nodup hgraph.succ releases hnext (hash.successors_perm next _), rfl⟩

theorem start_inv (hindex : index.Good) (hgraph : graph.Good index.ids) :
    Inv index.ids graph.succ Nat.cast (start hash index graph) := by
  apply hgraph.inv hindex.nodup
  intro x
  rw [mem_filter, (hash.ready_perm index.ids).mem_iff, decide_eq_true_eq]
  apply and_congr_right
  intro hx
  rw [hgraph.indegree x hx]
  rfl

theorem canonicalStageOrder_eq : canonicalStageOrder hash pipelines =
    (order (indexStages pipelines).ids
      (connectStages ℕ (indexStages pipelines).ids pipelines).succ).filterMap fun id =>
        (indexStages pipelines).byId.lookup id := by
  have hgraph : (connectStages ℕ (indexStages pipelines).ids pipelines).Good _ := good_connectStages
  obtain ⟨hinv, hplaced⟩ := (start_inv good_indexStages hgraph).run
    (fun _ _ h => placeNext_spec good_indexStages hgraph h)
  rw [canonicalStageOrder, ordered_eq good_indexStages hinv (hash.rest_perm _) hplaced]

end Backend

namespace Ui

theorem releases : Releases (Nat.cast : ℕ → ℤ) release := by
  intro indegree ready x n h
  simp [release, h]

/-- `best` and `bestSeen` after a part of the loop. -/
theorem foldl_smallest (index : Index) (ids : List Text) (best : Text × WithTop ℕ)
    (h : best.2 = seen index best.1) :
    ∃ x, ids.foldl (fun best id => if seen index id < best.2 then (id, seen index id) else best)
        best = (x, seen index x) ∧
      (x = best.1 ∨ x ∈ ids) ∧ seen index x ≤ best.2 ∧
        ∀ id ∈ ids, seen index x ≤ seen index id := by
  induction ids generalizing best with
  | nil => exact ⟨best.1, by rw [← h]; rfl, .inl rfl, le_of_eq h.symm, by simp⟩
  | cons a ids ih =>
    rw [foldl_cons]
    split_ifs with hlt
    · obtain ⟨x, hx, hmem, hle, hall⟩ := ih (a, seen index a) rfl
      refine ⟨x, hx, ?_, hle.trans hlt.le, ?_⟩
      · exact .inr (mem_cons.2 hmem)
      · intro id hid
        rcases mem_cons.1 hid with rfl | hid
        · exact hle
        · exact hall id hid
    · obtain ⟨x, hx, hmem, hle, hall⟩ := ih best h
      refine ⟨x, hx, hmem.imp_right (mem_cons_of_mem _), hle, ?_⟩
      intro id hid
      rcases mem_cons.1 hid with rfl | hid
      · exact hle.trans (not_lt.1 hlt)
      · exact hall id hid

theorem takeSmallestFirstSeen_spec {ids : List Text} {best : Text}
    (h : takeSmallestFirstSeen index ids = some best) :
    best ∈ ids ∧ ∀ id ∈ ids, seen index best ≤ seen index id := by
  cases ids with
  | nil => cases h
  | cons first rest =>
    obtain ⟨x, hx, hmem, -, hall⟩ :=
      foldl_smallest index (first :: rest) (first, seen index first) rfl
    rw [takeSmallestFirstSeen, hx, Option.some_inj] at h
    subst h
    exact ⟨hmem.elim (fun heq => heq ▸ mem_cons_self) id, hall⟩

variable {graph : Graph ℤ} {s : Loop Text ℤ} {next : Text}

theorem placeNext_spec (hindex : index.Good) (hgraph : graph.Good index.ids)
    (h : Inv index.ids graph.succ Nat.cast s)
    (hnext : next? index.ids graph.succ s.ordered = some next) :
    Inv index.ids graph.succ Nat.cast (placeNext index graph s) ∧
      (placeNext index graph s).ordered = s.ordered ++ [next] := by
  have hmin : takeSmallestFirstSeen index s.ready = some next := by
    cases hready : s.ready with
    | nil =>
      rw [h.ready_eq_nil_iff, hnext] at hready
      cases hready
    | cons first rest =>
      obtain ⟨best, hbest⟩ : ∃ best, takeSmallestFirstSeen index (first :: rest) = some best :=
        ⟨_, rfl⟩
      obtain ⟨hmem, hle⟩ := takeSmallestFirstSeen_spec hbest
      rw [← hready] at hmem hle
      rw [hbest, ← hnext]
      apply (h.next?_eq (hindex.pairwise_rank (r := WithTop.some) _ _) hmem hle).symm
      · intro i j hlt
        exact WithTop.coe_lt_coe.2 hlt
      · intro id i hid
        rw [seen, hid]
        rfl
  have hplace : placeNext index graph s =
      { ready := ((graph.succ next).foldl release (s.indegree, s.ready.filter (· ≠ next))).2
        ordered := s.ordered ++ [next]
        remaining := s.remaining.filter (· ≠ next)
        indegree :=
          ((graph.succ next).foldl release (s.indegree, s.ready.filter (· ≠ next))).1 } := by
    rw [placeNext, hmin]
    rfl
  rw [hplace]
  exact ⟨h.step hindex.nodup hgraph.succ releases hnext (Perm.refl _), rfl⟩

theorem start_inv (hindex : index.Good) (hgraph : graph.Good index.ids) :
    Inv index.ids graph.succ Nat.cast (start index graph) := by
  apply hgraph.inv hindex.nodup
  intro x
  rw [mem_filter, decide_eq_true_eq]
  apply and_congr_right
  intro hx
  rw [hgraph.indegree x hx, Option.getD_some, Nat.cast_eq_zero]

theorem canonicalStageOrder_eq : canonicalStageOrder pipelines =
    (order (indexStages pipelines).ids
      (connectStages ℕ (indexStages pipelines).ids pipelines).succ).filterMap fun id =>
        (indexStages pipelines).byId.lookup id := by
  have hgraph : (connectStages ℤ (indexStages pipelines).ids pipelines).Good _ := good_connectStages
  obtain ⟨hinv, hplaced⟩ := (start_inv good_indexStages hgraph).run
    (fun _ _ h => placeNext_spec good_indexStages hgraph h)
  rw [canonicalStageOrder, ← succ_connectStages ℤ ℕ,
    ← ordered_eq good_indexStages hinv (Perm.refl _) hplaced]
  simp only [ne_eq, ite_not]

end Ui

theorem stage_order_agrees {hash : Backend.HashOrder} :
    Ui.canonicalStageOrder pipelines = Backend.canonicalStageOrder hash pipelines := by
  rw [Ui.canonicalStageOrder_eq, Backend.canonicalStageOrder_eq]

/-! ## One block -/

/-- The line for an executor that is trimmed. -/
def executorLine (trimmed : Text) : Text :=
  if trimmed = [] then []
  else
    "- Run this task with the **".toList ++ trimmed ++
      "** execution agent: pass `executor: \"".toList ++ trimmed ++
      "\"` when starting the workspace.".toList

def heading (pipelines : List BlockPipeline) : Text :=
  if pipelines = [] then "## Pipeline".toList
  else "## Pipeline: ".toList ++ " + ".toList.intercalate (pipelines.map BlockPipeline.name)

def numbered (stages : List BlockStage) : List Text :=
  stages.mapIdx fun i s => Nat.toDigits 10 (i + 1) ++ ". ".toList ++ s.promptFragment

/-- The block with the given stages and executor line. -/
def blockText (pipelines : List BlockPipeline) (stages : List BlockStage) (line : Text) : Text :=
  if stages = [] ∧ line = [] then []
  else
    PIPELINE_START ++ '\n' :: ['\n'].intercalate
      ([heading pipelines, []] ++ (if stages ≠ [] then [ORDER_INSTRUCTION, []] else []) ++
        (if line ≠ [] then line :: (if stages ≠ [] then [[]] else []) else []) ++
        numbered stages) ++ '\n' :: PIPELINE_END

variable {hash : Backend.HashOrder} {enabled : Finset Text} {executor : Option Text}
  {line line' t t' : Text} {description block block' rest : Text}

theorem Backend.composeExecutorLine_eq :
    Backend.composeExecutorLine executor = executorLine (Backend.trim (executor.getD [])) := by
  cases executor <;> rfl

theorem Backend.composePipelineBlock_eq :
    Backend.composePipelineBlock hash pipelines enabled executor =
      blockText pipelines
        ((Backend.canonicalStageOrder hash pipelines).filter fun s => s.id ∈ enabled)
        (executorLine (Backend.trim (executor.getD []))) := by
  rw [← Backend.composeExecutorLine_eq]
  rfl

theorem Ui.composePipelineBlock_eq (hash : Backend.HashOrder) :
    Ui.composePipelineBlock pipelines enabled [] executor =
      blockText pipelines
        ((Backend.canonicalStageOrder hash pipelines).filter fun s => s.id ∈ enabled)
        (executorLine (Ui.trim (executor.getD []))) := by
  have hcustom : Ui.trim [] = [] := rfl
  rw [Ui.composePipelineBlock, stage_order_agrees, hcustom]
  simp only [and_true, ne_eq, not_true_eq_false, if_false, append_nil]
  rfl

theorem executorLine_eq_nil_iff : executorLine t = [] ↔ t = [] := by
  unfold executorLine
  split
  all_goals next h => simp [h, -String.reduceToList]

/-- The executor can be read off its line. -/
theorem executorLine_injective (h : executorLine t = executorLine t') : t = t' := by
  by_cases ht : t = []
  · rw [ht, executorLine, if_pos rfl, eq_comm, executorLine_eq_nil_iff] at h
    rw [ht, h]
  · have ht' : t' ≠ [] := by
      intro heq
      rw [executorLine_eq_nil_iff.2 heq] at h
      exact ht (executorLine_eq_nil_iff.1 h)
    rw [executorLine, executorLine, if_neg ht, if_neg ht'] at h
    have hlen := congrArg length h
    simp only [length_append] at hlen
    simp only [append_assoc, append_cancel_left_eq] at h
    exact (append_inj h (by omega)).1

theorem numbered_ne_nil (h : stages ≠ []) : numbered stages ≠ [] := by simpa [numbered] using h

theorem blockText_nil : blockText pipelines [] line = if line = [] then [] else
      PIPELINE_START ++ '\n' :: (heading pipelines ++ "\n\n".toList ++ line) ++
        '\n' :: PIPELINE_END := by
  by_cases h : line = []
  · simp [blockText, h]
  · simp [blockText, h, numbered, intercalate]

/-- Where the executor line stands among stages. -/
theorem join_of_order (first head order last line n : Text) (rest : List Text) :
    first ++ '\n' :: ['\n'].intercalate ([head, []] ++ [order, []] ++
        (if line ≠ [] then line :: [[]] else []) ++ n :: rest) ++ '\n' :: last =
      first ++ '\n' :: (head ++ "\n\n".toList ++ order ++ "\n\n".toList) ++
        (if line = [] then [] else line ++ "\n\n".toList) ++
        (['\n'].intercalate (n :: rest) ++ '\n' :: last) := by
  by_cases hl : line = []
  all_goals simp [hl, intercalate]

theorem blockText_of_ne_nil (pipelines : List BlockPipeline) (h : stages ≠ []) :
    ∃ front back, ∀ line, blockText pipelines stages line =
      PIPELINE_START ++ front ++ (if line = [] then [] else line ++ "\n\n".toList) ++ back := by
  obtain ⟨n, rest, hn⟩ := exists_cons_of_ne_nil (numbered_ne_nil h)
  refine ⟨'\n' :: (heading pipelines ++ "\n\n".toList ++ ORDER_INSTRUCTION ++ "\n\n".toList),
    ['\n'].intercalate (n :: rest) ++ '\n' :: PIPELINE_END, fun line => ?_⟩
  rw [blockText, if_neg fun hnil => h hnil.1, if_pos h, if_pos h, hn]
  exact join_of_order ..

/-- The executor line can be read off the block. -/
theorem blockText_injective
    (h : blockText pipelines stages line = blockText pipelines stages line') : line = line' := by
  by_cases hs : stages = []
  · rw [hs, blockText_nil, blockText_nil] at h
    by_cases hl : line = []
    · by_cases hl' : line' = []
      · rw [hl, hl']
      · rw [if_pos hl, if_neg hl'] at h
        cases h
    · by_cases hl' : line' = []
      · rw [if_neg hl, if_pos hl'] at h
        cases h
      · rw [if_neg hl, if_neg hl'] at h
        simpa using h
  · obtain ⟨front, back, hblock⟩ := blockText_of_ne_nil pipelines hs
    rw [hblock, hblock] at h
    simp only [append_assoc, append_cancel_left_eq, append_cancel_right_eq] at h
    by_cases hl : line = []
    · by_cases hl' : line' = []
      · rw [hl, hl']
      · rw [if_pos hl, if_neg hl'] at h
        simpa using congrArg length h
    · by_cases hl' : line' = []
      · rw [if_neg hl, if_pos hl'] at h
        simpa using congrArg length h
      · rw [if_neg hl, if_neg hl'] at h
        simpa using h

theorem prefix_blockText (h : blockText pipelines stages line ≠ []) :
    PIPELINE_START <+: blockText pipelines stages line := by
  unfold blockText at h ⊢
  split
  · next hnil => exact absurd (if_pos hnil) h
  · rw [append_assoc]
    exact prefix_append _ _

/-! ## One description -/

def NoPipeline (description : Text) : Prop :=
  ¬ PIPELINE_START <:+: description ∧ Ui.beforeHeading true description = none
  deriving Decidable

theorem NoPipeline.strip (h : NoPipeline description) :
    Ui.stripPipelineBlock description = description := by
  rw [Ui.stripPipelineBlock, cutAt_eq_none_iff.2 h.1]
  simp only [h.2]

theorem back_eq_nil {back : Text} (hb : block = '<' :: rest)
    (hlt : isWhitespace '<' = false) (hback : ∀ c ∈ back, isWhitespace c = true)
    (h : "\n\n".toList ++ block = back ++ ("\n\n".toList ++ block')) : back = [] := by
  have hne : ∀ c, isWhitespace c = true → c ≠ '<' := by
    rintro c hc rfl
    exact absurd hc (by simp [hlt])
  subst hb
  match back, hback, h with
  | [], _, _ => rfl
  | [c], _, h => simp at h
  | [c, c'], _, h => simp at h
  | c :: c' :: c'' :: back, hback, h =>
    have heq := (cons_eq_cons.1 (cons_eq_cons.1 (cons_eq_cons.1 h).2).2).1
    exact absurd heq.symm (hne c'' (hback c'' (by simp)))

/-- Texts that are joined with an empty line, the first one trimmed at one side only. -/
theorem append_eq_iff {rest' : Text} (hb : block = '<' :: rest) (hb' : block' = '<' :: rest') :
    (if Backend.trim description ≠ [] then Backend.trim description ++ "\n\n".toList ++ block
      else block) = (if description ≠ [] then description ++ "\n\n".toList ++ block' else block') ↔
      Backend.trim description = description ∧ block = block' := by
  constructor
  · intro h
    have hlt : isWhitespace '<' = false := by decide
    obtain ⟨front, back, hparts, hfront, hback⟩ := trim_parts isWhitespace description
    have hhead : ∀ c r, Backend.trim description = c :: r → isWhitespace c = false :=
      fun c r => not_of_trim_eq_cons
    change description = front ++ Backend.trim description ++ back at hparts
    generalize Backend.trim description = base at h hparts hhead ⊢
    subst hparts
    cases base with
    | nil =>
      have hspace : ∀ c ∈ front ++ [] ++ back, isWhitespace c = true := by
        intro c hc
        rw [append_nil, mem_append] at hc
        exact hc.elim (hfront c) (hback c)
      generalize front ++ [] ++ back = description at h hspace ⊢
      cases description with
      | nil => exact ⟨rfl, h⟩
      | cons c description =>
        have hc := hspace c mem_cons_self
        rw [if_neg (by simp), if_pos (by simp), hb] at h
        obtain ⟨rfl, -⟩ := cons_eq_cons.1 h
        exact absurd hc (by simp [hlt])
    | cons c base =>
      have hc := hhead c base rfl
      cases front with
      | cons c' front =>
        have hc' := hfront c' mem_cons_self
        obtain ⟨rfl, -⟩ := cons_eq_cons.1 h
        exact absurd hc (by simp [hc'])
      | nil =>
        rw [if_pos (by simp), if_pos (by simp)] at h
        simp only [nil_append, append_assoc, append_cancel_left_eq] at h
        have hrest := back_eq_nil hb hlt hback h
        rw [hrest] at h ⊢
        exact ⟨by simp, by simpa using h⟩
  · rintro ⟨htrim, rfl⟩
    rw [htrim]

theorem exists_cons_blockText (h : blockText pipelines stages line ≠ []) :
    ∃ rest, blockText pipelines stages line = '<' :: rest := by
  obtain ⟨rest, hrest⟩ := prefix_blockText h
  exact ⟨_, hrest.symm⟩

theorem Backend.appendPipelineBlock_of_ne_nil (h : block ≠ []) :
    Backend.appendPipelineBlock (some description) block =
      some (if Backend.trim description ≠ [] then
        Backend.trim description ++ "\n\n".toList ++ block else block) := by
  rw [Backend.appendPipelineBlock, if_neg h]
  show (if Backend.trim description ≠ [] then _ else _) = _
  split <;> rfl

/-- **The descriptions agree** exactly if `str::trim` leaves the description alone, and both
languages trim the executor alike. -/
theorem same_description_iff (hash : Backend.HashOrder) (pipelines : List BlockPipeline)
    (enabled : Finset Text) (executor : Option Text) (description : Text)
    (hdescription : NoPipeline description)
    (hblock : Backend.composePipelineBlock hash pipelines enabled executor ≠ [] ∨
      Ui.composePipelineBlock pipelines enabled [] executor ≠ []) :
    Backend.appendPipelineBlock (some description)
        (Backend.composePipelineBlock hash pipelines enabled executor) =
      some (Ui.appendPipelineToDescription (some description)
        (Ui.composePipelineBlock pipelines enabled [] executor)) ↔
    Backend.trim description = description ∧
      Backend.trim (executor.getD []) = Ui.trim (executor.getD []) := by
  rw [Backend.composePipelineBlock_eq, Ui.composePipelineBlock_eq hash] at *
  generalize Backend.trim (executor.getD []) = trimmed at *
  generalize Ui.trim (executor.getD []) = trimmed' at *
  generalize (Backend.canonicalStageOrder hash pipelines).filter _ = stages at *
  have hinj : blockText pipelines stages (executorLine trimmed) =
      blockText pipelines stages (executorLine trimmed') ↔ trimmed = trimmed' :=
    ⟨fun h => executorLine_injective (blockText_injective h), fun h => by rw [h]⟩
  rw [Ui.appendPipelineToDescription, Option.getD_some, hdescription.strip, ← hinj]
  by_cases hb : blockText pipelines stages (executorLine trimmed) = []
  · have hb' : blockText pipelines stages (executorLine trimmed') ≠ [] := by
      rcases hblock with h | h
      · exact absurd hb h
      · exact h
    rw [hb, Backend.appendPipelineBlock, if_pos rfl, if_neg hb', Option.some_inj]
    constructor
    · intro h
      have hlen := congrArg length h
      split at hlen
      · rw [length_append, length_append] at hlen
        have htwo : "\n\n".toList.length = 2 := rfl
        omega
      · next hnil =>
        rw [not_not.1 hnil, length_nil] at hlen
        exact absurd (eq_nil_of_length_eq_zero hlen.symm) hb'
    · rintro ⟨-, h⟩
      exact absurd h.symm hb'
  · rw [Backend.appendPipelineBlock_of_ne_nil hb, Option.some_inj]
    by_cases hb' : blockText pipelines stages (executorLine trimmed') = []
    · rw [if_pos hb']
      constructor
      · intro h
        apply absurd _ hdescription.1
        rw [← h]
        split
        · exact (prefix_blockText hb).isInfix.trans (suffix_append _ _).isInfix
        · exact (prefix_blockText hb).isInfix
      · rintro ⟨-, h⟩
        exact absurd (h.trans hb') hb
    · obtain ⟨rest, hrest⟩ := exists_cons_blockText hb
      obtain ⟨rest', hrest'⟩ := exists_cons_blockText hb'
      rw [if_neg hb']
      exact append_eq_iff hrest hrest'

/-- A pipeline with two stages, one of them enabled, for a given agent. -/
theorem pinned_issue_description : Backend.appendPipelineBlock (some "Fix it".toList)
        (Backend.composePipelineBlock Backend.HashOrder.inserted
          [⟨"Basic".toList, [⟨"spec".toList, "Specify.".toList⟩, ⟨"plan".toList, "Plan.".toList⟩]⟩]
          {"plan".toList} (some "CODEX".toList)) =
      some (Ui.appendPipelineToDescription (some "Fix it".toList) (Ui.composePipelineBlock
          [⟨"Basic".toList, [⟨"spec".toList, "Specify.".toList⟩, ⟨"plan".toList, "Plan.".toList⟩]⟩]
          {"plan".toList} [] (some "CODEX".toList))) :=
  (same_description_iff _ _ _ _ _ (by decide +kernel) (by decide +kernel)).2 (by decide +kernel)

/-- A description that ends with a line break. -/
theorem line_break_description : NoPipeline "Fix it\n".toList ∧
    Backend.composePipelineBlock Backend.HashOrder.inserted [] ∅ (some "CODEX".toList) ≠ [] ∧
      Backend.appendPipelineBlock (some "Fix it\n".toList)
        (Backend.composePipelineBlock Backend.HashOrder.inserted [] ∅ (some "CODEX".toList)) ≠
      some (Ui.appendPipelineToDescription (some "Fix it\n".toList)
        (Ui.composePipelineBlock [] ∅ [] (some "CODEX".toList))) := by
  decide +kernel

end VibeKanban.Pipelines
