import VibeKanban.Events.Hooks

/-!
# Whether clients converge to the database

A key is pending while some task will still push what is committed for it.

* `streams_converge`: in a run whose steps meet `Meets`, what a client will hold once its queue is
  drained is what its stream selects of the committed row, unless the key is pending or the open
  transaction has deleted the row.
-/

namespace VibeKanban.Events

open Delivery (Text)
open Lib Option Database List Bool Events.Task Replica

/-! ## Tasks that are still to push -/

def Database.follows (d : Database) (sessionId : Uuid) (k : Key) : Bool :=
  match d.sessions.find? fun session => session.id = sessionId with
  | some session => k = .workspaces session.workspaceId
  | none => false

/-- The task will push the committed content of the key, as long as nothing is committed. -/
def Task.covers (d : Database) (k : Key) : Task → Bool
  | .spawned table rowid _ =>
    match d.findByRowid table rowid with
    | some record => k = record.key || record.executionProcess?.any fun p => d.follows p.sessionId k
    | none => false
  | .located workspaceId _ => k = .workspaces workspaceId
  | .naming w _ => k = .workspaces w.workspace.id && d.content k = some (.workspace w)
  | .fetched _ content sessionId =>
    (k = content.key && d.content k = some content) || sessionId.any fun id => d.follows id k
  | .following sessionId => d.follows sessionId k
  | .missing .. => false
  | .done => false

def Pending (d : Database) (tasks : List Task) (k : Key) : Prop := ∃ t ∈ tasks, t.covers d k = true
  deriving Decidable

/-! ## The condition -/

namespace System

/-- Some task is still to push the key after the commit, or the commit leaves its content as it was
    and no task was to push it. -/
def Handled (s : System) (tx : Transaction) (k : Key) : Prop :=
  Pending tx.database s.tasks k ∨
    k ∉ tx.deleted ∧ tx.database.content k = s.database.content k ∧ ¬Pending s.database s.tasks k
  deriving Decidable

def CommitMeets (s : System) (tx : Transaction) : Prop :=
  ∀ row ∈ tx.database.rows, s.Handled tx row.key

/-- The condition on the push of a row that was read: the open transaction has not deleted it, and
    it is as committed, or some other task is still to push it. -/
def PushMeets (s : System) (i : ℕ) (content : Content) : Prop :=
  content.key ∉ s.deleted ∧
    (s.database.content content.key = some content ∨
      Pending s.database (s.tasks.set i .done) content.key ∧
        (s.database.content content.key).any fun c => c.record.owner = content.record.owner)
  deriving Decidable

def Meets (s : System) : Action → Prop
  | .commit =>
    match s.transaction with
    | some tx => s.CommitMeets tx
    | none => True
  | .rollback => ∀ row ∈ s.database.rows, row.key ∈ s.deleted → Pending s.database s.tasks row.key
  | .work i now =>
    match s.tasks[i]? with
    | some (.fetched _ content _) => s.PushMeets i content
    | some (.naming w _) =>
      match newName s.database w.workspace.id with
      | some name =>
        Pending (s.database.rename w.workspace.id name now) (s.tasks.set i .done)
          (.workspaces w.workspace.id)
      | none => True
    | _ => True
  | .fail i =>
    ∀ row ∈ s.database.rows, Pending s.database s.tasks row.key →
      Pending s.database (s.tasks.set i .done) row.key
  | .snapshot i =>
    match s.clients[i]? with
    | some c => c.stream.Unlimited s.database ∧
        ∀ k ∈ s.deleted, c.outcome k ≠ none ∨ c.stream.rows s.database k = none
    | none => True
  | _ => True

instance (s : System) (a : Action) : Decidable (s.Meets a) := by
  cases a <;> simp only [Meets, CommitMeets] <;> repeat' split
  all_goals infer_instance

end System

/-! ## What clients will hold -/

def InScope (d : Database) (st : Stream) (k : Key) : Prop :=
  ∃ c, d.content k = some c ∧ st.scope c = true

/-- A client will hold what its stream selects, or some task will still see to it. -/
def Current (d : Database) (tasks : List Task) (st : Stream) (k : Key) (v : Option Content) :
    Prop :=
  v = st.rows d k ∨ Pending d tasks k ∧ InScope d st k

/-- What a client will hold of a key. -/
structure Accounted (d : Database) (deleted : List Key) (tasks : List Task) (st : Stream) (k : Key)
    (v : Option Content) : Prop where
  of_deleted : k ∈ deleted → v = none
  of_kept : k ∉ deleted → Current d tasks st k v

variable {d d' : Database} {deleted : List Key} {tasks tasks' : List Task} {st : Stream} {k : Key}
  {v : Option Content} {i : ℕ} {t t' : Task} {content : Content}
  {operation : Operation} {id : Uuid} {name : Text}

theorem rows_of_not_inScope (h : ¬InScope d st k) : st.rows d k = none := by
  rw [Stream.rows, filter_eq_none_iff]
  intro c hc hsel
  exact h ⟨c, hc, Stream.scope_of_selects hsel⟩

theorem not_inScope_of_none (h : d.content k = none) : ¬InScope d st k := by
  rintro ⟨c, hc, _⟩
  rw [h] at hc
  cases hc

theorem Current.eq_none (h : Current d tasks st k v) (hin : ¬InScope d st k) : v = none := by
  rcases h with rfl | ⟨_, h⟩
  · exact rows_of_not_inScope hin
  · exact absurd h hin

theorem Current.of_none (h : InScope d st k → Pending d tasks k) : Current d tasks st k none := by
  by_cases hin : InScope d st k
  · exact .inr ⟨h hin, hin⟩
  · exact .inl (rows_of_not_inScope hin).symm

/-- The committed content changes within its scope, and then some task will push it. -/
theorem Current.move (h : Current d tasks st k v) (hscope : InScope d st k ↔ InScope d' st k)
    (hp : InScope d' st k → Pending d' tasks' k ∨
      st.rows d' k = st.rows d k ∧ (Pending d tasks k → Pending d' tasks' k)) :
    Current d' tasks' st k v := by
  by_cases hin : InScope d' st k
  · rcases hp hin with hpending | ⟨hrows, hkeep⟩
    · exact .inr ⟨hpending, hin⟩
    · rcases h with rfl | ⟨hpending, _⟩
      · exact .inl hrows.symm
      · exact .inr ⟨hkeep hpending, hin⟩
  · rw [h.eq_none fun hold => hin (hscope.1 hold)]
    exact .of_none fun h => absurd h hin

theorem Accounted.mono (h : Accounted d deleted tasks st k v)
    (hp : InScope d st k → Pending d tasks k → Pending d tasks' k) :
    Accounted d deleted tasks' st k v where
  of_deleted := h.of_deleted
  of_kept hk := (h.of_kept hk).move Iff.rfl fun hin => .inr ⟨rfl, hp hin⟩

theorem Accounted.eq_none (h : Accounted d deleted tasks st k v) (hc : st.carries k = false) :
    v = none := by
  by_cases hk : k ∈ deleted
  · exact h.of_deleted hk
  · refine (h.of_kept hk).eq_none ?_
    rintro ⟨c, hcontent, hscope⟩
    have hcarries := Stream.carries_of_scope hscope
    rw [content_key hcontent, hc] at hcarries
    cases hcarries

/-! ## Tasks that move on -/

theorem pending_append (h : Pending d tasks k) : Pending d (tasks ++ [t]) k := by
  obtain ⟨u, hu, hcovers⟩ := h
  exact ⟨u, mem_append_left _ hu, hcovers⟩

theorem pending_spawned (hd : d.Sound) {row : Row} (hrow : row ∈ d.rows) (o : Operation) :
    Pending d (tasks ++ [.spawned row.record.table row.rowid o]) row.key := by
  refine ⟨_, mem_append_right _ (mem_singleton_self _), ?_⟩
  simp [covers, hd.findByRowid hrow, Row.key]

theorem pending_set (hi : tasks[i]? = some t) (h : Pending d tasks k)
    (hmove : t.covers d k = true → t'.covers d k = true) : Pending d (tasks.set i t') k := by
  obtain ⟨u, hu, hcovers⟩ := h
  obtain ⟨j, hj, rfl⟩ := mem_iff_getElem.1 hu
  by_cases hij : i = j
  · subst hij
    have ht : tasks[i] = t := by
      rw [getElem?_eq_getElem hj] at hi
      exact some.inj hi
    rw [ht] at hcovers
    exact ⟨t', mem_set hj t', hmove hcovers⟩
  · refine ⟨tasks[j], ?_, hcovers⟩
    rw [mem_iff_getElem]
    exact ⟨j, by simpa using hj, getElem_set_ne hij _⟩

theorem pending_of_done (h : Pending d (tasks.set i .done) k) : Pending d (tasks.set i t) k := by
  by_cases hi : i < tasks.length
  · have hset : Pending d ((tasks.set i .done).set i t) k :=
      pending_set (getElem?_set_self hi) h nofun
    rwa [set_set] at hset
  · rw [set_eq_of_length_le (Nat.le_of_not_lt hi)] at h ⊢
    exact h

theorem covers_located (hd : d.Sound) {table : HookTables} {rowid : ℤ}
    (h : (spawned table rowid operation).covers d k = true) :
    (System.located table rowid operation (d.findByRowid table rowid)).covers d k = true := by
  cases hfind : d.findByRowid table rowid with
  | none => simp [covers, hfind] at h
  | some record =>
    have hcontent := findByRowid_content hd hfind
    have hor : k = record.key ∨
        record.executionProcess?.any (fun p => d.follows p.sessionId k) = true := by
      simpa only [covers, hfind, or_eq_true, decide_eq_true_eq] using h
    rcases hor with rfl | hfollows
    · cases record with
      | workspace w => exact decide_eq_true rfl
      | _ =>
        exact or_eq_true_iff.2 (.inl (and_eq_true_iff.2 ⟨decide_eq_true rfl,
          decide_eq_true hcontent⟩))
    · cases record with
      | executionProcess p => exact or_eq_true_iff.2 (.inr hfollows)
      | _ => cases hfollows

theorem covers_withStatus
    (h : (located id operation).covers d k = true) (hsome : d.content k ≠ none) :
    (System.withStatus operation (d.findByIdWithStatus id)).covers d k = true := by
  obtain rfl : k = .workspaces id := of_decide_eq_true h
  have hcontent : d.content (.workspaces id) = (d.findByIdWithStatus id).map .workspace :=
    content_workspaces
  cases hread : d.findByIdWithStatus id with rw [hread] at hcontent
  | none => exact absurd hcontent hsome
  | some w =>
    have hkey : Key.workspaces w.workspace.id = .workspaces id := content_key hcontent
    simp only [System.withStatus]
    split
    · simp [covers, hkey, hcontent]
    · simp [covers, Content.key, Content.record, RecordTypes.key, hkey, hcontent]

theorem covers_rename {now : Instant} (hk : k ≠ .workspaces id) :
    t.covers (d.rename id name now) k = t.covers d k := by
  cases t with
  | spawned table rowid operation =>
    simp only [covers, findByRowid_rename]
    cases d.findByRowid table rowid with
    | none => rfl
    | some record =>
      simp only [map_some, executionProcess?_named, key_named]
      rfl
  | naming w operation => simp only [covers, content_rename hk]
  | fetched operation content sessionId =>
    simp only [covers, content_rename hk]
    rfl
  | _ => rfl

/-! ## What is committed -/

theorem inScope_congr (hd' : d'.Sound) (hkeeps : d.Keeps d' k)
    (hsome : d.content k = some content) : InScope d st k ↔ InScope d' st k := by
  obtain ⟨row, hrow, hk, hc⟩ := content_eq_some hsome
  obtain ⟨row', hrow', hk', ho'⟩ := hkeeps row hrow hk
  have hcontent' : d'.content k = some (d'.contentOf row'.record) := hk' ▸ hd'.content hrow'
  have hscope : st.scope content = st.scope (d'.contentOf row'.record) := by
    rw [← hc]
    apply Stream.scope_congr
    · rw [key_contentOf, key_contentOf]
      exact hk.trans hk'.symm
    · rw [record_contentOf, record_contentOf]
      exact ho'.symm
  constructor
  · rintro ⟨c, hc, hin⟩
    cases hsome.symm.trans hc
    exact ⟨_, hcontent', hscope ▸ hin⟩
  · rintro ⟨c, hc, hin⟩
    cases hcontent'.symm.trans hc
    exact ⟨_, hsome, hscope ▸ hin⟩

theorem Current.commit (h : Current d tasks st k v) (hd' : d'.Sound) (hkeeps : d.Keeps d' k)
    (hp : InScope d' st k → Pending d' tasks' k ∨
      d'.content k = d.content k ∧ (Pending d tasks k → Pending d' tasks' k)) :
    Current d' tasks' st k v := by
  cases hold : d.content k with
  | none =>
    rw [h.eq_none (not_inScope_of_none hold)]
    refine .of_none fun hin => ?_
    rcases hp hin with hpending | ⟨hcontent, _⟩
    · exact hpending
    · exact absurd hin (not_inScope_of_none (hcontent.trans hold))
  | some c =>
    refine h.move (inScope_congr hd' hkeeps hold) fun hin => ?_
    rcases hp hin with hpending | ⟨hcontent, hkeep⟩
    · exact .inl hpending
    · exact .inr ⟨congrArg (Option.filter st.selects) hcontent, hkeep⟩

theorem InScope.row {P : Key → Prop} (hin : InScope d st k) (h : ∀ row ∈ d.rows, P row.key) :
    P k := by
  obtain ⟨c, hc, _⟩ := hin
  obtain ⟨row, hrow, rfl, _⟩ := content_eq_some hc
  exact h row hrow

/-! ## Steps -/

namespace System

/-- Everything that the clients will hold is accounted for. -/
def Settled (s : System) : Prop :=
  ∀ c ∈ s.clients, ∀ k v, c.outcome k = some v → Accounted s.database s.deleted s.tasks c.stream k v

variable {s s' : System}

variable {tx : Transaction}

theorem deleted_eq (htx : s.transaction = some tx) : s.deleted = tx.deleted := by
  simp only [deleted, htx]

theorem Initial.settled (h : Initial s) : s.Settled := by
  intro c hc
  rw [h.clients] at hc
  cases hc

section

variable (h : s.Settled)

include h

theorem Settled.move (hc : ∀ c' ∈ s'.clients, ∀ k v, c'.outcome k = some v → ∃ c ∈ s.clients,
      c'.stream = c.stream ∧ c.outcome k = some v)
    (hm : ∀ st k v, Accounted s.database s.deleted s.tasks st k v →
      Accounted s'.database s'.deleted s'.tasks st k v) : s'.Settled := by
  intro c' hc' k v hv
  obtain ⟨c, hmem, hst, hold⟩ := hc c' hc' k v hv
  rw [hst]
  exact hm _ k v (h c hmem k v hold)

theorem Settled.of_clients (hc : s'.clients = s.clients)
    (hm : ∀ st k v, Accounted s.database s.deleted s.tasks st k v →
      Accounted s'.database s'.deleted s'.tasks st k v) : s'.Settled :=
  h.move (fun c' hc' _ _ hv => ⟨c', hc ▸ hc', rfl, hv⟩) hm

theorem Settled.read (hi : s.tasks[i]? = some t)
    (hmove : ∀ k, s.database.content k ≠ none → t.covers s.database k = true →
      t'.covers s.database k = true) : (s.setTask i t').Settled := by
  refine h.of_clients rfl fun st k v hv => hv.mono fun hin hpending => ?_
  obtain ⟨c, hc, _⟩ := hin
  refine pending_set hi hpending (hmove k ?_)
  rw [hc]
  exact nofun

/-- A patch is pushed and a task moves on: what clients will hold of the keys that the patch
    writes is to be accounted for anew. -/
theorem Settled.push {patch : Patch} (tx : Option Transaction) (n : ℕ) (tasks' : List Task)
    (hnew : ∀ st k v, st.effect patch k = some v →
      Accounted s.database (System.deleted { s with transaction := tx }) tasks' st k v)
    (hold : ∀ st k v, st.effect patch k = none → Accounted s.database s.deleted s.tasks st k v →
      Accounted s.database (System.deleted { s with transaction := tx }) tasks' st k v) :
    Settled { s.push patch with transaction := tx, tasks := tasks', entryCount := n } := by
  intro c' hc' k v hv
  obtain ⟨c, hc, rfl⟩ := mem_map.1 hc'
  have hout : (c.receive patch).outcome k = (c.stream.effect patch k).or (c.outcome k) :=
    outcome_receive
  rw [hout] at hv
  cases heffect : c.stream.effect patch k with
  | none =>
    rw [heffect, none_or] at hv
    exact hold _ k v heffect (h c hc k v hv)
  | some w =>
    rw [heffect, some_or] at hv
    exact hnew _ k v (heffect.trans hv)

theorem Settled.fetched {sessionId : Option Uuid}
    (hi : s.tasks[i]? = some (.fetched operation content sessionId))
    (hmeets : s.PushMeets i content)
    (hmove : ∀ k, (sessionId.any fun id => s.database.follows id k) = true →
      t'.covers s.database k = true) :
    ((s.push (hookPatch operation content)).setTask i t').Settled := by
  obtain ⟨hkept, hcurrent⟩ := hmeets
  refine h.push s.transaction s.entryCount _ ?_ ?_
  · intro st k v heffect
    by_cases hin : content.key = k ∧ st.scope content = true
    swap
    · rw [Stream.effect_hookPatch, if_neg hin] at heffect
      cases heffect
    rw [Stream.effect_hookPatch, if_pos hin] at heffect
    obtain ⟨rfl, hscope⟩ := hin
    refine ⟨fun hdel => absurd hdel hkept, fun _ => ?_⟩
    cases heffect
    rcases hcurrent with hsame | ⟨hpending, howner⟩
    · refine .inl ?_
      rw [Stream.rows, hsame, filter_some]
    · obtain ⟨c, hc, ho⟩ := (any_eq_true _ _).1 howner
      refine .inr ⟨pending_of_done hpending, c, hc, ?_⟩
      rw [Stream.scope_congr (content_key hc) (of_decide_eq_true ho)]
      exact hscope
  · intro st k v heffect hv
    refine hv.mono fun hin hpending => pending_set hi hpending fun hcovers => ?_
    rcases or_eq_true_iff.1 hcovers with hsame | hfollows
    · -- the content is as committed and in the scope, so that the patch writes it
      obtain ⟨hk, hcontent⟩ := and_eq_true_iff.1 hsame
      obtain ⟨c, hc, hscope⟩ := hin
      cases hc.symm.trans (of_decide_eq_true hcontent)
      rw [Stream.effect_hookPatch, if_pos ⟨(of_decide_eq_true hk).symm, hscope⟩] at heffect
      cases heffect
    · exact hmove k hfollows

theorem Settled.delete (htx : s.transaction = some tx) {k : Key} :
    Settled { s.push (removePatch k) with
      transaction := some ⟨tx.database.delete k, k :: tx.deleted⟩ } := by
  have hdeleted := deleted_eq htx
  refine h.push _ s.entryCount s.tasks ?_ ?_
  · intro st k' v heffect
    rw [Stream.effect_removePatch] at heffect
    split_ifs at heffect with hin
    obtain ⟨rfl, _⟩ := hin
    exact ⟨fun _ => (some.inj heffect).symm, fun hk => absurd mem_cons_self hk⟩
  · intro st k' v heffect hv
    by_cases hk : k' = k
    · subst hk
      have hcarries : st.carries k' = false := by
        by_contra hc
        rw [Stream.effect_removePatch, if_pos ⟨rfl, not_eq_false _ ▸ hc⟩] at heffect
        cases heffect
      exact ⟨fun _ => hv.eq_none hcarries, fun hnot => absurd mem_cons_self hnot⟩
    · refine ⟨fun hmem => hv.of_deleted ?_, fun hmem => hv.of_kept ?_⟩
      · rw [hdeleted]
        exact (mem_cons.1 hmem).resolve_left hk
      · rw [hdeleted]
        exact fun hold => hmem (mem_cons_of_mem k hold)

theorem Settled.commit (hs : s.Consistent)
    (htx : s.transaction = some tx) (hmeets : s.CommitMeets tx) :
    Settled { s with database := tx.database, transaction := none } := by
  have hdeleted := deleted_eq htx
  refine h.of_clients rfl fun st k v hv => ⟨nofun, fun _ => ?_⟩
  by_cases hk : k ∈ tx.deleted
  · rw [hv.of_deleted (hdeleted ▸ hk)]
    refine .of_none fun hin => ?_
    rcases hin.row (P := s.Handled tx) hmeets with hpending | ⟨hnot, _⟩
    · exact hpending
    · exact absurd hk hnot
  · refine (hv.of_kept (hdeleted ▸ hk)).commit (hs.copy tx htx) (hs.keeps tx htx k hk) fun hin => ?_
    rcases hin.row (P := s.Handled tx) hmeets with hpending | ⟨_, hcontent, hnot⟩
    · exact .inl hpending
    · exact .inr ⟨hcontent, fun hold => absurd hold hnot⟩

theorem Settled.rollback (hmeets : ∀ row ∈ s.database.rows, row.key ∈ s.deleted →
      Pending s.database s.tasks row.key) : Settled { s with transaction := none } := by
  refine h.of_clients rfl fun st k v hv => ⟨nofun, fun _ => ?_⟩
  by_cases hk : k ∈ s.deleted
  · rw [hv.of_deleted hk]
    exact .of_none fun hin => hin.row (P := fun k => k ∈ s.deleted → _) hmeets hk
  · exact hv.of_kept hk

end

variable {now : Instant}

section

variable (h : s.Settled) {c : Client}

include h

theorem Settled.rename (hs : s.Consistent) {w : WorkspaceWithStatus}
    (hi : s.tasks[i]? = some (.naming w operation))
    (hmeets : Pending (s.database.rename w.workspace.id name now) (s.tasks.set i .done)
      (.workspaces w.workspace.id)) :
    Settled { s.setTask i t' with database := s.database.rename w.workspace.id name now } := by
  refine h.of_clients rfl fun st k v hv => ⟨hv.of_deleted, fun hk => ?_⟩
  refine (hv.of_kept hk).commit hs.database.rename keeps_rename fun _ => ?_
  by_cases hkey : k = .workspaces w.workspace.id
  · exact .inl (hkey ▸ pending_of_done hmeets)
  · refine .inr ⟨content_rename hkey, ?_⟩
    rintro ⟨u, hu, hcovers⟩
    have hset : Pending s.database (s.tasks.set i t') k := by
      refine pending_set hi ⟨u, hu, hcovers⟩ fun hnaming => ?_
      exact absurd (of_decide_eq_true (and_eq_true_iff.1 hnaming).1) hkey
    obtain ⟨u', hu', hcovers'⟩ := hset
    exact ⟨u', hu', (covers_rename hkey).trans hcovers'⟩

theorem Settled.work (hs : s.Consistent)
    (hi : s.tasks[i]? = some t) (hmeets : s.Meets (.work i now))
    (hstep : s.work i now t = some s') : s'.Settled := by
  simp only [Meets, hi] at hmeets
  cases t with
  | spawned table rowid operation =>
    cases hstep
    exact h.read hi fun k _ hcovers => covers_located hs.database hcovers
  | located workspaceId operation =>
    cases hstep
    exact h.read hi fun k hsome hcovers => covers_withStatus hcovers hsome
  | naming w operation =>
    simp only [System.work] at hstep
    cases hname : newName s.database w.workspace.id with
    | none =>
      simp only [hname] at hstep
      cases hstep
      refine h.read hi fun k _ hcovers => ?_
      exact or_eq_true_iff.2 (.inl hcovers)
    | some name =>
      simp only [hname] at hstep hmeets
      split_ifs at hstep
      cases hstep
      exact h.rename hs hi hmeets
  | fetched operation content sessionId =>
    cases hstep
    refine h.fetched hi hmeets fun k hfollows => ?_
    cases sessionId with
    | none => cases hfollows
    | some id => exact hfollows
  | following sessionId =>
    cases hstep
    refine h.read hi fun k _ hcovers => ?_
    simp only [covers, follows] at hcovers
    cases hfind : s.database.sessions.find? fun session => session.id = sessionId with
    | none =>
      simp only [hfind] at hcovers
      cases hcovers
    | some session =>
      simp only [hfind] at hcovers
      exact hcovers
  | missing table rowid operation =>
    cases hstep
    refine h.push s.transaction _ _ ?_ ?_
    · intro st k v heffect
      rw [Stream.effect_entry] at heffect
      cases heffect
    · intro st k v _ hv
      exact hv.mono fun _ hpending => pending_set hi hpending (by rintro ⟨⟩)
  | done => cases hstep

theorem Settled.setClient {c' : Client}
    (hm : ∀ st k v, Accounted s.database s.deleted s.tasks st k v →
      Accounted s'.database s'.deleted s'.tasks st k v) (hclients : s'.clients = s.clients.set i c')
    (hnew : ∀ k v, c'.outcome k = some v →
      Accounted s'.database s'.deleted s'.tasks c'.stream k v) : s'.Settled := by
  intro c hc k v hv
  rw [hclients] at hc
  rcases mem_or_eq_of_mem_set hc with hold | rfl
  · exact hm _ k v (h c hold k v hv)
  · exact hnew k v hv

theorem Settled.snapshot (hs : s.Consistent) {unnamed : List Uuid}
    (hi : s.clients[i]? = some c) (hview : c.replica.view = none)
    (hmeets : c.stream.Unlimited s.database ∧
      ∀ k ∈ s.deleted, c.outcome k ≠ none ∨ c.stream.rows s.database k = none) :
    (s.setClient i { c with
      replica := c.replica.snapshot (c.stream.snapshot s.database), unnamed }).Settled := by
  refine h.setClient (fun _ _ _ hv => hv) rfl fun k v hv => ?_
  replace hv : some ((c.outcome k).getD (c.stream.snapshot s.database k)) = some v :=
    (outcome_snapshot hview _).symm.trans hv
  cases hqueue : c.outcome k with
  | some w =>
    rw [hqueue] at hv
    exact h c (mem_of_getElem? hi) k v (hqueue.trans hv)
  | none =>
    rw [hqueue, getD_none, Stream.snapshot_eq hs.database hmeets.1] at hv
    refine ⟨fun hk => ?_, fun _ => .inl (some.inj hv).symm⟩
    rcases hmeets.2 k hk with hwritten | hnone
    · exact absurd hqueue hwritten
    · exact (some.inj hv).symm.trans hnone

theorem Settled.nameNext (hs : s.Consistent) {rest : List Uuid} (hi : s.clients[i]? = some c)
    (hstep : s.nameNext i c now id rest = some s') : s'.Settled := by
  have hclient := h c (mem_of_getElem? hi)
  simp only [System.nameNext] at hstep
  split at hstep
  · cases hstep
    exact h.setClient (fun _ _ _ hv => hv) rfl hclient
  · rename_i name _
    split_ifs at hstep with htx
    have hdeleted : s.deleted = [] := by
      have hnone : s.transaction = none := by simpa using htx
      simp only [deleted, hnone]
    -- what the client holds of the workspace changes, and the hook will push the row
    have hnew : ∀ tasks', (∀ k, Pending s.database s.tasks k → Pending s.database tasks' k) →
        (InScope s.database c.stream (.workspaces id) →
          Pending s.database tasks' (.workspaces id)) →
        ∀ k v, outcome c.stream.effect
            (c.replica.amend (.workspaces id) (nameContent name)) k = some v →
          Accounted s.database [] tasks' c.stream k v := by
      intro tasks' hkeep hspawned k v hv
      refine ⟨(by rintro ⟨⟩), fun _ => ?_⟩
      rcases outcome_amend hv with hold | ⟨rfl, w, hold, rfl⟩
      · have hcurrent := (hclient k v hold).of_kept (hdeleted ▸ not_mem_nil)
        exact hcurrent.move Iff.rfl fun _ => .inr ⟨rfl, hkeep k⟩
      · have hcurrent := (hclient _ w hold).of_kept (hdeleted ▸ not_mem_nil)
        by_cases hin : InScope s.database c.stream (.workspaces id)
        · exact .inr ⟨hspawned hin, hin⟩
        · rw [hcurrent.eq_none hin]
          exact .of_none hspawned
    split at hstep <;> cases hstep
    · rename_i hfind
      refine h.setClient (fun _ _ _ hv => hdeleted ▸ hv) rfl (hnew s.tasks (fun _ hp => hp) ?_)
      rintro ⟨content, hcontent, _⟩
      rw [Database.content, hfind] at hcontent
      cases hcontent
    · rename_i row hfind
      obtain ⟨hrow, hkey⟩ := find_eq_some hfind
      obtain ⟨w, hw, _⟩ := record_of_workspaces hkey
      refine h.setClient ?_ rfl (hnew _ (fun _ => pending_append) fun _ => ?_)
      · intro st k v hv
        have hgrown := hv.mono fun _ => pending_append (t := .spawned .workspaces row.rowid .update)
        rw [hdeleted] at hgrown
        exact hgrown
      · have hspawned : Pending s.database
            (s.tasks ++ [.spawned row.record.table row.rowid .update]) row.key :=
          pending_spawned hs.database hrow .update
        rw [hw, hkey] at hspawned
        exact hspawned

theorem Settled.statement {tx' : Transaction} (htx : s.transaction = some tx)
    (hdeleted : tx'.deleted = tx.deleted) (t : Task) :
    (spawn { s with transaction := some tx' } t).Settled := by
  refine h.of_clients rfl fun st k v hv => ?_
  have hgrown := hv.mono fun _ => pending_append (t := t)
  rw [deleted_eq htx, ← hdeleted] at hgrown
  exact hgrown

theorem Settled.sessions (htx : s.transaction = some tx)
    (d : Database) : (s.write tx d).Settled := by
  refine h.of_clients rfl fun st k v hv => ?_
  rw [deleted_eq htx] at hv
  exact hv

theorem Settled.step (hs : s.Consistent) {a : Action} (hmeets : s.Meets a)
    (hstep : s.step a = some s') : s'.Settled := by
  cases a with
  | begin =>
    simp only [System.step] at hstep
    split at hstep <;> cases hstep
    rename_i hnone
    refine h.of_clients rfl fun st k v hv => ?_
    simp only [deleted, hnone] at hv
    exact hv
  | insert row =>
    obtain ⟨tx, htx, hstep⟩ := bind_eq_some_iff.1 hstep
    split_ifs at hstep
    cases hstep
    exact h.statement htx rfl _
  | update record =>
    obtain ⟨tx, htx, hstep⟩ := bind_eq_some_iff.1 hstep
    obtain ⟨row, _, hstep⟩ := bind_eq_some_iff.1 hstep
    split_ifs at hstep
    cases hstep
    exact h.statement htx rfl _
  | delete k =>
    obtain ⟨tx, htx, hstep⟩ := bind_eq_some_iff.1 hstep
    obtain ⟨row, _, hstep⟩ := bind_eq_some_iff.1 hstep
    cases hstep
    exact h.delete htx
  | insertSession session | deleteSession id =>
    obtain ⟨tx, htx, hstep⟩ := bind_eq_some_iff.1 hstep
    cases hstep
    exact h.sessions htx _
  | commit =>
    obtain ⟨tx, htx, hstep⟩ := bind_eq_some_iff.1 hstep
    cases hstep
    simp only [Meets, htx] at hmeets
    exact h.commit hs htx hmeets
  | rollback =>
    obtain ⟨tx, _, hstep⟩ := bind_eq_some_iff.1 hstep
    cases hstep
    exact h.rollback hmeets
  | work i now =>
    obtain ⟨t, hi, hstep⟩ := bind_eq_some_iff.1 hstep
    exact h.work hs hi hmeets hstep
  | fail i =>
    obtain ⟨t, _, hstep⟩ := bind_eq_some_iff.1 hstep
    split_ifs at hstep
    cases hstep
    exact h.of_clients rfl fun st k v hv => hv.mono fun hin =>
      hin.row (P := fun k => Pending _ _ k → Pending _ _ k) hmeets
  | subscribe stream =>
    cases hstep
    intro c hc k v hv
    rcases mem_append.1 hc with hold | hnew
    · exact h c hold k v hv
    · rw [mem_singleton.1 hnew] at hv
      cases outcome_subscribed.symm.trans hv
  | snapshot i =>
    obtain ⟨c, hi, hstep⟩ := bind_eq_some_iff.1 hstep
    simp only [Meets, hi] at hmeets
    split at hstep <;> cases hstep
    rename_i hview
    exact h.snapshot hs hi hview hmeets
  | name i now =>
    obtain ⟨c, hi, hstep⟩ := bind_eq_some_iff.1 hstep
    split at hstep
    · cases hstep
    · exact h.nameNext hs hi hstep
  | deliver i =>
    obtain ⟨c, hi, hstep⟩ := bind_eq_some_iff.1 hstep
    split at hstep
    · obtain ⟨r, hdeliver, hstep⟩ := bind_eq_some_iff.1 hstep
      cases hstep
      refine h.setClient (fun _ _ _ hv => hv) rfl fun k v hv => ?_
      exact h c (mem_of_getElem? hi) k v ((outcome_deliver hdeliver).symm.trans hv)
    · cases hstep
  | lag i =>
    obtain ⟨c, _, hstep⟩ := bind_eq_some_iff.1 hstep
    cases hstep
    exact fun c' hc' => h c' (mem_of_mem_eraseIdx hc')

end

/-! ## Runs -/

/-- All transactions have ended, no task has anything left to do and no message waits. -/
@[mk_iff]
structure Drained (s : System) : Prop where
  transaction : s.transaction = none
  tasks : ∀ t ∈ s.tasks, t = .done
  queues : ∀ c ∈ s.clients, c.replica.queue = []

instance (s : System) : Decidable s.Drained :=
  decidable_of_iff _ (drained_iff s).symm

/-- Each client with a snapshot holds the rows that its stream selects. -/
def Converged (s : System) : Prop :=
  ∀ c ∈ s.clients, ∀ held, c.replica.view = some held → held = c.stream.rows s.database

theorem Settled.converged (h : s.Settled) (hd : s.Drained) : s.Converged := by
  intro c hc held hview
  funext k
  have hv := h c hc k (held k) (view_of_drained hview (hd.queues c hc))
  have hdeleted : s.deleted = [] := by simp only [deleted, hd.transaction]
  rcases hv.of_kept (hdeleted ▸ not_mem_nil) with hrows | ⟨⟨t, ht, hcovers⟩, _⟩
  · exact hrows
  · rw [hd.tasks t ht] at hcovers
    cases hcovers

theorem invariant_of_reachable (h : Reachable System.step Meets Initial s) :
    s.Consistent ∧ s.Settled :=
  h.invariant (P := fun s => s.Consistent ∧ s.Settled) (fun _ h0 => ⟨h0.consistent, h0.settled⟩)
    fun _ _ _ h hmeets hstep => ⟨h.1.step hstep, h.2.step h.1 hmeets hstep⟩

/-- Once all transactions have ended and everything is drained, each client holds the rows that its
    stream selects, as they are in the database. -/
theorem streams_converge (h : Reachable System.step Meets Initial s) (hd : s.Drained) :
    s.Converged :=
  (invariant_of_reachable h).2.converged hd

/-- A workspace with a session, and no client yet. -/
def startSystem : System :=
  ⟨⟨[⟨1, .workspace ⟨1, false, some "main".toList, 0, []⟩⟩], [⟨5, 1, 0⟩]⟩, none, [], 0, []⟩

theorem initial_startSystem : Initial startSystem := ⟨⟨by decide, by decide⟩, rfl, rfl, rfl⟩

def processStarts : List Action :=
  [.subscribe (.workspaces (some false) none), .snapshot 0, .begin,
    .insert ⟨1, .executionProcess ⟨7, 5, .codingAgent, .script, .running, false, 1, []⟩⟩, .commit,
    .work 0 2, .work 0 2, .work 0 2, .work 0 2, .work 0 2, .deliver 0, .deliver 0]

/-- The client sees that the workspace is running. -/
theorem streams_converge_processStarts :
    ∃ s, Reachable System.step Meets Initial s ∧ s.Converged ∧
      (s.clients.map fun c => c.replica.view.map fun held => held (.workspaces 1)) =
        [some (some (.workspace ⟨⟨1, false, some "main".toList, 0, []⟩, true, false⟩))] := by
  have hexec : (exec System.step Meets startSystem processStarts).map (fun s =>
      (decide s.Drained,
        s.clients.map fun c => c.replica.view.map fun held => held (.workspaces 1))) =
      some (true,
        [some (some (.workspace ⟨⟨1, false, some "main".toList, 0, []⟩, true, false⟩))]) := by
    decide +kernel
  obtain ⟨s, hs, heq⟩ := map_eq_some_iff.1 hexec
  obtain ⟨hdrained, hview⟩ := Prod.mk.inj heq
  have hreach := reachable_of_exec initial_startSystem hs
  exact ⟨s, hreach, streams_converge hreach (of_decide_eq_true hdrained), hview⟩

def readsBeforeCommit : List Action :=
  [.subscribe (.workspaces none none), .snapshot 0, .begin,
    .update (.workspace ⟨1, true, some "main".toList, 1, []⟩), .work 0 2, .work 0 2, .commit,
    .work 0 2, .deliver 0]

/-- The client keeps the workspace as it was. -/
theorem streams_converge_broken :
    ¬∀ s, Reachable System.step anyStep Initial s → s.Drained → s.Converged := by
  intro h
  have hexec : (exec System.step anyStep startSystem readsBeforeCommit).map (fun s =>
      (decide s.Drained, s.clients.map fun c => c.replica.view.map fun held =>
        decide (held (.workspaces 1) = c.stream.rows s.database (.workspaces 1)))) =
      some (true, [some false]) := by
    decide +kernel
  obtain ⟨s, hs, heq⟩ := map_eq_some_iff.1 hexec
  obtain ⟨hdrained, hview⟩ := Prod.mk.inj heq
  have hconverged := h s (reachable_of_exec initial_startSystem hs) (of_decide_eq_true hdrained)
  obtain ⟨c, hc, hheld⟩ := map_eq_singleton_iff.1 hview
  obtain ⟨held, hsome, hne⟩ := map_eq_some_iff.1 hheld
  have hsame := hconverged c (hc ▸ mem_singleton_self c) held hsome
  exact of_decide_eq_false hne (congrFun hsame _)

end System

end VibeKanban.Events
