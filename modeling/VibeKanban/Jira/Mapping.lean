import VibeKanban.Lib.OrderedMap

/-!
# The status mapping of a Jira sync (`remote/src/jira/mapping.rs`)

Names of statuses on the two sides, with the lookups in both directions.

* `get?_seedVkToJira`: the seeding of the reverse table from the statuses that a pass observes.
-/

namespace VibeKanban.Jira

open Lib Bool

/-- `JiraStatusMapping` (`jira/types.rs`, lines 42-48). -/
structure JiraStatusMapping where
  jiraToVk : OrderedMap String String
  vkToJira : OrderedMap String String
  deriving DecidableEq

/-- `str::eq_ignore_ascii_case`. -/
def eqIgnoreAsciiCase (a b : String) : Bool := a.toList.map Char.toLower = b.toList.map Char.toLower

variable {a b : String}

theorem eqIgnoreAsciiCase_iff :
    eqIgnoreAsciiCase a b = true ↔ a.toList.map Char.toLower = b.toList.map Char.toLower :=
  decide_eq_true_iff

theorem eqIgnoreAsciiCase_refl (a : String) : eqIgnoreAsciiCase a a = true :=
  eqIgnoreAsciiCase_iff.2 rfl

theorem eqIgnoreAsciiCase_symm (h : eqIgnoreAsciiCase a b = true) : eqIgnoreAsciiCase b a = true :=
  eqIgnoreAsciiCase_iff.2 (eqIgnoreAsciiCase_iff.1 h).symm

theorem eqIgnoreAsciiCase_trans {c : String} (hab : eqIgnoreAsciiCase a b = true)
    (hbc : eqIgnoreAsciiCase b c = true) : eqIgnoreAsciiCase a c = true :=
  eqIgnoreAsciiCase_iff.2 ((eqIgnoreAsciiCase_iff.1 hab).trans (eqIgnoreAsciiCase_iff.1 hbc))

/-- `category_default` (lines 21-28). -/
def categoryDefault (category : String) : Option String :=
  if category = "new" then some "To do"
  else if category = "indeterminate" then some "In progress"
  else if category = "done" then some "Done"
  else none

/-- A status name, and its category. -/
abbrev Observed := String × Option String

namespace JiraStatusMapping

/-- `resolve_jira_to_vk` (lines 31-45). -/
def resolveJiraToVk (m : JiraStatusMapping) (jiraStatus : String)
    (jiraCategory : Option String) : Option String :=
  match m.jiraToVk.find? (eqIgnoreAsciiCase · jiraStatus) with
  | some vk => some vk
  | none => jiraCategory.bind categoryDefault

/-- `resolve_vk_to_jira` (lines 48-54). -/
def resolveVkToJira (m : JiraStatusMapping) (vkStatus : String) : Option String :=
  m.vkToJira.find? (eqIgnoreAsciiCase · vkStatus)

/-- One turn of the loop of `seed_vk_to_jira`: the reverse entry that it adds. -/
def seedEntry (m : JiraStatusMapping) (o : Observed) : Option String :=
  (m.resolveJiraToVk o.1 o.2).filter fun vk => !m.vkToJira.keys.any (eqIgnoreAsciiCase · vk)

/-- `seed_vk_to_jira` (lines 61-81), with the flag it returns. -/
def seedVkToJira (m : JiraStatusMapping) : List Observed → JiraStatusMapping × Bool
  | [] => (m, false)
  | o :: observed =>
    match m.seedEntry o with
    | none => m.seedVkToJira observed
    | some vk => ((({ m with vkToJira := m.vkToJira.insert vk o.1 }).seedVkToJira observed).1, true)

/-! ## What seeding adds -/

variable {m : JiraStatusMapping} {observed : List Observed} {o : Observed} {k v vk : String}

/-- The reverse entry stands in the table in some spelling. -/
def Known (m : JiraStatusMapping) (vk : String) : Prop :=
  ∃ name ∈ m.vkToJira.keys, eqIgnoreAsciiCase name vk = true
  deriving Decidable

theorem Known.congr (h : m.Known k) (hk : eqIgnoreAsciiCase k vk = true) : m.Known vk := by
  obtain ⟨name, hname, heq⟩ := h
  exact ⟨name, hname, eqIgnoreAsciiCase_trans heq hk⟩

theorem seedEntry_eq_some_iff :
    m.seedEntry o = some vk ↔ m.resolveJiraToVk o.1 o.2 = some vk ∧ ¬ m.Known vk := by
  unfold seedEntry Known
  rw [Option.filter_eq_some_iff, not_eq_true', ← not_eq_true, List.any_eq_true]

/-- The observed status lands on this column, in some spelling. -/
def landsOn (m : JiraStatusMapping) (k : String) (o : Observed) : Bool :=
  (m.resolveJiraToVk o.1 o.2).any (eqIgnoreAsciiCase · k)

def Seeds (m : JiraStatusMapping) (observed : List Observed) (k v : String) : Prop :=
  ¬ m.Known k ∧ ∃ o ∈ observed.find? (m.landsOn k), m.resolveJiraToVk o.1 o.2 = some k ∧ o.1 = v
  deriving Decidable

theorem seedVkToJira_fst (m : JiraStatusMapping) (observed : List Observed) :
    (m.seedVkToJira observed).1.jiraToVk = m.jiraToVk := by
  induction observed generalizing m with
  | nil => rfl
  | cons o observed ih =>
    unfold seedVkToJira
    cases hentry : m.seedEntry o with
    | none => exact ih m
    | some vk => exact ih { m with vkToJira := m.vkToJira.insert vk o.1 }

theorem Seeds.of_cons (h : m.landsOn k o = false) :
    m.Seeds (o :: observed) k v ↔ m.Seeds observed k v := by
  unfold Seeds
  rw [List.find?_cons_of_neg (by rw [h]; exact false_ne_true)]

theorem landsOn_iff (h : m.resolveJiraToVk o.1 o.2 = some vk) :
    m.landsOn k o = eqIgnoreAsciiCase vk k := by
  rw [landsOn, h, Option.any_some]

theorem Seeds.of_not_seedEntry (h : m.seedEntry o = none) :
    m.Seeds (o :: observed) k v ↔ m.Seeds observed k v := by
  by_cases hlands : m.landsOn k o = true
  · cases hvk : m.resolveJiraToVk o.1 o.2 with
    | none =>
      rw [landsOn, hvk] at hlands
      exact absurd hlands false_ne_true
    | some vk =>
      rw [landsOn_iff hvk] at hlands
      have hknown : m.Known k := by
        by_contra hnot
        have hsome := seedEntry_eq_some_iff.2 ⟨hvk, fun hvk => hnot (hvk.congr hlands)⟩
        rw [h] at hsome
        cases hsome
      exact ⟨fun hseeds => absurd hknown hseeds.1, fun hseeds => absurd hknown hseeds.1⟩
  · exact Seeds.of_cons (eq_false_iff.2 hlands)

theorem known_insert {m' : JiraStatusMapping} (hm' : m'.vkToJira = m.vkToJira.insert vk v) :
    m'.Known k ↔ eqIgnoreAsciiCase vk k = true ∨ m.Known k := by
  unfold Known
  simp only [hm', OrderedMap.mem_keys_insert]
  constructor
  · rintro ⟨name, rfl | hname, heq⟩
    · exact .inl heq
    · exact .inr ⟨name, hname, heq⟩
  · rintro (heq | ⟨name, hname, heq⟩)
    · exact ⟨vk, .inl rfl, heq⟩
    · exact ⟨name, .inr hname, heq⟩

theorem not_get?_of_not_known (h : ¬ m.Known k) : m.vkToJira.get? k ≠ some v := fun hget =>
  h ⟨k, OrderedMap.mem_keys_iff.2 ⟨v, hget⟩, eqIgnoreAsciiCase_refl k⟩

theorem get?_seedVkToJira (m : JiraStatusMapping) (observed : List Observed) (k v : String) :
    (m.seedVkToJira observed).1.vkToJira.get? k = some v ↔
      m.vkToJira.get? k = some v ∨ m.Seeds observed k v := by
  induction observed generalizing m with
  | nil =>
    refine ⟨.inl, fun h => h.resolve_right ?_⟩
    rintro ⟨-, o, hfind, -⟩
    cases hfind
  | cons o observed ih =>
    unfold seedVkToJira
    cases hentry : m.seedEntry o with
    | none => rw [Seeds.of_not_seedEntry hentry]; exact ih m
    | some vk =>
      obtain ⟨hresolve, hnew⟩ := seedEntry_eq_some_iff.1 hentry
      have hknown : ∀ k, ({ m with vkToJira := m.vkToJira.insert vk o.1 }).Known k ↔
          eqIgnoreAsciiCase vk k = true ∨ m.Known k := fun k => known_insert (v := o.1) rfl
      refine (ih { m with vkToJira := m.vkToJira.insert vk o.1 }).trans ?_
      by_cases hlands : eqIgnoreAsciiCase vk k = true
      · -- the column is known from here on, so that only this turn adds to it
        have hk : ¬ m.Known k := fun h => hnew (h.congr (eqIgnoreAsciiCase_symm hlands))
        have hfind : (o :: observed).find? (m.landsOn k) = some o :=
          List.find?_cons_of_pos (by rw [landsOn_iff hresolve, hlands])
        have hrest : ¬ ({ m with vkToJira := m.vkToJira.insert vk o.1 }).Seeds observed k v :=
          fun h => h.1 ((hknown k).2 (.inl hlands))
        have hseeds : m.Seeds (o :: observed) k v ↔ vk = k ∧ o.1 = v := by
          unfold Seeds
          rw [hfind]
          constructor
          · rintro ⟨-, o', ho', hresolve', hv⟩
            obtain rfl : o = o' := Option.some.inj ho'
            exact ⟨Option.some.inj (hresolve.symm.trans hresolve'), hv⟩
          · rintro ⟨rfl, hv⟩
            exact ⟨hk, o, rfl, hresolve, hv⟩
        rw [hseeds, or_iff_left hrest, or_iff_right (not_get?_of_not_known hk)]
        show (m.vkToJira.insert vk o.1).get? k = some v ↔ _
        rw [OrderedMap.get?_insert]
        split_ifs with heq
        · rw [Option.some.injEq, heq]
          exact (and_iff_right rfl).symm
        · exact ⟨fun h => absurd h (not_get?_of_not_known hk), fun h => absurd h.1.symm heq⟩
      · have hne : k ≠ vk := fun h => hlands (h ▸ eqIgnoreAsciiCase_refl _)
        have hget : (m.vkToJira.insert vk o.1).get? k = m.vkToJira.get? k := by
          rw [OrderedMap.get?_insert, if_neg hne]
        have hseeds : ({ m with vkToJira := m.vkToJira.insert vk o.1 }).Seeds observed k v ↔
            m.Seeds observed k v := by
          unfold Seeds
          rw [hknown, or_iff_right hlands]
          rfl
        show (m.vkToJira.insert vk o.1).get? k = some v ∨ _ ↔ _
        rw [hget, hseeds, Seeds.of_cons]
        rw [landsOn_iff hresolve]
        exact eq_false_iff.2 hlands

/-! ## Saved entries -/

/-- The entries of the one are entries of the other. -/
structure Extends (m saved : JiraStatusMapping) : Prop where
  jiraToVk : ∀ k v, saved.jiraToVk.get? k = some v → m.jiraToVk.get? k = some v
  vkToJira : ∀ k v, saved.vkToJira.get? k = some v → m.vkToJira.get? k = some v

/-- The entries of the one are entries of the other once it has been seeded. -/
structure Covers (m : JiraStatusMapping) (observed : List Observed) (saved : JiraStatusMapping) :
    Prop where
  jiraToVk : ∀ k v, saved.jiraToVk.get? k = some v → m.jiraToVk.get? k = some v
  vkToJira : ∀ k v, saved.vkToJira.get? k = some v →
    m.vkToJira.get? k = some v ∨ m.Seeds observed k v

theorem extends_seedVkToJira_iff {saved : JiraStatusMapping} :
    (m.seedVkToJira observed).1.Extends saved ↔ m.Covers observed saved := by
  constructor
  · rintro ⟨hforward, hreverse⟩
    rw [seedVkToJira_fst] at hforward
    exact ⟨hforward, fun k v h => (get?_seedVkToJira m observed k v).1 (hreverse k v h)⟩
  · rintro ⟨hforward, hreverse⟩
    refine ⟨?_, fun k v h => (get?_seedVkToJira m observed k v).2 (hreverse k v h)⟩
    rw [seedVkToJira_fst]
    exact hforward

instance (m : JiraStatusMapping) (observed : List Observed) (saved : JiraStatusMapping) :
    Decidable (m.Covers observed saved) :=
  decidable_of_iff
    ((∀ e ∈ saved.jiraToVk.entries, m.jiraToVk.get? e.1 = some e.2) ∧
      ∀ e ∈ saved.vkToJira.entries, m.vkToJira.get? e.1 = some e.2 ∨ m.Seeds observed e.1 e.2) <| by
    constructor
    · rintro ⟨hforward, hreverse⟩
      exact ⟨fun k v h => hforward (k, v) (OrderedMap.mem_entries_iff.2 h),
        fun k v h => hreverse (k, v) (OrderedMap.mem_entries_iff.2 h)⟩
    · rintro ⟨hforward, hreverse⟩
      exact ⟨fun e he => hforward e.1 e.2 (OrderedMap.mem_entries_iff.1 he),
        fun e he => hreverse e.1 e.2 (OrderedMap.mem_entries_iff.1 he)⟩

theorem Extends.refl (m : JiraStatusMapping) : m.Extends m := ⟨fun _ _ h => h, fun _ _ h => h⟩

end JiraStatusMapping

end VibeKanban.Jira
