import VibeKanban.Mcp.Preserve

/-!
# The placeholder in a plan

A plan leaves, moves, writes or removes the entry of each server of a request.

* `clean_plans_iff`: when none of what it writes has a placeholder.
-/

namespace VibeKanban.Mcp

open Lib (JsonValue Keyed)
open Lib.Members Except Option

variable {settings : Settings} {executor : BaseCodingAgent} {entry value : JsonValue}
  {headers obj current : List (String × JsonValue)} {key name : String}
  {d : McpServerDefinition} {server : SharedMcpServerInput} {header : String × JsonValue}
  {m : String × JsonValue}

/-! ## What is materialized of a definition with the placeholder -/

theorem mem_keptMember {empty : JsonValue} (hm : m ∈ keptMember obj key empty) : m.1 = key := by
  unfold keptMember at hm
  split at hm
  · split at hm <;> simp_all
  · simp at hm

theorem stdioEntry_absent (hkey : key ∉ ["command", "args", "env", "env_vars", "type", "enabled"]) :
    (stdioEntry executor obj).lookup key = none := by
  rw [lookup_eq_none_iff_notMem]
  intro hmem
  obtain ⟨m, hm, rfl⟩ := List.mem_map.1 hmem
  refine hkey ?_
  unfold stdioEntry at hm
  simp only at hm
  split at hm
  · rcases List.mem_append.1 hm with hm | hm
    · simp [mem_keptMember hm]
    · simp only [List.mem_cons, List.not_mem_nil, or_false] at hm
      rcases hm with rfl | rfl | rfl <;> simp
  · rcases List.mem_append.1 hm with hm | hm
    · rcases List.mem_append.1 hm with hm | hm
      · rcases List.mem_cons.1 hm with rfl | hm
        · simp
        · simp [mem_keptMember hm]
      · simp [mem_keptMember hm]
    · split at hm
      · simp [mem_keptMember hm]
      · simp at hm

theorem mem_of_mem_objectMember {members : List (String × JsonValue)} {key' : String}
    (hm : header ∈ objectMembers (.object (objectMember key' members)) key) : header ∈ members := by
  unfold objectMember at hm
  split at hm
  · simp [objectMembers_object] at hm
  · rw [objectMembers_object] at hm
    by_cases hk : key = key'
    · rw [hk] at hm
      simpa [List.lookup, JsonValue.asObject] using hm
    · rw [lookup_cons_of_ne hk] at hm
      simp at hm

theorem mem_objectMembers_headerMembers (hkey : key ∈ ["headers", "http_headers"])
    (hm : header ∈ objectMembers (.object (headerMembers executor headers)) key) :
    header ∈ headers := by
  unfold headerMembers at hm
  split at hm
  · have hne : key ≠ "env_http_headers" := by
      rintro rfl
      simp at hkey
    have henv : (objectMember "env_http_headers" (headers.filterMap envHeader?)).lookup key =
        none := by
      unfold objectMember
      split
      · rfl
      · rw [lookup_cons_of_ne hne]
        rfl
    rw [objectMembers_object, List.lookup_append, henv, or_none] at hm
    exact List.mem_of_mem_filter (mem_of_mem_objectMember hm)
  · exact mem_of_mem_objectMember hm

/-- The members in which an entry has headers. -/
def headerKeys : List String := ["headers", "http_headers", "env_http_headers"]

variable {routes : RuntimeRoutes}

theorem mem_headerMembers_of_materialize (hkey : key ∈ headerKeys)
    (h : materializeDefinition routes executor d none = .ok entry)
    (hm : header ∈ objectMembers entry key) : header ∈ objectMembers
      (.object (headerMembers executor (objectMembers d.value "headers"))) key := by
  have hhttp {transport : McpTransportKind} {obj : List (String × JsonValue)}
      (hm : header ∈ objectMembers (.object (httpEntry routes executor transport obj)) key) :
      header ∈ objectMembers
        (.object (headerMembers executor (objectMembers (.object obj) "headers"))) key := by
    have hlocation (url : String) : (locationMembers executor transport url).lookup key = none := by
      refine locationMembers_absent fun habsent => ?_
      simp only [headerKeys, List.mem_cons, List.not_mem_nil, or_false] at hkey habsent
      rcases hkey with rfl | rfl | rfl <;> simp at habsent
    rw [httpEntry, objectMembers_object, List.lookup_append, hlocation, none_or] at hm
    exact hm
  unfold materializeDefinition at h
  cases hreason : incompatibilityReason executor d with simp only [hreason] at h
  | some reason => cases h
  | none =>
    split at h
    · next obj hvalue =>
      rw [hvalue]
      split at h
      · rw [← ok.inj h, objectMembers_object, stdioEntry_absent] at hm
        · simp at hm
        · intro hother
          simp only [headerKeys, List.mem_cons, List.not_mem_nil, or_false] at hkey hother
          rcases hkey with rfl | rfl | rfl <;> simp at hother
      · rw [← ok.inj h] at hm
        exact hhttp hm
      · rw [← ok.inj h] at hm
        exact hhttp hm
      · cases h
    · cases h

theorem mem_of_materialize (hkey : key ∈ ["headers", "http_headers"])
    (h : materializeDefinition routes executor d none = .ok entry)
    (hm : header ∈ objectMembers entry key) : header ∈ objectMembers d.value "headers" := by
  have hkeys : key ∈ headerKeys := List.mem_append_left ["env_http_headers"] hkey
  exact mem_objectMembers_headerMembers hkey (mem_headerMembers_of_materialize hkeys h hm)

theorem placeholder_of_materialize
    (h : materializeDefinition routes executor d none = .ok entry) (hp : HasPlaceholder entry) :
    ∃ header ∈ objectMembers d.value "headers", isRedacted header = true := by
  obtain ⟨key, hkey, header, hm, hr⟩ := hp
  exact ⟨header, mem_of_materialize hkey h hm, hr⟩

/-! ## A definition that a stored entry stands for -/

theorem canonical_value_keyed (hu : entry.Unique)
    (hvalue : (canonicalDefinition routes entry).value = .object obj) : Keyed Prod.fst obj := by
  cases entry with
  | object members =>
    simp only [canonicalDefinition] at hvalue
    split at hvalue
    · rw [← JsonValue.object.inj hvalue]
      exact hu.keyed
    · split at hvalue
      · rw [← JsonValue.object.inj hvalue]
        exact keyed_filter keyed_stdioForm _
      · split at hvalue
        · rw [← JsonValue.object.inj hvalue]
          exact keyed_filter keyed_stdioForm _
        · split at hvalue <;> rw [← JsonValue.object.inj hvalue]
          · exact keyed_filter keyed_httpForm _
          · exact hu.keyed
  | _ => simp [canonicalDefinition] at hvalue

theorem mem_objectMembers_of_same {a b : JsonValue} (h : a.Same b)
    (ha : ∀ members, a = .object members → Keyed Prod.fst members) {text : String}
    (hm : (name, .string text) ∈ objectMembers b key) :
    (name, .string text) ∈ objectMembers a key := by
  obtain ⟨mb, rfl⟩ := exists_object_of_mem hm
  obtain ⟨ma, rfl⟩ := h.eq_object
  have hlookup := h.lookup (ha ma rfl) key
  rw [objectMembers_object] at hm ⊢
  cases hb : mb.lookup key with
  | none => simp [hb] at hm
  | some vb =>
    cases vb with
    | object hsb =>
      rw [hb] at hm hlookup
      obtain ⟨va, hva, hsame⟩ := map_eq_some_iff.1 hlookup
      obtain ⟨hsa, rfl⟩ := JsonValue.Same.eq_object hsame
      have hperm := perm_of_sortByKey_eq (JsonValue.same_object_iff.1 hsame)
      have hmem : (name, (JsonValue.string text).sorted) ∈
          hsb.map fun m => (m.1, m.2.sorted) := List.mem_map.2 ⟨_, hm, rfl⟩
      obtain ⟨m, hma, heq⟩ := List.mem_map.1 (hperm.mem_iff.2 hmem)
      obtain ⟨hname, hsorted⟩ := Prod.mk.inj heq
      have hstring : m.2 = .string text := JsonValue.same_string_iff.1 hsorted
      rw [hva, ← hname, ← hstring]
      exact hma
    | _ => simp [hb, JsonValue.asObject] at hm

theorem not_placeholder_of_same (hu : entry.Unique)
    (hclean : ¬ HasPlaceholder entry) (h : (canonicalDefinition routes entry).Same d)
    (hm : header ∈ objectMembers d.value "headers") : isRedacted header = false := by
  by_contra hr
  rw [Bool.not_eq_false] at hr
  obtain ⟨name, value⟩ := header
  have hvalue : value = placeholder := (isRedacted_iff.1 hr).2
  rw [hvalue] at hm hr
  have hmem : (name, placeholder) ∈
      objectMembers (canonicalDefinition routes entry).value "headers" :=
    mem_objectMembers_of_same h.2.1 (fun _ => canonical_value_keyed hu) hm
  rw [not_isRedacted_of_not_hasPlaceholder hclean hmem] at hr
  cases hr

/-! ## What a step of the plan does -/

/-- The entry that the plan starts from. -/
def outgoing (settings : Settings) (executor : BaseCodingAgent) (server : SharedMcpServerInput) :
    Except String JsonValue :=
  materializeDefinition settings.routes executor server.definition
    (server.nativeOverrides.lookup executor)

/-- The plan writes `value` for the server. -/
def Written (settings : Settings) (executor : BaseCodingAgent)
    (current : List (String × JsonValue)) (server : SharedMcpServerInput) (value : JsonValue) :
    Prop :=
  executor ∈ server.assignments ∧ ∃ entry, outgoing settings executor server = .ok entry ∧
    preserveGatewayCapability settings current server.name entry = some value

/-- A stored entry stands for the definition, and there is no override. -/
def Described (settings : Settings) (executor : BaseCodingAgent)
    (current : List (String × JsonValue)) (server : SharedMcpServerInput) (name : String)
    (value : JsonValue) : Prop :=
  server.nativeOverrides.lookup executor = none ∧ (name, value) ∈ current ∧
    (canonicalDefinition settings.routes value).Same server.definition

theorem isLegacyName_invalid {nativeName : String} (h : isLegacyName name nativeName = true) :
    isValidServerIdentifier nativeName = false := by
  simpa using (Bool.and_eq_true_iff.1 h).1

theorem canonicalDefinitionForServer_of_ne (hname : name ≠ "slack") :
    canonicalDefinitionForServer settings name entry =
      canonicalDefinition settings.routes entry := by
  unfold canonicalDefinitionForServer
  simp only [hname, ne_eq, not_false_eq_true, true_or, if_true]

theorem ne_slack_of_invalid (h : isValidServerIdentifier name = false) : name ≠ "slack" := by
  rintro rfl
  cases h

theorem same_of_describes_invalid (hname : isValidServerIdentifier name = false)
    (h : describes settings d (name, value) = true) :
    (canonicalDefinition settings.routes value).Same d := by
  have hsame := of_decide_eq_true h
  rwa [canonicalDefinitionForServer_of_ne (ne_slack_of_invalid hname)] at hsame

variable {legacyName : Option String}

theorem legacyNameForServer_ok (h : legacyNameForServer settings current server = .ok legacyName) :
    ∀ legacy, legacyName = some legacy →
      current.lookup server.name = none ∧ isLegacyName server.name legacy = true ∧
        ∃ value, (legacy, value) ∈ current ∧
          (canonicalDefinition settings.routes value).Same server.definition := by
  intro legacy hlegacy
  unfold legacyNameForServer at h
  split at h
  · rw [← ok.inj h] at hlegacy
    cases hlegacy
  · next hnone =>
    refine ⟨not_isSome_iff_eq_none.1 hnone, ?_⟩
    split at h
    · rw [← ok.inj h] at hlegacy
      cases hlegacy
    · next candidate hfilter =>
      rw [← ok.inj h, some.injEq] at hlegacy
      have hm : candidate ∈ current.filter fun native =>
          isLegacyName server.name native.1 && describes settings server.definition native := by
        rw [hfilter]
        exact List.mem_singleton_self _
      rw [List.mem_filter, Bool.and_eq_true] at hm
      obtain ⟨hm, hname, hdescribes⟩ := hm
      rw [← hlegacy]
      exact ⟨hname, candidate.2, hm,
        same_of_describes_invalid (isLegacyName_invalid hname) hdescribes⟩
    · cases h

theorem described_of_isUnchanged (hoverride : server.nativeOverrides.lookup executor = none)
    (h : isUnchanged settings current server = true) :
    ∃ value, Described settings executor current server server.name value := by
  unfold isUnchanged at h
  split at h
  · next value hlookup =>
    split at h
    · cases h
    · next hslack =>
      refine ⟨value, hoverride, mem_of_lookup hlookup, ?_⟩
      have hsame := of_decide_eq_true h
      have heq : canonicalDefinitionForServer settings server.name value =
          canonicalDefinition settings.routes value := by
        by_cases hname : server.name = "slack"
        · have hlegacy : isLegacyBundledSlackDefinition settings
              (canonicalDefinition settings.routes value) = false := by
            rw [← Bool.not_eq_true]
            exact fun hl => hslack ⟨hname, hl⟩
          simp only [canonicalDefinitionForServer, hlegacy, or_true, if_true]
        · exact canonicalDefinitionForServer_of_ne hname
      rwa [heq] at hsame
  · cases h

/-- What a server of the request does to the plan: its legacy entry is moved, its entry is left,
written or removed. -/
inductive Planned (settings : Settings) (executor : BaseCodingAgent)
    (current : List (String × JsonValue)) (server : SharedMcpServerInput)
    (next : List (String × JsonValue)) : List (String × JsonValue) → Prop
  | moved {legacy : String} {value : JsonValue} (hnone : current.lookup server.name = none)
      (hname : isLegacyName server.name legacy = true)
      (hstored : Described settings executor current server legacy value) :
      Planned settings executor current server next
        (JsonValue.insert server.name value (removeServer legacy next))
  | unchanged {value : JsonValue}
      (hstored : Described settings executor current server server.name value) :
      Planned settings executor current server next next
  | written {value : JsonValue} (hlegacy : legacyNameForServer settings current server = .ok none)
      (hchanged : server.nativeOverrides.lookup executor = none →
        isUnchanged settings current server = false)
      (hwritten : Written settings executor current server value) :
      Planned settings executor current server next (JsonValue.insert server.name value next)
  | replaced {legacy : String} {value : JsonValue}
      (hoverride : server.nativeOverrides.lookup executor ≠ none)
      (hname : isLegacyName server.name legacy = true)
      (hwritten : Written settings executor current server value) :
      Planned settings executor current server next
        (JsonValue.insert server.name value (removeServer legacy next))
  | absent (hunassigned : executor ∉ server.assignments) :
      Planned settings executor current server next next
  | removed {name : String} (hunassigned : executor ∉ server.assignments)
      (hname : name = server.name ∨ isLegacyName server.name name = true) :
      Planned settings executor current server next (removeServer name next)

variable {plan plan' : Plan}

theorem planned_of_planWrite
    (hoverride : legacyName = none ∨ server.nativeOverrides.lookup executor ≠ none)
    (hchanged : server.nativeOverrides.lookup executor = none →
      isUnchanged settings current server = false) (hassigned : executor ∈ server.assignments)
    (hlegacy : legacyNameForServer settings current server = .ok legacyName)
    (h : planWrite settings executor current plan server legacyName = .ok plan') :
    Planned settings executor current server plan.next plan'.next := by
  unfold planWrite at h
  split at h
  · cases h
  · next entry hentry =>
    split at h
    · cases h
    · next value hvalue =>
      have hwritten : Written settings executor current server value :=
        ⟨hassigned, entry, hentry, hvalue⟩
      cases h
      cases legacyName with
      | none => exact .written hlegacy hchanged hwritten
      | some legacy =>
        exact .replaced (hoverride.resolve_left nofun)
          (legacyNameForServer_ok hlegacy legacy rfl).2.1 hwritten

theorem planned_of_planAssigned
    (hkeyed : Keyed Prod.fst current) (hassigned : executor ∈ server.assignments)
    (hlegacy : legacyNameForServer settings current server = .ok legacyName)
    (h : planAssigned settings executor current plan server legacyName = .ok plan') :
    Planned settings executor current server plan.next plan'.next := by
  have hrest (hoverride : legacyName = none ∨ server.nativeOverrides.lookup executor ≠ none)
      (h : (if server.nativeOverrides.lookup executor = none ∧
        isUnchanged settings current server = true then .ok plan
        else planWrite settings executor current plan server legacyName) = ok plan') :
      Planned settings executor current server plan.next plan'.next := by
    split at h
    · next hunchanged =>
      obtain ⟨value, hstored⟩ := described_of_isUnchanged hunchanged.1 hunchanged.2
      cases h
      exact .unchanged hstored
    · next hchanged =>
      refine planned_of_planWrite hoverride (fun hnone => ?_) hassigned hlegacy h
      simpa [hnone] using hchanged
  unfold planAssigned at h
  cases hlegacyName : legacyName with
  | none =>
    rw [hlegacyName] at h hrest
    exact hrest (.inl rfl) h
  | some legacy =>
    rw [hlegacyName] at h hrest hlegacy
    cases hoverride : server.nativeOverrides.lookup executor with
    | none =>
      obtain ⟨hnone, hname, value, hm, hsame⟩ := legacyNameForServer_ok hlegacy legacy rfl
      have hlookup : current.lookup legacy = some value := (lookup_eq_some_iff_mem hkeyed).2 hm
      simp only [hoverride, hlookup, getD_some] at h
      cases h
      exact .moved hnone hname ⟨hoverride, hm, hsame⟩
    | some overrideValue =>
      simp only [hoverride] at h hrest
      exact hrest (.inr nofun) h

theorem planned_of_planServer (hkeyed : Keyed Prod.fst current)
    (h : planServer settings executor current plan server = .ok plan') :
    Planned settings executor current server plan.next plan'.next := by
  obtain ⟨legacyName, hlegacy, h⟩ := Lib.bind_eq_ok_iff.1 h
  split at h
  · next hassigned => exact planned_of_planAssigned hkeyed hassigned hlegacy h
  · next hunassigned =>
    cases h
    unfold planUnassigned
    split
    · exact .removed hunassigned (.inl rfl)
    · split
      · next legacy =>
        split
        · exact .removed hunassigned (.inr (legacyNameForServer_ok hlegacy legacy rfl).2.1)
        · exact .absent hunassigned
      · exact .absent hunassigned

/-! ## Where the entries of a plan come from -/

def Placeholdered (settings : Settings) (executor : BaseCodingAgent)
    (server : SharedMcpServerInput) (entry : JsonValue) : Prop :=
  executor ∈ server.assignments ∧ outgoing settings executor server = .ok entry ∧
    HasPlaceholder entry

theorem Described.not_placeholdered (hunique : ∀ m ∈ current, m.2.Unique)
    (hclean : Clean current) (h : Described settings executor current server name value) :
    ¬ Placeholdered settings executor server entry := by
  rintro ⟨-, hentry, hp⟩
  obtain ⟨hoverride, hm, hsame⟩ := h
  rw [outgoing, hoverride] at hentry
  obtain ⟨header, hheader, hr⟩ := placeholder_of_materialize hentry hp
  rw [not_placeholder_of_same (hunique _ hm) (hclean _ hm) hsame hheader] at hr
  cases hr

variable {next : List (String × JsonValue)}

theorem mem_removeServer : m ∈ removeServer name next ↔ m ∈ next ∧ m.1 ≠ name := by
  simp [removeServer]

theorem lookup_removeServer_other (hne : key ≠ name) :
    (removeServer name next).lookup key = next.lookup key := by
  unfold removeServer
  induction next with
  | nil => rfl
  | cons m next ih =>
    by_cases hm : m.1 = name
    · have hkey : key ≠ m.1 := by rwa [hm]
      rw [List.filter_cons_of_neg (by simpa using hm), ih, lookup_cons_of_ne hkey]
    · rw [List.filter_cons_of_pos (by simpa using hm)]
      by_cases hkey : key = m.1
      · rw [hkey, lookup_cons_self, lookup_cons_self]
      · rw [lookup_cons_of_ne hkey, lookup_cons_of_ne hkey, ih]

/-- After the servers `done`: every entry is a stored one or was written for one of them, and what
was written in place of an entry with the placeholder is there. -/
structure Traced (settings : Settings) (executor : BaseCodingAgent)
    (current : List (String × JsonValue)) (done : List SharedMcpServerInput)
    (next : List (String × JsonValue)) : Prop where
  origin : ∀ m ∈ next, (∃ stored ∈ current, stored.2 = m.2) ∨
    ∃ server ∈ done, server.name = m.1 ∧ Written settings executor current server m.2
  kept : ∀ server ∈ done, ∀ entry, Placeholdered settings executor server entry →
    ∃ value, next.lookup server.name = some value ∧
      preserveGatewayCapability settings current server.name entry = some value

variable {done : List SharedMcpServerInput} {next' : List (String × JsonValue)}
  {names : List String}

section

variable (h : Traced settings executor current done next)

include h

theorem Traced.origin_mono (hsub : ∀ m ∈ next', m ∈ next ∨ (∃ stored ∈ current, stored.2 = m.2) ∨
      server.name = m.1 ∧ Written settings executor current server m.2) :
    ∀ m ∈ next', (∃ stored ∈ current, stored.2 = m.2) ∨
      ∃ server' ∈ done ++ [server], server'.name = m.1 ∧
        Written settings executor current server' m.2 := by
  intro m hm
  rcases hsub m hm with hm | hstored | hwritten
  · refine (h.origin m hm).imp id ?_
    rintro ⟨server', hserver', hwritten⟩
    exact ⟨server', List.mem_append_left _ hserver', hwritten⟩
  · exact .inl hstored
  · exact .inr ⟨server, by simp, hwritten⟩

theorem Traced.kept_mono (hlookup : ∀ server' ∈ done, isValidServerIdentifier server'.name = true →
      next'.lookup server'.name = next.lookup server'.name)
    (hvalid : ∀ server' ∈ done, ∀ entry, Placeholdered settings executor server' entry →
      isValidServerIdentifier server'.name = true)
    (hself : ∀ entry, Placeholdered settings executor server entry →
      ∃ value, next'.lookup server.name = some value ∧
        preserveGatewayCapability settings current server.name entry = some value) :
    ∀ server' ∈ done ++ [server], ∀ entry, Placeholdered settings executor server' entry →
      ∃ value, next'.lookup server'.name = some value ∧
        preserveGatewayCapability settings current server'.name entry = some value := by
  intro server' hserver' entry hentry
  rcases List.mem_append.1 hserver' with hserver' | hserver'
  · rw [hlookup server' hserver' (hvalid server' hserver' entry hentry)]
    exact h.kept server' hserver' entry hentry
  · rw [List.mem_singleton.1 hserver'] at hentry ⊢
    exact hself entry hentry

theorem Traced.planned (hplanned : Planned settings executor current server next next')
    (hnames : ∀ server' ∈ done, server'.name ≠ server.name)
    (hvalid : ∀ server' ∈ done, ∀ entry, Placeholdered settings executor server' entry →
      isValidServerIdentifier server'.name = true)
    (hdescribed : ∀ name value entry, Described settings executor current server name value →
      ¬ Placeholdered settings executor server entry) :
    Traced settings executor current (done ++ [server]) next' := by
  have hlegacy {legacy name' : String} (hl : isLegacyName name' legacy = true) {key : String}
      (hkey : isValidServerIdentifier key = true) : key ≠ legacy := by
    rintro rfl
    rw [isLegacyName_invalid hl] at hkey
    cases hkey
  have hwrote {base : List (String × JsonValue)} {value : JsonValue}
      (hwritten : Written settings executor current server value) :
      ∀ entry, Placeholdered settings executor server entry →
        ∃ v, (JsonValue.insert server.name value base).lookup server.name = some v ∧
          preserveGatewayCapability settings current server.name entry = some v := by
    intro entry hentry
    obtain ⟨-, entry', hentry', hvalue⟩ := hwritten
    rw [hentry.2.1] at hentry'
    rw [ok.inj hentry']
    exact ⟨value, JsonValue.lookup_insert_self, hvalue⟩
  cases hplanned with
  | @moved legacy value hnone hname hstored =>
    refine ⟨h.origin_mono fun m hm => ?_, h.kept_mono (fun server' hs hv => ?_) hvalid ?_⟩
    · rcases JsonValue.mem_insert hm with rfl | hm
      · exact .inr (.inl ⟨_, hstored.2.1, rfl⟩)
      · exact .inl (mem_removeServer.1 hm).1
    · rw [JsonValue.lookup_insert_other (hnames server' hs),
        lookup_removeServer_other (hlegacy hname hv)]
    · exact fun entry hentry => absurd hentry (hdescribed _ _ entry hstored)
  | @unchanged value hstored =>
    refine ⟨h.origin_mono fun m hm => .inl hm, h.kept_mono (fun _ _ _ => rfl) hvalid ?_⟩
    exact fun entry hentry => absurd hentry (hdescribed _ _ entry hstored)
  | @written value hlegacyName hchanged hwritten =>
    refine ⟨h.origin_mono fun m hm => ?_, h.kept_mono (fun server' hs _ => ?_) hvalid
      (hwrote hwritten)⟩
    · rcases JsonValue.mem_insert hm with rfl | hm
      · exact .inr (.inr ⟨rfl, hwritten⟩)
      · exact .inl hm
    · rw [JsonValue.lookup_insert_other (hnames server' hs)]
  | @replaced legacy value hoverride hname hwritten =>
    refine ⟨h.origin_mono fun m hm => ?_, h.kept_mono (fun server' hs hv => ?_) hvalid
      (hwrote hwritten)⟩
    · rcases JsonValue.mem_insert hm with rfl | hm
      · exact .inr (.inr ⟨rfl, hwritten⟩)
      · exact .inl (mem_removeServer.1 hm).1
    · rw [JsonValue.lookup_insert_other (hnames server' hs),
        lookup_removeServer_other (hlegacy hname hv)]
  | absent hunassigned =>
    refine ⟨h.origin_mono fun m hm => .inl hm, h.kept_mono (fun _ _ _ => rfl) hvalid ?_⟩
    exact fun entry hentry => absurd hentry.1 hunassigned
  | @removed name hunassigned hname =>
    refine ⟨h.origin_mono fun m hm => .inl (mem_removeServer.1 hm).1,
      h.kept_mono (fun server' hs hv => lookup_removeServer_other ?_) hvalid ?_⟩
    · rcases hname with rfl | hname
      · exact hnames server' hs
      · exact hlegacy hname hv
    · exact fun entry hentry => absurd hentry.1 hunassigned

end

theorem next_of_planRemoved (h : planRemoved plan name = .ok plan') :
    (∀ m ∈ plan'.next, m ∈ plan.next ∧ m.1 ≠ name) ∧
    ∀ key, isValidServerIdentifier key = true → key ≠ name →
      plan'.next.lookup key = plan.next.lookup key := by
  unfold planRemoved at h
  simp only at h
  split at h
  · cases h
    exact ⟨fun m hm => mem_removeServer.1 hm, fun key _ hne => lookup_removeServer_other hne⟩
  · next legacy hfilter =>
    cases h
    have hlegacy : isLegacyName name legacy.1 = true := by
      have hm : legacy ∈ (removeServer name plan.next).filter fun server =>
          isLegacyName name server.1 := by
        rw [hfilter]
        exact List.mem_singleton_self _
      exact (List.mem_filter.1 hm).2
    refine ⟨fun m hm => mem_removeServer.1 (mem_removeServer.1 hm).1, fun key hvalid hne => ?_⟩
    have hkey : key ≠ legacy.1 := by
      rintro rfl
      rw [isLegacyName_invalid hlegacy] at hvalid
      cases hvalid
    show (removeServer legacy.1 (removeServer name plan.next)).lookup key = _
    rw [lookup_removeServer_other hkey, lookup_removeServer_other hne]
  · cases h

theorem next_of_removed (h : names.foldlM planRemoved plan = .ok plan') :
    (∀ m ∈ plan'.next, m ∈ plan.next ∧ m.1 ∉ names) ∧
    ∀ key, isValidServerIdentifier key = true → key ∉ names →
      plan'.next.lookup key = plan.next.lookup key := by
  refine Lib.foldlM_induction (P := fun done plan' =>
    (∀ m ∈ plan'.next, m ∈ plan.next ∧ m.1 ∉ done) ∧
    ∀ key, isValidServerIdentifier key = true → key ∉ done →
      plan'.next.lookup key = plan.next.lookup key) ?_ ?_ h
  · exact ⟨fun m hm => ⟨hm, List.not_mem_nil⟩, fun _ _ _ => rfl⟩
  · intro done name rest plan₁ plan₂ _ hP hstep
    obtain ⟨hsub, hlookup⟩ := next_of_planRemoved hstep
    constructor
    · intro m hm
      obtain ⟨hm, hne⟩ := hsub m hm
      refine ⟨(hP.1 m hm).1, ?_⟩
      simpa using ⟨(hP.1 m hm).2, hne⟩
    · intro key hvalid hkey
      simp only [List.mem_append, List.mem_singleton, not_or] at hkey
      rw [hlookup key hvalid hkey.2, hP.2 key hvalid hkey.1]

/-! ## What validation promises -/

variable {snapshots : List NativeProfileSnapshot}

theorem migrated_valid (h : migratedLegacyServer settings snapshots server = true) :
    isValidServerIdentifier server.name = true := by
  simp only [migratedLegacyServer, Bool.and_eq_true] at h
  exact h.1.1.2

theorem validateServer_ok {names' : List String}
    (h : validateServer settings snapshots names server = .ok names') :
    names' = names ++ [server.name] ∧ server.name ∉ names ∧
      (isValidServerIdentifier server.name = true ∨
        unchangedLegacyServer settings snapshots server = true) := by
  unfold validateServer at h
  simp only at h
  split at h
  · cases h
  · next hname =>
    split at h
    · cases h
    · next hnew =>
      split at h
      · cases h
      · obtain ⟨_, -, h⟩ := Lib.bind_eq_ok_iff.1 h
        refine ⟨(ok.inj h).symm, hnew, ?_⟩
        by_contra hnot
        push Not at hnot
        obtain ⟨hinvalid, hchanged⟩ := hnot
        have hmigrated : migratedLegacyServer settings snapshots server = false := by
          rw [← Bool.not_eq_true]
          exact fun hm => hinvalid (migrated_valid hm)
        simp_all

theorem validated {request : SharedMcpWriteRequest}
    (h : validateWriteRequestAgainstSnapshots settings snapshots request = .ok ()) :
    (request.servers.map (·.name)).Nodup ∧ ∀ server ∈ request.servers,
      isValidServerIdentifier server.name = true ∨
        unchangedLegacyServer settings snapshots server = true := by
  obtain ⟨_, -, h⟩ := Lib.bind_eq_ok_iff.1 h
  obtain ⟨names, hfold, -⟩ := Lib.bind_eq_ok_iff.1 h
  have hinv := Lib.foldlM_induction (P := fun done names => names = done.map (·.name) ∧
    names.Nodup ∧ ∀ server ∈ done, isValidServerIdentifier server.name = true ∨
      unchangedLegacyServer settings snapshots server = true) ⟨rfl, List.nodup_nil, nofun⟩
    (fun done server rest names names' _ hP hstep => by
      obtain ⟨rfl, hnew, hname⟩ := validateServer_ok hstep
      obtain ⟨rfl, hnodup, hall⟩ := hP
      refine ⟨by simp, ?_, ?_⟩
      · rw [List.nodup_append]
        refine ⟨hnodup, List.nodup_singleton _, ?_⟩
        rintro a ha b hb rfl
        exact hnew (by rwa [List.mem_singleton.1 hb] at ha)
      · intro server' hserver'
        rcases List.mem_append.1 hserver' with hserver' | hserver'
        · exact hall server' hserver'
        · rwa [List.mem_singleton.1 hserver']) hfold
  obtain ⟨rfl, hnodup, hall⟩ := hinv
  exact ⟨hnodup, hall⟩

theorem described_of_unchangedLegacy
    {snapshot : NativeProfileSnapshot} (hsnapshot : snapshot ∈ snapshots)
    (hname : isValidServerIdentifier server.name = false)
    (hassigned : snapshot.executor ∈ server.assignments)
    (h : unchangedLegacyServer settings snapshots server = true) :
    ∃ value, Described settings snapshot.executor snapshot.servers server server.name value := by
  simp only [unchangedLegacyServer, Bool.and_eq_true, List.isEmpty_iff] at h
  obtain ⟨⟨hoverride, -⟩, hall⟩ := h
  have hin := List.all_eq_true.1 hall snapshot hsnapshot
  unfold unchangedIn at hin
  rw [decide_eq_true hassigned] at hin
  cases hlookup : snapshot.servers.lookup server.name with
  | none => simp [hlookup] at hin
  | some value =>
    simp only [hlookup] at hin
    exact ⟨value, by rw [hoverride]; rfl, mem_of_lookup hlookup,
      same_of_describes_invalid hname hin⟩

/-! ## The plan of an executor -/

section Plan

variable {snapshots : List NativeProfileSnapshot} {snapshot : NativeProfileSnapshot}
  {request hydrated : SharedMcpWriteRequest}

theorem name_valid_of_placeholdered (hclean : Clean snapshot.servers)
    (hsnapshot : snapshot ∈ snapshots) (hvalidated : isValidServerIdentifier server.name = true ∨
      unchangedLegacyServer settings snapshots server = true)
    (h : Placeholdered settings snapshot.executor server entry) :
    isValidServerIdentifier server.name = true := by
  by_contra hinvalid
  rw [Bool.not_eq_true] at hinvalid
  rcases hvalidated with hvalid | hunchanged
  · rw [hinvalid] at hvalid
    cases hvalid
  · obtain ⟨value, hstored⟩ := described_of_unchangedLegacy hsnapshot hinvalid h.1 hunchanged
    exact hstored.not_placeholdered snapshot.unique hclean h

theorem traced_of_plan {plan : Plan} (hclean : Clean snapshot.servers)
    (hsnapshot : snapshot ∈ snapshots)
    (hvalidated : validateWriteRequestAgainstSnapshots settings snapshots request = .ok ())
    (h : request.servers.foldlM (planServer settings snapshot.executor snapshot.servers)
      ⟨snapshot.servers, []⟩ = .ok plan) :
    Traced settings snapshot.executor snapshot.servers request.servers plan.next := by
  obtain ⟨hnodup, hnames⟩ := validated hvalidated
  refine Lib.foldlM_induction (P := fun done plan =>
    Traced settings snapshot.executor snapshot.servers done plan.next) ?_ ?_ h
  · exact ⟨fun m hm => .inl ⟨m, hm, rfl⟩, nofun⟩
  · intro done server rest plan₁ plan₂ hservers hP hstep
    have hmem {server' : SharedMcpServerInput} (hs : server' ∈ done) :
        server' ∈ request.servers := by
      rw [hservers]
      exact List.mem_append_left _ hs
    refine hP.planned (planned_of_planServer snapshot.keyed hstep) ?_ ?_ ?_
    · intro server' hs heq
      rw [hservers, List.map_append, List.nodup_append] at hnodup
      exact hnodup.2.2 _ (List.mem_map_of_mem hs) _ (by simp) heq
    · intro server' hs entry hentry
      exact name_valid_of_placeholdered hclean hsnapshot (hnames server' (hmem hs)) hentry
    · exact fun _ _ _ hstored => hstored.not_placeholdered snapshot.unique hclean

/-- Whatever the plan starts from with the placeholder is restored. -/
def Restores (settings : Settings) (snapshot : NativeProfileSnapshot)
    (request : SharedMcpWriteRequest) : Prop :=
  ∀ server ∈ request.servers, server.name ∉ request.removedServers →
    ∀ entry, Placeholdered settings snapshot.executor server entry →
      Restorable settings snapshot.servers server.name entry

theorem clean_plan_iff {plan : Plan} (hclean : Clean snapshot.servers)
    (hsnapshot : snapshot ∈ snapshots)
    (hvalidated : validateWriteRequestAgainstSnapshots settings snapshots request = .ok ())
    (h : planServersForExecutor settings snapshot.executor snapshot.servers request = .ok plan) :
    Clean plan.next ↔ Restores settings snapshot request := by
  obtain ⟨plan₁, hservers, hremoved⟩ := Lib.bind_eq_ok_iff.1 h
  have htraced := traced_of_plan hclean hsnapshot hvalidated hservers
  obtain ⟨hsub, hlookup⟩ := next_of_removed hremoved
  constructor
  · intro hnext server hserver hname entry hentry
    have hvalid := name_valid_of_placeholdered hclean hsnapshot
      ((validated hvalidated).2 server hserver) hentry
    obtain ⟨value, hvalue, hpreserve⟩ := htraced.kept server hserver entry hentry
    rw [← hlookup _ hvalid hname] at hvalue
    have hnot : ¬ HasPlaceholder value := hnext _ (mem_of_lookup hvalue)
    rw [hasPlaceholder_preserve hclean hpreserve] at hnot
    by_contra hrestorable
    exact hnot ⟨hentry.2.2, hrestorable⟩
  · intro hrestores m hm hp
    obtain ⟨hm, hname⟩ := hsub m hm
    rcases htraced.origin m hm with ⟨stored, hstored, heq⟩ | ⟨server, hserver, hs, hwritten⟩
    · exact hclean stored hstored (heq ▸ hp)
    · obtain ⟨hassigned, entry, hentry, hpreserve⟩ := hwritten
      rw [hasPlaceholder_preserve hclean hpreserve] at hp
      rw [← hs] at hname
      exact hp.2 (hrestores server hserver hname entry ⟨hassigned, hentry, hp.1⟩)

theorem clean_plans_iff {plans : List Plan}
    (hclean : ∀ snapshot ∈ snapshots, Clean snapshot.servers)
    (hhydrated : hydrateGatewayCapabilities settings snapshots request = .ok hydrated)
    (h : updateSharedMcpServers settings snapshots request = .ok plans) :
    (∀ plan ∈ plans, Clean plan.next) ↔
      ∀ snapshot ∈ snapshots, Restores settings snapshot hydrated := by
  obtain ⟨hydrated', hhydrated', h⟩ := Lib.bind_eq_ok_iff.1 h
  rw [hhydrated] at hhydrated'
  rw [← ok.inj hhydrated'] at h
  obtain ⟨_, hvalidated, h⟩ := Lib.bind_eq_ok_iff.1 h
  rw [Lib.mapM_eq_ok_iff] at h
  have hiff (snapshot : NativeProfileSnapshot) (hs : snapshot ∈ snapshots) (plan : Plan)
      (hplan : planServersForExecutor settings snapshot.executor snapshot.servers hydrated =
        .ok plan) : Clean plan.next ↔ Restores settings snapshot hydrated :=
    clean_plan_iff (hclean snapshot hs) hs hvalidated hplan
  constructor
  · intro hplans snapshot hs
    obtain ⟨plan, hm, hplan⟩ := Lib.exists_of_mem_left h hs
    exact (hiff snapshot hs plan hplan).1 (hplans plan hm)
  · intro hrestores plan hm
    obtain ⟨snapshot, hs, hplan⟩ := Lib.exists_of_mem_right h hm
    exact (hiff snapshot hs plan hplan).2 (hrestores snapshot hs)

end Plan

end VibeKanban.Mcp
