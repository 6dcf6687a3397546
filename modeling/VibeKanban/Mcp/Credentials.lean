import VibeKanban.Mcp.SaveBack

/-!
# The credential that a save writes

* `gateway_credentials`: when a save writes no placeholder, and when it changes nothing.
-/

namespace VibeKanban.Mcp

open Lib (JsonValue Keyed)
open Lib.Members List

variable {settings : Settings} {snapshots : List NativeProfileSnapshot}
  {snapshot : NativeProfileSnapshot} {executor : BaseCodingAgent} {entry entry' value : JsonValue}
  {headers current : List (String × JsonValue)} {name url : String}
  {sent server : SharedMcpServerInput} {d : McpServerDefinition} {stored : String × JsonValue}
  {key : String} {header : String × JsonValue} {request : SharedMcpWriteRequest}

/-! ## The headers of what is written -/

theorem mem_of_envHeader {envName : String}
    (hm : (name, .string envName) ∈ objectMembers (.object (headerMembers executor headers))
      "env_http_headers") : (name, .string (envTemplate envName)) ∈ headers := by
  have hother {key : String} (hkey : key ≠ "env_http_headers")
      (members : List (String × JsonValue)) :
      (objectMember key members).lookup "env_http_headers" = none := by
    unfold objectMember
    split
    · rfl
    · rw [lookup_cons_of_ne (Ne.symm hkey)]
      rfl
  unfold headerMembers at hm
  split at hm
  · rw [objectMembers_object, lookup_append, hother (by decide), Option.none_or] at hm
    obtain ⟨header, hheader, henv⟩ := mem_filterMap.1 (mem_of_mem_objectMember hm)
    obtain ⟨envName', hname, heq⟩ := Option.map_eq_some_iff.1 henv
    obtain ⟨text, htext, hexact⟩ := Option.bind_eq_some_iff.1 hname
    obtain ⟨rfl, hvalue⟩ := Prod.mk.inj heq
    obtain rfl := JsonValue.string.inj hvalue
    rw [(exactEnvTemplate_eq_some hexact).1, ← JsonValue.asStr_eq_some.1 htext]
    exact hheader
  · rw [objectMembers_object, hother (by decide)] at hm
    simp at hm

theorem mem_of_isHeader {routes : RuntimeRoutes}
    (h : materializeDefinition routes executor d none = .ok entry)
    (hm : IsHeader entry name value) : (name, value) ∈ objectMembers d.value "headers" := by
  rcases hm with ⟨key, hkey, hm⟩ | ⟨envName, rfl, hm⟩
  · exact mem_of_materialize hkey h hm
  · exact mem_of_envHeader (mem_headerMembers_of_materialize (by decide) h hm)

theorem replaceHeaders_of_not_hasPlaceholder
    (hkey : key ∈ ["headers", "http_headers"]) (hno : ¬ HasPlaceholder entry) :
    replaceHeaders isRedacted value (objectMembers entry key) = objectMembers entry key := by
  refine replaceHeaders_eq_self _ fun header hm => ?_
  rw [← Bool.not_eq_true]
  exact fun hr => hno ⟨key, hkey, header, hm, hr⟩

theorem isHeader_restoreHeaders (hno : ¬ HasPlaceholder entry)
    {v : JsonValue} (hm : IsHeader (restoreHeaders entry v) name value) :
    IsHeader entry name value := by
  have hsame {key : String} (hkey : key ∈ headerKeys) :
      objectMembers (restoreHeaders entry v) key = objectMembers entry key := by
    simp only [headerKeys, mem_cons, not_mem_nil, or_false] at hkey
    unfold restoreHeaders
    rcases hkey with rfl | rfl | rfl
    · rw [objectMembers_modifyObject_other (by decide), objectMembers_modifyObject_self rfl,
        replaceHeaders_of_not_hasPlaceholder (by decide) hno]
    · rw [objectMembers_modifyObject_self rfl, objectMembers_modifyObject_other (by decide),
        replaceHeaders_of_not_hasPlaceholder (by decide) hno]
    · rw [objectMembers_modifyObject_other (by decide),
        objectMembers_modifyObject_other (by decide)]
  rcases hm with ⟨key, hkey, hm⟩ | ⟨envName, hvalue, hm⟩
  · rw [hsame (List.mem_append_left ["env_http_headers"] hkey)] at hm
    exact .inl ⟨key, hkey, hm⟩
  · rw [hsame (by decide)] at hm
    exact .inr ⟨envName, hvalue, hm⟩

theorem isHeader_preserve (hno : ¬ HasPlaceholder entry)
    (h : preserveGatewayCapability settings current name entry = some entry')
    (hm : IsHeader entry' key value) : IsHeader entry key value := by
  have hnone : redactedName entry = none := by
    rw [← Option.not_isSome_iff_eq_none]
    intro hsome
    obtain ⟨name, hname⟩ := Option.isSome_iff_exists.1 hsome
    obtain ⟨header, hheader, hr, -⟩ := redactedName_eq_some hname
    exact hno ⟨_, by decide, header, hheader, hr⟩
  unfold preserveGatewayCapability at h
  rw [hnone] at h
  split at h
  · rwa [← Option.some.inj h] at hm
  · split at h
    · rwa [← Option.some.inj h] at hm
    · split at h
      · next heq => cases heq
      · split at h
        · rw [← Option.some.inj h] at hm
          exact isHeader_restoreHeaders hno hm
        · rwa [← Option.some.inj h] at hm

/-! ## What `capability` finds -/

theorem capability_ne_placeholder (hclean : ∀ snapshot ∈ snapshots, Clean snapshot.servers)
    (h : capability settings snapshots url = some value) : value ≠ placeholder := by
  obtain ⟨entry, hentry, hvalue⟩ := exists_of_findSome?_eq_some h
  obtain ⟨snapshot, hsnapshot, hentry⟩ := mem_flatMap.1 hentry
  obtain ⟨server, hserver, rfl⟩ := mem_map.1 hentry
  dsimp only at hvalue
  split at hvalue
  · exact storedAuthorization_ne (hclean snapshot hsnapshot server hserver) hvalue
  · cases hvalue

/-! ## Another credential -/

theorem value_of_mem_withCredential
    (hm : header ∈ objectMembers (withCredential d value).value "headers")
    (hauth : isAuthorization header.1 = true) : header.2 = value := by
  rw [objectMembers_withCredential] at hm
  obtain ⟨old, -, rfl⟩ := mem_map.1 hm
  by_cases hold : isAuthorization old.1 = true
  · rw [if_pos hold]
  · rw [if_neg hold] at hauth
    exact absurd hauth hold

theorem keyed_withCredential (hd : IsHttp settings d) {members : List (String × JsonValue)}
    (h : (withCredential d value).value = .object members) : Keyed Prod.fst members := by
  obtain ⟨old, hold, hk⟩ := hd.keyed_value
  unfold withCredential at h
  rw [hold, modifyObject, JsonValue.object.injEq] at h
  rw [← h, Keyed, map_map]
  refine (congrArg Nodup (map_congr_left fun m _ => ?_)).mpr hk
  show (ite _ _ _ : String × JsonValue).1 = m.1
  split
  · split <;> rfl
  · rfl

theorem not_same_withCredential {d' : McpServerDefinition} (hd : IsHttp settings d)
    (hd' : IsHttp settings d')
    (hm : header ∈ objectMembers d'.value "headers") (hauth : isAuthorization header.1 = true)
    (hne : value ≠ header.2) : ¬ d'.Same (withCredential d value) := by
  rintro ⟨-, hsame, -⟩
  obtain ⟨name, v⟩ := header
  obtain ⟨text, htext⟩ := Option.isSome_iff_exists.1 (hd'.keyed_headers.2 _ hm)
  obtain rfl : v = .string text := JsonValue.asStr_eq_some.1 htext
  have hmem := mem_objectMembers_of_same hsame.symm (fun _ => keyed_withCredential hd) hm
  exact hne (value_of_mem_withCredential hmem hauth).symm

theorem not_written_withCredential (hne : value ≠ placeholder)
    (hoverrides : server.nativeOverrides = [])
    (hdefinition : server.definition = withCredential d value)
    (hheader : IsHeader entry header.1 header.2)
    (hauth : isAuthorization header.1 = true) (hvalue : value ≠ header.2) :
    ¬ Written settings executor current server entry := by
  rintro ⟨-, entry', hentry', hpreserve⟩
  rw [outgoing, hoverrides, hdefinition] at hentry'
  have hno : ¬ HasPlaceholder entry' := by
    intro hp
    obtain ⟨header, hm, hr⟩ := placeholder_of_materialize hentry' hp
    rw [isRedacted_iff] at hr
    exact hne ((value_of_mem_withCredential hm hr.1).symm.trans hr.2)
  have hm := mem_of_isHeader hentry' (isHeader_preserve hno hpreserve hheader)
  exact hvalue (value_of_mem_withCredential hm hauth).symm

theorem Planned.written_own {next next' : List (String × JsonValue)}
    (h : Planned settings executor current server next next')
    (hassigned : executor ∈ server.assignments) (hoverrides : server.nativeOverrides = [])
    (hstored : (current.lookup server.name).isSome = true)
    (hnot : ∀ value, (server.name, value) ∈ current →
      ¬ (canonicalDefinition settings.routes value).Same server.definition) :
    ∃ value, next'.lookup server.name = some value ∧
      Written settings executor current server value := by
  cases h with
  | moved hnone => simp [hnone] at hstored
  | unchanged hdescribed => exact absurd hdescribed.2.2 (hnot _ hdescribed.2.1)
  | @written value _ _ hwritten => exact ⟨value, JsonValue.lookup_insert_self, hwritten⟩
  | replaced hoverride => exact absurd (by rw [hoverrides]; rfl) hoverride
  | absent hunassigned | removed hunassigned => exact absurd hassigned hunassigned

theorem describes_of_validated
    (h : validateWriteRequestAgainstSnapshots settings snapshots request = .ok ())
    (hserver : server ∈ request.servers) (hsnapshot : snapshot ∈ snapshots)
    (hstored : stored ∈ snapshot.servers) (hname : isLegacyName server.name stored.1 = true) :
    describes settings server.definition stored = true := by
  obtain ⟨_, hlegacy, -⟩ := Lib.bind_eq_ok_iff.1 h
  rw [Lib.mapM_eq_ok_iff] at hlegacy
  obtain ⟨_, -, hok⟩ := Lib.exists_of_mem_left hlegacy hserver
  have hcandidate : (snapshots.any fun snapshot =>
      snapshot.servers.any fun native => isLegacyName server.name native.1) = true := by
    rw [any_eq_true]
    exact ⟨snapshot, hsnapshot, any_eq_true.2 ⟨stored, hstored, hname⟩⟩
  have hmigrated : migratedLegacyServer settings snapshots server = true := by
    unfold validateLegacy at hok
    rw [← Bool.not_eq_false]
    intro hfalse
    simp only [hcandidate, hfalse, and_self, if_true] at hok
    cases hok
  simp only [migratedLegacyServer, Bool.and_eq_true] at hmigrated
  have hin := all_eq_true.1 hmigrated.2 snapshot hsnapshot
  have hmem : stored ∈ snapshot.servers.filter fun native => isLegacyName server.name native.1 :=
    mem_filter.2 ⟨hstored, hname⟩
  unfold migratedIn at hin
  split at hin
  · next hempty => simp [hempty] at hmem
  · next native hone =>
    rw [hone, mem_singleton] at hmem
    rw [hmem]
    exact (Bool.and_eq_true_iff.1 hin).2
  · cases hin

theorem written_of_servers {servers : List SharedMcpServerInput} {plan : Plan}
    (hnodup : (servers.map (·.name)).Nodup)
    (hvalid : ∀ server ∈ servers, isValidServerIdentifier server.name = true)
    (hserver : server ∈ servers) (hassigned : snapshot.executor ∈ server.assignments)
    (hoverrides : server.nativeOverrides = [])
    (hstored : (snapshot.servers.lookup server.name).isSome = true)
    (hnot : ∀ value, (server.name, value) ∈ snapshot.servers →
      ¬ (canonicalDefinition settings.routes value).Same server.definition)
    (h : servers.foldlM (planServer settings snapshot.executor snapshot.servers)
      ⟨snapshot.servers, []⟩ = .ok plan) : ∃ value, plan.next.lookup server.name = some value ∧
      Written settings snapshot.executor snapshot.servers server value := by
  have hinv := Lib.foldlM_induction (P := fun done plan => server ∈ done →
    ∃ value, plan.next.lookup server.name = some value ∧
      Written settings snapshot.executor snapshot.servers server value) nofun ?_ h
  · exact hinv hserver
  · intro done other rest plan₁ plan₂ hservers hP hstep hdone
    have hplanned := planned_of_planServer snapshot.keyed hstep
    rcases mem_append.1 hdone with hdone | hdone
    · obtain ⟨value, hvalue, hwritten⟩ := hP hdone
      refine ⟨value, ?_, hwritten⟩
      have hother : other ∈ servers := by
        rw [hservers]
        exact mem_append_right _ mem_cons_self
      have hne : identifier server.name ≠ other.name := by
        rw [identifier_of_valid (hvalid server hserver)]
        rw [hservers, map_append, nodup_append] at hnodup
        exact hnodup.2.2 _ (mem_map_of_mem hdone) _ (by simp)
      rw [hplanned.lookup_other (hvalid other hother) hne, hvalue]
    · rw [← mem_singleton.1 hdone] at hplanned
      exact hplanned.written_own hassigned hoverrides hstored hnot

/-- If a save of what was read keeps each gateway entry, `capability` found its credential. -/
theorem own_of_keeps {plans : List Plan} (hclean : ∀ snapshot ∈ snapshots, Clean snapshot.servers)
    (hsaves : SavesBack settings snapshots request)
    (hsingle : SingleAuthorizations settings snapshots request)
    (h : updateSharedMcpServers settings snapshots request = .ok plans)
    (hkeeps : Forall₂ (KeepsGateways settings) snapshots plans) :
    OwnCapabilities settings snapshots request := by
  obtain ⟨servers, hservers, hvalidated, hvalid, hplans⟩ := plans_of_saved hsaves h
  intro snapshot stored hback header hheader hauth url hurl
  obtain ⟨hsnapshot, hstored, hgateway, ⟨sent, hsent, hname⟩, hknown⟩ := hback
  have hd := (isHttp_of_isGateway (snapshot.unique stored hstored) hgateway).resolve_left hknown
  obtain ⟨d, hshows⟩ := shows_of_sent hsaves hsnapshot hstored hgateway hsent hname
  obtain ⟨hd', hsame⟩ := hshows.http hd
  obtain ⟨server, hserver, hok⟩ := Lib.exists_of_mem_left hservers hsent
  obtain ⟨hserverName, hassignments, hoverrides, -⟩ := hydrateServer_ok hok
  have hgateway' : (gatewayUrl d).isSome = true := by
    rw [gatewayUrl, definitionUrl_of_same hd hsame.2.1]
    exact hgateway
  have hsingle' : SingleAuthorization d :=
    (hsingle _ _ ⟨hsnapshot, hstored, hgateway, ⟨sent, hsent, hname⟩, hknown⟩).of_same hd hd'
      hsame.2.1
  have hheader' := mem_headers_of_same hd' hd hsame.2.1.symm hheader
  obtain ⟨url', value, hurl', hcapability, hdefinition⟩ :=
    definition_of_hydrated_some hd' hgateway' hsingle' hshows.definition hheader' hauth hok
  rw [definitionUrl_of_same hd hsame.2.1, hurl, Option.some.injEq] at hurl'
  rw [hurl', hcapability]
  by_contra hne
  have hvalue : value ≠ header.2 := fun heq => hne (congrArg some heq)
  have hnotSame : ¬ (canonicalDefinition settings.routes stored.2).Same server.definition := by
    rw [hdefinition]
    exact not_same_withCredential hd' hd hheader hauth hvalue
  have hstoredName : stored.1 = server.name := by
    rw [hserverName, hname]
    refine (identifier_of_valid ?_).symm
    by_contra hinvalid
    rw [Bool.not_eq_true] at hinvalid
    have hlegacy : isLegacyName server.name stored.1 = true :=
      isLegacyName_iff.2 ⟨hinvalid, by rw [hserverName, hname]⟩
    exact hnotSame (same_of_describes_invalid hinvalid
      (describes_of_validated hvalidated hserver hsnapshot hstored hlegacy))
  obtain ⟨plan, -, ⟨-, hplan⟩, hkept⟩ :=
    Lib.exists_of_mem_left (Lib.forall₂_and hplans hkeeps) hsnapshot
  have hlookup : snapshot.servers.lookup stored.1 = some stored.2 :=
    (lookup_eq_some_iff_mem snapshot.keyed).2 hstored
  obtain ⟨written, hwritten, hiswritten⟩ := written_of_servers (validated hvalidated).1 hvalid
    hserver (hassignments ▸ hshows.assigned) (hoverrides.trans hshows.overrides)
    (by rw [← hstoredName, hlookup]; rfl)
    (fun v hv => by
      have hveq : v = stored.2 := value_eq_of_mem snapshot.keyed hv (hstoredName ▸ hstored)
      rwa [hveq]) hplan
  have hentry : written = stored.2 := by
    have hkeep := hkept stored hstored hgateway
    unfold Keeps at hkeep
    rw [← hname, ← hserverName, hstoredName, or_self, hwritten] at hkeep
    exact Option.some.inj hkeep
  rw [hentry] at hiswritten
  exact not_written_withCredential (capability_ne_placeholder hclean hcapability)
    (hoverrides.trans hshows.overrides) hdefinition (isHeader_of_canonical hheader) hauth hvalue
    hiswritten

/-- A save writes the placeholder exactly if a plan starts from it and finds nothing stored for it;
and a save of what was read keeps each gateway entry exactly if `capability` finds its credential,
where no definition has two authorization headers. -/
theorem gateway_credentials {request hydrated : SharedMcpWriteRequest} {plans : List Plan}
    (hclean : ∀ snapshot ∈ snapshots, Clean snapshot.servers)
    (hhydrated : hydrateGatewayCapabilities settings snapshots request = .ok hydrated)
    (h : updateSharedMcpServers settings snapshots request = .ok plans) :
    ((∀ plan ∈ plans, Clean plan.next) ↔
      ∀ snapshot ∈ snapshots, Restores settings snapshot hydrated) ∧
    (SavesBack settings snapshots request → SingleAuthorizations settings snapshots request →
      (Forall₂ (KeepsGateways settings) snapshots plans ↔
        OwnCapabilities settings snapshots request)) :=
  ⟨clean_plans_iff hclean hhydrated h, fun hsaves hsingle =>
    ⟨own_of_keeps hclean hsaves hsingle h, fun hown => keeps_gateways hsaves hsingle hown h⟩⟩

def exampleSettings : Settings where
  routes := noRoutes
  slack := none
  slack_unique := nofun
  launcher := none
  known _ := true

def exampleEntry (credential : String) : JsonValue :=
  .object [("type", .string "http"), ("url", .string "https://host/mcp-gateway/notes"),
    ("headers", .object [("Authorization", .string credential)])]

theorem exampleEntry_unique (credential : String) : (exampleEntry credential).Unique := by
  simp [exampleEntry, JsonValue.Unique, JsonValue.UniqueMembers, Keyed]

def exampleClaude : NativeProfileSnapshot where
  executor := .claudeCode
  servers := [("notes", exampleEntry "Bearer one")]
  keyed := by simp [Keyed]
  unique := by simp [exampleEntry_unique]

def exampleGemini : NativeProfileSnapshot where
  executor := .gemini
  servers := []
  keyed := by simp [Keyed]
  unique := nofun

def exampleTwo : NativeProfileSnapshot where
  executor := .claudeCode
  servers := [("first", exampleEntry "Bearer one"), ("second", exampleEntry "Bearer two")]
  keyed := by simp [Keyed]
  unique := by simp [exampleEntry_unique]

/-- What the settings page sends when nothing was edited. -/
def readBack (snapshots : List NativeProfileSnapshot) : SharedMcpWriteRequest where
  servers := (reconcileSnapshots exampleSettings snapshots).map savedBack
  removedServers := []

theorem savesBack_readBack : SavesBack exampleSettings snapshots (readBack snapshots) where
  servers server hserver := by
    obtain ⟨shown, hshown, heq⟩ := mem_map.1 hserver
    exact ⟨shown, hshown, heq.symm⟩
  removed := rfl

theorem readBack_claude : ∃ plans,
    updateSharedMcpServers exampleSettings [exampleClaude] (readBack [exampleClaude]) = .ok plans ∧
      Forall₂ (KeepsGateways exampleSettings) [exampleClaude] plans := by
  have hheaders : objectMembers (canonicalDefinition exampleSettings.routes
      (exampleEntry "Bearer one")).value "headers" =
        [("Authorization", .string "Bearer one")] := by decide +kernel
  have hcapability : capability exampleSettings [exampleClaude]
      "https://host/mcp-gateway/notes" = some (.string "Bearer one") := by decide +kernel
  have hurl : definitionUrl (canonicalDefinition exampleSettings.routes
      (exampleEntry "Bearer one")) = some "https://host/mcp-gateway/notes" := by decide +kernel
  have hstored {snapshot : NativeProfileSnapshot} {stored : String × JsonValue}
      (h : IsSentBack exampleSettings [exampleClaude] (readBack [exampleClaude]) snapshot stored) :
      stored.2 = exampleEntry "Bearer one" := by
    have hm := h.stored_mem
    rw [mem_singleton.1 h.snapshot_mem] at hm
    rw [mem_singleton.1 hm]
  obtain ⟨hydrated, hhydrated⟩ : ∃ hydrated, hydrateGatewayCapabilities exampleSettings
      [exampleClaude] (readBack [exampleClaude]) = .ok hydrated :=
    Lib.exists_ok_of_isOk (by decide +kernel)
  obtain ⟨plans, hplans⟩ : ∃ plans, updateSharedMcpServers exampleSettings [exampleClaude]
      (readBack [exampleClaude]) = .ok plans := Lib.exists_ok_of_isOk (by decide +kernel)
  refine ⟨plans, hplans, ((gateway_credentials (by decide +kernel) hhydrated hplans).2
    savesBack_readBack ?_).2 ?_⟩
  · intro snapshot stored h
    unfold SingleAuthorization
    rw [hstored h, hheaders]
    simp
  · intro snapshot stored h
    unfold OwnCapability
    rw [hstored h, hheaders, hurl]
    simp [hcapability]

/-- The gateway server is assigned to Gemini too, with the entry that was shown for Claude Code. -/
def assignGemini : SharedMcpWriteRequest where
  servers := (reconcileSnapshots exampleSettings [exampleClaude, exampleGemini]).map fun server =>
    { savedBack server with
      assignments := [.claudeCode, .gemini]
      nativeOverrides := server.assignments.map fun assignment =>
        (.gemini, assignment.nativeEntry) }
  removedServers := []

/-- Gemini gets the placeholder; and a save of what was read gives one server the credential of
another server of its gateway. -/
theorem lost_credentials :
    (∃ plans, updateSharedMcpServers exampleSettings [exampleClaude, exampleGemini] assignGemini =
      .ok plans ∧ ¬ ∀ plan ∈ plans, Clean plan.next) ∧
    ∃ plans, updateSharedMcpServers exampleSettings [exampleTwo] (readBack [exampleTwo]) =
      .ok plans ∧ ¬ Forall₂ (KeepsGateways exampleSettings) [exampleTwo] plans := by
  constructor
  · obtain ⟨plans, hplans⟩ : ∃ plans, updateSharedMcpServers exampleSettings
        [exampleClaude, exampleGemini] assignGemini = .ok plans :=
      Lib.exists_ok_of_isOk (by decide +kernel)
    have hnext : (updateSharedMcpServers exampleSettings [exampleClaude, exampleGemini]
        assignGemini).toOption.map (·.map (·.next)) = some [[("notes", exampleEntry "Bearer one")],
          [("notes", exampleEntry "Bearer [REDACTED]")]] := by decide +kernel
    rw [hplans] at hnext
    have hnexts : plans.map (·.next) = [[("notes", exampleEntry "Bearer one")],
      [("notes", exampleEntry "Bearer [REDACTED]")]] := Option.some.inj hnext
    refine ⟨plans, hplans, fun hcleans => ?_⟩
    have hm : [("notes", exampleEntry "Bearer [REDACTED]")] ∈ plans.map (·.next) := by simp [hnexts]
    obtain ⟨plan, hplan, heq⟩ := mem_map.1 hm
    have hclean := hcleans plan hplan
    rw [heq] at hclean
    exact absurd hclean (by decide +kernel)
  · obtain ⟨plans, hplans⟩ : ∃ plans, updateSharedMcpServers exampleSettings [exampleTwo]
        (readBack [exampleTwo]) = .ok plans := Lib.exists_ok_of_isOk (by decide +kernel)
    have hnext : (updateSharedMcpServers exampleSettings [exampleTwo]
        (readBack [exampleTwo])).toOption.map (·.map (·.next)) =
          some [[("first", exampleEntry "Bearer one"), ("second", exampleEntry "Bearer one")]] := by
      decide +kernel
    rw [hplans] at hnext
    have hnexts : plans.map (·.next) = [[("first", exampleEntry "Bearer one"),
      ("second", exampleEntry "Bearer one")]] := Option.some.inj hnext
    refine ⟨plans, hplans, fun hkeeps => ?_⟩
    obtain ⟨plan, hplan, hkept⟩ := Lib.exists_of_mem_left hkeeps (mem_singleton_self _)
    have hm : plan.next ∈ plans.map (·.next) := mem_map_of_mem hplan
    rw [hnexts, mem_singleton] at hm
    have hkeep := hkept ("second", exampleEntry "Bearer two") (by simp [exampleTwo])
      (by unfold IsGateway; decide +kernel)
    unfold Keeps at hkeep
    rw [hm] at hkeep
    exact absurd hkeep (by decide +kernel)

end VibeKanban.Mcp
