import VibeKanban.Mcp.Redaction

/-!
# Saving back what was read

The settings page sends back servers that it was shown as they are, without native overrides.

* `Planned.lookup_own`: what becomes of the entry of one.
-/

namespace VibeKanban.Mcp

open Lib (JsonValue Keyed)
open Lib.Members List

variable {settings : Settings} {snapshots : List NativeProfileSnapshot}
  {snapshot : NativeProfileSnapshot} {executor : BaseCodingAgent} {entry value : JsonValue}
  {headers members current : List (String × JsonValue)} {name native : String}
  {server shown : SharedMcpServerInput} {source first : Source}

/-! ## Identifiers -/

theorem suggestCharacter_all {s : List Char × Bool} {ch : Char}
    (h : s.1.all fun ch => ch.isAlphanum || ch == '_' || ch == '-') :
    (suggestCharacter s ch).1.all fun ch => ch.isAlphanum || ch == '_' || ch == '-' := by
  have hlower (h : ch.isAlphanum = true) : ch.toLower.isAlphanum = true := by
    simp only [Char.isAlphanum, Char.isAlpha, Char.isUpper, Char.isLower, Char.isDigit,
      Char.toLower, Bool.or_eq_true, Bool.and_eq_true, decide_eq_true_eq] at *
    split <;> grind
  unfold suggestCharacter
  split
  · next hch =>
    rw [all_append, h, Bool.true_and, all_cons, all_nil, Bool.and_true]
    simp only [Bool.or_eq_true, beq_iff_eq] at hch ⊢
    rcases hch with (hch | rfl) | rfl
    · exact .inl (.inl (hlower hch))
    · simp
    · simp
  · split
    · simp [h]
    · exact h

theorem identifier_valid : isValidServerIdentifier (identifier name) = true := by
  unfold identifier
  split
  · next h => exact h
  · unfold suggestedServerIdentifier
    simp only
    split
    · decide
    · next hne =>
      unfold isValidServerIdentifier
      have hall : ((name.toList.foldl suggestCharacter ([], false)).1).all
          fun ch => ch.isAlphanum || ch == '_' || ch == '-' :=
        foldlRecOn (motive := fun s : List Char × Bool =>
          s.1.all fun ch => ch.isAlphanum || ch == '_' || ch == '-') _ _ rfl
          fun _ h _ _ => suggestCharacter_all h
      rw [Bool.and_eq_true, decide_eq_true_eq, String.toList_ofList]
      refine ⟨fun hempty => hne ?_, all_eq_true.2 fun ch hch => ?_⟩
      · have := congrArg String.toList hempty
        simpa using this
      · exact all_eq_true.1 hall ch (( rdropWhile_prefix _ _).subset hch)

theorem identifier_of_valid (h : isValidServerIdentifier name = true) : identifier name = name := by
  unfold identifier
  rw [if_pos h]

theorem identifier_identifier : identifier (identifier name) = identifier name :=
  identifier_of_valid identifier_valid

theorem isLegacyName_iff : isLegacyName name native = true ↔
    isValidServerIdentifier native = false ∧ identifier native = name := by
  unfold isLegacyName identifier
  by_cases h : isValidServerIdentifier native = true <;> simp [h]

/-! ## What is shown -/

theorem mem_allSources : source ∈ allSources settings snapshots ↔
    ∃ snapshot ∈ snapshots, ∃ server ∈ snapshot.servers, source = ⟨snapshot.executor, server.1,
      server.2, canonicalDefinitionForServer settings server.1 server.2⟩ := by
  simp only [allSources, snapshotSources, mem_flatMap, mem_map, eq_comm]

/-- What a shown server stands for: sources of one native name and one variant. -/
structure Stands (settings : Settings) (snapshots : List NativeProfileSnapshot)
    (server : SharedMcpServer) (first : Source) : Prop where
  first_mem : first ∈ allSources settings snapshots
  name : identifier first.serverName = server.name
  definition : server.definition = redactGatewayDefinition first.definition
  sources : ∀ source ∈ allSources settings snapshots, identifier source.serverName = server.name →
    source.serverName = first.serverName ∧ variantKey source = variantKey first ∧
      ∃ assignment ∈ server.assignments, assignment.executor = source.executor

theorem stands_of_shown {server : SharedMcpServer}
    (h : server ∈ reconcileSnapshots settings snapshots) :
    ∃ first, Stands settings snapshots server first := by
  unfold reconcileSnapshots at h
  simp only [mem_filterMap] at h
  obtain ⟨name, -, h⟩ := h
  generalize hsources : (allSources settings snapshots).filter
    (fun source => identifier source.serverName = name) = sources at h
  have hmem (source : Source) : source ∈ sources ↔ source ∈ allSources settings snapshots ∧
      identifier source.serverName = name := by
    rw [← hsources, mem_filter, decide_eq_true_eq]
  unfold reconcileName at h
  cases sources with
  | nil => cases h
  | cons first rest =>
    simp only at h
    split at h
    · next hsame =>
      cases h
      obtain ⟨hfirst, hname⟩ := (hmem first).1 mem_cons_self
      refine ⟨first, hfirst, hname, rfl, fun source hsource hidentifier => ?_⟩
      have hin : source ∈ first :: rest := (hmem source).2 ⟨hsource, hidentifier⟩
      obtain ⟨hserverName, hkey⟩ := hsame source hin
      exact ⟨hserverName, hkey, _, mem_map_of_mem hin, rfl⟩
    · cases h

/-! ## Definitions with a gateway URL -/

/-- A definition of a URL, as `canonical_definition` gives it. -/
def IsHttp (settings : Settings) (d : McpServerDefinition) : Prop :=
  ∃ transport url headers, (transport = .http ∨ transport = .sse) ∧ Strings headers ∧
    Keyed Prod.fst headers ∧
    d = ⟨transport, .object (compact (httpForm (publicMcpUrl url settings.routes) headers)), true⟩

def IsGateway (settings : Settings) (entry : JsonValue) : Prop :=
  (gatewayUrl (canonicalDefinition settings.routes entry)).isSome = true

theorem isHttp_of_isGateway (hunique : entry.Unique) (hgateway : IsGateway settings entry) :
    (canonicalDefinition settings.routes entry).transport = .unknown ∨
      IsHttp settings (canonicalDefinition settings.routes entry) := by
  rcases canonicalDefinition_cases settings.routes hunique with
    ⟨command, args, env, envVars, flag, -, heq⟩ | ⟨transport, url, headers, ht, hs, hk, heq⟩ | h
  · have hurl : (compact (stdioForm command args env envVars)).lookup "url" = none := by
      rw [lookup_compact keyed_stdioForm]
      rfl
    rw [IsGateway, heq] at hgateway
    simp [gatewayUrl, definitionUrl, JsonValue.get, JsonValue.asObject, hurl] at hgateway
  · exact .inr ⟨transport, url, headers, ht, hs, hk, heq⟩
  · exact .inl h

variable {d : McpServerDefinition} {header : String × JsonValue}

theorem IsHttp.transport (h : IsHttp settings d) : d.transport = .http ∨ d.transport = .sse := by
  obtain ⟨transport, url, headers, ht, -, -, rfl⟩ := h
  exact ht

theorem migrateBundledSlackDefinition_cases (historical current : McpServerDefinition) :
    migrateBundledSlackDefinition historical current = current ∨
      (migrateBundledSlackDefinition historical current).transport = .stdio := by
  unfold migrateBundledSlackDefinition
  split
  · next hstdio _ => exact .inr hstdio
  · exact .inl rfl

theorem isHttp_of_transport (hunique : entry.Unique)
    (h : (canonicalDefinitionForServer settings name entry).transport = .http ∨
      (canonicalDefinitionForServer settings name entry).transport = .sse) :
    IsHttp settings (canonicalDefinitionForServer settings name entry) := by
  have hcanonical {entry : JsonValue} (hunique : entry.Unique)
      (h : (canonicalDefinition settings.routes entry).transport = .http ∨
        (canonicalDefinition settings.routes entry).transport = .sse) :
      IsHttp settings (canonicalDefinition settings.routes entry) := by
    rcases canonicalDefinition_cases settings.routes hunique with
      ⟨command, args, env, envVars, flag, -, heq⟩ | ⟨transport, url, headers, ht, hs, hk, heq⟩ |
        hunknown
    · simp [heq] at h
    · exact ⟨transport, url, headers, ht, hs, hk, heq⟩
    · simp [hunknown] at h
  unfold canonicalDefinitionForServer at h ⊢
  simp only at h ⊢
  split at h
  · next hplain =>
    rw [if_pos hplain]
    exact hcanonical hunique h
  · next hlegacy =>
    rw [if_neg hlegacy]
    cases hslack : settings.slack with
    | none =>
      simp only [hslack] at h
      exact hcanonical hunique h
    | some slack =>
      simp only [hslack] at h ⊢
      rcases migrateBundledSlackDefinition_cases
        (canonicalDefinition settings.routes entry) (canonicalDefinition settings.routes slack) with
        heq | hstdio
      · rw [heq] at h ⊢
        exact hcanonical (settings.slack_unique _ hslack) h
      · simp [hstdio] at h

section

variable (hunique : entry.Unique) (hgateway : IsGateway settings entry)
include hunique hgateway

theorem not_legacySlack_of_isGateway : isLegacyBundledSlackDefinition settings
      (canonicalDefinition settings.routes entry) = false := by
  rw [← Bool.not_eq_true]
  intro hlegacy
  have hstdio : (canonicalDefinition settings.routes entry).transport = .stdio := by
    simpa using (of_decide_eq_true hlegacy).1
  rcases isHttp_of_isGateway hunique hgateway with h | h
  · simp [h] at hstdio
  · rcases h.transport with h | h <;> simp [h] at hstdio

theorem canonicalDefinitionForServer_of_isGateway :
    canonicalDefinitionForServer settings name entry =
      canonicalDefinition settings.routes entry := by
  unfold canonicalDefinitionForServer
  simp only [not_legacySlack_of_isGateway hunique hgateway, or_true, if_true]

end

theorem variantKey_eq (h : variantKey source = variantKey first) :
    (source.definition.transport = .unknown ∧ first.definition.transport = .unknown) ∨
      (source.definition.transport = first.definition.transport ∧
        source.definition.value.Same first.definition.value) := by
  unfold variantKey normalizedFingerprint at h
  by_cases hs : source.definition.transport = .unknown
  · by_cases hf : first.definition.transport = .unknown
    · exact .inl ⟨hs, hf⟩
    · simp [hs, hf] at h
  · by_cases hf : first.definition.transport = .unknown
    · simp [hs, hf] at h
    · simp only [hs, hf, if_false, VariantKey.shared.injEq] at h
      exact .inr h

/-! ## Hydration of a definition -/

def SingleAuthorization (d : McpServerDefinition) : Prop :=
  ∀ header ∈ objectMembers d.value "headers", isAuthorization header.1 = true →
    ∀ header' ∈ objectMembers d.value "headers", isAuthorization header'.1 = true → header' = header

/-- `capability` finds the value of the authorization header of a definition. -/
def OwnCapability (settings : Settings) (snapshots : List NativeProfileSnapshot)
    (d : McpServerDefinition) : Prop :=
  ∀ header ∈ objectMembers d.value "headers", isAuthorization header.1 = true →
    ∀ url, definitionUrl d = some url → capability settings snapshots url = some header.2

theorem replaceHeaders_eq_self {p : String × JsonValue → Bool} (value : JsonValue)
    (h : ∀ header ∈ headers, p header = false) : replaceHeaders p value headers = headers := by
  refine (map_congr_left fun header hheader => ?_).trans (map_id headers)
  simp [h header hheader]

theorem setFirstAuthorization_redactHeaders (hk : Keyed Prod.fst headers) (hm : header ∈ headers)
    (hauth : isAuthorization header.1 = true)
    (honly : ∀ header' ∈ headers, isAuthorization header'.1 = true → header' = header) :
    setFirstAuthorization value (redactHeaders headers) =
      replaceHeaders (fun header => isAuthorization header.1) value headers := by
  induction headers with
  | nil => cases hm
  | cons first headers ih =>
    rw [keyed_cons_iff] at hk
    by_cases hfirst : isAuthorization first.1 = true
    · have heq : first = header := honly first mem_cons_self hfirst
      have hnone : ∀ other ∈ headers, isAuthorization other.1 = false := by
        intro other hother
        rw [← Bool.not_eq_true]
        intro hauth'
        have heq' := honly other (mem_cons_of_mem _ hother) hauth'
        exact hk.1 other hother (by rw [heq', heq])
      have hrest := replaceHeaders_eq_self placeholder hnone
      have hrest' := replaceHeaders_eq_self value hnone
      unfold redactHeaders replaceHeaders at *
      rw [map_cons, if_pos hfirst, hrest, setFirstAuthorization, if_pos hfirst,
        map_cons, if_pos hfirst, hrest']
    · have hm' : header ∈ headers := by
        rcases mem_cons.1 hm with rfl | hm
        · exact absurd hauth hfirst
        · exact hm
      have hrest := ih hk.2 hm' fun header' hheader' => honly header' (mem_cons_of_mem _ hheader')
      unfold redactHeaders replaceHeaders at hrest ⊢
      rw [map_cons, if_neg hfirst, setFirstAuthorization, if_neg hfirst, hrest,
        map_cons, if_neg hfirst]

theorem replaceHeaders_of_value
    (honly : ∀ header' ∈ headers, isAuthorization header'.1 = true → header' = header) :
    replaceHeaders (fun header => isAuthorization header.1) header.2 headers = headers := by
  refine (map_congr_left fun header' hheader' => ?_).trans (map_id headers)
  split_ifs with hauth
  · rw [honly header' hheader' hauth]
    rfl
  · rfl

variable {key : String} {f : List (String × JsonValue) → List (String × JsonValue)}
  {g : List (String × JsonValue) → List (String × JsonValue)}

theorem modifyObject_modifyObject :
    modifyObject key f (modifyObject key g entry) = modifyObject key (f ∘ g) entry := by
  cases entry with
  | object members =>
    rw [modifyObject, modifyObject, modifyObject, map_map]
    congr 1
    refine map_congr_left fun m _ => ?_
    by_cases hm : m.1 = key
    · cases hv : m.2 <;> simp [hm, hv]
    · simp [hm]
  | _ => rfl

theorem modifyObject_congr (hk : Keyed Prod.fst members)
    (h : f (objectMembers (.object members) key) = g (objectMembers (.object members) key)) :
    modifyObject key f (.object members) = modifyObject key g (.object members) := by
  rw [modifyObject, modifyObject]
  congr 1
  refine map_congr_left fun m hm => ?_
  obtain ⟨key', v⟩ := m
  by_cases hkey : key' = key
  · cases v with
    | object inner =>
      have hlookup : members.lookup key = some (.object inner) := by
        rw [lookup_eq_some_iff_mem hk, ← hkey]
        exact hm
      rw [objectMembers_object, hlookup] at h
      have hinner : f inner = g inner := h
      simp [hkey, hinner]
    | _ => simp [hkey]
  · simp [hkey]

theorem modifyObject_id : modifyObject key id (.object members) = .object members := by
  rw [modifyObject]
  congr 1
  refine (map_congr_left fun m _ => ?_).trans (map_id members)
  obtain ⟨key', v⟩ := m
  by_cases hkey : key' = key
  · cases v <;> simp [hkey]
  · simp [hkey]

theorem hydrateServer_ok {server' : SharedMcpServerInput}
    (h : hydrateServer settings snapshots server = .ok server') : server'.name = server.name ∧
      server'.assignments = server.assignments ∧ server'.nativeOverrides = server.nativeOverrides ∧
      server'.definition.transport = server.definition.transport := by
  unfold hydrateServer at h
  split at h
  · cases h
    exact ⟨rfl, rfl, rfl, rfl⟩
  · split at h
    · cases h
    · split at h
      · cases h
      · split at h <;> cases h
        exact ⟨rfl, rfl, rfl, rfl⟩

section

variable (h : IsHttp settings d)
include h

theorem IsHttp.representable : d.representableInForm = true := by
  obtain ⟨transport, url, headers, -, -, -, rfl⟩ := h
  rfl

theorem IsHttp.keyed_value : ∃ members, d.value = .object members ∧ Keyed Prod.fst members := by
  obtain ⟨transport, url, headers, -, -, hk, rfl⟩ := h
  exact ⟨_, rfl, keyed_filter keyed_httpForm _⟩

theorem IsHttp.keyed_headers : Keyed Prod.fst (objectMembers d.value "headers") ∧
      Strings (objectMembers d.value "headers") := by
  obtain ⟨transport, url, headers, -, hs, hk, rfl⟩ := h
  have hheaders : objectMembers (.object (compact (httpForm (publicMcpUrl url settings.routes)
      headers))) "headers" = headers := by
    rw [objectMembers_object, lookup_compact keyed_httpForm]
    exact filter_nonEmpty_object
  rw [hheaders]
  exact ⟨hk, hs⟩

end

theorem transport_redact : (redactGatewayDefinition d).transport = d.transport := by
  unfold redactGatewayDefinition
  split <;> rfl

theorem get_modifyObject_other {key' : String} (hne : key' ≠ key) :
    (modifyObject key f entry).get key' = entry.get key' := by
  cases entry with
  | object members =>
    show (members.map _).lookup key' = members.lookup key'
    rw [lookup_map_of_fst]
    · simp [hne]
    · intro m
      split
      · split <;> rfl
      · rfl
  | _ => rfl

theorem firstAuthorization_redactHeaders :
    (firstAuthorization (redactHeaders headers)).map (·.2) =
      (firstAuthorization headers).map fun _ => placeholder := by
  unfold firstAuthorization redactHeaders replaceHeaders
  induction headers with
  | nil => rfl
  | cons header headers ih =>
    by_cases hauth : isAuthorization header.1 = true
    · simp [hauth]
    · rw [map_cons, if_neg hauth]
      simp only [find?_cons, Bool.not_eq_true _ ▸ hauth]
      exact ih

section Hydrated

variable {d : McpServerDefinition} {server' : SharedMcpServerInput}

def withCredential (d : McpServerDefinition) (value : JsonValue) : McpServerDefinition where
  transport := d.transport
  value := modifyObject "headers"
    (replaceHeaders (fun header => isAuthorization header.1) value) d.value
  representableInForm := d.representableInForm

theorem objectMembers_withCredential : objectMembers (withCredential d value).value "headers" =
    replaceHeaders (fun header => isAuthorization header.1) value
      (objectMembers d.value "headers") :=
  objectMembers_modifyObject_self (map_nil)

section

variable {f : List (String × JsonValue) → List (String × JsonValue)} (hd : IsHttp settings d)
include hd

theorem modifyObject_headers_congr
    (h : f (objectMembers d.value "headers") = g (objectMembers d.value "headers")) :
    modifyObject "headers" f d.value = modifyObject "headers" g d.value := by
  obtain ⟨members, hvalue, hk⟩ := hd.keyed_value
  rw [hvalue] at h ⊢
  exact modifyObject_congr hk h

theorem modifyObject_headers_eq_self
    (h : f (objectMembers d.value "headers") = objectMembers d.value "headers") :
    modifyObject "headers" f d.value = d.value := by
  rw [modifyObject_headers_congr (g := id) hd h]
  obtain ⟨members, hvalue, -⟩ := hd.keyed_value
  rw [hvalue, modifyObject_id]

end

theorem redactGatewayDefinition_eq (hgateway : (gatewayUrl d).isSome = true) :
    redactGatewayDefinition d =
      { d with value := modifyObject "headers" redactHeaders d.value } := if_pos hgateway

theorem objectMembers_redact (hgateway : (gatewayUrl d).isSome = true) :
    objectMembers (redactGatewayDefinition d).value "headers" =
      redactHeaders (objectMembers d.value "headers") := by
  rw [redactGatewayDefinition_eq hgateway]
  exact objectMembers_modifyObject_self rfl

section

variable (hd : IsHttp settings d) (hgateway : (gatewayUrl d).isSome = true)
include hd hgateway

theorem definition_of_hydrated_none (hserver : server.definition = redactGatewayDefinition d)
    (hnone : ∀ header ∈ objectMembers d.value "headers", isAuthorization header.1 = false)
    (h : hydrateServer settings snapshots server = .ok server') : server'.definition = d := by
  have hfirst : firstAuthorization (objectMembers d.value "headers") = none := by
    simpa [firstAuthorization] using hnone
  unfold hydrateServer at h
  rw [hserver, objectMembers_redact hgateway, firstAuthorization_redactHeaders, hfirst,
    if_pos nofun] at h
  rw [← Except.ok.inj h, hserver, redactGatewayDefinition_eq hgateway]
  unfold redactHeaders
  rw [modifyObject_headers_eq_self hd (replaceHeaders_eq_self _ hnone)]

/-- What was shown of a definition with a credential is hydrated to it, but for the credential,
which is what `capability` finds. -/
theorem definition_of_hydrated_some (hsingle : SingleAuthorization d)
    (hserver : server.definition = redactGatewayDefinition d)
    (hm : header ∈ objectMembers d.value "headers") (hauth : isAuthorization header.1 = true)
    (h : hydrateServer settings snapshots server = .ok server') :
    ∃ url value, definitionUrl d = some url ∧ capability settings snapshots url = some value ∧
      server'.definition = withCredential d value := by
  obtain ⟨url, hurl⟩ : ∃ url, definitionUrl d = some url := by
    cases hurl : definitionUrl d with
    | none => simp [gatewayUrl, hurl] at hgateway
    | some url => exact ⟨url, rfl⟩
  have hgatewayUrl : isGatewayUrl url = true := by
    simpa [gatewayUrl, hurl, Option.filter] using hgateway
  have hshown : definitionUrl server.definition = some url := by
    rw [hserver, redactGatewayDefinition_eq hgateway, definitionUrl,
      get_modifyObject_other (by decide)]
    exact hurl
  obtain ⟨first, hfirst⟩ : ∃ first,
      firstAuthorization (objectMembers d.value "headers") = some first := by
    rw [← Option.isSome_iff_exists, firstAuthorization, find?_isSome]
    exact ⟨header, hm, hauth⟩
  have hredacted : (firstAuthorization (objectMembers server.definition.value "headers")).map
      (·.2) = some placeholder := by
    rw [hserver, objectMembers_redact hgateway, firstAuthorization_redactHeaders, hfirst]
    rfl
  unfold hydrateServer at h
  rw [hredacted, if_neg (by simp), hshown] at h
  simp only [hgatewayUrl, Bool.true_eq_false, if_false] at h
  cases hcapability : capability settings snapshots url with simp only [hcapability] at h
  | none => cases h
  | some value =>
    refine ⟨url, value, hurl, hcapability, ?_⟩
    cases h
    rw [hserver, redactGatewayDefinition_eq hgateway]
    dsimp only
    rw [modifyObject_modifyObject, withCredential, modifyObject_headers_congr hd
      (setFirstAuthorization_redactHeaders hd.keyed_headers.1 hm hauth (hsingle header hm hauth))]

/-- What was shown of a definition is hydrated to it, if `capability` finds its credential. -/
theorem definition_of_hydrated (hsingle : SingleAuthorization d)
    (hown : OwnCapability settings snapshots d)
    (hserver : server.definition = redactGatewayDefinition d)
    (h : hydrateServer settings snapshots server = .ok server') : server'.definition = d := by
  by_cases hauth : ∃ header ∈ objectMembers d.value "headers", isAuthorization header.1 = true
  · obtain ⟨header, hm, hauth⟩ := hauth
    obtain ⟨url, value, hurl, hcapability, heq⟩ :=
      definition_of_hydrated_some hd hgateway hsingle hserver hm hauth h
    rw [hown header hm hauth url hurl, Option.some.injEq] at hcapability
    rw [heq, ← hcapability, withCredential,
      modifyObject_headers_eq_self hd (replaceHeaders_of_value (hsingle header hm hauth))]
  · push Not at hauth
    exact definition_of_hydrated_none hd hgateway hserver
      (fun header hm => Bool.not_eq_true _ ▸ hauth header hm) h

end

end Hydrated

/-! ## A step of the plan -/

variable {next next' : List (String × JsonValue)}

theorem Planned.lookup_other (h : Planned settings executor current server next next')
    (hvalid : isValidServerIdentifier server.name = true) (hkey : identifier key ≠ server.name) :
    next'.lookup key = next.lookup key := by
  have hne : key ≠ server.name := by
    rintro rfl
    exact hkey (identifier_of_valid hvalid)
  have hlegacy {legacy : String} (h : isLegacyName server.name legacy = true) : key ≠ legacy := by
    rintro rfl
    exact hkey (isLegacyName_iff.1 h).2
  cases h with
  | moved _ hname _ | replaced _ hname _ =>
    rw [JsonValue.lookup_insert_other hne, lookup_removeServer_other (hlegacy hname)]
  | unchanged => rfl
  | written => rw [JsonValue.lookup_insert_other hne]
  | absent => rfl
  | removed _ hname =>
    rcases hname with rfl | hname
    · exact lookup_removeServer_other hne
    · exact lookup_removeServer_other (hlegacy hname)

theorem not_written_of_unknown (hoverrides : server.nativeOverrides = [])
    (hunknown : server.definition.transport = .unknown) :
    ¬ Written settings executor current server value := by
  rintro ⟨-, entry, hentry, -⟩
  have hreason : (incompatibilityReason executor server.definition).isSome = true := by
    unfold incompatibilityReason
    simp only [hunknown]
    split_ifs <;> simp_all
  rw [outgoing, hoverrides] at hentry
  unfold materializeDefinition at hentry
  cases hr : incompatibilityReason executor server.definition with
  | none => simp [hr] at hreason
  | some reason => simp [hr] at hentry

theorem Planned.lookup_own (h : Planned settings executor current server next next')
    (hk : Keyed Prod.fst current) (hassigned : executor ∈ server.assignments)
    (hoverrides : server.nativeOverrides = []) (hname : identifier native = server.name)
    (hother : ∀ other ∈ current, identifier other.1 = server.name → other.1 = native)
    (hstored : (native, entry) ∈ current) (hunique : entry.Unique)
    (hgateway : IsGateway settings entry) (hdefinition : server.definition.transport = .unknown ∨
      (canonicalDefinition settings.routes entry).Same server.definition)
    (hnext : next.lookup native = some entry) : next'.lookup server.name = some entry := by
  have hvalid : isValidServerIdentifier server.name = true := hname ▸ identifier_valid
  have hlookup : current.lookup native = some entry := (lookup_eq_some_iff_mem hk).2 hstored
  have hvalue {value : JsonValue} (hm : (native, value) ∈ current) : value = entry := by
    rw [(lookup_eq_some_iff_mem hk).2 hm] at hlookup
    exact Option.some.inj hlookup
  have hdescribes (key : String) : describes settings server.definition (key, entry) = true ↔
      (canonicalDefinition settings.routes entry).Same server.definition := by
    unfold describes
    rw [decide_eq_true_eq, canonicalDefinitionForServer_of_isGateway hunique hgateway]
  cases h with
  | @moved legacy value hnone hlegacy hdescribed =>
    have hnative : legacy = native := hother _ hdescribed.2.1 (isLegacyName_iff.1 hlegacy).2
    have heq : value = entry := hvalue (hnative ▸ hdescribed.2.1)
    rw [JsonValue.lookup_insert_self, heq]
  | @unchanged value hdescribed =>
    have hnative : server.name = native := hother _ hdescribed.2.1 (identifier_of_valid hvalid)
    rw [hnative]
    exact hnext
  | @written value hlegacy hchanged hwritten =>
    rcases hdefinition with hunknown | hsame
    · exact absurd hwritten (not_written_of_unknown hoverrides hunknown)
    · have hunchanged : isUnchanged settings current server = false :=
        hchanged (by rw [hoverrides]; rfl)
      by_cases hnative : server.name = native
      · have hslack := not_legacySlack_of_isGateway hunique hgateway
        unfold isUnchanged at hunchanged
        rw [hnative, hlookup] at hunchanged
        simp [hslack, (hdescribes native).2 hsame] at hunchanged
      · have hinvalid : isValidServerIdentifier native = false := by
          rw [← Bool.not_eq_true]
          exact fun hv => hnative (hname.symm.trans (identifier_of_valid hv))
        have hcandidate : (native, entry) ∈ current.filter fun native =>
            isLegacyName server.name native.1 && describes settings server.definition native := by
          rw [mem_filter, Bool.and_eq_true]
          exact ⟨hstored, isLegacyName_iff.2 ⟨hinvalid, hname⟩, (hdescribes native).2 hsame⟩
        unfold legacyNameForServer at hlegacy
        split at hlegacy
        · next hsome =>
          obtain ⟨v, hv⟩ := Option.isSome_iff_exists.1 hsome
          exact absurd (hother _ (mem_of_lookup hv) (identifier_of_valid hvalid)) hnative
        · split at hlegacy
          · next hempty => simp [hempty] at hcandidate
          · exact absurd (Except.ok.inj hlegacy) nofun
          · cases hlegacy
  | replaced hoverride => exact absurd (by rw [hoverrides]; rfl) hoverride
  | absent hunassigned | removed hunassigned => exact absurd hassigned hunassigned

/-! ## Definitions that are the same -/

section Same

variable {d d' : McpServerDefinition}

theorem asStr_sorted : value.sorted.asStr = value.asStr := by
  cases value <;> simp [JsonValue.sorted, JsonValue.asStr]

theorem definitionUrl_of_same (hd : IsHttp settings d) (h : d.value.Same d'.value) :
    definitionUrl d' = definitionUrl d := by
  obtain ⟨members, hvalue, hk⟩ := hd.keyed_value
  rw [hvalue] at h
  obtain ⟨members', hvalue'⟩ := JsonValue.Same.eq_object h.symm
  rw [hvalue'] at h
  have hlookup := h.lookup hk "url"
  unfold definitionUrl JsonValue.get
  rw [hvalue, hvalue']
  show (members'.lookup "url").bind _ = (members.lookup "url").bind _
  cases hm : members.lookup "url" with
  | none =>
    rw [hm] at hlookup
    simp [Option.map_eq_none_iff.1 hlookup.symm]
  | some v =>
    rw [hm, Option.map_some] at hlookup
    obtain ⟨v', hv', hsorted⟩ := Option.map_eq_some_iff.1 hlookup.symm
    rw [hv']
    show v'.asStr = v.asStr
    rw [← asStr_sorted, hsorted, asStr_sorted]

theorem mem_headers_of_same (hd : IsHttp settings d) (hd' : IsHttp settings d')
    (hsame : d.value.Same d'.value) (hm : header ∈ objectMembers d'.value "headers") :
    header ∈ objectMembers d.value "headers" := by
  obtain ⟨name, v⟩ := header
  obtain ⟨text, htext⟩ := Option.isSome_iff_exists.1 (hd'.keyed_headers.2 _ hm)
  obtain rfl : v = .string text := JsonValue.asStr_eq_some.1 htext
  obtain ⟨members, hvalue, hk⟩ := hd.keyed_value
  refine mem_objectMembers_of_same hsame (fun members' hvalue' => ?_) hm
  rw [hvalue, JsonValue.object.injEq] at hvalue'
  rwa [← hvalue']

theorem OwnCapability.of_same (h : OwnCapability settings snapshots d) (hd : IsHttp settings d)
    (hd' : IsHttp settings d') (hsame : d.value.Same d'.value) :
    OwnCapability settings snapshots d' := by
  intro header hm hauth url hurl
  rw [definitionUrl_of_same hd hsame] at hurl
  exact h header (mem_headers_of_same hd hd' hsame hm) hauth url hurl

theorem SingleAuthorization.of_same (h : SingleAuthorization d) (hd : IsHttp settings d)
    (hd' : IsHttp settings d') (hsame : d.value.Same d'.value) : SingleAuthorization d' :=
  fun header hm hauth header' hm' => h header (mem_headers_of_same hd hd' hsame hm) hauth header'
    (mem_headers_of_same hd hd' hsame hm')

end Same

/-! ## Saving back -/

/-- A shown server as the settings page sends it, with no native override. -/
def savedBack (server : SharedMcpServer) : SharedMcpServerInput where
  name := server.name
  definition := server.definition
  assignments := server.assignments.map (·.executor)
  nativeOverrides := []

/-- The request sends servers as they were shown, and removes none. -/
structure SavesBack (settings : Settings) (snapshots : List NativeProfileSnapshot)
    (request : SharedMcpWriteRequest) : Prop where
  servers : ∀ server ∈ request.servers, ∃ shown ∈ reconcileSnapshots settings snapshots,
    server = savedBack shown
  removed : request.removedServers = []

/-- A stored gateway entry, not of an unknown transport, whose server is sent back. -/
structure IsSentBack (settings : Settings) (snapshots : List NativeProfileSnapshot)
    (request : SharedMcpWriteRequest) (snapshot : NativeProfileSnapshot)
    (stored : String × JsonValue) : Prop where
  snapshot_mem : snapshot ∈ snapshots
  stored_mem : stored ∈ snapshot.servers
  gateway : IsGateway settings stored.2
  sent : ∃ sent ∈ request.servers, sent.name = identifier stored.1
  known : (canonicalDefinition settings.routes stored.2).transport ≠ .unknown

def SingleAuthorizations (settings : Settings) (snapshots : List NativeProfileSnapshot)
    (request : SharedMcpWriteRequest) : Prop :=
  ∀ snapshot stored, IsSentBack settings snapshots request snapshot stored →
    SingleAuthorization (canonicalDefinition settings.routes stored.2)

def OwnCapabilities (settings : Settings) (snapshots : List NativeProfileSnapshot)
    (request : SharedMcpWriteRequest) : Prop :=
  ∀ snapshot stored, IsSentBack settings snapshots request snapshot stored →
    OwnCapability settings snapshots (canonicalDefinition settings.routes stored.2)

/-- The gateway entry is kept, under its name or under its identifier. -/
def Keeps (plan : Plan) (stored : String × JsonValue) : Prop :=
  plan.next.lookup stored.1 = some stored.2 ∨ plan.next.lookup (identifier stored.1) = some stored.2

def KeepsGateways (settings : Settings) (snapshot : NativeProfileSnapshot) (plan : Plan) : Prop :=
  ∀ stored ∈ snapshot.servers, IsGateway settings stored.2 → Keeps plan stored

/-- The server under whose identifier a stored gateway entry was shown; `d` is what was redacted. -/
structure Shows (settings : Settings) (snapshot : NativeProfileSnapshot)
    (stored : String × JsonValue) (sent : SharedMcpServerInput) (d : McpServerDefinition) :
    Prop where
  assigned : snapshot.executor ∈ sent.assignments
  overrides : sent.nativeOverrides = []
  others : ∀ other ∈ snapshot.servers, identifier other.1 = sent.name → other.1 = stored.1
  definition : sent.definition = redactGatewayDefinition d
  unknown : (canonicalDefinition settings.routes stored.2).transport = .unknown →
    d.transport = .unknown
  http : IsHttp settings (canonicalDefinition settings.routes stored.2) →
    IsHttp settings d ∧ (canonicalDefinition settings.routes stored.2).Same d

variable {request : SharedMcpWriteRequest} {stored : String × JsonValue}
  {sent : SharedMcpServerInput} {plans : List Plan}

theorem shows_of_sent
    (hsaves : SavesBack settings snapshots request) (hsnapshot : snapshot ∈ snapshots)
    (hstored : stored ∈ snapshot.servers) (hgateway : IsGateway settings stored.2)
    (hsent : sent ∈ request.servers) (hname : sent.name = identifier stored.1) :
    ∃ d, Shows settings snapshot stored sent d := by
  obtain ⟨shown, hshown, rfl⟩ := hsaves.servers sent hsent
  obtain ⟨first, hstands⟩ := stands_of_shown hshown
  have hunique := snapshot.unique stored hstored
  have hsource {other : String × JsonValue} (hother : other ∈ snapshot.servers)
      (hidentifier : identifier other.1 = shown.name) := hstands.sources
    ⟨snapshot.executor, other.1, other.2, canonicalDefinitionForServer settings other.1 other.2⟩
    (mem_allSources.2 ⟨snapshot, hsnapshot, other, hother, rfl⟩) hidentifier
  obtain ⟨hfirstName, hkey, assignment, hassignment, hexecutor⟩ := hsource hstored hname.symm
  have hcases := variantKey_eq hkey
  dsimp only at hcases
  rw [canonicalDefinitionForServer_of_isGateway hunique hgateway] at hcases
  refine ⟨first.definition, mem_map.2 ⟨assignment, hassignment, hexecutor⟩, rfl,
    fun other hother hidentifier => (hsource hother hidentifier).1.trans hfirstName.symm,
    hstands.definition, fun hunknown => ?_, fun hd => ?_⟩
  · rcases hcases with ⟨-, h⟩ | ⟨h, -⟩
    · exact h
    · rw [← h, hunknown]
  · rcases hcases with ⟨h, -⟩ | ⟨htransport, hvalue⟩
    · rcases hd.transport with h' | h' <;> simp [h] at h'
    · obtain ⟨snapshot', hsnapshot', first', hfirst', heq⟩ := mem_allSources.1 hstands.first_mem
      have hd' : IsHttp settings first.definition := by
        have htransport' := hd.transport
        rw [htransport, heq] at htransport'
        rw [heq]
        exact isHttp_of_transport (snapshot'.unique _ hfirst') htransport'
      exact ⟨hd', htransport, hvalue, hd.representable.trans hd'.representable.symm⟩

/-- What the server of a stored gateway entry has to be so that the plan leaves the entry. -/
structure Returns (settings : Settings) (snapshot : NativeProfileSnapshot)
    (stored : String × JsonValue) (server : SharedMcpServerInput) : Prop where
  assigned : snapshot.executor ∈ server.assignments
  overrides : server.nativeOverrides = []
  others : ∀ other ∈ snapshot.servers, identifier other.1 = server.name → other.1 = stored.1
  definition : server.definition.transport = .unknown ∨
    (canonicalDefinition settings.routes stored.2).Same server.definition

theorem returns_of_hydrated (hsaves : SavesBack settings snapshots request)
    (hsingle : SingleAuthorizations settings snapshots request)
    (hown : OwnCapabilities settings snapshots request) (hsnapshot : snapshot ∈ snapshots)
    (hstored : stored ∈ snapshot.servers)
    (hgateway : IsGateway settings stored.2) {server : SharedMcpServerInput}
    (hsent : sent ∈ request.servers) (hname : sent.name = identifier stored.1)
    (h : hydrateServer settings snapshots sent = .ok server) :
    Returns settings snapshot stored server := by
  obtain ⟨d, hshows⟩ := shows_of_sent hsaves hsnapshot hstored hgateway hsent hname
  obtain ⟨hserverName, hassignments, hoverrides, htransport⟩ := hydrateServer_ok h
  refine ⟨hassignments ▸ hshows.assigned, hoverrides.trans hshows.overrides,
    hserverName ▸ hshows.others, ?_⟩
  rcases isHttp_of_isGateway (snapshot.unique stored hstored) hgateway with hunknown | hhttp
  · left
    rw [htransport, hshows.definition, transport_redact, hshows.unknown hunknown]
  · right
    obtain ⟨hd, hsame⟩ := hshows.http hhttp
    have hknown : (canonicalDefinition settings.routes stored.2).transport ≠ .unknown := by
      rcases hhttp.transport with h' | h' <;> simp [h']
    have hback : IsSentBack settings snapshots request snapshot stored :=
      ⟨hsnapshot, hstored, hgateway, ⟨sent, hsent, hname⟩, hknown⟩
    have hgateway' : (gatewayUrl d).isSome = true := by
      rw [gatewayUrl, definitionUrl_of_same hhttp hsame.2.1]
      exact hgateway
    rw [definition_of_hydrated hd hgateway' ((hsingle _ _ hback).of_same hhttp hd hsame.2.1)
      ((hown _ _ hback).of_same hhttp hd hsame.2.1) hshows.definition h]
    exact hsame

theorem kept_of_servers {servers : List SharedMcpServerInput} {plan : Plan}
    (hstored : stored ∈ snapshot.servers)
    (hgateway : IsGateway settings stored.2) (hnodup : (servers.map (·.name)).Nodup)
    (hvalid : ∀ server ∈ servers, isValidServerIdentifier server.name = true)
    (hreturns : ∀ server ∈ servers, server.name = identifier stored.1 →
      Returns settings snapshot stored server)
    (h : servers.foldlM (planServer settings snapshot.executor snapshot.servers)
      ⟨snapshot.servers, []⟩ = .ok plan) : Keeps plan stored := by
  have hinv := Lib.foldlM_induction (P := fun done plan =>
    (identifier stored.1 ∉ done.map (·.name) → plan.next.lookup stored.1 = some stored.2) ∧
      (identifier stored.1 ∈ done.map (·.name) →
        plan.next.lookup (identifier stored.1) = some stored.2)) ?_ ?_ h
  · by_cases hdone : identifier stored.1 ∈ servers.map (·.name)
    · exact .inr (hinv.2 hdone)
    · exact .inl (hinv.1 hdone)
  · exact ⟨fun _ => (lookup_eq_some_iff_mem snapshot.keyed).2 hstored, nofun⟩
  · intro done server rest plan₁ plan₂ hservers hP hstep
    have hm : server ∈ servers := by
      rw [hservers]
      exact mem_append_right _ mem_cons_self
    have hplanned := planned_of_planServer snapshot.keyed hstep
    rw [map_append, map_singleton, mem_append, mem_singleton]
    by_cases hname : identifier stored.1 = server.name
    · have hnot : identifier stored.1 ∉ done.map (·.name) := by
        rw [hservers, map_append, nodup_append] at hnodup
        intro hdone
        exact hnodup.2.2 _ hdone _ (by simp) hname
      obtain ⟨hassigned, hoverrides, hothers, hdefinition⟩ := hreturns server hm hname.symm
      have hown := hplanned.lookup_own snapshot.keyed hassigned hoverrides hname hothers hstored
        (snapshot.unique _ hstored) hgateway hdefinition (hP.1 hnot)
      exact ⟨fun hne => absurd (.inr hname) hne, fun _ => hname ▸ hown⟩
    · have hsame (key : String) (hkey : identifier key = identifier stored.1) :
          plan₂.next.lookup key = plan₁.next.lookup key :=
        hplanned.lookup_other (hvalid server hm) (hkey ▸ hname)
      rw [hsame _ rfl, hsame _ identifier_identifier]
      exact ⟨fun hnot => hP.1 fun hdone => hnot (.inl hdone),
        fun hdone => hP.2 (hdone.resolve_right hname)⟩

section

variable (hsaves : SavesBack settings snapshots request)
include hsaves

theorem plans_of_saved (h : updateSharedMcpServers settings snapshots request = .ok plans) :
    ∃ servers, Forall₂ (fun sent server => hydrateServer settings snapshots sent = .ok server)
        request.servers servers ∧
      validateWriteRequestAgainstSnapshots settings snapshots ⟨servers, []⟩ = .ok () ∧
      (∀ server ∈ servers, isValidServerIdentifier server.name = true) ∧
      Forall₂ (fun snapshot plan => snapshot ∈ snapshots ∧
        servers.foldlM (planServer settings snapshot.executor snapshot.servers)
          ⟨snapshot.servers, []⟩ = .ok plan) snapshots plans := by
  obtain ⟨hydrated, hhydrated, h⟩ := Lib.bind_eq_ok_iff.1 h
  obtain ⟨_, hvalidated, h⟩ := Lib.bind_eq_ok_iff.1 h
  rw [Lib.mapM_eq_ok_iff] at h
  obtain ⟨servers, hservers, hhydrated⟩ := Lib.bind_eq_ok_iff.1 hhydrated
  rw [Lib.mapM_eq_ok_iff] at hservers
  obtain rfl : { request with servers := servers } = hydrated := Except.ok.inj hhydrated
  rw [hsaves.removed] at hvalidated h
  refine ⟨servers, hservers, hvalidated, fun server hserver => ?_, ?_⟩
  · obtain ⟨sent, hsent, hok⟩ := Lib.exists_of_mem_right hservers hserver
    obtain ⟨shown, hshown, rfl⟩ := hsaves.servers sent hsent
    obtain ⟨first, hstands⟩ := stands_of_shown hshown
    have hname : identifier first.serverName = server.name :=
      hstands.name.trans (hydrateServer_ok hok).1.symm
    rw [← hname]
    exact identifier_valid
  · refine (forall₂_and_left (p := (· ∈ snapshots)) _ _).2 ⟨fun _ hs => hs, ?_⟩
    refine h.imp fun snapshot plan hplan => ?_
    obtain ⟨plan', hservers', hremoved⟩ := Lib.bind_eq_ok_iff.1 hplan
    rwa [← Except.ok.inj hremoved]

/-- Saving back what was read keeps each gateway entry, if `capability` finds its credential. -/
theorem keeps_gateways (hsingle : SingleAuthorizations settings snapshots request)
    (hown : OwnCapabilities settings snapshots request)
    (h : updateSharedMcpServers settings snapshots request = .ok plans) :
    Forall₂ (KeepsGateways settings) snapshots plans := by
  obtain ⟨servers, hservers, hvalidated, hvalid, hplans⟩ := plans_of_saved hsaves h
  refine hplans.imp fun snapshot plan ⟨hsnapshot, hplan⟩ stored hstored hgateway => ?_
  refine kept_of_servers hstored hgateway (validated hvalidated).1 hvalid
    (fun server hserver hname => ?_) hplan
  obtain ⟨sent, hsent, hok⟩ := Lib.exists_of_mem_right hservers hserver
  exact returns_of_hydrated hsaves hsingle hown hsnapshot hstored hgateway hsent
    ((hydrateServer_ok hok).1.symm.trans hname) hok

end

end VibeKanban.Mcp
