import VibeKanban.Mcp.Definition

/-!
# Reading back a saved definition

A server is saved for an executor as the entry that `materialize_definition` makes of its
definition, and read as what `canonical_definition` makes of the entry.

* `readsBack_iff`: when it is read as what it was.
-/

namespace VibeKanban.Mcp

open Lib (JsonValue Keyed)
open Lib.Members List Option Prod

variable {routes : RuntimeRoutes} {executor : BaseCodingAgent} {d : McpServerDefinition}
  {obj entries headers env : List (String × JsonValue)} {key url command name value : String}
  {args envVars : List JsonValue} {flag : Bool} {first second : String}

/-! ## Compacted objects -/

@[simp]
theorem nonEmpty_array : nonEmpty (.array args) = decide (args ≠ []) := by cases args <;> rfl

@[simp]
theorem nonEmpty_object : nonEmpty (.object obj) = decide (obj ≠ []) := by cases obj <;> rfl

@[simp]
theorem nonEmpty_string : nonEmpty (.string value) = decide (value ≠ "") := by
  by_cases h : value = ""
  · rw [h]
    rfl
  · rw [decide_eq_true h]
    unfold nonEmpty
    split <;> simp_all

/-- The members that `compact_object` leaves. -/
def compact (entries : List (String × JsonValue)) : List (String × JsonValue) :=
  entries.filter fun entry => nonEmpty entry.2

theorem compact_append (a b : List (String × JsonValue)) :
    compact (a ++ b) = compact a ++ compact b :=
  filter_append _ _

theorem lookup_compact (h : Keyed fst entries) (key : String) :
    (compact entries).lookup key = (entries.lookup key).filter nonEmpty :=
  lookup_filter h nonEmpty key

theorem arrayMember_compact (h : Keyed fst entries) (key : String) :
    arrayMember (compact entries) key = arrayMember entries key := by
  rw [arrayMember, lookup_compact h, arrayMember]
  cases entries.lookup key with
  | none => rfl
  | some v =>
    by_cases hv : nonEmpty v = true
    · rw [filter_some_pos hv]
    · rw [filter_some_neg (Bool.not_eq_true _ ▸ hv)]
      cases v <;> simp_all [JsonValue.asArray]

theorem filter_nonEmpty_object :
    (((some (JsonValue.object obj)).filter nonEmpty).bind JsonValue.asObject).getD [] = obj := by
  by_cases h : obj = [] <;> simp [Option.filter, h, JsonValue.asObject]

theorem keptMember_compact {v empty : JsonValue} (h : Keyed fst entries)
    (hv : entries.lookup key = some v) (hempty : nonEmpty v = decide (v ≠ empty)) :
    keptMember (compact entries) key empty = compact [(key, v)] := by
  rw [keptMember, lookup_compact h, hv, compact]
  by_cases heq : v = empty
  · have hnon : nonEmpty v = false := by simpa [heq] using hempty
    simp [Option.filter, hnon]
  · have hnon : nonEmpty v = true := by simpa [heq] using hempty
    simp [Option.filter, hnon, heq]

/-! ## Environment templates -/

theorem exactEnvTemplate_eq_some (h : exactEnvTemplate value = some name) :
    envTemplate name = value ∧ validEnvName name = true := by
  unfold exactEnvTemplate at h
  split at h
  · next rest hvalue =>
    simp only [ite_none_right_eq_some, some.injEq] at h
    obtain ⟨⟨hlast, hvalid⟩, hname⟩ := h
    rw [hname] at hvalid
    refine ⟨?_, hvalid⟩
    have hrest : rest.dropLast ++ ['\x7d'] = rest := dropLast_append_getLast? '\x7d' hlast
    rw [← String.toList_inj, hvalue, ← hrest, ← hname]
    simp [envTemplate]
  · simp at h

/-! ## The shape of a definition -/

/-- The members of a stdio definition, before it is compacted. -/
def stdioForm (command : String) (args : List JsonValue) (env : List (String × JsonValue))
    (envVars : List JsonValue) : List (String × JsonValue) :=
  [("command", .string command), ("args", .array args), ("env", .object env),
    ("env_vars", .array envVars)]

/-- The members of an HTTP definition, before it is compacted. -/
def httpForm (url : String) (headers : List (String × JsonValue)) : List (String × JsonValue) :=
  [("url", .string url), ("headers", .object headers)]

def Strings (members : List (String × JsonValue)) : Prop := ∀ m ∈ members, m.2.asStr.isSome = true

theorem filter_strings (h : Strings headers) :
    headers.filter (fun m => m.2.asStr.isSome) = headers :=
  filter_eq_self.2 h

theorem strings_normalizeStringMap (obj : List (String × JsonValue)) (keys : List String) :
    Strings (normalizeStringMap obj keys) := by
  intro m hm
  unfold normalizeStringMap at hm
  split at hm
  · exact (mem_filter.1 hm).2
  · simp at hm

theorem keyed_stdioForm : Keyed fst (stdioForm command args env envVars) := by
  simp [Keyed, stdioForm]

theorem keyed_httpForm : Keyed fst (httpForm url headers) := by simp [Keyed, httpForm]

/-! ## The stdio entry is read back -/

theorem normalizeStringMap_pair
    (hfirst : obj.lookup first = (some (JsonValue.object env)).filter nonEmpty)
    (hsecond : obj.lookup second = none) (hs : Strings env) :
    normalizeStringMap obj [first, second] = env := by
  by_cases henv : env = []
  · rw [henv] at hfirst ⊢
    simp [normalizeStringMap, hfirst, hsecond, Option.filter, findSome?]
  · have hnon : nonEmpty (.object env) = true := by simpa using henv
    rw [Option.filter_some_pos hnon] at hfirst
    simp [normalizeStringMap, hfirst, JsonValue.asObject, findSome?, filter_strings hs]

theorem normalizeStringMap_second (hfirst : obj.lookup first = none)
    (hsecond : obj.lookup second = (some (JsonValue.object env)).filter nonEmpty)
    (hs : Strings env) : normalizeStringMap obj [first, second] = env := by
  have heq : normalizeStringMap obj [first, second] = normalizeStringMap obj [second, first] := by
    unfold normalizeStringMap
    by_cases henv : env = [] <;> simp [findSome?, hfirst, hsecond, henv, Option.filter,
      JsonValue.asObject]
  rw [heq]
  exact normalizeStringMap_pair hsecond hfirst hs

theorem canonical_of_command (henabled : obj.lookup "enabled" = none)
    (htype : obj.lookup "type" = none) (hcommand : obj.lookup "command" = some (.string command)) :
    canonicalDefinition routes (.object obj) =
      ⟨.stdio, stdioValue command (arrayMember obj "args") obj, true⟩ := by
  have hstr : typeStr obj = none := by simp [typeStr, htype]
  have hlocal : localParts obj = none := by simp [localParts, hstr]
  have hnative : nativeCommand obj = some command := by
    simp [nativeCommand, hstr, hcommand, JsonValue.asStr]
  simp [canonicalDefinition, henabled, hlocal, hnative]

/-- What of a definition is written beside the command. -/
def optionalForm (executor : BaseCodingAgent) (args : List JsonValue)
    (env : List (String × JsonValue)) (envVars : List JsonValue) : List (String × JsonValue) :=
  ("args", .array args) :: ("env", .object env) ::
    (if executor = .codex then [("env_vars", .array envVars)] else [])

theorem keyed_optionalForm : Keyed fst (optionalForm executor args env envVars) := by
  unfold optionalForm
  split <;> simp [Keyed]

theorem command_stdioForm :
    ((compact (stdioForm command args env envVars)).lookup "command").getD (.string "") =
      .string command := by
  rw [lookup_compact keyed_stdioForm]
  by_cases hc : command = "" <;> simp [stdioForm, Option.filter, hc]

theorem stdioEntry_eq (he : executor ≠ .opencode) :
    stdioEntry executor (compact (stdioForm command args env envVars)) =
      ("command", .string command) :: compact (optionalForm executor args env envVars) := by
  have hk : Keyed fst (stdioForm command args env envVars) := keyed_stdioForm
  rw [stdioEntry, if_neg he, command_stdioForm, keptMember_compact hk rfl (by simp),
    keptMember_compact hk rfl (by simp), keptMember_compact hk rfl (by simp)]
  by_cases hc : executor = .codex
  · rw [if_pos hc, optionalForm, if_pos hc, cons_append, cons_append, ← compact_append,
      ← compact_append]
    rfl
  · rw [if_neg hc, optionalForm, if_neg hc, append_nil, cons_append, ← compact_append]
    rfl

theorem optionalForm_absent (hkey : key ∉ ["args", "env", "env_vars"]) :
    (optionalForm executor args env envVars).lookup key = none := by
  unfold optionalForm
  split <;> simp_all

theorem canonical_stdioEntry (he : executor ≠ .opencode) (hs : Strings env) :
    canonicalDefinition routes (.object (stdioEntry executor
      (compact (stdioForm command args env envVars)))) =
    ⟨.stdio, .object (compact (stdioForm command args env
      (if executor = .codex then envVars else []))), true⟩ := by
  rw [stdioEntry_eq he]
  set form := optionalForm executor args env envVars with hform
  set obj := ("command", JsonValue.string command) :: compact form
  have hk : Keyed fst form := keyed_optionalForm
  have hcommand : obj.lookup "command" = some (.string command) :=
    lookup_cons_self ("command", JsonValue.string command) _
  have hlookup (key : String) (hkey : key ≠ "command") :
      obj.lookup key = (form.lookup key).filter nonEmpty := by
    rw [← lookup_compact hk]
    exact lookup_cons_of_ne hkey
  have harray (key : String) (hkey : key ≠ "command") :
      arrayMember obj key = arrayMember form key := by
    rw [arrayMember, hlookup key hkey, ← lookup_compact hk, ← arrayMember, arrayMember_compact hk]
  have habsent (key : String) (hkey : key ∉ ["command", "args", "env", "env_vars"]) :
      obj.lookup key = none := by
    rw [mem_cons, not_or] at hkey
    rw [hlookup key hkey.1, optionalForm_absent hkey.2]
    rfl
  have henv : normalizeStringMap obj ["env", "environment"] = env := by
    refine normalizeStringMap_pair ?_ (habsent _ (by decide)) hs
    rw [hlookup _ (by decide)]
    rfl
  have hvars : arrayMember form "env_vars" = if executor = .codex then envVars else [] := by
    rw [hform]
    unfold optionalForm
    split <;> rfl
  rw [canonical_of_command (habsent _ (by decide)) (habsent _ (by decide)) hcommand, stdioValue,
    harray _ (by decide), harray _ (by decide), hvars, henv]
  rfl

/-! ## The entry of Opencode -/

def opencodeForm (command : String) (args : List JsonValue) (env : List (String × JsonValue)) :
    List (String × JsonValue) :=
  [("env", .object env), ("type", .string "local"),
    ("command", .array (.string command :: args)), ("enabled", .bool true)]

theorem keyed_opencodeForm : Keyed fst (opencodeForm command args env) := by
  simp [Keyed, opencodeForm]

theorem stdioEntry_opencode_eq :
    stdioEntry .opencode (compact (stdioForm command args env envVars)) =
      compact (opencodeForm command args env) := by
  have hk : Keyed fst (stdioForm command args env envVars) := keyed_stdioForm
  have hargs : arrayMember (compact [("args", .array args)]) "args" = args := by
    rw [arrayMember_compact (by simp [Keyed])]
    rfl
  rw [stdioEntry, if_pos rfl, command_stdioForm, keptMember_compact hk rfl (by simp),
    keptMember_compact hk rfl (by simp), hargs]
  show _ = compact ([("env", JsonValue.object env)] ++ _)
  rw [compact_append]
  rfl

theorem canonical_of_parts {parts : List JsonValue}
    (henabled : obj.lookup "enabled" ≠ some (.bool false))
    (htype : obj.lookup "type" = some (.string "local"))
    (hcommand : obj.lookup "command" = some (.array parts)) :
    canonicalDefinition routes (.object obj) =
      ⟨.stdio, stdioValue ((parts.head?.bind JsonValue.asStr).getD "")
          ((parts.drop 1).filter fun arg => arg.asStr.isSome) obj,
        decide ((parts.head?.bind JsonValue.asStr).getD "" ≠ "")⟩ := by
  have hstr : typeStr obj = some "local" := by simp [typeStr, htype, JsonValue.asStr]
  have hlocal : localParts obj = some parts := by
    simp [localParts, hstr, hcommand, JsonValue.asArray]
  simp only [canonicalDefinition, henabled, hlocal, if_false]

theorem canonical_stdioEntry_opencode (hs : Strings env) :
    canonicalDefinition routes (.object (stdioEntry .opencode
      (compact (stdioForm command args env envVars)))) =
    ⟨.stdio, .object (compact (stdioForm command (args.filter fun arg => arg.asStr.isSome) env [])),
      decide (command ≠ "")⟩ := by
  rw [stdioEntry_opencode_eq]
  set form := opencodeForm command args env
  have hk : Keyed fst form := keyed_opencodeForm
  have hvars : arrayMember (compact form) "env_vars" = [] := by
    rw [arrayMember_compact hk]
    rfl
  have henv : normalizeStringMap (compact form) ["env", "environment"] = env := by
    refine normalizeStringMap_pair ?_ ?_ hs
    all_goals
      rw [lookup_compact hk]
      rfl
  have henabled : (compact form).lookup "enabled" = some (.bool true) := by
    rw [lookup_compact hk]
    rfl
  have htype : (compact form).lookup "type" = some (.string "local") := by
    rw [lookup_compact hk]
    rfl
  have hcommand : (compact form).lookup "command" = some (.array (.string command :: args)) := by
    rw [lookup_compact hk]
    rfl
  rw [canonical_of_parts (by simp [henabled]) htype hcommand, stdioValue, hvars, henv]
  rfl

/-! ## The HTTP entry -/

/-- Whether the entry of the executor says which HTTP transport it is (line 1166). -/
def writesType (executor : BaseCodingAgent) : Bool :=
  executor ∉ [BaseCodingAgent.gemini, .qwenCode, .opencode, .cursorAgent, .codex, .grok]

theorem canonical_of_url (henabled : obj.lookup "enabled" ≠ some (.bool false))
    (htype : obj.lookup "type" ≠ some (.string "local"))
    (hcommand : obj.lookup "command" = none) (hurl : nativeUrl obj = some url) :
    canonicalDefinition routes (.object obj) =
      ⟨if typeStr obj = some "sse" ∨ endsWithSse url = true then .sse else .http,
        .object (compact (httpForm (publicMcpUrl url routes) (normalizeHttpHeaders obj))),
        true⟩ := by
  have hstr : typeStr obj ≠ some "local" := by
    intro h
    obtain ⟨v, hv, hs⟩ := bind_eq_some_iff.1 h
    rw [JsonValue.asStr_eq_some.1 hs] at hv
    exact htype hv
  have hlocal : localParts obj = none := by simp [localParts, hstr]
  have hnative : nativeCommand obj = none := by simp [nativeCommand, hcommand]
  simp only [canonicalDefinition, henabled, hlocal, hnative, hurl, if_false]
  rfl

/-- The URL that is written for the URL of a definition, which is left out where it is empty. -/
def wireUrl (routes : RuntimeRoutes) (url : String) : String :=
  if url = "" then "" else routeMcpUrl url routes

/-- The headers in the order in which they are read back. -/
def reread (executor : BaseCodingAgent) (headers : List (String × JsonValue)) :
    List (String × JsonValue) :=
  if executor = .codex then
    headers.filter (fun header => (envHeader? header).isNone) ++
      headers.filter (fun header => (envHeader? header).isSome)
  else headers

theorem objectMember_eq_compact (key : String) (members : List (String × JsonValue)) :
    objectMember key members = compact [(key, .object members)] := by
  by_cases h : members = [] <;> simp [objectMember, compact, h]

theorem httpEntry_eq (executor : BaseCodingAgent) (transport : McpTransportKind) :
    httpEntry routes executor transport (compact (httpForm url headers)) =
      locationMembers executor transport (wireUrl routes url) ++
        headerMembers executor headers := by
  have hk : Keyed fst (httpForm url headers) := keyed_httpForm
  have hurl : ((((compact (httpForm url headers)).lookup "url").bind JsonValue.asStr).map
      (routeMcpUrl · routes)).getD "" = wireUrl routes url := by
    rw [lookup_compact hk]
    by_cases hu : url = "" <;> simp [httpForm, Option.filter, hu, wireUrl, JsonValue.asStr]
  have hheaders : (((compact (httpForm url headers)).lookup "headers").bind
      JsonValue.asObject).getD [] = headers := by
    rw [lookup_compact hk]
    exact filter_nonEmpty_object
  rw [httpEntry, hurl, hheaders]

theorem headerMembers_absent (hkey : key ∉ ["headers", "http_headers", "env_http_headers"]) :
    (headerMembers executor headers).lookup key = none := by
  rw [lookup_eq_none_iff_notMem]
  intro hmem
  obtain ⟨m, hm, rfl⟩ := mem_map.1 hmem
  have hof {k : String} {ms : List (String × JsonValue)} (h : m ∈ objectMember k ms) : m.1 = k := by
    unfold objectMember at h
    split at h <;> simp_all
  refine hkey ?_
  unfold headerMembers at hm
  split at hm
  · rcases mem_append.1 hm with h | h <;> simp [hof h]
  · simp [hof hm]

variable {transport : McpTransportKind}

theorem locationMembers_absent (hkey : key ∉ ["type", "enabled", "httpUrl", "url"]) :
    (locationMembers executor transport url).lookup key = none := by
  simp only [mem_cons, not_or] at hkey
  cases executor <;> simp [locationMembers, typeMembers, hkey]

variable {header : String × JsonValue} {entry : JsonValue} {url₀ : String}

/-- The header that `envHeader?` was made from. -/
theorem insertEnvHeader_envHeader {envHeader : String × JsonValue}
    (h : envHeader? header = some envHeader) (hfree : headers.lookup header.1 = none) :
    insertEnvHeader headers envHeader = headers ++ [header] := by
  obtain ⟨envName, hname, rfl⟩ := map_eq_some_iff.1 h
  obtain ⟨value, hvalue, htemplate⟩ := bind_eq_some_iff.1 hname
  obtain ⟨htext, hvalid⟩ := exactEnvTemplate_eq_some htemplate
  rw [JsonValue.asStr_eq_some] at hvalue
  simp only [insertEnvHeader, JsonValue.asStr]
  rw [if_pos ⟨hfree, hvalid⟩, htext, ← hvalue]

theorem foldl_insertEnvHeader {base : List (String × JsonValue)}
    (hk : Keyed fst (base ++ headers.filter fun header => (envHeader? header).isSome)) :
    (headers.filterMap envHeader?).foldl insertEnvHeader base =
      base ++ headers.filter fun header => (envHeader? header).isSome := by
  induction headers generalizing base with
  | nil => simp
  | cons header headers ih =>
    cases h : envHeader? header with
    | none =>
      have hfilter : (header :: headers).filter (fun header => (envHeader? header).isSome) =
          headers.filter fun header => (envHeader? header).isSome := by
        simp [h]
      rw [hfilter] at hk ⊢
      rw [filterMap_cons_none h]
      exact ih hk
    | some envHeader =>
      have hfilter : (header :: headers).filter (fun header => (envHeader? header).isSome) =
          header :: headers.filter fun header => (envHeader? header).isSome := by
        simp [h]
      rw [hfilter, append_cons] at hk ⊢
      have hfree : base.lookup header.1 = none := by
        rw [lookup_eq_none_iff_notMem]
        intro hmem
        have hnodup : ((base ++ [header]).map fst).Nodup :=
          Nodup.sublist ((sublist_append_left _ _).map fst) hk
        rw [map_append, nodup_append] at hnodup
        exact hnodup.2.2 _ hmem _ (by simp) rfl
      rw [filterMap_cons_some h, foldl_cons, insertEnvHeader_envHeader h hfree]
      exact ih hk

theorem reread_perm (executor : BaseCodingAgent) (headers : List (String × JsonValue)) :
    (reread executor headers).Perm headers := by
  unfold reread
  split
  · have hnot : (fun header : String × JsonValue => !(envHeader? header).isNone) =
        fun header => (envHeader? header).isSome := by
      funext header
      simp
    rw [← hnot]
    exact filter_append_perm _ headers
  · exact Perm.refl _

theorem normalizeHttpHeaders_headerMembers {location : List (String × JsonValue)}
    (hlocation : ∀ key ∈ ["headers", "http_headers", "env_http_headers"],
      location.lookup key = none) (hs : Strings headers) (hk : Keyed fst headers) :
    normalizeHttpHeaders (location ++ headerMembers executor headers) =
      reread executor headers := by
  have hlookup (key : String) (hkey : key ∈ ["headers", "http_headers", "env_http_headers"]) :
      (location ++ headerMembers executor headers).lookup key =
        (headerMembers executor headers).lookup key := by
    rw [lookup_append, hlocation key hkey]
    rfl
  by_cases hc : executor = .codex
  · set static := headers.filter fun header => (envHeader? header).isNone with hstatic
    set form : List (String × JsonValue) := [("http_headers", .object static),
      ("env_http_headers", .object (headers.filterMap envHeader?))]
    have hkeyed : Keyed fst form := by simp [form, Keyed]
    have hmembers : headerMembers executor headers = compact form := by
      rw [headerMembers, if_pos hc, objectMember_eq_compact, objectMember_eq_compact,
        ← compact_append]
      rfl
    rw [hmembers] at hlookup ⊢
    have hmap : normalizeStringMap (location ++ compact form) ["headers", "http_headers"] =
        static := by
      refine normalizeStringMap_second ?_ ?_ fun m hm => hs m (mem_of_mem_filter hm)
      all_goals
        rw [hlookup _ (by decide), lookup_compact hkeyed]
        rfl
    have henv : (((location ++ compact form).lookup "env_http_headers").bind
        JsonValue.asObject).getD [] = headers.filterMap envHeader? := by
      rw [hlookup _ (by decide), lookup_compact hkeyed]
      exact filter_nonEmpty_object
    have hperm := reread_perm executor headers
    rw [reread, if_pos hc] at hperm
    rw [normalizeHttpHeaders, hmap, henv, reread, if_pos hc]
    exact foldl_insertEnvHeader ((hperm.map fst).nodup_iff.2 hk)
  · have hmembers : headerMembers executor headers = compact [("headers", .object headers)] := by
      rw [headerMembers, if_neg hc, objectMember_eq_compact]
    have hkeyed : Keyed Prod.fst [("headers", JsonValue.object headers)] := by simp [Keyed]
    rw [hmembers] at hlookup ⊢
    have hmap : normalizeStringMap (location ++ compact [("headers", .object headers)])
        ["headers", "http_headers"] = headers := by
      refine normalizeStringMap_pair ?_ ?_ hs
      all_goals
        rw [hlookup _ (by decide), lookup_compact hkeyed]
        rfl
    have henv : (location ++ compact [("headers", JsonValue.object headers)]).lookup
        "env_http_headers" = none := by
      rw [hlookup _ (by decide), lookup_compact hkeyed]
      rfl
    rw [normalizeHttpHeaders, hmap, henv, reread, if_neg hc]
    rfl

theorem canonical_httpEntry (hs : Strings headers) (hk : Keyed fst headers) :
    canonicalDefinition routes (.object (httpEntry routes executor transport
      (compact (httpForm url headers)))) = ⟨if (writesType executor = true ∧ transport = .sse) ∨
        endsWithSse (wireUrl routes url) = true then .sse else .http,
      .object (compact (httpForm (publicMcpUrl (wireUrl routes url) routes)
        (reread executor headers))), true⟩ := by
  rw [httpEntry_eq]
  set wire := wireUrl routes url
  set location := locationMembers executor transport wire with hlocation
  set obj := location ++ headerMembers executor headers
  have hlookup (key : String) (hkey : key ∉ ["headers", "http_headers", "env_http_headers"]) :
      obj.lookup key = location.lookup key := by
    rw [lookup_append, headerMembers_absent hkey, or_none]
  have henabled : obj.lookup "enabled" ≠ some (.bool false) := by
    rw [hlookup _ (by decide), hlocation]
    cases executor <;> simp [locationMembers, typeMembers, lookup]
  have htype : obj.lookup "type" ≠ some (.string "local") := by
    rw [hlookup _ (by decide), hlocation]
    cases executor <;> cases transport <;> simp [locationMembers, typeMembers, lookup]
  have hcommand : obj.lookup "command" = none := by
    rw [hlookup _ (by decide)]
    exact locationMembers_absent (by decide)
  have hurl : nativeUrl obj = some wire := by
    rw [nativeUrl, hlookup _ (by decide), hlookup _ (by decide), hlocation]
    cases executor <;> simp [locationMembers, typeMembers, lookup, JsonValue.asStr]
  have hstr : typeStr obj = some "sse" ↔ writesType executor = true ∧ transport = .sse := by
    rw [typeStr, hlookup _ (by decide), hlocation]
    cases executor <;> cases transport <;>
      simp [locationMembers, typeMembers, writesType, lookup, JsonValue.asStr]
  have hheaders : normalizeHttpHeaders obj = reread executor headers := by
    refine normalizeHttpHeaders_headerMembers (fun key hkey => ?_) hs hk
    refine locationMembers_absent fun h => ?_
    simp only [mem_cons, not_mem_nil, or_false] at hkey h
    rcases hkey with rfl | rfl | rfl <;> simp at h
  rw [canonical_of_url henabled htype hcommand hurl, hheaders]
  simp only [hstr]

/-! ## What `canonical_definition` gives -/

theorem keyed_normalizeStringMap (h : (JsonValue.object obj).Unique) (keys : List String) :
    Keyed fst (normalizeStringMap obj keys) := by
  unfold normalizeStringMap
  split
  · next map hmap =>
    obtain ⟨key, -, hkey⟩ := exists_of_findSome?_eq_some hmap
    obtain ⟨v, hv, hobject⟩ := bind_eq_some_iff.1 hkey
    rw [JsonValue.asObject_eq_some] at hobject
    rw [hobject] at hv
    exact keyed_filter (h.of_lookup hv).keyed _
  · exact nodup_nil

theorem strings_insertEnvHeader (h : Strings headers) :
    Strings (insertEnvHeader headers header) := by
  intro m hm
  unfold insertEnvHeader at hm
  split at hm
  · split at hm
    · rcases mem_append.1 hm with hm | hm
      · exact h m hm
      · rw [mem_singleton.1 hm]
        rfl
    · exact h m hm
  · exact h m hm

theorem keyed_insertEnvHeader (h : Keyed fst headers) :
    Keyed fst (insertEnvHeader headers header) := by
  unfold insertEnvHeader
  split
  · split
    · next hfree =>
      refine h.concat fun m hm heq => ?_
      exact lookup_eq_none_iff_notMem.1 hfree.1 (mem_map.2 ⟨m, hm, heq⟩)
    · exact h
  · exact h

theorem strings_normalizeHttpHeaders (obj : List (String × JsonValue)) :
    Strings (normalizeHttpHeaders obj) := by
  exact foldlRecOn _ _ (strings_normalizeStringMap obj _) fun _ h _ _ => strings_insertEnvHeader h

theorem keyed_normalizeHttpHeaders (h : (JsonValue.object obj).Unique) :
    Keyed fst (normalizeHttpHeaders obj) := by
  exact foldlRecOn _ _ (keyed_normalizeStringMap h _) fun _ h _ _ => keyed_insertEnvHeader h

/-- What `canonical_definition` gives: a stdio definition, an HTTP definition with a public URL, or
the entry itself. -/
theorem canonicalDefinition_cases (routes : RuntimeRoutes) (h : entry.Unique) :
    (∃ command args env envVars flag, Strings env ∧ canonicalDefinition routes entry =
      ⟨.stdio, .object (compact (stdioForm command args env envVars)), flag⟩) ∨
    (∃ transport url headers, (transport = .http ∨ transport = .sse) ∧ Strings headers ∧
      Keyed fst headers ∧ canonicalDefinition routes entry =
      ⟨transport, .object (compact (httpForm (publicMcpUrl url routes) headers)), true⟩) ∨
    (canonicalDefinition routes entry).transport = .unknown := by
  cases entry with
  | object obj =>
    simp only [canonicalDefinition]
    by_cases henabled : obj.lookup "enabled" = some (.bool false)
    · simp [henabled]
    · simp only [henabled, if_false]
      cases hlocal : localParts obj with
      | some parts => exact .inl ⟨_, _, _, _, _, strings_normalizeStringMap obj _, rfl⟩
      | none =>
        cases hnative : nativeCommand obj with
        | some command => exact .inl ⟨_, _, _, _, _, strings_normalizeStringMap obj _, rfl⟩
        | none =>
          cases hurl : nativeUrl obj with
          | some url =>
            refine .inr (.inl ⟨_, url, _, ?_, strings_normalizeHttpHeaders obj,
              keyed_normalizeHttpHeaders h, rfl⟩)
            by_cases hsse : typeStr obj = some "sse" ∨ endsWithSse url = true <;> simp [hsse]
          | none => exact .inr (.inr rfl)
  | _ => exact .inr (.inr rfl)

/-! ## The URL is read back -/

theorem RuntimeRoutes.keyed (routes : RuntimeRoutes) : Keyed fst routes.entries := by
  rw [Keyed, nodup_iff_pairwise_ne, pairwise_map]
  exact routes.sorted.imp fun hlt => hlt.ne

theorem publicMcpUrl_cases (routes : RuntimeRoutes) (url : String) :
    (∃ p, publicMcpUrl url routes = p ∧ routes.entries.lookup p = some url ∧
      ∀ q < p, routes.entries.lookup q ≠ some url) ∨
    (publicMcpUrl url routes = url ∧ ∀ p, routes.entries.lookup p ≠ some url) := by
  unfold publicMcpUrl
  cases hfind : routes.entries.find? fun route => route.2 == url with
  | some route =>
    obtain ⟨hurl, before, after, hentries, hbefore⟩ := find?_eq_some_iff_append.1 hfind
    have hroute : route.2 = url := by simpa using hurl
    refine .inl ⟨route.1, rfl, ?_, fun q hlt hq => ?_⟩
    · rw [lookup_eq_some_iff_mem routes.keyed, hentries, ← hroute]
      simp
    · have hmem := mem_of_lookup hq
      have hsorted := routes.sorted
      rw [hentries] at hmem hsorted
      rcases mem_append.1 hmem with hmem | hmem
      · simpa using hbefore _ hmem
      · rcases mem_cons.1 hmem with heq | hmem
        · rw [← heq] at hlt
          exact lt_irrefl _ hlt
        · have hle := (pairwise_cons.1 (pairwise_append.1 hsorted).2.1).1 _ hmem
          exact lt_asymm hlt hle
  | none =>
    refine .inr ⟨rfl, fun p hp => ?_⟩
    have hnone := find?_eq_none.1 hfind _ (mem_of_lookup hp)
    simp at hnone

/-- No public URL before `url` has the same loopback URL; where there is no URL, none has the empty
one. -/
def KeepsUrl (routes : RuntimeRoutes) (url : String) : Prop :=
  if url = "" then ∀ p, routes.entries.lookup p = some "" → routes.entries.lookup "" = some ""
  else ∀ loopback, routes.entries.lookup url = some loopback →
    ∀ p < url, routes.entries.lookup p ≠ some loopback

theorem empty_lt {p : String} (h : p ≠ "") : "" < p := by
  rw [String.lt_iff_toList_lt]
  cases hp : p.toList with
  | nil => exact absurd (String.toList_eq_nil_iff.1 hp) h
  | cons c cs => simp

theorem publicMcpUrl_wireUrl_iff (h : publicMcpUrl url₀ routes = url) :
    publicMcpUrl (wireUrl routes url) routes = url ↔ KeepsUrl routes url := by
  unfold wireUrl KeepsUrl
  by_cases hempty : url = ""
  · rw [if_pos hempty, if_pos hempty, hempty]
    rcases publicMcpUrl_cases routes "" with ⟨p, hp, hlookup, hfirst⟩ | ⟨hp, hnone⟩ <;> rw [hp]
    · constructor
      · intro heq q _
        rwa [heq] at hlookup
      · intro hroot
        by_contra hne
        exact hfirst _ (empty_lt hne) (hroot p hlookup)
    · exact iff_of_true rfl fun p hlookup => absurd hlookup (hnone p)
  · rw [if_neg hempty, if_neg hempty]
    unfold routeMcpUrl
    cases hroute : routes.entries.lookup url with
    | some loopback =>
      show publicMcpUrl loopback routes = url ↔ _
      rcases publicMcpUrl_cases routes loopback with ⟨p, hp, hlookup, hfirst⟩ | ⟨-, hnone⟩
      · rw [hp]
        constructor
        · rintro rfl l hl q hlt
          cases hl
          exact hfirst q hlt
        · intro hkeeps
          rcases lt_trichotomy p url with hlt | heq | hlt
          · exact absurd hlookup (hkeeps loopback rfl p hlt)
          · exact heq
          · exact absurd hroute (hfirst url hlt)
      · exact absurd hroute (hnone url)
    | none =>
      show publicMcpUrl url routes = url ↔ _
      refine iff_of_true ?_ nofun
      rcases publicMcpUrl_cases routes url₀ with ⟨p, hp, hlookup, -⟩ | ⟨hp, hnone⟩
      · rw [← hp, h, hroute] at hlookup
        cases hlookup
      · rw [← h, hp, hp]

/-! ## The definition is read back -/

/-- A definition that `canonical_definition` gives for some entry. -/
def IsCanonical (routes : RuntimeRoutes) (d : McpServerDefinition) : Prop :=
  ∃ entry : JsonValue, entry.Unique ∧ d = canonicalDefinition routes entry

def ReadsBack (routes : RuntimeRoutes) (executor : BaseCodingAgent) (d : McpServerDefinition) :
    Prop :=
  ∃ entry, materializeDefinition routes executor d none = .ok entry ∧
    (canonicalDefinition routes entry).Same d

def urlOf (d : McpServerDefinition) : String := ((d.value.get "url").bind JsonValue.asStr).getD ""

/-- The members of a stdio definition that the shape of the entry has no place for: Opencode has
one list of strings and no flag for a missing command, the others always have a command. -/
def KeepsCommand (executor : BaseCodingAgent) (d : McpServerDefinition) : Prop :=
  if executor = .opencode then
    d.representableInForm = (d.value.get "command").isSome ∧
      ∀ args, d.value.get "args" = some (.array args) → ∀ arg ∈ args, arg.asStr.isSome = true
  else d.representableInForm = true

/-- The transport of an HTTP definition is told by the entry's `type`, where it has one, or by the
end of the URL. -/
def KeepsTransport (routes : RuntimeRoutes) (executor : BaseCodingAgent)
    (d : McpServerDefinition) : Prop :=
  if writesType executor = true then
    d.transport = .sse ∨ endsWithSse (wireUrl routes (urlOf d)) = false
  else d.transport = .sse ↔ endsWithSse (wireUrl routes (urlOf d)) = true

/-- The definitions that the entry of the executor has room for. -/
def Represented (routes : RuntimeRoutes) (executor : BaseCodingAgent) (d : McpServerDefinition) :
    Prop :=
  match d.transport with
  | .stdio => KeepsCommand executor d
  | .http | .sse => KeepsUrl routes (urlOf d) ∧ KeepsTransport routes executor d
  | .unknown => False

theorem incompatible_envVars (hne : executor ≠ .codex) (hc : incompatibilityReason executor
      ⟨.stdio, .object (compact (stdioForm command args env envVars)), flag⟩ = none) :
    envVars = [] := by
  have hget : ((JsonValue.get "env_vars"
      (.object (compact (stdioForm command args env envVars)))).bind JsonValue.asArray).getD [] =
      envVars := by
    show arrayMember (compact (stdioForm command args env envVars)) "env_vars" = envVars
    rw [arrayMember_compact keyed_stdioForm]
    rfl
  by_contra hvars
  simp [incompatibilityReason, hget, hne, hvars] at hc

theorem readsBack_of_materialize (h : materializeDefinition routes executor d none = .ok entry) :
    ReadsBack routes executor d ↔ (canonicalDefinition routes entry).Same d := by
  constructor
  · rintro ⟨entry', hentry', hsame⟩
    rw [h] at hentry'
    rwa [Except.ok.inj hentry']
  · exact fun hsame => ⟨entry, h, hsame⟩

theorem materialize_stdio (hc : incompatibilityReason executor ⟨.stdio, .object obj, flag⟩ = none) :
    materializeDefinition routes executor ⟨.stdio, .object obj, flag⟩ none =
      .ok (.object (stdioEntry executor obj)) := by
  simp only [materializeDefinition, hc]

theorem materialize_http (ht : transport = .http ∨ transport = .sse)
    (hc : incompatibilityReason executor ⟨transport, .object obj, flag⟩ = none) :
    materializeDefinition routes executor ⟨transport, .object obj, flag⟩ none =
      .ok (.object (httpEntry routes executor transport obj)) := by
  rcases ht with rfl | rfl <;> simp only [materializeDefinition, hc]

theorem same_filter_iff {p : JsonValue → Bool} :
    (JsonValue.object (compact (stdioForm command (args.filter p) env []))).Same
      (.object (compact (stdioForm command args env []))) ↔ ∀ arg ∈ args, p arg = true := by
  constructor
  · intro hsame
    have hk : Keyed fst (compact (stdioForm command (args.filter p) env [])) :=
      keyed_filter keyed_stdioForm _
    have hargs := hsame.lookup hk "args"
    rw [lookup_compact keyed_stdioForm, lookup_compact keyed_stdioForm] at hargs
    by_cases hempty : args = []
    · simp [hempty]
    · by_cases hfilter : args.filter p = []
      · simp [stdioForm, lookup, Option.filter, hempty, hfilter] at hargs
      · have harray : (JsonValue.array (args.filter p)).Same (.array args) := by
          simpa [JsonValue.Same, stdioForm, lookup, Option.filter, hempty, hfilter] using hargs
        exact length_filter_eq_length_iff.1 harray.length_array
  · intro hall
    rw [filter_eq_self.2 hall]
    exact .refl _

theorem readsBack_stdio (hs : Strings env)
    (hd : d = ⟨.stdio, .object (compact (stdioForm command args env envVars)), flag⟩)
    (hc : incompatibilityReason executor d = none) :
    ReadsBack routes executor d ↔ KeepsCommand executor d := by
  rw [hd] at hc ⊢
  rw [readsBack_of_materialize (materialize_stdio hc)]
  unfold KeepsCommand
  by_cases he : executor = .opencode
  · have hvars : envVars = [] := incompatible_envVars (by rw [he]; decide) hc
    have hcommand : (JsonValue.get "command"
        (.object (compact (stdioForm command args env [])))).isSome = decide (command ≠ "") := by
      show ((compact (stdioForm command args env [])).lookup "command").isSome = _
      rw [lookup_compact keyed_stdioForm]
      by_cases h : command = "" <;> simp [stdioForm, Option.filter, h]
    have hargs : (∀ args', JsonValue.get "args"
        (.object (compact (stdioForm command args env []))) = some (.array args') →
          ∀ arg ∈ args', arg.asStr.isSome = true) ↔ ∀ arg ∈ args, arg.asStr.isSome = true := by
      show (∀ args', (compact (stdioForm command args env [])).lookup "args" = _ → _) ↔ _
      rw [lookup_compact keyed_stdioForm]
      by_cases h : args = [] <;> simp [stdioForm, lookup, Option.filter, h]
    rw [if_pos he, he, hvars, canonical_stdioEntry_opencode hs]
    simp only [McpServerDefinition.Same, same_filter_iff, hcommand, hargs, true_and]
    rw [and_comm, eq_comm]
  · have hvars : (if executor = .codex then envVars else []) = envVars := by
      split_ifs with hcodex
      · rfl
      · rw [incompatible_envVars hcodex hc]
    rw [if_neg he, canonical_stdioEntry he hs, hvars]
    constructor
    · rintro ⟨-, -, hflag⟩
      exact hflag.symm
    · intro hflag
      exact ⟨rfl, .refl _, hflag.symm⟩

theorem same_httpForm_iff {url' : String} {headers' : List (String × JsonValue)}
    (hk : Keyed fst headers') (hp : headers'.Perm headers) :
    (JsonValue.object (compact (httpForm url' headers'))).Same
      (.object (compact (httpForm url headers))) ↔ url' = url := by
  constructor
  · intro hsame
    have hurl := hsame.lookup (keyed_filter keyed_httpForm _) "url"
    rw [lookup_compact keyed_httpForm, lookup_compact keyed_httpForm] at hurl
    by_cases h : url = "" <;> by_cases h' : url' = "" <;>
      simp_all [httpForm, Option.filter, JsonValue.sorted]
  · rintro rfl
    have hheaders : (JsonValue.object headers').sorted = (JsonValue.object headers).sorted :=
      JsonValue.same_object_of_perm hk hp
    have hempty : headers' = [] ↔ headers = [] := by
      rw [← length_eq_zero_iff, hp.length_eq, length_eq_zero_iff]
    rw [JsonValue.same_object_iff]
    by_cases h : url' = "" <;> by_cases hh : headers = [] <;>
      simp [compact, httpForm, h, hempty, hh, hheaders]

theorem readsBack_http
    (ht : transport = .http ∨ transport = .sse) (hs : Strings headers) (hk : Keyed fst headers)
    (hd : d = ⟨transport, .object (compact (httpForm (publicMcpUrl url₀ routes) headers)), true⟩)
    (hc : incompatibilityReason executor d = none) : ReadsBack routes executor d ↔
      KeepsUrl routes (urlOf d) ∧ KeepsTransport routes executor d := by
  have hurl : urlOf d = publicMcpUrl url₀ routes := by
    show ((d.value.get "url").bind JsonValue.asStr).getD "" = _
    rw [hd]
    show (((compact _).lookup "url").bind JsonValue.asStr).getD "" = _
    rw [lookup_compact keyed_httpForm]
    by_cases h : publicMcpUrl url₀ routes = "" <;>
      simp [httpForm, Option.filter, h, JsonValue.asStr]
  set url := publicMcpUrl url₀ routes with hpublic
  unfold KeepsTransport
  rw [hurl]
  rw [hd] at hc ⊢
  have hperm := reread_perm executor headers
  have hkeyed : Keyed fst (reread executor headers) := (hperm.map fst).nodup_iff.2 hk
  rw [readsBack_of_materialize (materialize_http ht hc), canonical_httpEntry hs hk]
  simp only [McpServerDefinition.Same, same_httpForm_iff hkeyed hperm, and_true,
    publicMcpUrl_wireUrl_iff hpublic.symm]
  rw [and_comm]
  refine and_congr_right fun _ => ?_
  by_cases hw : writesType executor = true <;>
    by_cases hsse : endsWithSse (wireUrl routes url) = true <;>
    rcases ht with rfl | rfl <;> simp [hw, hsse]

/-- What the codec is for: a definition is read back from an executor exactly if the entry of the
executor has room for it. -/
theorem readsBack_iff (hd : IsCanonical routes d) (hc : incompatibilityReason executor d = none) :
    ReadsBack routes executor d ↔ Represented routes executor d := by
  obtain ⟨entry, hunique, hentry⟩ := hd
  rcases canonicalDefinition_cases routes hunique with
    ⟨command, args, env, envVars, flag, hs, heq⟩ | ⟨transport, url, headers, ht, hs, hk, heq⟩ |
    hunknown
  · rw [heq] at hentry
    rw [readsBack_stdio hs hentry hc, hentry]
    rfl
  · rw [heq] at hentry
    rw [readsBack_http ht hs hk hentry hc, hentry]
    rcases ht with rfl | rfl <;> rfl
  · rw [← hentry] at hunknown
    unfold incompatibilityReason at hc
    simp only [hunknown] at hc
    split at hc <;> simp at hc

/-! ## A definition that is read back as another -/

def noRoutes : RuntimeRoutes := ⟨[], .nil⟩

def eventsDefinition : McpServerDefinition :=
  canonicalDefinition noRoutes
    (.object [("type", .string "sse"), ("url", .string "https://mcp.example.test/events")])

theorem eventsDefinition_canonical : IsCanonical noRoutes eventsDefinition := by
  refine ⟨_, ?_, rfl⟩
  simp [JsonValue.Unique, JsonValue.UniqueMembers, Keyed]

theorem events_readsBack : ReadsBack noRoutes .claudeCode eventsDefinition ∧
    ¬ ReadsBack noRoutes .gemini eventsDefinition := by
  refine ⟨(readsBack_iff eventsDefinition_canonical (by decide)).2 ⟨nofun, .inl rfl⟩, ?_⟩
  rw [readsBack_iff eventsDefinition_canonical (by decide)]
  rintro ⟨-, htransport⟩
  have hsse : endsWithSse (wireUrl noRoutes (urlOf eventsDefinition)) = true := htransport.1 rfl
  cases hsse

/-- Saved for two executors, the server is a conflict. -/
theorem events_conflict : IsCanonical noRoutes eventsDefinition ∧
    incompatibilityReason .claudeCode eventsDefinition = none ∧
    incompatibilityReason .cursorAgent eventsDefinition = none ∧
    ¬ ReadsBack noRoutes .cursorAgent eventsDefinition ∧
    ∃ entry entry', materializeDefinition noRoutes .claudeCode eventsDefinition none = .ok entry ∧
      materializeDefinition noRoutes .cursorAgent eventsDefinition none = .ok entry' ∧
      normalizedFingerprint (canonicalDefinition noRoutes entry) ≠
        normalizedFingerprint (canonicalDefinition noRoutes entry') := by
  refine ⟨eventsDefinition_canonical, rfl, rfl, ?_, _, _, rfl, rfl, by decide⟩
  rintro ⟨entry, hentry, hsame⟩
  rw [← Except.ok.inj hentry] at hsame
  exact absurd hsame.1 (by decide)

end VibeKanban.Mcp
