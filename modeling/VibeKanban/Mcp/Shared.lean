import VibeKanban.Lib.Except
import VibeKanban.Mcp.Definition

/-!
# The shared MCP settings (`shared_mcp_config.rs`, `routes/config.rs`)

What a client is shown of the executors' MCP servers and what a save writes: the redaction (lines
690-753), `reconcile_snapshots` (lines 511-688), the slack migration (lines 903-956), the plan
(lines 1206-1389), its validation (lines 1391-1514), and `hydrate_gateway_capabilities`
(`routes/config.rs`, lines 623-689), which a request passes first.

A `HashMap` is the list of its entries in the order of its iterators. The catalog's slack entry and
its launcher, the executors that have a profile and the runtime routes are parameters. Display
names, conflict variants, the gateway's status and the writing of the files are left out.
-/

namespace VibeKanban.Mcp

open Lib (JsonValue Keyed)

/-! ## What is read -/

/-- What the code reads besides the executors' files. -/
structure Settings where
  routes : RuntimeRoutes
  /-- `PRECONFIGURED_MCP_SERVERS.get("slack")`. -/
  slack : Option JsonValue
  slack_unique : ∀ entry, slack = some entry → entry.Unique
  /-- `default_slack_stdio_launcher()`. -/
  launcher : Option String
  /-- `agent_for(executor).is_some()`. -/
  known : BaseCodingAgent → Bool

/-- `NativeProfileSnapshot`: the servers of one executor under their native names. -/
structure NativeProfileSnapshot where
  executor : BaseCodingAgent
  servers : List (String × JsonValue)
  keyed : Keyed Prod.fst servers
  unique : ∀ server ∈ servers, server.2.Unique

structure SharedMcpServerInput where
  name : String
  definition : McpServerDefinition
  assignments : List BaseCodingAgent
  nativeOverrides : List (BaseCodingAgent × JsonValue)

structure SharedMcpWriteRequest where
  servers : List SharedMcpServerInput
  removedServers : List String

/-- `is_valid_server_identifier` (lines 223-228). -/
def isValidServerIdentifier (name : String) : Bool :=
  name ≠ "" && name.toList.all fun ch => ch.isAlphanum || ch == '_' || ch == '-'

/-- A character of the name (lines 236-244), with whether the last one was a separator. -/
def suggestCharacter (s : List Char × Bool) (ch : Char) : List Char × Bool :=
  if ch.isAlphanum || ch == '_' || ch == '-' then (s.1 ++ [ch.toLower], false)
  else if s.2 = false ∧ s.1 ≠ [] then (s.1 ++ ['_'], true)
  else s

/-- `suggested_server_identifier` (lines 232-254). That the name is trimmed first makes no
difference: separators at its ends are dropped. -/
def suggestedServerIdentifier (name : String) : String :=
  let suggestion := (name.toList.foldl suggestCharacter ([], false)).1.rdropWhile (· == '_')
  if suggestion = [] then "mcp_server" else String.ofList suggestion

/-- The identifier under which a native name is shown (lines 544-548). -/
def identifier (name : String) : String :=
  if isValidServerIdentifier name then name else suggestedServerIdentifier name

/-! ## The slack migration -/

def historicalSlackLauncher : String :=
  "https://github.com/davidvasandani/slack-mcp-server/releases/download/v1.3.0-vk.2/" ++
    "slack-mcp-server-vk-1.3.0-vk.2.tgz"

def slackArgs (launcher : String) : JsonValue :=
  .array [.string "-y", .string launcher, .string "--transport", .string "stdio"]

/-- `is_legacy_bundled_slack_definition` (lines 931-956). -/
def isLegacyBundledSlackDefinition (settings : Settings) (definition : McpServerDefinition) :
    Bool :=
  let launchers := ["slack-mcp-server@latest"] ++ settings.launcher.toList ++
    [historicalSlackLauncher]
  let env := ((definition.value.get "env").bind JsonValue.asObject).getD []
  definition.transport = .stdio ∧
    (definition.value.get "command").bind JsonValue.asStr = some "npx" ∧
    (∃ launcher ∈ launchers, definition.value.get "args" = some (slackArgs launcher)) ∧
    env.map (·.1) = ["SLACK_MCP_XOXP_TOKEN"]

/-- `migrate_bundled_slack_definition` (lines 915-929). -/
def migrateBundledSlackDefinition (historical current : McpServerDefinition) :
    McpServerDefinition :=
  match current.transport, historical.value.get "env" with
  | .stdio, some env => { current with value := current.value.set "env" env }
  | _, _ => current

/-- `canonical_definition_for_server` (lines 903-913). -/
def canonicalDefinitionForServer (settings : Settings) (name : String) (entry : JsonValue) :
    McpServerDefinition :=
  let definition := canonicalDefinition settings.routes entry
  if name ≠ "slack" ∨ isLegacyBundledSlackDefinition settings definition = false then definition
  else match settings.slack with
  | some current =>
    migrateBundledSlackDefinition definition (canonicalDefinition settings.routes current)
  | none => definition

/-! ## Redaction -/

/-- `url.contains("/mcp-gateway/")`. -/
def isGatewayUrl (url : String) : Bool := decide ("/mcp-gateway/".toList <:+: url.toList)

def definitionUrl (definition : McpServerDefinition) : Option String :=
  (definition.value.get "url").bind JsonValue.asStr

/-- `gateway_url` (lines 690-696). -/
def gatewayUrl (definition : McpServerDefinition) : Option String :=
  (definitionUrl definition).filter isGatewayUrl

/-- `name.eq_ignore_ascii_case("authorization")`. -/
def isAuthorization (name : String) : Bool := name.toList.map Char.toLower = "authorization".toList

def placeholder : JsonValue := .string "Bearer [REDACTED]"

/-- The headers with another value for those that `p` picks. -/
def replaceHeaders (p : String × JsonValue → Bool) (value : JsonValue)
    (headers : List (String × JsonValue)) : List (String × JsonValue) :=
  headers.map fun header => if p header then (header.1, value) else header

/-- `get_mut(key).and_then(as_object_mut)` and a change of that object. -/
def modifyObject (key : String)
    (f : List (String × JsonValue) → List (String × JsonValue)) : JsonValue → JsonValue
  | .object members => .object (members.map fun m =>
      if m.1 = key then
        match m.2 with
        | .object inner => (m.1, .object (f inner))
        | _ => m
      else m)
  | value => value

def redactHeaders : List (String × JsonValue) → List (String × JsonValue) :=
  replaceHeaders (fun header => isAuthorization header.1) placeholder

/-- `redact_gateway_definition` (lines 723-737). -/
def redactGatewayDefinition (definition : McpServerDefinition) : McpServerDefinition :=
  if (gatewayUrl definition).isSome then
    { definition with value := modifyObject "headers" redactHeaders definition.value }
  else definition

/-- `redact_gateway_source` (lines 739-753). -/
def redactGatewaySource (settings : Settings) (entry : JsonValue) : JsonValue :=
  if (gatewayUrl (canonicalDefinition settings.routes entry)).isSome then
    modifyObject "http_headers" redactHeaders (modifyObject "headers" redactHeaders entry)
  else entry

/-! ## What a client is shown -/

/-- `NativeMcpSource` with its definition (lines 553-562). -/
structure Source where
  executor : BaseCodingAgent
  serverName : String
  entry : JsonValue
  definition : McpServerDefinition

/-- `SharedMcpAssignment` (lines 755-768). -/
structure SharedMcpAssignment where
  executor : BaseCodingAgent
  nativeEntry : JsonValue

structure SharedMcpServer where
  name : String
  definition : McpServerDefinition
  assignments : List SharedMcpAssignment

/-- The key of a variant (lines 577-579), which is the text of these. -/
inductive VariantKey where
  | shared (transport : McpTransportKind) (value : JsonValue)
  | custom (executor : BaseCodingAgent) (entry : JsonValue)
  deriving DecidableEq

def variantKey (source : Source) : VariantKey :=
  match normalizedFingerprint source.definition with
  | some (transport, value) => .shared transport value
  | none => .custom source.executor source.entry.sorted

/-- The servers of a snapshot (lines 541-562). -/
def snapshotSources (settings : Settings) (snapshot : NativeProfileSnapshot) : List Source :=
  snapshot.servers.map fun server => ⟨snapshot.executor, server.1, server.2,
    canonicalDefinitionForServer settings server.1 server.2⟩

def allSources (settings : Settings) (snapshots : List NativeProfileSnapshot) : List Source :=
  snapshots.flatMap (snapshotSources settings)

/-- What is shown of the sources of one identifier (lines 568-676): a server, if they have one
native name and one variant, or else a conflict. -/
def reconcileName (settings : Settings) (name : String) (sources : List Source) :
    Option SharedMcpServer :=
  match sources with
  | [] => none
  | first :: _ =>
    if ∀ source ∈ sources, source.serverName = first.serverName ∧
        variantKey source = variantKey first then
      some ⟨name, redactGatewayDefinition first.definition,
        sources.map fun source => ⟨source.executor, redactGatewaySource settings source.entry⟩⟩
    else none

/-- The servers of `reconcile_snapshots` (lines 511-688), in the order of their identifiers. -/
def reconcileSnapshots (settings : Settings) (snapshots : List NativeProfileSnapshot) :
    List SharedMcpServer :=
  let sources := allSources settings snapshots
  let names := (sources.map fun source => identifier source.serverName).dedup.insertionSort (· ≤ ·)
  names.filterMap fun name =>
    reconcileName settings name (sources.filter fun source => identifier source.serverName = name)

/-! ## Hydration -/

def objectMembers (value : JsonValue) (key : String) : List (String × JsonValue) :=
  ((value.get key).bind JsonValue.asObject).getD []

def firstAuthorization (headers : List (String × JsonValue)) : Option (String × JsonValue) :=
  headers.find? fun header => isAuthorization header.1

/-- The capability of the first stored entry with this URL that has one (config.rs 653-672). -/
def capability (settings : Settings) (snapshots : List NativeProfileSnapshot) (url : String) :
    Option JsonValue :=
  (snapshots.flatMap fun snapshot => snapshot.servers.map (·.2)).findSome? fun entry =>
    let definition := canonicalDefinition settings.routes entry
    if definitionUrl definition = some url then
      (firstAuthorization (objectMembers definition.value "headers")).map (·.2)
    else none

/-- The first authorization header gets another value (config.rs 676-686). -/
def setFirstAuthorization (value : JsonValue) :
    List (String × JsonValue) → List (String × JsonValue)
  | [] => []
  | header :: headers =>
    if isAuthorization header.1 then (header.1, value) :: headers
    else header :: setFirstAuthorization value headers

/-- One server of `hydrate_gateway_capabilities` (config.rs 628-686). -/
def hydrateServer (settings : Settings) (snapshots : List NativeProfileSnapshot)
    (server : SharedMcpServerInput) : Except String SharedMcpServerInput :=
  if (firstAuthorization (objectMembers server.definition.value "headers")).map (·.2) ≠
      some placeholder then .ok server
  else match definitionUrl server.definition with
  | none => .error "Redacted gateway credentials cannot be saved without a gateway URL"
  | some url =>
    if isGatewayUrl url = false then
      .error ("Redacted gateway credentials cannot be reused for a direct MCP server; " ++
        "remove the Authorization header or reconnect")
    else match capability settings snapshots url with
    | none => .error "Shared gateway capability is unavailable; reconnect the server"
    | some value => .ok { server with definition := { server.definition with
        value := modifyObject "headers" (setFirstAuthorization value) server.definition.value } }

/-- `hydrate_gateway_capabilities` (config.rs 623-689). -/
def hydrateGatewayCapabilities (settings : Settings) (snapshots : List NativeProfileSnapshot)
    (request : SharedMcpWriteRequest) : Except String SharedMcpWriteRequest := do
  let servers ← request.servers.mapM (hydrateServer settings snapshots)
  .ok { request with servers := servers }

/-! ## Validation -/

/-- A native name that is shown as this identifier (lines 1401-1404). -/
def isLegacyName (name nativeName : String) : Bool :=
  !isValidServerIdentifier nativeName && suggestedServerIdentifier nativeName = name

/-- The entry stands for the definition: `canonical_definition_for_server(..) == definition`. -/
def describes (settings : Settings) (definition : McpServerDefinition)
    (server : String × JsonValue) : Bool :=
  (canonicalDefinitionForServer settings server.1 server.2).Same definition

/-- One snapshot of `migrated_legacy_server` (lines 1430-1448). -/
def migratedIn (settings : Settings) (server : SharedMcpServerInput)
    (snapshot : NativeProfileSnapshot) : Bool :=
  let assigned := decide (snapshot.executor ∈ server.assignments)
  let named := (snapshot.servers.lookup server.name).isSome
  match snapshot.servers.filter fun native => isLegacyName server.name native.1 with
  | [] => !assigned && !named
  | [native] => !named && assigned && describes settings server.definition native
  | _ => false

/-- `migrated_legacy_server` (lines 1418-1449). -/
def migratedLegacyServer (settings : Settings) (snapshots : List NativeProfileSnapshot)
    (server : SharedMcpServerInput) : Bool :=
  server.nativeOverrides.isEmpty && isValidServerIdentifier server.name &&
    (server.assignments.all fun executor => snapshots.any (·.executor = executor)) &&
    snapshots.all (migratedIn settings server)

/-- One snapshot of `unchanged_legacy_server` (lines 1461-1470). -/
def unchangedIn (settings : Settings) (server : SharedMcpServerInput)
    (snapshot : NativeProfileSnapshot) : Bool :=
  match decide (snapshot.executor ∈ server.assignments), snapshot.servers.lookup server.name with
  | true, some entry => describes settings server.definition (server.name, entry)
  | false, none => true
  | _, _ => false

/-- `unchanged_legacy_server` (lines 1451-1471). -/
def unchangedLegacyServer (settings : Settings) (snapshots : List NativeProfileSnapshot)
    (server : SharedMcpServerInput) : Bool :=
  server.nativeOverrides.isEmpty &&
    (server.assignments.all fun executor => snapshots.any (·.executor = executor)) &&
    snapshots.all (unchangedIn settings server)

/-- An executor of a server (lines 1496-1510). -/
def validateAssignment (settings : Settings) (server : SharedMcpServerInput) (isLegacy : Bool)
    (executor : BaseCodingAgent) : Except String Unit :=
  if settings.known executor = false then
    .error ("Executor `" ++ executor.display ++ "` was not found")
  else match incompatibilityReason executor server.definition with
  | some reason =>
    if isLegacy = true then .ok ()
    else .error ("MCP server `" ++ server.name ++ "` cannot be assigned to `" ++
      executor.display ++ "`: " ++ reason)
  | none => .ok ()

/-- A server of `validate_write_request_with`, after the servers `names` (lines 1478-1511). -/
def validateServer (settings : Settings) (snapshots : List NativeProfileSnapshot)
    (names : List String) (server : SharedMcpServerInput) : Except String (List String) := do
  let isLegacy := unchangedLegacyServer settings snapshots server ||
    migratedLegacyServer settings snapshots server
  if isValidServerIdentifier server.name = false ∧ isLegacy = false then
    .error ("Invalid MCP server identifier `" ++ server.name ++ "`: identifiers must match " ++
      "^[a-zA-Z0-9_-]+$. Use `" ++ suggestedServerIdentifier server.name ++
      "` as the identifier and keep `" ++ server.name ++ "` as the display label.")
  else if server.name ∈ names then .error ("MCP server `" ++ server.name ++ "` is duplicated")
  else if server.assignments = [] then
    .error ("MCP server `" ++ server.name ++ "` must have at least one assignment")
  else do
    let _ ← server.assignments.mapM (validateAssignment settings server isLegacy)
    .ok (names ++ [server.name])

/-- The check for legacy names (lines 1399-1412). -/
def validateLegacy (settings : Settings) (snapshots : List NativeProfileSnapshot)
    (server : SharedMcpServerInput) : Except String Unit :=
  let hasLegacyCandidate := snapshots.any fun snapshot =>
    snapshot.servers.any fun native => isLegacyName server.name native.1
  if hasLegacyCandidate = true ∧ migratedLegacyServer settings snapshots server = false then
    .error ("Legacy MCP definitions for `" ++ server.name ++ "` disagree across profiles or " ++
      "collide with an existing identifier; resolve the conflict before saving")
  else .ok ()

/-- `validate_write_request_against_snapshots` (lines 1395-1416). -/
def validateWriteRequestAgainstSnapshots (settings : Settings)
    (snapshots : List NativeProfileSnapshot) (request : SharedMcpWriteRequest) :
    Except String Unit := do
  let _ ← request.servers.mapM (validateLegacy settings snapshots)
  let _ ← request.servers.foldlM (validateServer settings snapshots) []
  .ok ()

/-! ## The stored capability -/

/-- The stored entry that has the capability: the one of this name, or else the first with this
gateway URL (lines 1322-1326). -/
def storedEntry (settings : Settings) (current : List (String × JsonValue)) (name url : String) :
    Option JsonValue :=
  (current.lookup name).or ((current.map (·.2)).find? fun entry =>
    gatewayUrl (canonicalDefinition settings.routes entry) = some url)

/-- The variable that an entry takes its authorization from (lines 1328-1338). -/
def envAuthorization (stored : JsonValue) : Option String :=
  ((firstAuthorization (objectMembers stored "env_http_headers")).bind (·.2.asStr)).filter
    validEnvName

def isRedacted (header : String × JsonValue) : Bool :=
  isAuthorization header.1 && header.2 = placeholder

/-- The header that a variable takes the place of (lines 1341-1351). -/
def redactedName (next : JsonValue) : Option String :=
  ((objectMembers next "http_headers").find? isRedacted).map (·.1)

/-- Takes a header from the variable again (lines 1344-1362); `none` is the panic of
`expect("environment HTTP headers are an object")`. -/
def restoreVariable (next : JsonValue) (name envName : String) : Option JsonValue :=
  let kept := (objectMembers next "http_headers").filter fun header => header.1 ≠ name
  let next := next.set "http_headers" (.object kept)
  match next.get "env_http_headers" with
  | none => some (next.set "env_http_headers" (.object [(name, .string envName)]))
  | some (.object headers) => some
      (next.set "env_http_headers" (.object (JsonValue.insert name (.string envName) headers)))
  | some _ => none

/-- Lines 1367-1376. -/
def storedAuthorization (settings : Settings) (stored : JsonValue) : Option JsonValue :=
  (firstAuthorization (objectMembers (canonicalDefinition settings.routes stored).value
    "headers")).map (·.2)

/-- Lines 1377-1388. -/
def restoreHeaders (next : JsonValue) (value : JsonValue) : JsonValue :=
  modifyObject "http_headers" (replaceHeaders isRedacted value)
    (modifyObject "headers" (replaceHeaders isRedacted value) next)

/-- `preserve_gateway_capability` (lines 1313-1389). -/
def preserveGatewayCapability (settings : Settings) (current : List (String × JsonValue))
    (currentName : String) (next : JsonValue) : Option JsonValue :=
  match gatewayUrl (canonicalDefinition settings.routes next) with
  | none => some next
  | some url => match storedEntry settings current currentName url with
  | none => some next
  | some stored => match envAuthorization stored, redactedName next with
  | some envName, some name => restoreVariable next name envName
  | _, _ => match storedAuthorization settings stored with
  | some value => some (restoreHeaders next value)
  | none => some next

/-! ## The plan -/

def removeServer (name : String) (servers : List (String × JsonValue)) :
    List (String × JsonValue) :=
  servers.filter fun server => server.1 ≠ name

/-- `legacy_name_for_server` (lines 1287-1311). -/
def legacyNameForServer (settings : Settings) (current : List (String × JsonValue))
    (server : SharedMcpServerInput) : Except String (Option String) :=
  if (current.lookup server.name).isSome then .ok none
  else match current.filter fun native =>
      isLegacyName server.name native.1 && describes settings server.definition native with
  | [] => .ok none
  | [candidate] => .ok (some candidate.1)
  | _ => .error ("Multiple legacy MCP identifiers normalize to `" ++ server.name ++
      "`; rename them explicitly")

/-- The stored entry is the one the definition stands for, and no slack entry to migrate
(lines 1230-1239). -/
def isUnchanged (settings : Settings) (current : List (String × JsonValue))
    (server : SharedMcpServerInput) : Bool :=
  match current.lookup server.name with
  | some entry =>
    if server.name = "slack" ∧ isLegacyBundledSlackDefinition settings
        (canonicalDefinition settings.routes entry) = true then false
    else describes settings server.definition (server.name, entry)
  | none => false

/-- `next` and `affected` (lines 1211-1212). -/
structure Plan where
  next : List (String × JsonValue)
  affected : List String

/-- The entry that is written for a server (lines 1241-1252). -/
def planWrite (settings : Settings) (executor : BaseCodingAgent)
    (current : List (String × JsonValue)) (plan : Plan) (server : SharedMcpServerInput)
    (legacyName : Option String) : Except String Plan :=
  match materializeDefinition settings.routes executor server.definition
    (server.nativeOverrides.lookup executor) with
  | .error reason => .error reason
  | .ok entry => match preserveGatewayCapability settings current server.name entry with
    | none => .error "environment HTTP headers are an object"
    | some entry =>
      let next := match legacyName with
        | some legacy => removeServer legacy plan.next
        | none => plan.next
      .ok ⟨JsonValue.insert server.name entry next, plan.affected ++ [server.name]⟩

/-- A server that the executor is assigned (lines 1215-1252). -/
def planAssigned (settings : Settings) (executor : BaseCodingAgent)
    (current : List (String × JsonValue)) (plan : Plan) (server : SharedMcpServerInput)
    (legacyName : Option String) : Except String Plan :=
  let nativeOverride := server.nativeOverrides.lookup executor
  match legacyName, nativeOverride with
  | some legacy, none =>
    let entry := (current.lookup legacy).getD .null
    .ok ⟨JsonValue.insert server.name entry (removeServer legacy plan.next),
      plan.affected ++ [server.name]⟩
  | _, _ =>
    if nativeOverride = none ∧ isUnchanged settings current server = true then .ok plan
    else planWrite settings executor current plan server legacyName

/-- A server that the executor is not assigned (lines 1256-1263). -/
def planUnassigned (plan : Plan) (server : SharedMcpServerInput) (legacyName : Option String) :
    Plan :=
  if (plan.next.lookup server.name).isSome then
    ⟨removeServer server.name plan.next, plan.affected ++ [server.name]⟩
  else match legacyName with
  | some legacy =>
    if (plan.next.lookup legacy).isSome then
      ⟨removeServer legacy plan.next, plan.affected ++ [server.name]⟩
    else plan
  | none => plan

/-- A server of the request (lines 1213-1264). -/
def planServer (settings : Settings) (executor : BaseCodingAgent)
    (current : List (String × JsonValue)) (plan : Plan) (server : SharedMcpServerInput) :
    Except String Plan := do
  let legacyName ← legacyNameForServer settings current server
  if executor ∈ server.assignments then
    planAssigned settings executor current plan server legacyName
  else .ok (planUnassigned plan server legacyName)

/-- A name that the request removes (lines 1265-1288). -/
def planRemoved (plan : Plan) (name : String) : Except String Plan :=
  let next := removeServer name plan.next
  let report (removed : Bool) : List String :=
    if removed = true ∧ name ∉ plan.affected then plan.affected ++ [name] else plan.affected
  match next.filter fun server => isLegacyName name server.1 with
  | [] => .ok ⟨next, report (plan.next.lookup name).isSome⟩
  | [legacy] => .ok ⟨removeServer legacy.1 next, report true⟩
  | _ => .error ("Multiple legacy MCP identifiers normalize to `" ++ name ++
      "`; rename them explicitly")

/-- `plan_servers_for_executor` (lines 1206-1285). -/
def planServersForExecutor (settings : Settings) (executor : BaseCodingAgent)
    (current : List (String × JsonValue)) (request : SharedMcpWriteRequest) :
    Except String Plan := do
  let plan ← request.servers.foldlM (planServer settings executor current) ⟨current, []⟩
  request.removedServers.foldlM planRemoved plan

/-- The plans of `update_shared_mcp_servers` (config.rs 417-433), one for each snapshot. -/
def updateSharedMcpServers (settings : Settings) (snapshots : List NativeProfileSnapshot)
    (request : SharedMcpWriteRequest) : Except String (List Plan) := do
  let request ← hydrateGatewayCapabilities settings snapshots request
  validateWriteRequestAgainstSnapshots settings snapshots request
  snapshots.mapM fun snapshot =>
    planServersForExecutor settings snapshot.executor snapshot.servers request

end VibeKanban.Mcp
