import VibeKanban.Lib.Json

/-!
# Shared MCP definitions (`shared_mcp_config.rs`)

The codec between an executor's own MCP entry and the definition that the settings show:
`canonical_definition` (lines 770-901), `incompatibility_reason` and `materialize_definition` (lines
1036-1204), with the runtime routes of `mcp_config.rs` (lines 23-126). A `serde_json::Map` is the
list of its members in order; the variable with the routes is a parameter. The executor of `qa-mode`
is left out.
-/

namespace VibeKanban.Mcp

open Lib (JsonValue)

/-! ## Runtime routes -/

/-- `BTreeMap<String, String>` from a public URL to the loopback URL the host serves it on
(mcp_config.rs 25-30), in the order of its keys. -/
structure RuntimeRoutes where
  entries : List (String × String)
  sorted : entries.Pairwise fun a b => a.1 < b.1

/-- `route_mcp_url` (mcp_config.rs 111-113). -/
def routeMcpUrl (url : String) (routes : RuntimeRoutes) : String :=
  (routes.entries.lookup url).getD url

/-- `public_mcp_url` (mcp_config.rs 121-126): the first public URL with this loopback URL. -/
def publicMcpUrl (url : String) (routes : RuntimeRoutes) : String :=
  ((routes.entries.find? fun route => route.2 == url).map (·.1)).getD url

/-! ## Definitions -/

inductive BaseCodingAgent where
  | claudeCode
  | amp
  | gemini
  | codex
  | opencode
  | cursorAgent
  | qwenCode
  | copilot
  | droid
  | grok
  deriving DecidableEq

/-- `Display`, in `SCREAMING_SNAKE_CASE`. -/
def BaseCodingAgent.display : BaseCodingAgent → String
  | claudeCode => "CLAUDE_CODE"
  | amp => "AMP"
  | gemini => "GEMINI"
  | codex => "CODEX"
  | opencode => "OPENCODE"
  | cursorAgent => "CURSOR_AGENT"
  | qwenCode => "QWEN_CODE"
  | copilot => "COPILOT"
  | droid => "DROID"
  | grok => "GROK"

inductive McpTransportKind where
  | stdio
  | http
  | sse
  | unknown
  deriving DecidableEq

structure McpServerDefinition where
  transport : McpTransportKind
  value : JsonValue
  representableInForm : Bool

/-- The derived `PartialEq`. -/
def McpServerDefinition.Same (a b : McpServerDefinition) : Prop :=
  a.transport = b.transport ∧ a.value.Same b.value ∧ a.representableInForm = b.representableInForm
  deriving Decidable

/-! ## Reading an entry -/

/-- What `compact_object` leaves out. -/
def nonEmpty : JsonValue → Bool
  | .array [] | .object [] | .string "" => false
  | _ => true

/-- `compact_object` (lines 965-977). -/
def compactObject (entries : List (String × JsonValue)) : JsonValue :=
  .object (entries.filter fun entry => nonEmpty entry.2)

/-- `normalize_string_map` (lines 979-992): the strings of the first of the members `keys` that is
an object. -/
def normalizeStringMap (obj : List (String × JsonValue)) (keys : List String) :
    List (String × JsonValue) :=
  match keys.findSome? fun key => (obj.lookup key).bind JsonValue.asObject with
  | some map => map.filter fun m => m.2.asStr.isSome
  | none => []

/-- `valid_env_name` (lines 889-896). -/
def validEnvName (name : String) : Bool :=
  match name.toList with
  | [] => false
  | first :: chars =>
    (first == '_' || first.isAlpha) && chars.all fun ch => ch == '_' || ch.isAlphanum

/-- `format!("${{{env_name}}}")`. -/
def envTemplate (envName : String) : String := "$\x7b" ++ envName ++ "\x7d"

/-- `exact_env_template` (lines 898-901). -/
def exactEnvTemplate (value : String) : Option String :=
  match value.toList with
  | '$' :: '\x7b' :: rest =>
    let name := String.ofList rest.dropLast
    if rest.getLast? = some '\x7d' ∧ validEnvName name = true then some name else none
  | _ => none

/-- A header that takes its value from the environment, if its name is free (lines 878-883). -/
def insertEnvHeader (headers : List (String × JsonValue)) (header : String × JsonValue) :
    List (String × JsonValue) :=
  match header.2.asStr with
  | some envName =>
    if headers.lookup header.1 = none ∧ validEnvName envName = true then
      headers ++ [(header.1, .string (envTemplate envName))]
    else headers
  | none => headers

/-- `normalize_http_headers` (lines 871-887). -/
def normalizeHttpHeaders (obj : List (String × JsonValue)) : List (String × JsonValue) :=
  let envHeaders := ((obj.lookup "env_http_headers").bind JsonValue.asObject).getD []
  envHeaders.foldl insertEnvHeader (normalizeStringMap obj ["headers", "http_headers"])

def typeStr (obj : List (String × JsonValue)) : Option String :=
  (obj.lookup "type").bind JsonValue.asStr

/-- The command line of a `local` entry (lines 787-788). -/
def localParts (obj : List (String × JsonValue)) : Option (List JsonValue) :=
  if typeStr obj = some "local" then (obj.lookup "command").bind JsonValue.asArray else none

/-- The command of any other stdio entry (lines 815-816). -/
def nativeCommand (obj : List (String × JsonValue)) : Option String :=
  if typeStr obj ∈ [some "http", some "sse", some "remote"] then none
  else (obj.lookup "command").bind JsonValue.asStr

/-- Lines 844-847. -/
def nativeUrl (obj : List (String × JsonValue)) : Option String :=
  ((obj.lookup "url").bind JsonValue.asStr).or ((obj.lookup "httpUrl").bind JsonValue.asStr)

/-- `url.trim_end_matches('/').ends_with("/sse")`. -/
def endsWithSse (url : String) : Bool :=
  "/sse".toList.isSuffixOf (url.toList.rdropWhile fun ch => ch == '/')

def arrayMember (obj : List (String × JsonValue)) (key : String) : List JsonValue :=
  ((obj.lookup key).bind JsonValue.asArray).getD []

/-- The value of a stdio definition (lines 799-810, 820-838). -/
def stdioValue (command : String) (args : List JsonValue) (obj : List (String × JsonValue)) :
    JsonValue :=
  compactObject [("command", .string command), ("args", .array args),
    ("env", .object (normalizeStringMap obj ["env", "environment"])),
    ("env_vars", .array (arrayMember obj "env_vars"))]

/-- `canonical_definition` (lines 770-869). -/
def canonicalDefinition (routes : RuntimeRoutes) (entry : JsonValue) : McpServerDefinition :=
  match entry with
  | .object obj =>
    if obj.lookup "enabled" = some (.bool false) then ⟨.unknown, entry, false⟩
    else match localParts obj with
    | some parts =>
      let command := ((parts.head?).bind JsonValue.asStr).getD ""
      let args := (parts.drop 1).filter fun arg => arg.asStr.isSome
      ⟨.stdio, stdioValue command args obj, decide (command ≠ "")⟩
    | none => match nativeCommand obj with
    | some command => ⟨.stdio, stdioValue command (arrayMember obj "args") obj, true⟩
    | none => match nativeUrl obj with
    | some url =>
      let transport : McpTransportKind :=
        if typeStr obj = some "sse" ∨ endsWithSse url = true then .sse else .http
      ⟨transport, compactObject [("url", .string (publicMcpUrl url routes)),
        ("headers", .object (normalizeHttpHeaders obj))], true⟩
    | none => ⟨.unknown, entry, false⟩
  | _ => ⟨.unknown, entry, false⟩

/-- `normalized_fingerprint` (lines 994-1023), which is the text of these two. -/
def normalizedFingerprint (definition : McpServerDefinition) :
    Option (McpTransportKind × JsonValue) :=
  if definition.transport = .unknown then none
  else some (definition.transport, definition.value.sorted)

/-! ## Writing an entry -/

/-- `incompatibility_reason` (lines 1036-1062). -/
def incompatibilityReason (executor : BaseCodingAgent) (definition : McpServerDefinition) :
    Option String :=
  let envVars := ((definition.value.get "env_vars").bind JsonValue.asArray).getD []
  if executor ≠ .codex ∧ envVars ≠ [] then
    some (executor.display ++ " does not support forwarding selected host environment variables")
  else if executor ∈ [BaseCodingAgent.codex, .grok] ∧ definition.transport = .sse then
    some (executor.display ++ " supports stdio and streamable HTTP MCP servers, not legacy SSE")
  else if definition.transport = .unknown then some "This server shape cannot be shared safely"
  else none

def keptMember (obj : List (String × JsonValue)) (key : String) (empty : JsonValue) :
    List (String × JsonValue) :=
  match obj.lookup key with
  | some value => if value = empty then [] else [(key, value)]
  | none => []

/-- The stdio entry (lines 1097-1142). -/
def stdioEntry (executor : BaseCodingAgent) (obj : List (String × JsonValue)) :
    List (String × JsonValue) :=
  let command := (obj.lookup "command").getD (.string "")
  let args := keptMember obj "args" (.array [])
  let env := keptMember obj "env" (.object [])
  if executor = .opencode then
    let parts := (if command.asStr.isSome then [command] else []) ++ arrayMember args "args"
    env ++ [("type", .string "local"), ("command", .array parts), ("enabled", .bool true)]
  else
    let envVars := if executor = .codex then keptMember obj "env_vars" (.array []) else []
    ("command", command) :: args ++ env ++ envVars

/-- The `type` and `enabled` members of an HTTP entry (lines 1158-1176). -/
def typeMembers (executor : BaseCodingAgent) (transport : McpTransportKind) :
    List (String × JsonValue) :=
  if executor = .opencode then [("type", .string "remote"), ("enabled", .bool true)]
  else if executor ∈ [BaseCodingAgent.cursorAgent, .codex, .grok] then []
  else [("type", .string (if transport = .sse then "sse" else "http"))]

/-- A header that Codex takes from the environment (lines 1184-1185). -/
def envHeader? (header : String × JsonValue) : Option (String × JsonValue) :=
  (header.2.asStr.bind exactEnvTemplate).map fun envName => (header.1, .string envName)

/-- `key`, if it has members (lines 1190-1195). -/
def objectMember (key : String) (members : List (String × JsonValue)) : List (String × JsonValue) :=
  if members = [] then [] else [(key, .object members)]

/-- The headers of an HTTP entry (lines 1179-1199). -/
def headerMembers (executor : BaseCodingAgent) (headers : List (String × JsonValue)) :
    List (String × JsonValue) :=
  if executor = .codex then
    objectMember "http_headers" (headers.filter fun header => (envHeader? header).isNone) ++
      objectMember "env_http_headers" (headers.filterMap envHeader?)
  else objectMember "headers" headers

/-- The URL of an HTTP entry, with what stands before it (lines 1152-1178). -/
def locationMembers (executor : BaseCodingAgent) (transport : McpTransportKind) (url : String) :
    List (String × JsonValue) :=
  if executor ∈ [BaseCodingAgent.gemini, .qwenCode] then [("httpUrl", .string url)]
  else typeMembers executor transport ++ [("url", .string url)]

/-- The HTTP entry (lines 1145-1200). -/
def httpEntry (routes : RuntimeRoutes) (executor : BaseCodingAgent) (transport : McpTransportKind)
    (obj : List (String × JsonValue)) : List (String × JsonValue) :=
  let url := (((obj.lookup "url").bind JsonValue.asStr).map (routeMcpUrl · routes)).getD ""
  locationMembers executor transport url ++
    headerMembers executor (((obj.lookup "headers").bind JsonValue.asObject).getD [])

/-- `materialize_definition` (lines 1081-1204). -/
def materializeDefinition (routes : RuntimeRoutes) (executor : BaseCodingAgent)
    (definition : McpServerDefinition) (nativeOverride : Option JsonValue) :
    Except String JsonValue :=
  match incompatibilityReason executor definition with
  | some reason => .error reason
  | none => match nativeOverride with
  | some overrideValue => .ok overrideValue
  | none => match definition.value with
  | .object obj => match definition.transport with
    | .stdio => .ok (.object (stdioEntry executor obj))
    | .http => .ok (.object (httpEntry routes executor .http obj))
    | .sse => .ok (.object (httpEntry routes executor .sse obj))
    | .unknown => .error "Unknown MCP transport cannot be shared"
  | _ => .error "MCP server definition is not an object"

end VibeKanban.Mcp
