import AgentPlatform.ExecutionStore

/-!
# Tool definitions

The embedding of the data model of `tool/registry.py`. A tool definition is one
immutable version of a capability of a tenant. The services of the tool plane
read definitions from one of two registries, a dictionary in memory or the
table `tenant.tool_definition` of `0013_tool_governance.sql`; what they read is
all that these services know of a tool.

Schemas are Python dictionaries, kept here as lists of their items.
-/

/-- `ToolSideEffect`. -/
inductive ToolSideEffect where
  | READ_ONLY
  | IDEMPOTENT_WRITE
  | NON_IDEMPOTENT_WRITE
  | HIGH_RISK
  deriving DecidableEq, Repr

/-- The text of a side-effect level. -/
def ToolSideEffect.str : ToolSideEffect → String
  | .READ_ONLY => "READ_ONLY"
  | .IDEMPOTENT_WRITE => "IDEMPOTENT_WRITE"
  | .NON_IDEMPOTENT_WRITE => "NON_IDEMPOTENT_WRITE"
  | .HIGH_RISK => "HIGH_RISK"

/-- `AUTO_EXECUTABLE_SIDE_EFFECTS`. -/
def autoExecutableSideEffects : List ToolSideEffect := [.READ_ONLY, .IDEMPOTENT_WRITE]

/-- `ToolSource`. -/
inductive ToolSource where
  | DECLARED
  | MCP
  deriving DecidableEq, Repr

/-- **The exceptions of the tool plane**, by class. A `ToolInvocationError`
carries the approval a blocked call waits on among its details; `py` is any
exception of the services beneath. -/
inductive ToolException where
  | value (message : String)
  | toolDefinitionConflict (message : String)
  | toolInvocation (code : String) (approvalId : Option Uuid := none)
  | approval (code : String)
  | checkpoint (code : String)
  | reconciliation (code : String)
  | py (e : PyException)
  deriving DecidableEq, Repr

/-- `except Exception` catches it. -/
def ToolException.isException : ToolException → Bool
  | .py e => e.isException
  | _ => true

/-- A Python dictionary with string keys. -/
abbrev Dict := List (String × Json)

/-- `d.get(key)`. -/
def Dict.get? (d : Dict) (key : String) : Option Json := (d.find? (fun f => f.1 = key)).map Prod.snd

/-- **One immutable version of a tool of a tenant.** -/
structure ToolDefinition where
  tenantId : Uuid
  name : String
  version : ℤ
  description : String
  sideEffect : ToolSideEffect
  inputSchema : Dict
  outputSchema : Dict
  scopes : List String := []
  timeoutSeconds : ℤ := 30
  costPerCallMicros : ℤ := 0
  dataClassification : DataClassification
  supportsIdempotency : Bool := false
  source : ToolSource := .DECLARED
  mcpServer : Option String := none
