import Selfevals.Lib.Result
import Selfevals.Repo.Loader.Models

/-!
# The `agent:` block

`buildAgentSpec` parses the block into a transport-tagged spec, `dumpAgentSpec` writes it out again.
Each `parse…` comes with the lemma that it reads back what the dump writes for its field.

* `rehydrated_eq_self` : so exactly the embedded agents with a timeout come back changed.
-/

namespace Selfevals.Repo.Loader.Agent

open Lib.JsonValue Lib.PyStr Schemas.Enums Repo.Loader.Models

/-! ### Fields -/

/-- `_SUPPORTED_AGENT_TYPES`. -/
inductive AgentType
  | embedded | cli | http
deriving DecidableEq, Repr

instance : Coded AgentType where
  value
    | .embedded => "embedded"
    | .cli => "cli"
    | .http => "http"
  members := [.embedded, .cli, .http]

/-- `_parse_entrypoint`. -/
def parseEntrypoint (specPath : String) (agentSection : Object) :
    Except LoadError {e : AgentEntrypoint // e.Named} :=
  let malformed := LoadError.refused specPath
    "agent.entrypoint must be a string of the form 'package.module:callable_name'; got "
  match dictGet agentSection "entrypoint" with
  | .str entrypoint =>
    match AgentEntrypoint.ofRaw? entrypoint with
    | none => .error (malformed (.str entrypoint))
    | some e =>
      if h : e.Named then .ok ⟨e, h⟩
      else .error (.loaderError [.text s!"{specPath}: agent.entrypoint ", .repr (.str entrypoint),
        .text " is missing module or callable name"])
  | v => .error (malformed v)

theorem parseEntrypoint_raw {e : AgentEntrypoint} (h : e.Named) (specPath : String)
    {agentSection : Object} (hraw : agentSection.lookup "entrypoint" = some (.str e.raw)) :
    parseEntrypoint specPath agentSection = .ok ⟨e, h⟩ := by
  have hget : dictGet agentSection "entrypoint" = .str e.raw := by rw [dictGet, hraw]; rfl
  simp only [parseEntrypoint, hget, e.ofRaw?_raw]
  rw [dif_pos h]

/-- `_parse_timeout`: a positive number that is no `bool`. -/
def parseTimeout (specPath : String) (value : Json) : Except LoadError (Option Timeout) :=
  let refused := LoadError.refused specPath "agent.timeout_seconds must be a positive number; got "
  match value with
  | .null => .ok none
  | .int n => if h : (0 : ℚ) < n then .ok (some ⟨n, h⟩) else .error (refused value)
  | .float q => if h : 0 < q then .ok (some ⟨q, h⟩) else .error (refused value)
  | v => .error (refused v)

/-- A timeout as JSON. -/
def dumpTimeout (t : Timeout) : Json := .float t.val

theorem parseTimeout_dump (specPath : String) (t : Option Timeout) :
    parseTimeout specPath ((t.map dumpTimeout).getD .null) = .ok t := by
  cases t with
  | none => rfl
  | some t =>
    show (if h : 0 < t.val then _ else _) = _
    rw [dif_pos t.property]

/-- A field of a mapping of string to string. -/
def strItem : String × Json → Option (String × String)
  | (key, .str value) => some (key, value)
  | _ => none

/-- `_parse_str_map`. -/
def parseStrMap (specPath fieldName : String) (value : Json) :
    Except LoadError (Option (List (String × String))) :=
  let refused := LoadError.located specPath s!"{fieldName} must be a mapping of string→string"
  match value with
  | .null => .ok none
  | .obj fields =>
    match fields.mapM strItem with
    | none => .error refused
    | some items => .ok (some items)
  | _ => .error refused

/-- A dict of strings as JSON. -/
def dumpStrMap (items : List (String × String)) : Json :=
  .obj (items.map fun item => (item.1, .str item.2))

theorem parseStrMap_dump (specPath fieldName : String) (m : Option (List (String × String))) :
    parseStrMap specPath fieldName ((m.map dumpStrMap).getD .null) = .ok m := by
  cases m with
  | none => rfl
  | some items =>
    have hitems : (items.map fun item => (item.1, Json.str item.2)).mapM strItem = some items := by
      induction items with
      | nil => rfl
      | cons item items ih => simp [strItem, ih]
    simp [parseStrMap, dumpStrMap, hitems]

/-- A value that is a string with something in it. -/
def asNonBlank : Json → Option NonBlank
  | .str s => if h : strip s ≠ "" then some ⟨s, h⟩ else none
  | _ => none

theorem asNonBlank_str (s : NonBlank) : asNonBlank (.str s.val) = some s := dif_pos s.property

/-- `_parse_agent_model`. -/
def parseAgentModel (specPath : String) (value : Json) :
    Except LoadError (Option AgentModelDecl) :=
  match value with
  | .null => .ok none
  | .obj fields =>
    match asNonBlank (dictGet fields "provider") with
    | none => .error (.located specPath "agent.model.provider must be a non-empty string")
    | some provider =>
      match asNonBlank (dictGet fields "name") with
      | none => .error (.located specPath "agent.model.name must be a non-empty string")
      | some name => .ok (some ⟨provider, name⟩)
  | v => .error (.refused specPath
      "agent.model must be a mapping with `provider` and `name`; got " v)

/-- `dump_agent_model`. -/
def dumpAgentModel (model : AgentModelDecl) : Json :=
  .obj [("provider", .str model.provider), ("name", .str model.name)]

theorem parseAgentModel_dump (specPath : String) (m : Option AgentModelDecl) :
    parseAgentModel specPath ((m.map dumpAgentModel).getD .null) = .ok m := by
  cases m with
  | none => rfl
  | some m =>
    have hprovider : dictGet [("provider", .str m.provider), ("name", .str m.name)] "provider" =
        .str m.provider := rfl
    have hname : dictGet [("provider", .str m.provider), ("name", .str m.name)] "name" =
        .str m.name := rfl
    simp only [Option.map_some, Option.getD_some, dumpAgentModel, parseAgentModel, hprovider, hname,
      asNonBlank_str]

/-! ### Agents -/

/-- A non-empty list of strings. -/
def asCommand : Json → Option {command : List String // command ≠ []}
  | .arr items =>
    match items.mapM Json.asStr with
    | none => none
    | some command => if h : command ≠ [] then some ⟨command, h⟩ else none
  | _ => none

theorem asCommand_arr {command : List String} (h : command ≠ []) :
    asCommand (.arr (command.map .str)) = some ⟨command, h⟩ := by
  simp only [asCommand, Json.mapM_asStr]
  rw [dif_pos h]

/-- `agent.cwd`. -/
def parseCwd (specPath : String) (value : Json) : Except LoadError (Option String) :=
  match value with
  | .null => .ok none
  | .str cwd => .ok (some cwd)
  | v => .error (.refused specPath "agent.cwd must be a string; got " v)

theorem parseCwd_dump (specPath : String) (cwd : Option String) :
    parseCwd specPath ((cwd.map Json.str).getD .null) = .ok cwd := by
  cases cwd <;> rfl

/-- An embedded agent, from the `agent:` section. -/
def buildEmbeddedAgentSpec (specPath : String) (agentSection : Object) :
    Except LoadError EmbeddedAgentSpec := do
  let entrypoint ← parseEntrypoint specPath agentSection
  let timeout ← parseTimeout specPath (dictGet agentSection "timeout_seconds")
  return { entrypoint := entrypoint.val, timeoutSeconds := timeout, named := entrypoint.property }

/-- `_build_cli_agent_spec`. -/
def buildCliAgentSpec (specPath : String) (agentSection : Object) :
    Except LoadError CliAgentSpec := do
  if (agentSection.lookup "entrypoint").isSome then
    .error (.located specPath
      "agent.type 'cli' does not take an `entrypoint`; use `command:` instead")
  else
    let command ← match asCommand (dictGet agentSection "command") with
      | some command => .ok command
      | none => .error (.refused specPath
          "agent.type 'cli' requires `command:` as a non-empty list of strings; got "
          (dictGet agentSection "command"))
    let env ← parseStrMap specPath "agent.env" (dictGet agentSection "env")
    let timeout ← parseTimeout specPath (dictGet agentSection "timeout_seconds")
    let model ← parseAgentModel specPath (dictGet agentSection "model")
    let cwd ← parseCwd specPath (dictGet agentSection "cwd")
    return {
      command := command.val
      env := env
      timeoutSeconds := timeout
      model := model
      cwd := cwd
      command_ne_nil := command.property }

/-- `_build_http_agent_spec`. -/
def buildHttpAgentSpec (specPath : String) (agentSection : Object) :
    Except LoadError HttpAgentSpec := do
  if (agentSection.lookup "entrypoint").isSome then
    .error (.located specPath
      "agent.type 'http' does not take an `entrypoint`; use `url:` instead")
  else
    let url ← match asNonBlank (dictGet agentSection "url") with
      | some url => .ok url
      | none => .error (.refused specPath
          "agent.type 'http' requires `url:` as a non-empty string; got "
          (dictGet agentSection "url"))
    let headers ← parseStrMap specPath "agent.headers" (dictGet agentSection "headers")
    let timeout ← parseTimeout specPath (dictGet agentSection "timeout_seconds")
    let model ← parseAgentModel specPath (dictGet agentSection "model")
    return { url := url, headers := headers, timeoutSeconds := timeout, model := model }

/-- The type an agent section names; without one it is embedded, the legacy shape. -/
def parseAgentType (specPath : String) (value : Json) : Except LoadError AgentType :=
  let refused := LoadError.refused specPath
    "agent.type must be one of ['cli', 'embedded', 'http']; got " value
  match value with
  | .null => .ok .embedded
  | .str s =>
    match Coded.ofValue s with
    | some type => .ok type
    | none => .error refused
  | _ => .error refused

/-- The agent of an `agent:` section. -/
def parseAgentSection (specPath : String) (agentSection : Object) :
    Except LoadError AgentSpec := do
  match ← parseAgentType specPath (dictGet agentSection "type") with
  | .embedded => return .embedded (← buildEmbeddedAgentSpec specPath agentSection)
  | .cli => return .cli (← buildCliAgentSpec specPath agentSection)
  | .http => return .http (← buildHttpAgentSpec specPath agentSection)

/-- `build_agent_spec`. -/
def buildAgentSpec (specPath : String) (raw : Object) : Except LoadError AgentSpec :=
  match dictGetD raw "agent" (.obj []) with
  | .obj agentSection => parseAgentSection specPath agentSection
  | _ => .error (.located specPath "`agent:` must be a mapping")

/-! ### The dump -/

/-- The `agent:` section of a spec. -/
def dumpAgentSpec : AgentSpec → Object
  | .embedded a => [("type", .str "embedded"), ("entrypoint", .str a.entrypoint.raw)]
  | .cli a =>
    [("type", .str "cli"), ("command", .arr (a.command.map .str))] ++
      (optField "env" (a.env.map dumpStrMap) ++
        (optField "timeout_seconds" (a.timeoutSeconds.map dumpTimeout) ++
          (optField "model" (a.model.map dumpAgentModel) ++ optField "cwd" (a.cwd.map .str))))
  | .http a =>
    [("type", .str "http"), ("url", .str a.url.val)] ++
      (optField "headers" (a.headers.map dumpStrMap) ++
        (optField "timeout_seconds" (a.timeoutSeconds.map dumpTimeout) ++
          optField "model" (a.model.map dumpAgentModel)))

/-- What is left of an agent in its dump: the timeout of an embedded one is not written. -/
def rehydrated : AgentSpec → AgentSpec
  | .embedded a => .embedded { a with timeoutSeconds := none }
  | .cli a => .cli a
  | .http a => .http a

theorem rehydrated_eq_self (a : AgentSpec) :
    rehydrated a = a ↔ ∀ e, a = .embedded e → e.timeoutSeconds = none := by
  cases a with
  | embedded e =>
    constructor
    · intro h e' he
      cases he
      exact congrArg (fun a => match a with
        | .embedded e => e.timeoutSeconds
        | _ => none) h.symm
    · intro h
      have hnone := h e rfl
      obtain ⟨entrypoint, timeout, named⟩ := e
      obtain rfl : timeout = none := hnone
      rfl
  | cli a => exact ⟨fun _ _ h => (nomatch h), fun _ => rfl⟩
  | http a => exact ⟨fun _ _ h => (nomatch h), fun _ => rfl⟩

theorem parseAgentType_value (specPath : String) (type : AgentType) :
    parseAgentType specPath (.str (Coded.value type)) = .ok type := by
  simp only [parseAgentType, Coded.ofValue_value]

theorem buildCliAgentSpec_dump (specPath : String) (a : CliAgentSpec) :
    buildCliAgentSpec specPath (dumpAgentSpec (.cli a)) = .ok a := by
  have hentry : ((dumpAgentSpec (.cli a)).lookup "entrypoint").isSome = false := by
    simp [dumpAgentSpec, List.lookup_append, List.lookup_cons]
  have hcommand : dictGet (dumpAgentSpec (.cli a)) "command" = .arr (a.command.map .str) := by
    simp [dictGet, dumpAgentSpec, List.lookup_cons]
  have henv : dictGet (dumpAgentSpec (.cli a)) "env" = (a.env.map dumpStrMap).getD .null := by
    simp [dictGet, dumpAgentSpec, List.lookup_append, List.lookup_cons]
  have htimeout : dictGet (dumpAgentSpec (.cli a)) "timeout_seconds" =
      (a.timeoutSeconds.map dumpTimeout).getD .null := by
    simp [dictGet, dumpAgentSpec, List.lookup_append, List.lookup_cons]
  have hmodel : dictGet (dumpAgentSpec (.cli a)) "model" =
      (a.model.map dumpAgentModel).getD .null := by
    simp [dictGet, dumpAgentSpec, List.lookup_append, List.lookup_cons]
  have hcwd : dictGet (dumpAgentSpec (.cli a)) "cwd" = (a.cwd.map Json.str).getD .null := by
    simp [dictGet, dumpAgentSpec, List.lookup_append, List.lookup_cons]
  rw [buildCliAgentSpec, hentry, hcommand, henv, htimeout, hmodel, hcwd,
    asCommand_arr a.command_ne_nil, parseStrMap_dump, parseTimeout_dump, parseAgentModel_dump,
    parseCwd_dump]
  rfl

theorem buildHttpAgentSpec_dump (specPath : String) (a : HttpAgentSpec) :
    buildHttpAgentSpec specPath (dumpAgentSpec (.http a)) = .ok a := by
  have hentry : ((dumpAgentSpec (.http a)).lookup "entrypoint").isSome = false := by
    simp [dumpAgentSpec, List.lookup_append, List.lookup_cons]
  have hurl : dictGet (dumpAgentSpec (.http a)) "url" = .str a.url.val := by
    simp [dictGet, dumpAgentSpec, List.lookup_cons]
  have hheaders : dictGet (dumpAgentSpec (.http a)) "headers" =
      (a.headers.map dumpStrMap).getD .null := by
    simp [dictGet, dumpAgentSpec, List.lookup_append, List.lookup_cons]
  have htimeout : dictGet (dumpAgentSpec (.http a)) "timeout_seconds" =
      (a.timeoutSeconds.map dumpTimeout).getD .null := by
    simp [dictGet, dumpAgentSpec, List.lookup_append, List.lookup_cons]
  have hmodel : dictGet (dumpAgentSpec (.http a)) "model" =
      (a.model.map dumpAgentModel).getD .null := by
    simp [dictGet, dumpAgentSpec, List.lookup_append, List.lookup_cons]
  rw [buildHttpAgentSpec, hentry, hurl, hheaders, htimeout, hmodel, asNonBlank_str,
    parseStrMap_dump, parseTimeout_dump, parseAgentModel_dump]
  rfl

theorem buildEmbeddedAgentSpec_dump (specPath : String) (a : EmbeddedAgentSpec) :
    buildEmbeddedAgentSpec specPath (dumpAgentSpec (.embedded a)) =
      .ok { a with timeoutSeconds := none } := by
  have hentry : (dumpAgentSpec (.embedded a)).lookup "entrypoint" =
      some (.str a.entrypoint.raw) := rfl
  rw [buildEmbeddedAgentSpec, parseEntrypoint_raw a.named specPath hentry]
  rfl

theorem parseAgentSection_dump (specPath : String) (a : AgentSpec) :
    parseAgentSection specPath (dumpAgentSpec a) = .ok (rehydrated a) := by
  cases a with
  | embedded a =>
    have htype : dictGet (dumpAgentSpec (.embedded a)) "type" =
        .str (Coded.value AgentType.embedded) := rfl
    rw [parseAgentSection, htype, parseAgentType_value]
    show (do return AgentSpec.embedded (← buildEmbeddedAgentSpec specPath _)) = _
    rw [buildEmbeddedAgentSpec_dump]
    rfl
  | cli a =>
    have htype : dictGet (dumpAgentSpec (.cli a)) "type" = .str (Coded.value AgentType.cli) := rfl
    rw [parseAgentSection, htype, parseAgentType_value]
    show (do return AgentSpec.cli (← buildCliAgentSpec specPath _)) = _
    rw [buildCliAgentSpec_dump]
    rfl
  | http a =>
    have htype : dictGet (dumpAgentSpec (.http a)) "type" = .str (Coded.value AgentType.http) := rfl
    rw [parseAgentSection, htype, parseAgentType_value]
    show (do return AgentSpec.http (← buildHttpAgentSpec specPath _)) = _
    rw [buildHttpAgentSpec_dump]
    rfl

/-- **Every agent comes back from its dump, an embedded one without its timeout.** -/
theorem buildAgentSpec_dump (specPath : String) {raw : Object} {a : AgentSpec}
    (hraw : raw.lookup "agent" = some (.obj (dumpAgentSpec a))) :
    buildAgentSpec specPath raw = .ok (rehydrated a) := by
  have hget : dictGetD raw "agent" (.obj []) = .obj (dumpAgentSpec a) := by
    rw [dictGetD, hraw]
    rfl
  rw [buildAgentSpec, hget]
  exact parseAgentSection_dump specPath a

end Selfevals.Repo.Loader.Agent
