import RemoteCall.Config.Validation
import RemoteCall.Yaml.Value

/-!
# Reading configurations

A configuration is a mapping. Fields that are not known are passed over; a known one must
not come twice. What has been read must keep the rules.
-/

namespace RemoteCall

/-- Why a text is not a configuration. -/
inductive ConfigFault where
  | malformed
  | notMapping
  | missingField (name : String)
  | repeatedField (name : String)
  | wrongKind (name : String)
deriving DecidableEq, Repr

/-- What is wrong, in words. -/
def ConfigFault.message : ConfigFault → String
  | .malformed => "the text is not well-formed"
  | .notMapping => "a mapping is expected"
  | .missingField name => s!"missing field \"{name}\""
  | .repeatedField name => s!"duplicate field \"{name}\""
  | .wrongKind name => s!"invalid value for field \"{name}\""

/-- Why a configuration cannot be used. -/
inductive ConfigError where
  | unreadable (detail : String)
  | fault (cause : ConfigFault)
  | invalid (violation : ConfigViolation)
deriving DecidableEq, Repr

/-- What is wrong, in words. -/
def ConfigError.message : ConfigError → String
  | .unreadable detail => "failed to read configuration file: " ++ detail
  | .fault cause => "failed to parse configuration: " ++ cause.message
  | .invalid violation => "invalid configuration: " ++ violation.message

namespace Config

/-- The fields of a mapping in the order in which they are written. -/
abbrev Fields := List (String × Yaml.Node)

/-- The value of a field, if it is there; it must not be there twice. -/
def field? (fields : Fields) (name : String) : Except ConfigFault (Option Yaml.Node) :=
  match fields.filter (fun field => field.1 = name) with
  | [] => .ok none
  | [(_, value)] => .ok (some value)
  | _ => .error (.repeatedField name)

/-- What a field stands for, as `read` reads it. -/
def readField {α : Type} (read : Yaml.Node → Option α) (name : String) (value : Yaml.Node) :
    Except ConfigFault α :=
  match read value with
  | some result => .ok result
  | none => .error (.wrongKind name)

/-- A field that must be there. -/
def required {α : Type} (read : Yaml.Node → Option α) (fields : Fields) (name : String) :
    Except ConfigFault α := do
  match ← field? fields name with
  | some value => readField read name value
  | none => .error (.missingField name)

/-- A field that may be left out, or have a missing value. -/
def optional {α : Type} (read : Yaml.Node → Option α) (fields : Fields) (name : String) :
    Except ConfigFault (Option α) := do
  match ← field? fields name with
  | some value =>
    match value.isPresent? with
    | some true => (readField read name value).map some
    | some false => .ok none
    | none => .error (.wrongKind name)
  | none => .ok none

/-- A field that may be left out, in favour of a default value. -/
def defaulted {α : Type} (read : Yaml.Node → Option α) (fields : Fields) (name : String)
    (default : α) : Except ConfigFault α := do
  match ← field? fields name with
  | some value => readField read name value
  | none => .ok default

/-- The fields of a node. -/
def fieldsOf (document : Yaml.Document) (node : Yaml.Node) : Except ConfigFault Fields :=
  match document.fields? node with
  | some fields => .ok fields
  | none => .error .notMapping

/-- The timeouts that a node spells. -/
def readTimeouts (document : Yaml.Document) (node : Yaml.Node) :
    Except ConfigFault Timeouts := do
  let fields ← fieldsOf document node
  .ok { requestRead := ← required Yaml.Node.natural? fields "request_read"
        idle := ← required Yaml.Node.natural? fields "idle" }

/-- The settings of the counters that a node spells. -/
def readMetrics (document : Yaml.Document) (node : Yaml.Node) :
    Except ConfigFault MetricsSettings := do
  let fields ← fieldsOf document node
  .ok { enabled := ← required Yaml.Node.bool? fields "enabled"
        address := ← required Yaml.Node.text? fields "address" }

/-- The switch that a node spells; it is on unless it says otherwise. -/
def readSwitch (document : Yaml.Document) (node : Yaml.Node) : Except ConfigFault Bool := do
  defaulted Yaml.Node.bool? (← fieldsOf document node) "enabled" true

/-- The switches that a node spells. -/
def readSwitches (document : Yaml.Document) (node : Yaml.Node) :
    Except ConfigFault ConventionSwitches := do
  let fields ← fieldsOf document node
  let switch (name : String) : Except ConfigFault Bool := do
    match ← field? fields name with
    | some value => readSwitch document value
    | none => .ok true
  .ok { document := ← switch "xml", script := ← switch "json" }

/-- The texts that the items of a node are. -/
def texts? (document : Yaml.Document) (node : Yaml.Node) : Option (List String) :=
  (document.items? node).bind fun items => items.mapM Yaml.Node.text?

/-- The configuration that a document spells. -/
def ofDocument (document : Yaml.Document) : Except ConfigFault Config := do
  let fields ← fieldsOf document (document.content document.root)
  let addresses ← required (texts? document) fields "listen_addrs"
  let apiName ← required Yaml.Node.text? fields "api_name"
  let timeouts ← readTimeouts document (← required some fields "timeouts")
  let metrics ← readMetrics document (← required some fields "metrics")
  let switches ← (← optional some fields "conventions").mapM (readSwitches document)
  .ok { listenAddresses := addresses
        apiName := apiName
        timeouts := timeouts
        metrics := metrics
        defaultConvention := ← optional Yaml.Node.text? fields "default_convention"
        conventions := switches
        maxBodySize := ← optional Yaml.Node.natural? fields "max_body_size"
        shutdownTimeout := ← optional Yaml.Node.natural? fields "shutdown_timeout" }

/-- The configuration that a text spells, whether it keeps the rules or not. -/
def read (text : String) : Except ConfigFault Config :=
  match Yaml.parse? text with
  | some document => ofDocument document
  | none => .error .malformed

/-- The configuration that a text spells. -/
def parse (text : String) : Except ConfigError Config :=
  match read text with
  | .error fault => .error (.fault fault)
  | .ok config =>
    match config.validate with
    | .error violation => .error (.invalid violation)
    | .ok _ => .ok config

/-- The configuration in a file, of which the bytes are given if it can be read. -/
def ofFile (bytes : Option ByteArray) : Except ConfigError Config :=
  match bytes.map String.fromUTF8? with
  | none => .error (.unreadable "the file cannot be opened")
  | some none => .error (.unreadable "the file is not valid UTF-8")
  | some (some text) => parse text

end Config

end RemoteCall
