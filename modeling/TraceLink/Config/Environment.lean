import TraceLink.Config
import TraceLink.Logged
import TraceLink.Text.Decimal

/-! # Configuration from the environment

    Ten environment variables set the fields of the configuration. A number that
    cannot be read is noted and keeps its default; the other values are taken as
    they are, up to white space. What results has to be a valid configuration. -/

namespace TraceLink.Config

/-- **Environment**: the variables that hold a text. -/
abbrev Environment : Type := Entries String String

/-- A number from a variable, its default if the variable is not set or cannot be
    read. -/
def numberFrom {α : Type} (env : Environment) (name : String)
    (read : List Char → Option α) (default : α) : Logged α :=
  match env.get? name with
  | none => return default
  | some value =>
    match read (Text.trim value.toList) with
    | some n => return n
    | none => do
      Logged.note (.environmentUnreadable name value)
      return default

/-- A number without sign that fits into 64 bits. -/
def readSize (s : List Char) : Option Nat := Text.readNat UInt64.size s

/-- The configuration in the environment, not yet checked. -/
def fromVariables (defaults : Config) (env : Environment) : Logged Config := do
  let sampleRate ← numberFrom env "SW_AGENT_SAMPLE" Text.readInt32 defaults.sampleRate
  let spanLimit ← numberFrom env "SW_AGENT_SPAN_LIMIT" readSize defaults.spanLimit
  let entries ← numberFrom env "SW_CORRELATION_ELEMENT_MAX_NUMBER" readSize
    defaults.correlationLimits.entries
  let valueBytes ← numberFrom env "SW_CORRELATION_VALUE_MAX_LENGTH" readSize
    defaults.correlationLimits.valueBytes
  return {
    serviceName := (env.get? "SW_AGENT_NAME").getD defaults.serviceName
    instanceName :=
      ((env.get? "SW_AGENT_INSTANCE_NAME").filter fun s => Text.trimmed s != "").getD
        defaults.instanceName
    label := ((env.get? "SW_AGENT_NAMESPACE").map Text.trimmed).filter (· != "")
    sampleRate := sampleRate
    spanLimit := spanLimit
    ignoreSuffixes :=
      ((env.get? "SW_AGENT_IGNORE_SUFFIX").map Text.commaList).getD defaults.ignoreSuffixes
    correlationLimits := ⟨entries, valueBytes⟩
    autoTagKeys := ((env.get? "SW_CORRELATION_AUTO_TAG_KEYS").map Text.commaList).getD []
    logLevel := ((env.get? "SW_LOGGING_LEVEL").bind Severity.read?).getD .warn
    segmentBuffer := defaults.segmentBuffer }

/-- The configuration in the environment, if it is valid. -/
def ofEnvironment (defaults : Config) (env : Environment) :
    Logged (Except ConfigError Config) := do
  let c ← fromVariables defaults env
  return c.validate.map fun _ => c

end TraceLink.Config
