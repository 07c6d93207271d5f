import TraceLink.Hop.Correlation
import TraceLink.Text.CommaList

/-! # Configuration

    The settings of a tracer, their defaults, and the rules that they have to
    keep. `TraceLink.Config.Document` reads them from a JSON value,
    `TraceLink.Config.Environment` from environment variables. -/

namespace TraceLink

/-- **Configuration** of a tracer. -/
structure Config where
  serviceName : String
  instanceName : String
  /-- The label of the header names. -/
  label : Option String
  /-- Segments recorded in a window of three seconds, all if it is not positive. -/
  sampleRate : Int
  /-- Recorded spans of a segment. -/
  spanLimit : Nat
  /-- Suffixes of span names that are not recorded. -/
  ignoreSuffixes : List String
  correlationLimits : Correlation.Limits
  /-- Correlation keys that become tags of the spans. -/
  autoTagKeys : List String
  logLevel : Severity
  /-- Segments kept for a receiver that falls behind. -/
  segmentBuffer : Nat
  deriving Repr, DecidableEq

/-- **Configuration error**: the rule that is broken. -/
inductive ConfigError where
  | serviceNameEmpty
  | spanLimitZero
  | valueBytesZero
  | suffixWithoutDot (suffix : String)
  deriving Repr, DecidableEq

/-- The wording of the error. -/
def ConfigError.message : ConfigError → String
  | serviceNameEmpty => "Invalid configuration: SW_AGENT_NAME cannot be empty"
  | spanLimitZero => "Invalid configuration: Span limit per segment must be greater than 0"
  | valueBytesZero =>
    "Invalid configuration: Correlation value max length must be greater than 0"
  | suffixWithoutDot suffix =>
    s!"Invalid configuration: Ignore suffix '{suffix}' must start with '.'"

namespace Config

/-- The suffixes of static files. -/
def staticFiles : String := ".jpg,.jpeg,.js,.css,.png,.bmp,.gif,.ico,.mp3,.mp4,.html,.svg"

/-- The configuration where nothing is set, for an instance of the given name. -/
def standard (instanceName : String) : Config where
  serviceName := "Your_ApplicationName"
  instanceName := instanceName
  label := none
  sampleRate := -1
  spanLimit := 300
  ignoreSuffixes := Text.commaList staticFiles
  correlationLimits := .standard
  autoTagKeys := []
  logLevel := .warn
  segmentBuffer := 1000

/-- The label of the header names, empty for none. -/
def headerLabel (c : Config) : String := c.label.getD ""

/-- A suffix begins with a dot. -/
def isSuffix (s : String) : Bool := s.toList.head? == some '.'

/-- Checks a list of suffixes; the first that is none is named. -/
def checkSuffixes (suffixes : List String) : Except ConfigError Unit :=
  match suffixes.find? fun s => !isSuffix s with
  | some s => .error (.suffixWithoutDot s)
  | none => .ok ()

/-- Checks all rules, in the order in which they are reported. -/
def validate (c : Config) : Except ConfigError Unit :=
  if Text.trimmed c.serviceName = "" then .error .serviceNameEmpty
  else if c.spanLimit = 0 then .error .spanLimitZero
  else if c.correlationLimits.valueBytes = 0 then .error .valueBytesZero
  else checkSuffixes c.ignoreSuffixes

end Config

end TraceLink
