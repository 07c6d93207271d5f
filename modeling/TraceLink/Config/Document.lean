import TraceLink.Config
import TraceLink.Logged

/-! # Configuration documents

    A configuration is read from a JSON object by the names of its fields, or from
    a JSON array in the order of the fields. What is missing has its default, and
    an unknown name is passed over.

    Texts and numbers have to be of the right kind and size, else there is no
    configuration. The comma lists and the log level are lenient: what is not
    understood is noted and taken as an empty list or as `warn`. -/

namespace TraceLink.Config

/-- **Field** of the configuration. -/
inductive Field where
  | serviceName
  | instanceName
  | label
  | sampleRate
  | spanLimit
  | ignoreSuffixes
  | correlationEntries
  | correlationValueBytes
  | autoTagKeys
  | logLevel
  | segmentBuffer
  deriving Repr, DecidableEq

namespace Field

/-- All fields, in order. -/
def all : List Field :=
  [serviceName, instanceName, label, sampleRate, spanLimit, ignoreSuffixes,
    correlationEntries, correlationValueBytes, autoTagKeys, logLevel, segmentBuffer]

/-- The name of the field in a document. -/
def name : Field → String
  | serviceName => "service_name"
  | instanceName => "instance_name"
  | label => "namespace"
  | sampleRate => "sample_n_per_3_secs"
  | spanLimit => "span_limit_per_segment"
  | ignoreSuffixes => "ignore_suffix"
  | correlationEntries => "correlation_element_max_number"
  | correlationValueBytes => "correlation_value_max_length"
  | autoTagKeys => "correlation_auto_tag_keys"
  | logLevel => "log_level"
  | segmentBuffer => "segment_buffer_size"

/-- The field with the given name. -/
def ofName? (s : String) : Option Field := all.find? (·.name == s)

end Field

/-! ### Values -/

/-- A number without sign that fits into 64 bits. -/
def natural? : Json → Option Nat
  | .integer n => if 0 ≤ n ∧ n < UInt64.size then some n.toNat else none
  | _ => none

/-- A number with sign that fits into 32 bits. -/
def integer32? : Json → Option Int
  | .integer n => if -0x80000000 ≤ n ∧ n < 0x80000000 then some n else none
  | _ => none

/-- A text or null. -/
def optionalText? : Json → Option (Option String)
  | .null => some none
  | .text s => some (some s)
  | _ => none

/-- A comma list: one text, or an array of texts, each of which is a comma list. -/
def listOf : Json → Logged (List String)
  | .text s => return Text.commaList s
  | .array items => return (items.filterMap Json.text?).flatMap Text.commaList
  | .null => return []
  | other => do
    Logged.note (.listExpected other)
    return []

/-- A log level by its name. -/
def levelOf : Json → Logged Severity
  | .text s =>
    match Severity.read? s with
    | some level => return level
    | none => do
      Logged.note (.levelUnknown s)
      return .warn
  | other => do
    Logged.note (.levelNotText other)
    return .warn

/-! ### Documents -/

/-- The configuration with one field read from a value. -/
def readField (c : Config) (f : Field) (v : Json) : Logged (Option Config) :=
  match f with
  | .serviceName => return v.text?.map fun s => { c with serviceName := s }
  | .instanceName => return v.text?.map fun s => { c with instanceName := s }
  | .label => return (optionalText? v).map fun l => { c with label := l }
  | .sampleRate => return (integer32? v).map fun n => { c with sampleRate := n }
  | .spanLimit => return (natural? v).map fun n => { c with spanLimit := n }
  | .ignoreSuffixes => do return some { c with ignoreSuffixes := ← listOf v }
  | .correlationEntries =>
    return (natural? v).map fun n =>
      { c with correlationLimits := { c.correlationLimits with entries := n } }
  | .correlationValueBytes =>
    return (natural? v).map fun n =>
      { c with correlationLimits := { c.correlationLimits with valueBytes := n } }
  | .autoTagKeys => do return some { c with autoTagKeys := ← listOf v }
  | .logLevel => do return some { c with logLevel := ← levelOf v }
  | .segmentBuffer => return (natural? v).map fun n => { c with segmentBuffer := n }

/-- Reads fields in order and stops at the first that cannot be read. -/
def readFields (c : Config) : List (Field × Json) → Logged (Option Config)
  | [] => return some c
  | (f, v) :: rest => do
    match ← readField c f v with
    | some c => readFields c rest
    | none => return none

/-- The configuration in a document; null stands for the defaults. An array must
    not hold more values than there are fields. -/
def ofDocument (defaults : Config) : Json → Logged (Option Config)
  | .null => return some defaults
  | .object entries =>
    defaults.readFields (entries.filterMap fun (k, v) => (Field.ofName? k).map (·, v))
  | .array items => do
    let c ← defaults.readFields (Field.all.zip items)
    return if items.length ≤ Field.all.length then c else none
  | _ => return none

end TraceLink.Config
