import TraceLink.Hop.Carrier
import TraceLink.Hop.Correlation
import TraceLink.Hop.Extension
import TraceLink.Text.Blank

/-! # Remote contexts

    The context of a trace that one process hands to the next. It fills the three
    headers of a carrier; the link header has eight fields separated by dashes:

    * `1` for a recorded trace, `0` for one that is ignored;
    * the trace id, the id of the parent segment, the id of the parent span;
    * the service, the instance and the endpoint of the parent, and the address
      under which it reaches this process.

    All but the first and the span id are texts in base64. Fields after the
    eighth are passed over, and an ignored trace is sent as the single field `0`.
    Reading never fails: a header that is not understood counts as absent. -/

namespace TraceLink

/-- **Remote context**: the parent of a segment in another process, and what
    travels with the trace. -/
structure RemoteContext where
  trace : String
  segment : String
  span : Int
  service : String
  instanceName : String
  endpoint : String
  address : String
  correlation : Correlation
  extension : Extension
  deriving Repr, DecidableEq

/-- **Inbound context**: what a carrier says about the trace. -/
inductive Inbound where
  /-- Nothing usable: a new trace begins here. -/
  | absent
  /-- The trace is not recorded. -/
  | ignored
  | remote (c : RemoteContext)
  deriving Repr, DecidableEq

namespace RemoteContext

/-! ### Sending -/

/-- The fields of the link header. -/
def linkFields (c : RemoteContext) : List (List Char) :=
  [['1'], Text.Base64.ofText c.trace, Text.Base64.ofText c.segment, Text.signed c.span,
    Text.Base64.ofText c.service, Text.Base64.ofText c.instanceName,
    Text.Base64.ofText c.endpoint, Text.Base64.ofText c.address]

/-- Fills every header of the carrier. -/
def inject (c : RemoteContext) (k : Carrier) : Carrier :=
  { k with
    link := some (String.ofList (Text.joined '-' c.linkFields))
    correlation := c.correlation.encode
    extension := some c.extension.encode }

/-- Fills the carrier for a trace that is not recorded. -/
def injectIgnored (k : Carrier) : Carrier :=
  { k with link := some "0", correlation := none, extension := none }

/-! ### Receiving -/

/-- Reads a text field. -/
def readField (s : List Char) : Except HeaderFault String :=
  match Text.Base64.toText s with
  | .ok t => .ok t
  | .error .notBase64 => .error .linkBase64
  | .error .notUtf8 => .error .linkUtf8

/-- Reads the span id, which is not negative. -/
def readSpan (s : List Char) : Except HeaderFault Int :=
  match (Text.readInt32 s).filter (0 ≤ ·) with
  | some n => .ok n
  | none => .error .spanId

/-- The ids that the link header begins with. -/
structure LinkIds where
  trace : String
  segment : String
  span : Int

/-- Reads the ids of the parent. -/
def readIds (trace segment span : List Char) : Except HeaderFault LinkIds := do
  let trace ← readField trace
  let segment ← readField segment
  if trace = "" ∨ segment = "" then throw .emptyIds
  let span ← readSpan span
  return ⟨trace, segment, span⟩

/-- Notes a fault and takes the context as absent. -/
def absentFor (f : HeaderFault) : Logged Inbound := do
  Logged.note (.headerFault f)
  return .absent

/-- Reads the fields after the sample flag. The other two headers are read as soon
    as the ids are understood, so their faults are noted even if a later field is
    not understood. -/
def readFields (limits : Correlation.Limits) (k : Carrier) :
    List (List Char) → Logged Inbound
  | trace :: segment :: span :: service :: instanceName :: endpoint :: address :: _ =>
    match readIds trace segment span with
    | .error f => absentFor f
    | .ok ids => do
      let correlation ← match k.correlation with
        | some header => (Correlation.empty limits).decode header
        | none => pure (Correlation.empty limits)
      let extension ← match k.extension with
        | some header => Extension.decode header
        | none => pure Extension.none
      let texts : Except HeaderFault RemoteContext := do
        return {
          trace := ids.trace
          segment := ids.segment
          span := ids.span
          service := ← readField service
          instanceName := ← readField instanceName
          endpoint := ← readField endpoint
          address := ← readField address
          correlation := correlation
          extension := extension }
      match texts with
      | .error f => absentFor f
      | .ok c => return .remote c
  | _ => absentFor .missingFields

/-- Reads the value of the link header. -/
def readLink (limits : Correlation.Limits) (k : Carrier) (link : String) : Logged Inbound :=
  match Text.cut '-' (Text.trim link.toList) with
  | (['0'], _) => pure .ignored
  | (['1'], rest) => readFields limits k rest
  | _ => absentFor .sampleFlag

/-- What the carrier says about the trace. Correlation entries are taken within the
    limits. -/
def extract (limits : Correlation.Limits) (k : Carrier) : Logged Inbound :=
  match k.link with
  | some link => readLink limits k link
  | none => pure .absent

end RemoteContext

end TraceLink
