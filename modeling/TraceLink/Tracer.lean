import TraceLink.Config
import TraceLink.Counters
import TraceLink.Identifier
import TraceLink.Ledger
import TraceLink.Reporter
import TraceLink.Sampling

/-! # Tracers

    What all strands of a process share: the configuration, the sampling gate, the
    source of ids, the counters, the ledgers of async spans, and the reporter. -/

namespace TraceLink

/-- **Tracer** of a process. -/
structure Tracer where
  config : Config
  gate : Gate
  ids : IdSource
  counters : Counters
  /-- The ledgers of all segments with async spans, in the order of their opening. -/
  ledgers : List Ledger
  reporter : Reporter
  deriving Repr, DecidableEq

namespace Tracer

/-- A tracer that starts now, in a process of the given name. -/
def start (config : Config) (reporter : Reporter) (process : String) (now : UInt64) : Tracer where
  config := config
  gate := ⟨.new config.sampleRate now, config.ignoreSuffixes⟩
  ids := .new process
  counters := {}
  ledgers := []
  reporter := reporter

/-- The reporter that passes segments through a channel of the configured size. -/
def channelReporter (config : Config) : Reporter := .ofBuffer config.segmentBuffer

/-! ### Settings that change while the tracer runs -/

/-- Sets the ignored suffixes from a comma list, or back to the configured ones. A
    list with an item that is no suffix is refused. -/
def setSuffixes (t : Tracer) (value : Option String) :
    Attempt ConfigError Tracer (Logged Tracer) := do
  let suffixes := match value with
    | some s => Text.commaList s
    | none => t.config.ignoreSuffixes
  (Config.checkSuffixes suffixes).mapError fun e => pure ⟨e, t⟩
  return do
    Logged.note (.suffixesUpdated suffixes)
    return { t with gate := { t.gate with suffixes } }

/-- Sets the sample rate, or back to the configured one. What was counted in the
    current window counts against the new rate. -/
def setRate (t : Tracer) (value : Option Int) : Logged Tracer := do
  let rate := value.getD t.config.sampleRate
  Logged.note (.rateUpdated rate)
  return { t with gate := { t.gate with window := { t.gate.window with rate } } }

/-! ### Segments -/

/-- Hands a finished segment to the reporter. -/
def report (t : Tracer) (g : Segment) : Logged Tracer := do
  Logged.note (.reporting g.id g.trace g.spans.length)
  return { t with reporter := ← t.reporter.deliver g }

/-- Hands over the segment that is due, if any. -/
def reportDue (t : Tracer) (due : Option Segment) : Logged Tracer :=
  match due with
  | some g => t.report g
  | none => return t

/-- The ledger with the given number. -/
def ledger (t : Tracer) (n : Nat) : Ledger := t.ledgers.getD n {}

/-- The tracer with another state of a ledger. -/
def setLedger (t : Tracer) (n : Nat) (l : Ledger) : Tracer :=
  { t with ledgers := t.ledgers.set n l }

/-- Opens a ledger; the answer is its number. -/
def openLedger (t : Tracer) : Nat × Tracer :=
  (t.ledgers.length, { t with ledgers := t.ledgers ++ [{}] })

/-- An operation of an async handle, with the segment that is due by it. -/
def handle (t : Tracer) (h : AsyncHandle) (now : UInt64) (op : HandleOp) :
    Logged (Option Segment × Tracer) :=
  match h with
  | .idle => return (none, t)
  | .span n id => do
    let (due, l) ← (t.ledger n).handle id now op
    return (due, t.setLedger n l)

end Tracer

end TraceLink
