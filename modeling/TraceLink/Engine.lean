import TraceLink.Strand

/-! # The engine

    A tracer and its strands as one transition system. A step takes the clock
    reading and an operation; it returns a reply, the segment that was handed to
    the reporter, if any, and the engine after it. A usage error is a reply, too, and
    comes with the engine that the failed operation leaves.

    Carriers, snapshots and async handles are values: they leave the engine in
    replies and come back in operations, of this engine or of another one. -/

namespace TraceLink

/-- **Engine**: a tracer and its strands. A strand is known by its place in the list,
    which stays empty after the strand has gone. -/
structure Engine where
  tracer : Tracer
  strands : List (Option Strand)
  deriving Repr, DecidableEq

/-! ### Operations and replies -/

/-- **Operation of a strand**. -/
inductive StrandOp where
  | entry (name : String) (carrier : Option Carrier)
  | entryFrom (name : String) (headers : Transport)
  | exit (name peer : String) (carrier : Option Carrier)
  | inner (name : String)
  | innerWith (name : String) (snapshot : Snapshot)
  /-- Stops the active span, which has to have the expected id if one is given. -/
  | stop (expected : Option Int)
  | capture
  | continued (snapshot : Snapshot)
  | discard
  | inject (carrier : Carrier)
  | extract (carrier : Carrier)
  | active
  | edit (edits : List Edit)
  | prepareAsync
  | putCorrelation (key value : String)
  | scratch (op : ScratchOp)
  | reset
  deriving Repr

/-- **Operation of the engine**. -/
inductive Op where
  | openStrand
  | closeStrand (k : Nat)
  | strand (k : Nat) (op : StrandOp)
  | handle (h : AsyncHandle) (op : HandleOp)
  | setSuffixes (value : Option String)
  | setRate (value : Option Int)
  | receive
  | closeReceiver
  deriving Repr

/-- **Reply** to an operation. -/
inductive Reply where
  | done
  | opened (k : Nat)
  | flag (b : Bool)
  | frame (f : Frame)
  | sent (f : Frame) (carrier : Option Carrier)
  | snapshot (s : Option Snapshot)
  | carrier (k : Carrier)
  | edited (answers : List EditAnswer) (f : Frame)
  | handle (h : AsyncHandle)
  | scratch (a : ScratchAnswer)
  | segment (g : Option Segment)
  | usage (e : UsageError)
  | refused (e : ConfigError)
  /-- There is no such strand. -/
  | missing

/-- **Outcome** of a step on a state of type `σ`. -/
structure Outcome (σ : Type) where
  reply : Reply
  /-- The segment handed to the reporter. -/
  handed : Option Segment
  state : σ

namespace Outcome

variable {σ τ : Type}

/-- An outcome in which no segment is handed over. -/
def of (reply : Reply) (state : σ) : Outcome σ := ⟨reply, none, state⟩

/-- The same outcome for another state. -/
def map (f : σ → τ) (o : Outcome σ) : Outcome τ := ⟨o.reply, o.handed, f o.state⟩

/-- The outcome of an attempt. One that fails is answered with its error, in the state
    that it leaves. -/
def ofAttempt {ε : Type} (answer : ε → Reply) (a : Attempt ε σ (Logged (Outcome σ))) :
    Logged (Outcome σ) :=
  match a with
  | .ok step => step
  | .error x => do
    let f ← x
    return of (answer f.error) f.state

end Outcome

/-! ### Steps -/

/-- Hands over the segment that is due at a site. -/
def Site.handOver (s : Site) (reply : Reply) (due : Option Segment) : Logged (Outcome Site) := do
  return ⟨reply, due, { s with tracer := ← s.tracer.reportDue due }⟩

/-- A step of a strand. -/
def Site.step (s : Site) (now : UInt64) : StrandOp → Logged (Outcome Site)
  | .entry name k => do
    let (f, s) ← s.entry name k now
    return .of (.frame f) s
  | .entryFrom name headers => do
    let (f, s) ← s.entryFrom name headers now
    return .of (.frame f) s
  | .exit name peer k => do
    let (f, k, s) ← s.exit name peer k now
    return .of (.sent f k) s
  | .inner name => do
    let (f, s) ← s.inner name now
    return .of (.frame f) s
  | .innerWith name snapshot => do
    let (f, s) ← s.innerWith name snapshot now
    return .of (.frame f) s
  | .stop expected =>
    Outcome.ofAttempt .usage <| (s.stop expected now).map fun step => do
      let (last, due, s) ← step
      s.handOver (.flag last) due
  | .capture => return .of (.snapshot s.capture) s
  | .continued snapshot => do return .of .done (← s.continued snapshot)
  | .discard => do
    let (found, s) ← s.discard
    return .of (.flag found) s
  | .inject k =>
    Outcome.ofAttempt .usage <| ((s.inject k now).within Prod.fst).map fun step => do
      return .of (.carrier (← step)) s
  | .extract k => do
    let inbound ← s.readCarrier k
    Outcome.ofAttempt .usage <| (s.receive inbound now).map fun step => do
      return .of (.flag true) (← step)
  | .active => Outcome.ofAttempt .usage <| s.activeFrame.map fun f => return .of (.frame f) s
  | .edit edits =>
    Outcome.ofAttempt .usage <| (s.edit edits now).map fun step => do
      let (answers, f, s) ← step
      return .of (.edited answers f) s
  | .prepareAsync =>
    Outcome.ofAttempt .usage <| s.prepareAsync.map fun (h, s) => return .of (.handle h) s
  | .putCorrelation key value => do
    let (stored, s) ← s.putCorrelation key value
    return .of (.flag stored) s
  | .scratch op =>
    let (a, scratch) := s.strand.scratch.apply op
    return .of (.scratch a) { s with strand := { s.strand with scratch } }
  | .reset => do return .of .done (← s.reset)

namespace Engine

/-- The engine of a tracer without strands. -/
def ofTracer (t : Tracer) : Engine := ⟨t, []⟩

/-- The strand at place `k`. -/
def strand? (e : Engine) (k : Nat) : Option Strand := (e.strands[k]?).join

/-- The site of the strand at place `k`. -/
def site? (e : Engine) (k : Nat) : Option Site := (e.strand? k).map (⟨e.tracer, ·⟩)

/-- The engine with another state of the site at place `k`. -/
def setSite (e : Engine) (k : Nat) (s : Site) : Engine :=
  ⟨s.tracer, e.strands.set k (some s.strand)⟩

/-- A new strand, which gets the next ordinal. -/
def openStrand (e : Engine) : Nat × Engine :=
  let (ordinal, ids) := e.tracer.ids.nextOrdinal
  (e.strands.length,
    ⟨{ e.tracer with ids }, e.strands ++ [some { ordinal := ordinal }]⟩)

/-- The strand at place `k` goes away. -/
def closeStrand (e : Engine) (k : Nat) : Logged Engine :=
  match e.site? k with
  | some s => do return ⟨← s.leave, e.strands.set k none⟩
  | none => return e

/-- A step of the engine at the given time. -/
def step (e : Engine) (now : UInt64) : Op → Logged (Outcome Engine)
  | .openStrand =>
    let (k, e) := e.openStrand
    return .of (.opened k) e
  | .closeStrand k => do return .of .done (← e.closeStrand k)
  | .strand k op =>
    match e.site? k with
    | some s => do return (← s.step now op).map (e.setSite k)
    | none => return .of .missing e
  | .handle h op => do
    let (due, tracer) ← e.tracer.handle h now op
    return ⟨.done, due, { e with tracer := ← tracer.reportDue due }⟩
  | .setSuffixes value =>
    Outcome.ofAttempt .refused <|
      ((e.tracer.setSuffixes value).within fun tracer => { e with tracer }).map fun step => do
        return .of .done { e with tracer := ← step }
  | .setRate value => do return .of .done { e with tracer := ← e.tracer.setRate value }
  | .receive =>
    let (g, reporter) := e.tracer.reporter.receive
    return .of (.segment g) { e with tracer := { e.tracer with reporter } }
  | .closeReceiver =>
    let reporter := e.tracer.reporter.closeReceiver
    return .of .done { e with tracer := { e.tracer with reporter } }

/-! ### Runs -/

/-- The engine after a list of timed operations. -/
def run (e : Engine) : List (UInt64 × Op) → Engine
  | [] => e
  | (now, op) :: ops => (e.step now op).value.state.run ops

/-- The segments handed to the reporter in a run, in order. -/
def handed (e : Engine) : List (UInt64 × Op) → List Segment
  | [] => []
  | (now, op) :: ops =>
    let o := (e.step now op).value
    o.handed.toList ++ o.state.handed ops

end Engine

end TraceLink
