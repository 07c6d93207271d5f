import TraceLink.Diagnostic.Directive

/-! # Filters

    A filter is a list of directives. A diagnostic passes in one of two ways:

    * of the static directives that speak of its origin, the most specific one
      admits its severity;
    * it happens within a scope to which a scoped directive gives a threshold
      that admits its severity.

    Where no directive speaks of it, nothing passes. The scopes themselves are of
    severity `info` and of no origin. They are shown if they pass, and in any case
    if a scoped directive watches them. -/

namespace TraceLink

/-- **Filter** of diagnostics. -/
structure Filter where
  directives : List Directive
  deriving Repr, DecidableEq

namespace Filter

/-- Lets through what is at least as severe as `s`. -/
def atLeast (s : Severity) : Filter := ⟨[⟨"", ⟨none, none⟩, some s⟩]⟩

/-- Reads a comma list of directives; what is not understood is left out. Where
    nothing is left, `fallback` is the threshold for all origins. -/
def read (s : String) (fallback : Severity) : Filter :=
  let directives := (Text.fields ',' s.toList).filterMap Directive.read?
  if directives.isEmpty then atLeast fallback else ⟨directives⟩

/-! ### Static directives -/

/-- The most specific of some directives, of equal ones the last. -/
def foremost? (ds : List Directive) : Option Directive :=
  ds.foldl
    (fun best d =>
      match best with
      | some b => if b.outranks d then some b else some d
      | none => some d)
    none

/-- The static directive that decides about a diagnostic from an origin. Its only
    field is its message. -/
def directiveFor? (f : Filter) (origin : String) : Option Directive :=
  foremost? (f.directives.filter fun d =>
    d.isStatic && d.covers origin && (d.scope.field.all fun p => p.name == "message"))

/-- Something of severity `s` passes from an origin, in whatever scope. -/
def passes (f : Filter) (origin : String) (s : Severity) : Bool :=
  (f.directiveFor? origin).any (·.threshold.admits s)

/-- The scopes pass by a static directive. -/
def showsScopes (f : Filter) : Bool :=
  (foremost? (f.directives.filter fun d => d.isStatic && d.covers "")).any
    (·.threshold.admits .info)

/-! ### Scoped directives -/

/-- The widest threshold of all directives. Where a directive asks for the value of
    a field, everything has to be looked at. -/
def widest (f : Filter) : Threshold :=
  if f.directives.any fun d => d.scope.field.any fun p => p.value.isSome then some .trace
  else f.directives.foldl (fun t d => t.wider d.threshold) none

/-- The threshold within a scope, if a scoped directive watches it. -/
def within? (f : Filter) (s : Scope) : Option Threshold :=
  let watching := f.directives.filter fun d => d.isScoped && d.covers "" && d.scope.fits s
  if watching.isEmpty then none
  else some ((watching.filter (·.scope.holds s)).foldl (fun t d => t.wider d.threshold) none)

/-- **Surroundings** of a diagnostic: the scopes that are shown, and the threshold
    within them. -/
structure Surroundings where
  scopes : List Scope := []
  threshold : Threshold := none

/-- The surroundings after one more scope is entered. -/
def enter (f : Filter) (r : Surroundings) (s : Scope) : Surroundings :=
  match f.within? s with
  | some t => ⟨r.scopes ++ [s], r.threshold.wider t⟩
  | none =>
    if f.showsScopes || r.threshold.admits .info then { r with scopes := r.scopes ++ [s] } else r

/-- The surroundings within some scopes, outermost first. -/
def surroundings (f : Filter) (scopes : List Scope) : Surroundings :=
  if f.widest.admits .info then scopes.foldl f.enter {} else {}

/-! ### Lines -/

/-- The log lines of the diagnostics that pass, within the scopes that are shown. -/
def lines (f : Filter) (scopes : List Scope) (ds : List Diagnostic) : List String :=
  let r := f.surroundings scopes
  (ds.filter fun d => f.passes d.origin d.severity || r.threshold.admits d.severity).map
    (Diagnostic.line r.scopes)

end Filter

/-- **Log sink** of the process: the filter it was installed with, if it was. -/
structure LogSink where
  filter : Option Filter := none
  deriving Repr, DecidableEq

namespace LogSink

/-- Installs a filter; the answer tells whether none was installed before. -/
def install (sink : LogSink) (f : Filter) : Bool × LogSink :=
  match sink.filter with
  | some _ => (false, sink)
  | none => (true, ⟨some f⟩)

/-- The lines that the sink writes, none before it is installed. -/
def lines (sink : LogSink) (scopes : List Scope) (ds : List Diagnostic) : List String :=
  match sink.filter with
  | some f => f.lines scopes ds
  | none => []

end LogSink

end TraceLink
