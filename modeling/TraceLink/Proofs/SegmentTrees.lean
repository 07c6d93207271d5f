import Mathlib.Algebra.Group.Nat.Defs
import TraceLink.Proofs.Chronicle

/-! # Reported segments are trees

    Whatever the strands of a tracer do, in whatever order, and whenever the handles
    of async spans finish: a segment that is handed to the reporter holds the spans
    that were opened in it, up to the span limit, each of them once and closed, in
    one tree below the span that was opened first. -/

namespace TraceLink

namespace Engine

/-- **Segments are trees**: every segment that is handed over in a run is the report of
    a life, and every report of a life is a tree of the spans that were opened in it. -/
theorem segments_are_trees (config : Config) (reporter : Reporter) (process : String)
    (start : UInt64) (hpos : 1 ≤ config.spanLimit) (hlimit : config.spanLimit < 2 ^ 31)
    (ops : List (UInt64 × Op)) :
    let e := ofTracer (.start config reporter process start)
    (∀ g ∈ e.handed ops, ∃ l ∈ e.lives ops, g ∈ l.reports) ∧
    ∀ l ∈ e.lives ops, ∀ g ∈ l.reports,
      g.id = l.segment ∧ g.IsTree config.spanLimit l.openings := by
  intro e
  obtain ⟨htells, hreports⟩ := (tells_start config reporter process start).run ops
  have hcapacity : config.capacity = config.spanLimit := Nat.min_eq_left (Nat.le_of_lt hlimit)
  rw [hcapacity] at htells
  refine ⟨fun g hg => ?_, fun l hl g hg => ?_⟩
  · exact List.mem_flatMap.mp (hreports.mem_iff.mpr hg)
  · obtain ⟨-, -, hid, htree⟩ := (htells.status l hl).of_mem_reports hg
    exact ⟨hid, htree hpos⟩

/-- A configuration in which a segment has room for two spans. -/
def narrow : Config := { Config.standard "i" with spanLimit := 2 }

/-- A strand on which three spans are opened and stopped, the second of them async. -/
def narrowRun : List (UInt64 × Op) :=
  [(0, .openStrand), (1, .strand 0 (.inner "a")), (2, .strand 0 (.inner "b")),
    (3, .strand 0 .prepareAsync), (4, .strand 0 (.inner "c")), (5, .strand 0 (.stop none)),
    (6, .strand 0 (.stop none)), (7, .strand 0 (.stop none)),
    (8, .handle (.span 0 1) (.finish none))]

theorem segments_are_trees_narrow :
    (1 ≤ narrow.spanLimit ∧ narrow.spanLimit < 2 ^ 31) ∧
    ((ofTracer (.start narrow .collecting "p" 0)).handed narrowRun).map
      (fun g => (g.spans.map Span.id, g.sizeLimited)) = [([0, 1], true)] ∧
    ∀ l ∈ (ofTracer (.start narrow .collecting "p" 0)).lives narrowRun, ∀ g ∈ l.reports,
      g.id = l.segment ∧ g.IsTree narrow.spanLimit l.openings :=
  ⟨⟨by decide, by decide⟩, by decide +kernel,
    (segments_are_trees narrow .collecting "p" 0 (by decide) (by decide) narrowRun).2⟩

end Engine

end TraceLink
