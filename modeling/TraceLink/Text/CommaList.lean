import TraceLink.Text.Blank
import TraceLink.Text.Fields

/-! # Comma lists

    Items separated by commas. White space around an item does not belong to it,
    and empty items are left out. -/

namespace TraceLink.Text

/-- The items of a comma list. -/
def commaList (s : String) : List String :=
  (((fields ',' s.toList).map trim).filter (· ≠ [])).map String.ofList

end TraceLink.Text
