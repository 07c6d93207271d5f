import TraceLink.Json
import TraceLink.Diagnostic

/-! # Carriers and transports

    A carrier holds the header values of one hop. It is filled where a message is
    sent, written into the headers of the message, read back from them where the
    message arrives, and taken apart there.

    Header names may have a label before them, which keeps apart the headers of
    engines that share a transport. Names are matched without regard to the case
    of ASCII letters; they are written in lower case. -/

namespace TraceLink

/-! ### Transports -/

/-- **Transport** of message headers: a table of texts, or a JSON document. -/
inductive Transport where
  | table (entries : Entries String String)
  | document (doc : Json)
  deriving Repr

namespace Transport

/-- The entry with the given name: the one with exactly this name if there is one,
    else the first whose name differs in the case of ASCII letters only. -/
def findEntry {α : Type} (es : Entries String α) (name : String) : Option α :=
  match es.get? name with
  | some v => some v
  | none => (es.find? fun e => Text.sameIgnoringAsciiCase e.1 name).map Prod.snd

/-- The header value under a name. In a document only texts are header values. -/
def get? (t : Transport) (name : String) : Option String :=
  match t with
  | table es => findEntry es name
  | document (.object es) => (findEntry es name).bind Json.text?
  | document _ => none

/-- Writes a header value under a name in lower case. A document that is not an
    object has no headers and stays as it is. -/
def put (t : Transport) (name value : String) : Transport :=
  match t with
  | table es => table (es.put (Text.lowercased name) value)
  | document (.object es) =>
    document (.object (Entries.putSorted (Text.lowercased name) (.text value) es))
  | document doc => document doc

end Transport

/-! ### Carriers -/

/-- All headers, in the order in which they are written. -/
def Header.all : List Header := [.link, .correlation, .extension]

/-- The name of a header under a label; the empty label is no label. -/
def Header.name (label : String) (h : Header) : String :=
  if label = "" then h.baseName else label ++ "-" ++ h.baseName

/-- **Carrier** of the header values of one hop. -/
structure Carrier where
  /-- The label of the header names, empty for none. -/
  label : String
  link : Option String
  correlation : Option String
  extension : Option String
  deriving Repr, DecidableEq

namespace Carrier

/-- A carrier without values. -/
def empty (label : String) : Carrier := ⟨label, none, none, none⟩

/-- The value of a header. -/
def get? (c : Carrier) : Header → Option String
  | .link => c.link
  | .correlation => c.correlation
  | .extension => c.extension

/-- The carrier with another value for a header. -/
def set (c : Carrier) (h : Header) (value : Option String) : Carrier :=
  match h with
  | .link => { c with link := value }
  | .correlation => { c with correlation := value }
  | .extension => { c with extension := value }

/-- No header has a value. -/
def isEmpty (c : Carrier) : Bool :=
  c.link.isNone && c.correlation.isNone && c.extension.isNone

/-- The headers with a value, by name, in order. -/
def items (c : Carrier) : List (String × String) :=
  Header.all.filterMap fun h => (c.get? h).map fun v => (h.name c.label, v)

/-- The header with the given name under a label. -/
def header? (label name : String) : Option Header :=
  Header.all.find? fun h => Text.sameIgnoringAsciiCase (h.name label) name

/-- Takes over one message header; an unknown name is passed over. -/
def offer (c : Carrier) (name value : String) : Carrier :=
  match header? c.label name with
  | some h => c.set h (some value)
  | none => c

/-- The carrier with the values found in a transport. -/
def readFrom (t : Transport) (label : String) : Carrier :=
  Header.all.foldl
    (fun c h =>
      match t.get? (h.name label) with
      | some v => c.set h (some v)
      | none => c)
    (empty label)

/-- The transport with the carrier's values in it. -/
def writeTo (c : Carrier) (t : Transport) : Transport :=
  c.items.foldl (fun t item => t.put item.1 item.2) t

end Carrier

end TraceLink
