/-!
# Places in a source text

A tree of declarations comes from an external parser, which knows where each node was written. A
`Span` keeps that place as a range of byte offsets and the one-based line the range starts on; a
line of zero means that the parser did not say. `Spanned` pairs a node with its place.
-/

namespace ComputeKernel

/-- A range of a source text. Nothing is promised about the order of the two offsets: spans are
taken over from the parser as they are. -/
structure Span where
  /-- Byte offset of the first byte. -/
  start : UInt32 := 0
  /-- Byte offset after the last byte. -/
  stop : UInt32 := 0
  /-- One-based line of `start`, or zero when it is unknown. -/
  line : UInt32 := 0
deriving DecidableEq, Repr, Inhabited

namespace Span

/-- A span that knows nothing but its line. -/
def atLine (line : UInt32) : Span := { line }

/-- The smallest range that covers both spans. It starts on the line of the one that starts first,
and of two that start together on the line of the first. -/
def merge (s t : Span) : Span where
  start := min s.start t.start
  stop := max s.stop t.stop
  line := if s.start ≤ t.start then s.line else t.line

/-- The line that is shown to users: an unknown line is shown as the first one. -/
def displayLine (s : Span) : UInt32 := max s.line 1

end Span

/-- A node together with its place. -/
structure Spanned (α : Type) where
  node : α
  span : Span := {}
deriving Repr, Inhabited

namespace Spanned

variable {α β : Type}

/-- Change the node and keep its place. -/
def map (f : α → β) (s : Spanned α) : Spanned β where
  node := f s.node
  span := s.span

/-- Move the node to another line; the offsets stay. -/
def onLine (s : Spanned α) (line : UInt32) : Spanned α :=
  { s with span := { s.span with line } }

end Spanned

end ComputeKernel
