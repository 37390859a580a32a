/-! # Spans of words -/

namespace ChartParser

/-- The words from `start` up to but not including `stop`. -/
structure Span where
  start : Nat
  stop : Nat
  deriving DecidableEq

namespace Span

/-- The span as two word positions. -/
def text (span : Span) : String := toString span.start ++ ".." ++ toString span.stop

/-- The span holds words of a sentence of `n` words. -/
def Within (n : Nat) (span : Span) : Prop := span.start < span.stop ∧ span.stop ≤ n

/-- The span is one word. -/
def isWord (span : Span) : Bool := span.stop == span.start + 1

/-- The positions that cut the span into two parts with words in both. -/
def cuts (span : Span) : List Nat := List.range' (span.start + 1) (span.stop - span.start - 1)

/-- The spans of `n` words: shorter spans first, and from left to right. -/
def all (n : Nat) : List Span :=
  (List.range n).flatMap fun k => (List.range (n - k)).map fun start => ⟨start, start + k + 1⟩

end Span

end ChartParser
