/-!
# Spans of a text

A span is a half-open range of byte offsets into a UTF-8 text. Merging two spans gives the smallest
span that covers both.
-/

namespace Precedence

/-- The bytes from `start` up to, but without, `stop`. -/
structure Span where
  start : Nat
  stop : Nat
  deriving DecidableEq, Inhabited

namespace Span

/-- The smallest span that covers both. -/
def merge (a b : Span) : Span :=
  ⟨min a.start b.start, max a.stop b.stop⟩

/-- The number of bytes covered. A span that ends before it starts covers none. -/
def length (s : Span) : Nat :=
  s.stop - s.start

def isEmpty (s : Span) : Bool :=
  s.length == 0

/-- The empty span at an offset. -/
def point (offset : Nat) : Span :=
  ⟨offset, offset⟩

/-- The span that covers all the given ones, if there are any. -/
def hull : List Span → Option Span
  | [] => none
  | s :: rest => some (rest.foldl merge s)

theorem merge_comm (a b : Span) : a.merge b = b.merge a := by
  simp [merge, Nat.min_comm, Nat.max_comm]

theorem merge_assoc (a b c : Span) : (a.merge b).merge c = a.merge (b.merge c) := by
  simp [merge, Nat.min_assoc, Nat.max_assoc]

@[simp] theorem merge_self (a : Span) : a.merge a = a := by
  simp [merge]

end Span

end Precedence
