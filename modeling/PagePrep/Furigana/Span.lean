import PagePrep.Failure

namespace PagePrep

-- A run of good lines. `stop` is the line that closed it: the bad line behind it, or the last line
-- of the page if the run reaches that far.
structure Span where
  start : UInt32
  stop  : UInt32
deriving DecidableEq, Repr

def Span.width (s : Span) : UInt32 :=
  s.stop - s.start + 1

-- Spans in the order of their lines, with room for a limited number of them.
structure SpanList where
  spans    : List Span
  capacity : Nat
deriving DecidableEq, Repr

namespace SpanList

-- An allocation has at most as many bytes as the largest signed word, and a span is two words of
-- four bytes each.
def maxBytes : Nat :=
  0x7fffffffffffffff

def spanBytes : Nat :=
  8

def Reservable (capacity : Nat) : Prop :=
  capacity * spanBytes ≤ maxBytes

instance (capacity : Nat) : Decidable (Reservable capacity) :=
  inferInstanceAs (Decidable (_ ≤ _))

-- The room for all spans is reserved before there is any.
def withCapacity (capacity : Nat) : Except Panic SpanList :=
  if Reservable capacity then .ok ⟨[], capacity⟩ else .error .capacityOverflow

def length (l : SpanList) : Nat :=
  l.spans.length

def isEmpty (l : SpanList) : Bool :=
  l.spans.isEmpty

def isFull (l : SpanList) : Bool :=
  l.capacity ≤ l.length

-- A full list drops the span.
def push (l : SpanList) (s : Span) : SpanList :=
  if l.isFull then l else { l with spans := l.spans ++ [s] }

theorem reservable_iff {capacity : Nat} : Reservable capacity ↔ capacity < 0x1000000000000000 := by
  unfold Reservable maxBytes spanBytes
  omega

theorem withCapacity_eq_ok {capacity : Nat} (h : Reservable capacity) :
    withCapacity capacity = .ok ⟨[], capacity⟩ :=
  if_pos h

theorem withCapacity_eq_error {capacity : Nat} (h : ¬Reservable capacity) :
    withCapacity capacity = .error .capacityOverflow :=
  if_neg h

theorem push_of_isFull {l : SpanList} (h : l.isFull) (s : Span) : l.push s = l :=
  if_pos h

theorem push_spans {l : SpanList} (h : ¬l.isFull) (s : Span) :
    (l.push s).spans = l.spans ++ [s] := by
  simp [push, h]

theorem push_capacity (l : SpanList) (s : Span) : (l.push s).capacity = l.capacity := by
  unfold push
  split <;> rfl

end SpanList

end PagePrep
