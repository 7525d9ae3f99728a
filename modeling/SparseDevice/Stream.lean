/-!
# Streams

A stream is an execution queue of the device. Nothing but its number is known about it, and the
number serves only as a key: streams are compared, never computed with.
-/

namespace SparseDevice

/-- An execution queue of the device. -/
structure Stream where
  /-- The number that tells streams apart. -/
  number : Nat
deriving DecidableEq

namespace Stream

/-- The text under which messages name a stream. -/
def label (s : Stream) : String := s!"StreamId({s.number})"

/-- Streams in the order of their numbers. -/
def sort (streams : List Stream) : List Stream :=
  streams.mergeSort fun s t => decide (s.number ≤ t.number)

theorem sort_perm (streams : List Stream) : (sort streams).Perm streams :=
  List.mergeSort_perm streams _

end Stream

end SparseDevice
