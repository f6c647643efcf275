import OperatorKit.Decimal.Natural
import OperatorKit.Fault

/-!
# Spans of time

A span is a whole number of nanoseconds whose seconds fit in 64 bits. The
bound is part of the type, so that what can go wrong with a span goes wrong
where the span is made: sums and conversions are partial, comparisons are not.
-/

namespace OperatorKit

/-- Nanoseconds in one second. -/
abbrev nanosPerSecond : Nat := 1000000000

/-- The first number of nanoseconds that no span has: 2^64 seconds. -/
abbrev Span.limit : Nat := 2 ^ 64 * nanosPerSecond

/-- A span of time, to the nanosecond. -/
structure Span where
  nanos : Nat
  nanos_lt : nanos < Span.limit
  deriving DecidableEq, Repr

namespace Span

/-- The whole seconds of a span. -/
def seconds (s : Span) : Nat := s.nanos / nanosPerSecond

/-- What a span has beyond its whole seconds, in nanoseconds. -/
def subsecond (s : Span) : Nat := s.nanos % nanosPerSecond

/-- The whole milliseconds of a span. -/
def milliseconds (s : Span) : Nat := s.nanos / 1000000

/-- The span of `n` nanoseconds, if there is one. -/
def ofNanos? (n : Nat) : Option Span :=
  if h : n < limit then some ⟨n, h⟩ else none

/-- The span of `n` seconds, if there is one. -/
def ofSeconds? (n : Nat) : Option Span := ofNanos? (nanosPerSecond * n)

/-- The span of a number of seconds in 64 bits, which there always is. -/
def ofWord (n : UInt64) : Span :=
  ⟨n.toNat * nanosPerSecond, by have := n.toNat_lt; simp only [limit, nanosPerSecond]; omega⟩

/-- The empty span. -/
def zero : Span := ⟨0, by decide⟩

/-- The longest span. -/
def longest : Span := ⟨limit - 1, by decide⟩

instance : LE Span := ⟨fun s t => s.nanos ≤ t.nanos⟩
instance : LT Span := ⟨fun s t => s.nanos < t.nanos⟩
instance (s t : Span) : Decidable (s ≤ t) := Nat.decLe _ _
instance (s t : Span) : Decidable (s < t) := Nat.decLt _ _

/-- The shorter of two spans. -/
def min (s t : Span) : Span := if s ≤ t then s else t

/-- The longer of two spans. -/
def max (s t : Span) : Span := if s ≤ t then t else s

/-- The sum of two spans; a fault if it is no span. -/
def add (s t : Span) : Except Fault Span :=
  match ofNanos? (s.nanos + t.nanos) with
  | some u => .ok u
  | none   => .error .spanOverflow

/-- One `k`-th of a span, rounded down to the nanosecond. -/
def divide (s : Span) (k : Nat) : Except Fault Span :=
  if k = 0 then .error .spanOverZero
  else .ok ⟨s.nanos / k, Nat.lt_of_le_of_lt (Nat.div_le_self _ _) s.nanos_lt⟩

/-! ## Text -/

/-- Seconds with all nine places, such as `10.500000000`. -/
def fixedText (s : Span) : String :=
  Decimal.text s.seconds ++ "." ++ String.ofList (Decimal.padded 9 s.subsecond)

/-- A whole part and `part` of `10 ^ places` behind the point, without trailing
zeros, and without the point if nothing stands behind it. -/
def trimmedText (whole part places : Nat) : String :=
  let fraction := ((Decimal.padded places part).reverse.dropWhile (· == '0')).reverse
  if part = 0 then Decimal.text whole else Decimal.text whole ++ "." ++ String.ofList fraction

/-- A span in the largest unit of which it has at least one, such as `10.5s`,
`500ms`, `2µs` or `7ns`. -/
def shortText (s : Span) : String :=
  if s.nanos ≥ nanosPerSecond then trimmedText s.seconds s.subsecond 9 ++ "s"
  else if s.nanos ≥ 1000000 then trimmedText (s.nanos / 1000000) (s.nanos % 1000000) 6 ++ "ms"
  else if s.nanos ≥ 1000 then trimmedText (s.nanos / 1000) (s.nanos % 1000) 3 ++ "µs"
  else Decimal.text s.nanos ++ "ns"

/-! ## Laws -/

@[simp] theorem le_def {s t : Span} : s ≤ t ↔ s.nanos ≤ t.nanos := Iff.rfl
@[simp] theorem lt_def {s t : Span} : s < t ↔ s.nanos < t.nanos := Iff.rfl

@[ext] theorem ext {s t : Span} (h : s.nanos = t.nanos) : s = t := by
  cases s; cases t; cases h; rfl

theorem ofNanos?_eq_some {n : Nat} {s : Span} : ofNanos? n = some s ↔ n = s.nanos := by
  constructor
  · intro h
    simp only [ofNanos?] at h
    split at h
    · cases h; rfl
    · cases h
  · intro h
    simp [ofNanos?, h, s.nanos_lt]

theorem nanos_eq (s : Span) : s.nanos = s.seconds * nanosPerSecond + s.subsecond :=
  (Nat.div_add_mod' _ _).symm

theorem subsecond_lt (s : Span) : s.subsecond < nanosPerSecond :=
  Nat.mod_lt _ (by decide)

theorem seconds_lt (s : Span) : s.seconds < 2 ^ 64 :=
  (Nat.div_lt_iff_lt_mul (by decide)).mpr s.nanos_lt

end Span
end OperatorKit
