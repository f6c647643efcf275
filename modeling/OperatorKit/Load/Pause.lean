import OperatorKit.Random.Draw
import OperatorKit.Span.Rounded

/-!
# Pauses

A user of a load test pauses between two tasks for a random span, every span
between a shortest and a longest one being equally likely. Depending on how far
the two are apart, a span is drawn as nanoseconds of one second, as nanoseconds
in 64 bits, or as seconds and nanoseconds of their own.
-/

namespace OperatorKit.Load

open OperatorKit.Random

/-- The spans that a pause can have. -/
structure PauseRange where
  shortest : Span
  longest : Span
  ordered : shortest ≤ longest
  deriving DecidableEq, Repr

namespace PauseRange

/-- The range from `min` to `max` seconds, if both are spans and in order. -/
def ofSeconds? (min max : Float) : Option PauseRange :=
  match Span.ofFloat? min, Span.ofFloat? max with
  | some lo, some hi => if h : lo ≤ hi then some ⟨lo, hi, h⟩ else none
  | _, _             => none

/-- How the spans of a range are drawn. -/
inductive Mode where
  /-- The same whole seconds: nanoseconds from `low` to `high` are added to them. -/
  | subsecond (seconds low high : Nat)
  /-- All nanoseconds at once, in 64 bits. -/
  | nanos (low high : Nat)
  /-- Seconds from `low` to `high` and, apart, nanoseconds from `offset` on; with
  the highest second no more than `room` beyond the offset. -/
  | seconds (low high offset room : Nat)
  deriving DecidableEq, Repr

/-- The mode of a range. If the upper end has fewer nanoseconds beyond its
seconds than the lower end, it takes them from its last second. -/
def mode (r : PauseRange) : Mode :=
  let (hs, hn) :=
    if r.longest.subsecond < r.shortest.subsecond then
      (r.longest.seconds - 1, r.longest.subsecond + nanosPerSecond)
    else (r.longest.seconds, r.longest.subsecond)
  if r.shortest.seconds = hs then .subsecond r.shortest.seconds r.shortest.subsecond hn
  else if hs * nanosPerSecond + hn < 2 ^ 64 then
    .nanos (r.shortest.seconds * nanosPerSecond + r.shortest.subsecond) (hs * nanosPerSecond + hn)
  else .seconds r.shortest.seconds hs r.shortest.subsecond (hn - r.shortest.subsecond)

/-- The span of whole seconds and any number of nanoseconds. -/
def spanOf (seconds nanos : Nat) : Except Fault Span :=
  match Span.ofNanos? (nanosPerSecond * seconds + nanos) with
  | some s => .ok s
  | none   => .error .spanOverflow

/-- Whether a pair of seconds and nanoseconds stays below the upper end. -/
def fits (high room s n : Nat) : Bool := !(s == high && n > room)

/-- Draw seconds and nanoseconds until they stay below the upper end. The draws
are bounded by the words that are left. -/
def drawPair (low high room : Nat) : Nat → Draw (Nat × Nat)
  | 0,        _     => .error .starved
  | tries + 1, words =>
    match between64 low high words with
    | .error e     => .error e
    | .ok (s, words) =>
      match between32 0 (nanosPerSecond - 1) words with
      | .error e     => .error e
      | .ok (n, words) =>
        if fits high room s n then .ok ((s, n), words) else drawPair low high room tries words

/-- Draw seconds and the nanoseconds to add to them. -/
def Mode.draw : Mode → Draw (Nat × Nat)
  | .subsecond s low high, words =>
    match between32 low high words with
    | .error e       => .error e
    | .ok (n, words) => .ok ((s, n), words)
  | .nanos low high, words =>
    match between64 low high words with
    | .error e       => .error e
    | .ok (n, words) => .ok ((0, n), words)
  | .seconds low high offset room, words =>
    match drawPair low high room words.length words with
    | .error e            => .error e
    | .ok ((s, n), words) => .ok ((s, offset + n), words)

/-- Draw a pause. A range of a single span needs no random words. -/
def draw (r : PauseRange) : Draw Span := fun words =>
  if r.shortest = r.longest then .ok (r.shortest, words)
  else
    match r.mode.draw words with
    | .error e            => .error e
    | .ok ((s, n), words) =>
      match spanOf s n with
      | .error e => .error e
      | .ok span => .ok (span, words)

/-- Draw a number of pauses, one after the other. -/
def drawMany (r : PauseRange) : Nat → Draw (List Span)
  | 0,     words => .ok ([], words)
  | n + 1, words =>
    match r.draw words with
    | .error e       => .error e
    | .ok (s, words) =>
      match drawMany r n words with
      | .error e        => .error e
      | .ok (ss, words) => .ok (s :: ss, words)

end PauseRange
end OperatorKit.Load
