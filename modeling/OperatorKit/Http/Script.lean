import OperatorKit.Http.Exchange

/-!
# Scripted servers

A server that answers from a script, its answers in rotation, and keeps every
message that it receives. It stands in for a real one when a load test is
rehearsed.
-/

namespace OperatorKit.Http

/-- An answer of a scripted server. -/
inductive Answer where
  /-- A response with a status and a few words. -/
  | status (code : Nat)
  /-- These bytes, and then the end of the connection. -/
  | bytes (bytes : List UInt8)
  /-- Nothing at all, and no end of the connection. -/
  | silence
  deriving Repr

/-- The bytes of an answer, if the connection ends behind it. -/
def Answer.sent? : Answer → Option (List UInt8)
  | .status code =>
    some (Text.bytes ("HTTP/1.1 " ++ Decimal.text code ++
      " Scripted\r\nContent-Length: 4\r\nConnection: close\r\n\r\nDone"))
  | .bytes bs    => some bs
  | .silence     => none

/-- A scripted server. It may have more than one host. -/
structure Script where
  hosts : List Host
  port : Nat
  answers : List Answer
  /-- The message, counted from one, that gets no answer whatever the script says. -/
  silentAt : Option Nat
  received : List Message

namespace Script

/-- The answer to the `n`-th message, counted from zero. -/
def answer (s : Script) (n : Nat) : Answer :=
  if s.silentAt = some (n + 1) then .silence
  else (s.answers[n % s.answers.length]?).getD .silence

/-- Messages to other servers get lost. -/
def serve : Serve (StateM Script) := fun m s =>
  if m.url.host ∈ s.hosts ∧ m.url.port = s.port ∧ m.url.secure = false then
    let after := { s with received := s.received ++ [m] }
    match (s.answer s.received.length).sent? with
    | some bytes => (.ok bytes, after)
    | none       => (.error .silence, after)
  else (.error .unreachable, s)

end Script
end OperatorKit.Http
