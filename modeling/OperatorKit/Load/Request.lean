import OperatorKit.Http.Exchange
import OperatorKit.Json.Value
import OperatorKit.Span
import OperatorKit.Text.Blank

/-!
# Requests and outcomes

What a user of a load test sends to a webhook and what comes back. Every
request has a JSON body, whatever its method. An outcome has a status if there
was any response. It has an error if there was none, or one with a status of 400
and more.
-/

namespace OperatorKit.Load

open Http (Method Reply)

/-- One request of a task. -/
structure Request where
  method : Method
  path : String
  body : Json.Value
  deriving Repr

/-- The path of a webhook. -/
def webhookPath (id : String) : String := "/webhook/" ++ id

/-- Host and path with exactly one slash between them. -/
def joinUrl (host path : String) : String :=
  String.ofList (Text.dropTrailing '/' host.toList ++ '/' :: path.toList.dropWhile (· == '/'))

/-- The message that a request is on the wire, if there is such a host. -/
def Request.message? (host : String) (r : Request) : Option Http.Message :=
  (Http.Url.ofText? (joinUrl host r.path)).map fun url =>
    { method := r.method, url, contentType := Http.jsonType, body := r.body.text }

/-- What became of a request. -/
structure Outcome where
  /-- The status of the response, if there was one. -/
  status : Option Nat
  elapsed : Span
  error : Option String
  deriving DecidableEq, Repr

/-- A status from 200 to 399 is a success. -/
def isSuccess : Option Nat → Bool
  | some s => decide (200 ≤ s ∧ s < 400)
  | none   => false

/-- The request was answered with a success. -/
def Outcome.succeeded (o : Outcome) : Bool := isSuccess o.status

/-- The outcome of a reply. A status of 400 and more is an error. -/
def Outcome.ofReply (elapsed : Span) : Reply → Outcome
  | .status code =>
    ⟨some code, elapsed, if code ≥ 400 then some ("HTTP " ++ Decimal.text code) else none⟩
  | .lost loss   => ⟨none, elapsed, some loss.message⟩

/-- Send a request to a host and wait for the end of the exchange. -/
def Request.send {m : Type → Type} [Monad m] (serve : Http.Serve m) (host : String) (r : Request) :
    ExceptT Fault m Reply :=
  match r.message? host with
  | none         => pure (.lost .badAddress)
  | some message => Http.exchange serve Http.mostRedirections message

end OperatorKit.Load
