import OperatorKit.Http.Response

/-!
# Exchanges

An exchange sends a message, reads the response, and goes where it points to, as
long as there are not too many redirections. A message that is sent on has no
body any more. One with a body for the server to keep is sent on as a question,
or not at all if the response demands the same method. A fault on the way leaves
the exchange without a reply.
-/

namespace OperatorKit.Http

/-- A way to the servers: the bytes that come back for a message until the
connection is closed, or why there are none. -/
abbrev Serve (m : Type → Type) : Type := Message → m (Except Loss (List UInt8))

/-- The redirections that are followed. -/
abbrev mostRedirections : Nat := 4

/-- Whether a status lets a message go on, and with which method. -/
def redirectedMethod? (status : Nat) (m : Method) : Option Method :=
  if status = 301 ∨ status = 302 ∨ status = 303 then some .get
  else if status = 307 ∨ status = 308 then
    match m with
    | .get  => some .get
    | .post => none
  else none

/-- How an exchange goes on after a response. -/
inductive Course where
  /-- It is over. -/
  | over (reply : Reply)
  /-- Another message goes out. -/
  | onward (message : Message)
  deriving DecidableEq, Repr

/-- Send the message on to a place. A place outside of the web needs a host, too. -/
def sendOn (m : Message) (method : Method) : Place → Except Fault Course
  | .web url          => .ok (.onward { m with method, url, body := "" })
  | .elsewhere hosted => if hosted then .ok (.over (.lost .outside)) else .error .missingValue

/-- Go where a redirection points to. The location has to be an address even if the
message stays. -/
def redirect (m : Message) (r : Response) : Except Fault Course := do
  match ← r.value? "location" with
  | none          => return .over (.status r.status)
  | some location =>
    match Place.ofText? (some m.url) location, redirectedMethod? r.status m.method with
    | none,       _           => return .over (.lost .badAddress)
    | some _,     none        => return .over (.status r.status)
    | some place, some method => sendOn m method place

/-- Send a message and follow up to `hops` redirections. -/
def exchange {m : Type → Type} [Monad m] (serve : Serve m) (hops : Nat) (message : Message) :
    ExceptT Fault m Reply := do
  match ← serve message with
  | .error loss => return .lost loss
  | .ok bytes   =>
    match Response.ofBytes bytes with
    | .error loss => return .lost loss
    | .ok r       =>
      liftExcept r.announcement
      if r.isRedirection then
        match hops with
        | 0        => return .lost .tooManyRedirections
        | hops + 1 =>
          match ← liftExcept (redirect message r) with
          | .over reply     => return reply
          | .onward message => exchange serve hops message
      else return .status r.status

end OperatorKit.Http
