import OperatorKit.Http.Url

/-!
# Messages

What goes to a web server, and how an exchange with it ends: with the status of a
response, or without any response.
-/

namespace OperatorKit.Http

/-- The methods of messages. -/
inductive Method where
  | get
  | post
  deriving DecidableEq, Repr

/-- The name of a method on the wire. -/
def Method.text : Method → String
  | .get  => "GET"
  | .post => "POST"

/-- A message to the server of an address. -/
structure Message where
  method : Method
  url : Url
  contentType : String
  body : String
  deriving DecidableEq, Repr

/-- The type of a body in JSON. -/
def jsonType : String := "application/json"

/-- A message as it goes over the wire. The connection is used only once. -/
def Message.wire (m : Message) : String :=
  m.method.text ++ " " ++ m.url.target ++ " HTTP/1.1\r\n" ++
  "Host: " ++ m.url.authority ++ "\r\n" ++
  "Accept: */*\r\n" ++
  "Content-Type: " ++ m.contentType ++ "\r\n" ++
  "Content-Length: " ++ Decimal.text m.body.utf8ByteSize ++ "\r\n" ++
  "Connection: close\r\n\r\n" ++ m.body

/-- Why no response came back. -/
inductive Loss where
  /-- The text is no web address. -/
  | badAddress
  /-- The message was sent on to a place outside of the web. -/
  | outside
  /-- No connection to the host. -/
  | unreachable
  /-- The server took longer than the sender waits. -/
  | silence
  /-- The connection ended before the response's head did. -/
  | cutOff
  /-- What came back is no response. -/
  | malformed
  /-- The servers sent the message round in circles. -/
  | tooManyRedirections
  deriving DecidableEq, Repr, Inhabited

/-- The wording of a loss. -/
def Loss.message : Loss → String
  | .badAddress          => "Bad address"
  | .outside             => "Redirected out of the web"
  | .unreachable         => "Connection failed"
  | .silence             => "Timed out waiting for the response"
  | .cutOff              => "Connection closed before the response was complete"
  | .malformed           => "Malformed response"
  | .tooManyRedirections => "Too many redirections"

/-- How an exchange with a server ended. -/
inductive Reply where
  /-- A response with a status. -/
  | status (code : Nat)
  /-- No response. -/
  | lost (loss : Loss)
  deriving DecidableEq, Repr

end OperatorKit.Http
