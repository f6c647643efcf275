import OperatorKit.Http.Exchange
import OperatorKit.Span
import Std.Async.DNS
import Std.Async.TCP
import Std.Async.Timer

/-!
# Servers on the net

Brings messages to servers over plain connections. Secured lines are out of
reach. The patience of the sender is spent on the connection and on the bytes of
the response together; what came before it ended counts as the response.
-/

namespace OperatorKit.Live

open Http Std.Async Std.Net

/-- The longest that the machine's timers run, in milliseconds. -/
abbrev longestSleep : Nat := 2 ^ 62

/-- Nanoseconds as a span of the machine's timers, rounded up. -/
def milliseconds (nanos : Nat) : Std.Time.Millisecond.Offset :=
  .ofNat (min ((nanos + 999999) / 1000000) longestSleep)

/-- What is left of the time until `deadline`, in nanoseconds. -/
def timeLeft (deadline : Nat) : IO Nat := do
  return deadline - (← IO.monoNanosNow)

/-- A host without the brackets around an address of numbers. -/
def bareHost (host : String) : String :=
  String.ofList (host.toList.filter fun c => c != '[' && c != ']')

/-- An address with a port. -/
def socketAddress (port : Nat) : IPAddr → SocketAddress
  | .v4 addr => .v4 { addr, port := port.toUInt16 }
  | .v6 addr => .v6 { addr, port := port.toUInt16 }

/-- Connect to the first address that takes the connection. -/
def connectAny (port : Nat) : List IPAddr → Async (Option TCP.Socket.Client)
  | []        => return none
  | a :: rest => do
    try
      let socket ← TCP.Socket.Client.mk
      socket.connect (socketAddress port a)
      return some socket
    catch _ => connectAny port rest

/-- Look a host up and connect to it. -/
def connectTo (host : String) (port : Nat) : Async (Except Loss TCP.Socket.Client) := do
  try
    let addresses ← DNS.getAddrInfo (bareHost host) (Decimal.text port)
    match ← connectAny port addresses.toList with
    | some socket => return .ok socket
    | none        => return .error .unreachable
  catch _ => return .error .unreachable

/-- Connect to a host before the deadline. -/
def connect (deadline : Nat) (host : String) (port : Nat) :
    Async (Except Loss TCP.Socket.Client) := do
  let promise ← IO.Promise.new
  background do
    promise.resolve (← connectTo host port)
  background do
    sleep (milliseconds (← timeLeft deadline))
    promise.resolve (.error .silence)
  await promise

/-- The next bytes that come, unless the connection ends or the deadline is over
before; and whether there was time left. -/
def receiveSome (deadline : Nat) (socket : TCP.Socket.Client) :
    Async (Option ByteArray × Bool) := do
  let patience ← Selector.sleep (milliseconds (← timeLeft deadline))
  try
    Selectable.one #[
      .case (socket.recvSelector 65536) fun bytes => return (bytes, true),
      .case patience fun () => return (none, false)]
  catch _ => return (none, true)

/-- All bytes that come, behind those in `got`, and whether there was time left. -/
partial def receive (deadline : Nat) (socket : TCP.Socket.Client) (got : ByteArray) :
    Async (ByteArray × Bool) := do
  match ← receiveSome deadline socket with
  | (some bytes, _) => receive deadline socket (got ++ bytes)
  | (none, inTime)  => return (got, inTime)

/-- Send a message over a connection and receive the response. -/
def talk (deadline : Nat) (socket : TCP.Socket.Client) (message : Message) :
    Async (Except Loss (List UInt8)) := do
  try
    socket.send message.wire.toUTF8
    let (bytes, inTime) ← receive deadline socket .empty
    return if bytes.isEmpty && !inTime then .error .silence else .ok bytes.toList
  catch _ => return .error .cutOff

/-- The servers of the net, until a deadline on the machine's clock. -/
def serve (deadline : Nat) : Serve Async := fun message => do
  if message.url.secure then return .error .unreachable
  match ← connect deadline message.url.host.text message.url.port with
  | .error loss => return .error loss
  | .ok socket  => talk deadline socket message

end OperatorKit.Live
