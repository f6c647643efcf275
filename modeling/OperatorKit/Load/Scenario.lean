import OperatorKit.Json.Reader
import OperatorKit.Log
import OperatorKit.Load.Request
import OperatorKit.Random.Draw

/-!
# Scenarios

What the users of a load test do. In the posting scenario a user posts one JSON
body to three webhooks in turn or at random; in the getting scenario it asks
one webhook for the time, for random bytes or for some work with a cache. A user
has to be started before it works: only then the body it posts is read.
-/

namespace OperatorKit.Load

open OperatorKit.Random

/-- A scenario with what its users need to know. -/
inductive Scenario where
  /-- Post the JSON that `rawBody` is the text of. -/
  | post (rawBody : String)
  /-- Ask the webhook `id` for work. -/
  | get (id : String)
  deriving DecidableEq, Repr

/-- One kind of work, with the webhook that it is asked of. -/
inductive Work where
  | post (id : String)
  | time (id : String)
  | randomBytes (id : String)
  | cache (id : String)
  deriving DecidableEq, Repr

/-- A named kind of work and how often it is wanted. -/
structure Task where
  name : String
  weight : UInt32
  work : Work
  deriving DecidableEq, Repr

/-- The tasks of a scenario, all of the same weight. -/
def Scenario.tasks : Scenario → List Task
  | .post _ =>
    [⟨"post_request_1", 1, .post "LOADTEST1"⟩, ⟨"post_request_2", 1, .post "LOADTEST2"⟩,
     ⟨"post_request_4", 1, .post "LOADTEST4"⟩]
  | .get id =>
    [⟨"get_time", 1, .time id⟩, ⟨"get_random_bytes", 1, .randomBytes id⟩,
     ⟨"use_cache", 1, .cache id⟩]

/-! ## The body to post -/

/-- What is posted instead of a body that is no JSON. -/
def fallbackBody : Json.Value := .single "key" (.string "value")

/-- The text of the body that is posted by default. -/
def defaultBodyText : String := "\x7b\"key\": \"value\"\x7d"

/-- The webhook that is asked by default. -/
def defaultWebhook : String := "AAAA"

/-- What the operator is told about a body that is no JSON. -/
def fallbackNotice : String := "Invalid JSON in LOCUST_JSON_BODY, falling back to default."

/-- The body for a text. A text that is no JSON has the fallback and a problem. -/
def readBody (raw : String) : Json.Value × Option Json.Problem :=
  match Json.Value.ofText raw with
  | .ok v    => (v, none)
  | .error e => (fallbackBody, some e)

/-- What is logged about a body that is no JSON. If the notice could not be
printed, for the reason given, that comes first. -/
def fallbackLog (unprinted : Option String) (problem : Json.Problem) : List LogLine :=
  (unprinted.map fun reason =>
    LogLine.mk .error ("Unable to print the JSON body warning: " ++ reason)).toList ++
  [⟨.warn, "LOCUST_JSON_BODY is not valid JSON: " ++ problem.message⟩]

/-! ## Users -/

/-- A user at work: its scenario and the body it posts. -/
structure Worker where
  scenario : Scenario
  body : Json.Value
  deriving Repr

namespace Worker

/-- A user that was not started. -/
def idle (s : Scenario) : Worker := ⟨s, .null⟩

/-- Start a user. If it has to fall back to another body, there is a problem. -/
def start (w : Worker) : Worker × Option Json.Problem :=
  match w.scenario with
  | .post raw => ({ w with body := (readBody raw).1 }, (readBody raw).2)
  | .get _    => (w, none)

/-- The fewest and the most random bytes that are asked for. -/
def randomBytesRange : Nat × Nat := (1, 100)

/-- The request that a kind of work makes. -/
def request (w : Worker) (work : Work) : Draw Request := fun words =>
  match work with
  | .post id  => .ok (⟨.post, webhookPath id, w.body⟩, words)
  | .time id  => .ok (⟨.get, webhookPath id, .single "get_time" (.bool true)⟩, words)
  | .cache id => .ok (⟨.get, webhookPath id, .single "use_cache" (.bool true)⟩, words)
  | .randomBytes id =>
    match between32 randomBytesRange.1 randomBytesRange.2 words with
    | .error e       => .error e
    | .ok (n, words) =>
      .ok (⟨.get, webhookPath id, .single "get_random_bytes" (.nat n)⟩, words)

end Worker
end OperatorKit.Load
