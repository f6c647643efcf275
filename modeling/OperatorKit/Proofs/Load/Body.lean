import OperatorKit.Proofs.Http.Exchange
import OperatorKit.Proofs.Json.RoundTrip
import OperatorKit.Proofs.Load.Requests
import OperatorKit.Text.Bytes

/-!
# The body on the wire

What a run posts is the text of the body that was read from the operator's text. A server receives
it with the first message of the exchange, and no other message of it has a body. If no number in
the body is a double, that text is read as the same body again, so an operator who hands in what
was posted has the same posted once more.
-/

namespace OperatorKit.Load

open OperatorKit.Json (depthLimit)

variable {raw : String}

/-! ## Bodies -/

theorem readBody_cases (raw : String) :
    Json.Value.ofText raw = .ok (readBody raw).1 ∨ (readBody raw).1 = fallbackBody := by
  unfold readBody
  cases Json.Value.ofText raw with
  | ok v => exact .inl rfl
  | error e => exact .inr rfl

theorem fallbackBody_legible : fallbackBody.Legible depthLimit :=
  .object (List.pairwise_singleton _ _) (List.forall_mem_singleton.mpr (.string "value"))

theorem fallbackBody_whole : fallbackBody.Whole :=
  .object (List.forall_mem_singleton.mpr (.string "value"))

theorem readBody_legible (raw : String) : (readBody raw).1.Legible depthLimit := by
  obtain hread | hfallback := readBody_cases raw
  · exact Json.Value.legible_of_ofText hread
  · rw [hfallback]
    exact fallbackBody_legible

theorem readBody_whole (h : ∀ v, Json.Value.ofText raw = .ok v → v.Whole) :
    (readBody raw).1.Whole := by
  obtain hread | hfallback := readBody_cases raw
  · exact h _ hread
  · rw [hfallback]
    exact fallbackBody_whole

/-- The text of a body without doubles is read as that body. -/
theorem ofText_readBody (h : ∀ v, Json.Value.ofText raw = .ok v → v.Whole) :
    Json.Value.ofText (readBody raw).1.text = .ok (readBody raw).1 :=
  Json.Value.ofText_text (readBody_legible raw) (readBody_whole h)

/-! ## Requests on the wire -/

namespace Request

variable {q : Request} {host : String}

/-- What a server that keeps all that it receives has when a request was sent to it. -/
def received (q : Request) (host : String)
    (answer : List Http.Message → Http.Message → Except Http.Loss (List UInt8))
    (before : List Http.Message) : List Http.Message :=
  ((q.send (Http.keeping answer) host).run before).2

/-- Sending a request is exchanging its message, if there is one. -/
theorem send_eq {m : Type → Type} [Monad m] (serve : Http.Serve m) (q : Request) (host : String) :
    q.send serve host = (q.message? host).elim (pure (.lost .badAddress))
      (Http.exchange serve Http.mostRedirections) := by
  delta send
  cases q.message? host <;> rfl

theorem received_of_some {url : Http.Url} (h : Http.Url.ofText? (joinUrl host q.path) = some url)
    (answer : List Http.Message → Http.Message → Except Http.Loss (List UInt8))
    (before : List Http.Message) :
    ∃ onward, q.received host answer before =
        before ++ ⟨q.method, url, Http.jsonType, q.body.text⟩ :: onward ∧
      ∀ m ∈ onward, m.body = "" := by
  have hmessage : q.message? host = some ⟨q.method, url, Http.jsonType, q.body.text⟩ := by
    rw [message?, h, Option.map_some]
  obtain ⟨onward, hreceived, -, hbodies⟩ :=
    Http.exchange_keeping answer ⟨q.method, url, Http.jsonType, q.body.text⟩ before
      Http.mostRedirections
  refine ⟨onward, ?_, hbodies⟩
  rw [received, send_eq, hmessage]
  exact hreceived

theorem received_of_none (h : Http.Url.ofText? (joinUrl host q.path) = none)
    (answer : List Http.Message → Http.Message → Except Http.Loss (List UInt8))
    (before : List Http.Message) : q.received host answer before = before := by
  have hmessage : q.message? host = none := by rw [message?, h, Option.map_none]
  rw [received, send_eq, hmessage]
  rfl

/-- Sending the request posts a text: the server receives it to the letter with the first message,
and nothing else that has a body. Where there is no such server, nothing is sent. -/
structure Posts (q : Request) (host text : String) : Prop where
  posted (url : Http.Url) : Http.Url.ofText? (joinUrl host q.path) = some url → ∀ answer before,
    ∃ message onward, q.received host answer before = before ++ message :: onward ∧
      message = ⟨.post, url, "application/json", text⟩ ∧
      (∃ head, message.wire = head ++ ("Content-Length: " ++ Decimal.text text.utf8ByteSize ++
        "\r\nConnection: close\r\n\r\n" ++ text)) ∧
      ∀ m ∈ onward, m.body = ""
  unsent : Http.Url.ofText? (joinUrl host q.path) = none → ∀ answer before,
    q.received host answer before = before

/-- A post goes out with the text of its body. -/
theorem posts_of_method (h : q.method = .post) : q.Posts host q.body.text where
  posted url hurl answer before := by
    obtain ⟨onward, hreceived, hbodies⟩ := received_of_some hurl answer before
    rw [h] at hreceived
    exact ⟨_, onward, hreceived, rfl, Http.Message.wire_eq _, hbodies⟩
  unsent hnone answer before := received_of_none hnone answer before

end Request

/-! ## Posts -/

namespace Run

variable {plan : Plan} {r₀ r : Run} {es : List Event} {id : Nat} {task : Task} {q : Request}

theorem makes_of_sent {scenario : Scenario} (hstart : start plan scenario = .ok r₀)
    (hsteps : r₀.steps es = some r) (hsent : (id, task, q) ∈ r.sent) :
    scenario.Makes task.name q := by
  have hmakes := (faithful_of_steps hstart hsteps).sent _ hsent
  rw [(steps_setting hsteps).2.1, (start_spec hstart).2.1] at hmakes
  exact hmakes

/-- If no number in the operator's text is a double, the text of the body that is read from it is
read as the same body, and without a problem. Whatever is sent in a run posts that text to its
server, and so does all that is sent in a run that is given the posted text. For a text that is no
JSON this holds of the body that is posted in its place. -/
theorem posts_are_read_back (hwhole : ∀ v, Json.Value.ofText raw = .ok v → v.Whole) :
    Json.Value.ofText (readBody raw).1.text = .ok (readBody raw).1 ∧
    readBody (readBody raw).1.text = ((readBody raw).1, none) ∧
    ∀ raw', raw' = raw ∨ raw' = (readBody raw).1.text →
      ∀ plan r₀ es r, start plan (.post raw') = .ok r₀ → r₀.steps es = some r →
        ∀ id task q, (id, task, q) ∈ r.sent → q.Posts plan.host (readBody raw).1.text := by
  have hread := ofText_readBody hwhole
  have hagain : readBody (readBody raw).1.text = ((readBody raw).1, none) := by
    unfold readBody at hread ⊢
    rw [hread]
  refine ⟨hread, hagain, fun raw' hraw' plan r₀ es r hstart hsteps id task q hsent => ?_⟩
  have hmakes := makes_of_sent hstart hsteps hsent
  have hbody : q.body = (readBody raw).1 := by
    rw [hmakes.body_eq]
    obtain rfl | rfl := hraw'
    · rfl
    · rw [hagain]
  rw [← hbody]
  exact Request.posts_of_method hmakes.method_eq

/-- A text with a list of one number. It has a blank that the body's own text does not have. -/
def listText : String := " [-7]"

/-- A server that sends the first message that it receives on to another path. -/
def movedOnce (received : List Http.Message) (_ : Http.Message) :
    Except Http.Loss (List UInt8) :=
  .ok (Text.bytes (if received.isEmpty then "HTTP/1.1 301 Moved\r\nLocation: /moved\r\n\r\n"
    else "HTTP/1.1 200 OK\r\n\r\n"))

/-- What a lone user posts first. -/
def listPost : Request := ⟨.post, "/webhook/LOADTEST1", .array [.number (.integer (-7))]⟩

theorem list_posts_are_read_back :
    Json.Value.ofText listText = .ok listPost.body ∧ readBody "[-7]" = (listPost.body, none) ∧
    ∃ r₀ r task message onward, start lonePlan (.post "[-7]") = .ok r₀ ∧
      r₀.steps [.arrive, .user 0 .start, .user 0 (.send [])] = some r ∧
      r.sent = [(0, task, listPost)] ∧
      listPost.received "http://localhost" movedOnce [] = message :: onward ∧
      message = ⟨.post, ⟨false, .name "localhost", 80, ["webhook", "LOADTEST1"], ""⟩,
        "application/json", "[-7]"⟩ ∧
      onward.map (fun m => (m.method, m.url.target, m.body)) = [(.get, "/moved", "")] := by
  have hread : Json.Value.ofText listText = .ok listPost.body := rfl
  have hbody : (readBody listText).1 = listPost.body := by rw [readBody, hread]
  have htext : listPost.body.text = "[-7]" := by
    simp [listPost, Json.Value.text, Json.Value.render, Json.Value.renderItems, Json.Number.text,
      Json.integerText, Decimal.digits, Decimal.digitChar]
  obtain ⟨-, hagain, hposts⟩ := @posts_are_read_back listText (by
    intro w hw
    cases hread.symm.trans hw
    exact .array (List.forall_mem_singleton.mpr (.integer (-7))))
  rw [hbody, htext] at hagain hposts
  obtain ⟨r₀, hstart, r, hsteps, task, hsent⟩ : ∃ r₀, start lonePlan (.post "[-7]") = .ok r₀ ∧
      ∃ r, r₀.steps [.arrive, .user 0 .start, .user 0 (.send [])] = some r ∧
        ∃ task, r.sent = [(0, task, listPost)] := ⟨_, rfl, _, rfl, _, rfl⟩
  obtain ⟨message, onward, hreceived, hmessage, -, -⟩ :=
    (hposts "[-7]" (.inr rfl) lonePlan r₀ _ r hstart hsteps 0 task listPost
      (hsent ▸ List.mem_singleton_self _)).posted
        ⟨false, .name "localhost", 80, ["webhook", "LOADTEST1"], ""⟩ (by decide +kernel) movedOnce []
  refine ⟨hread, hagain, r₀, r, task, message, onward, hstart, hsteps, hsent, hreceived, hmessage, ?_⟩
  have hall : (listPost.received lonePlan.host movedOnce []).tail.map
      (fun m => (m.method, m.url.target, m.body)) = [(.get, "/moved", "")] := by decide +kernel
  rw [hreceived] at hall
  exact hall

end Run
end OperatorKit.Load
