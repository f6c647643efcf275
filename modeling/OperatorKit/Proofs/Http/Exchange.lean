import OperatorKit.Http.Exchange

/-!
# What an exchange sends

A server that keeps all that it receives shows what an exchange puts on the wire: the message that
it is about, and behind it messages without a body, one for each redirection that is followed.
-/

namespace OperatorKit.Http

/-- The body of a message is what comes last on the wire, and its length is announced. -/
theorem Message.wire_eq (m : Message) :
    ∃ head, m.wire = head ++ ("Content-Length: " ++ Decimal.text m.body.utf8ByteSize ++
      "\r\nConnection: close\r\n\r\n" ++ m.body) := by
  refine ⟨m.method.text ++ " " ++ m.url.target ++ " HTTP/1.1\r\n" ++ "Host: " ++ m.url.authority ++
    "\r\n" ++ "Accept: */*\r\n" ++ "Content-Type: " ++ m.contentType ++ "\r\n", ?_⟩
  simp only [Message.wire, String.append_assoc]
  rfl

/-- A server that keeps what it receives. Its answers may depend on all that it received before. -/
def keeping (answer : List Message → Message → Except Loss (List UInt8)) :
    Serve (StateM (List Message)) :=
  fun message received => (answer received message, received ++ [message])

/-- A message that is sent on has no body. -/
theorem body_of_sendOn {m m' : Message} {method : Method} {place : Place}
    (h : sendOn m method place = .ok (.onward m')) : m'.body = "" := by
  unfold sendOn at h
  split at h
  case h_1 =>
    cases h
    rfl
  case h_2 => split at h <;> cases h

theorem body_of_redirect {m m' : Message} {r : Response}
    (h : redirect m r = .ok (.onward m')) : m'.body = "" := by
  unfold redirect at h
  cases hvalue : r.value? "location" with
  | error e =>
    rw [hvalue] at h
    cases h
  | ok value =>
    rw [hvalue] at h
    cases value with
    | none => cases h
    | some location =>
      simp only [bind, Except.bind] at h
      split at h
      case h_1 | h_2 => cases h
      case h_3 => exact body_of_sendOn h

/-! ## One message -/

section

variable {σ α β : Type} (s : σ)

/-- Behind a message an exchange goes on with the answer. -/
theorem run_serve (serve : Serve (StateM σ)) (message : Message)
    (next : Except Loss (List UInt8) → ExceptT Fault (StateM σ) α) :
    ((do next (← serve message) : ExceptT Fault (StateM σ) α).run s) =
      (next (serve message s).1).run (serve message s).2 := rfl

theorem run_liftExcept (x : Except Fault β) (next : β → ExceptT Fault (StateM σ) α) :
    ((do next (← liftExcept x) : ExceptT Fault (StateM σ) α).run s) =
      match x with
      | .error e => (.error e, s)
      | .ok b    => (next b).run s := by
  cases x <;> rfl

end

variable (answer : List Message → Message → Except Loss (List UInt8)) (message : Message)
  (received : List Message)

/-- An exchange is over behind its message, or it is that of a message without a body, with one
redirection less to follow. -/
theorem exchange_cases (hops : Nat) :
    ((exchange (keeping answer) hops message).run received).2 = received ++ [message] ∨
    ∃ rest m, hops = rest + 1 ∧ m.body = "" ∧
      (exchange (keeping answer) hops message).run received =
        (exchange (keeping answer) rest m).run (received ++ [message]) := by
  rw [exchange.eq_def, run_serve]
  simp only [keeping]
  -- Only a redirection that can be followed does not end the exchange.
  split
  · exact .inl rfl
  split
  · exact .inl rfl
  rw [run_liftExcept]
  split
  · exact .inl rfl
  split
  case isFalse => exact .inl rfl
  cases hops with
  | zero => exact .inl rfl
  | succ rest =>
    dsimp only
    rw [run_liftExcept]
    split
    case h_1 => exact .inl rfl
    case h_2 course hcourse =>
      obtain reply | m := course
      · exact .inl rfl
      · exact .inr ⟨rest, m, rfl, body_of_redirect hcourse, rfl⟩

/-! ## Whole exchanges -/

/-- What is received of an exchange is its message, and then no more messages than redirections are
followed, all without a body. -/
theorem exchange_keeping (hops : Nat) :
    ∃ onward, ((exchange (keeping answer) hops message).run received).2 =
        received ++ message :: onward ∧
      onward.length ≤ hops ∧ ∀ m ∈ onward, m.body = "" := by
  induction hops generalizing message received with
  | zero =>
    obtain hover | ⟨rest, m, hrest, -, -⟩ := exchange_cases answer message received 0
    · exact ⟨[], hover, Nat.le_refl 0, nofun⟩
    · cases hrest
  | succ hops ih =>
    obtain hover | ⟨rest, m, hrest, hm, hnext⟩ := exchange_cases answer message received (hops + 1)
    · exact ⟨[], hover, Nat.zero_le _, nofun⟩
    · cases hrest
      obtain ⟨onward, hreceived, hlength, hbodies⟩ := ih m (received ++ [message])
      refine ⟨m :: onward, ?_, Nat.succ_le_succ hlength, List.forall_mem_cons.mpr ⟨hm, hbodies⟩⟩
      rw [hnext, hreceived, List.append_assoc, List.singleton_append]

end OperatorKit.Http
