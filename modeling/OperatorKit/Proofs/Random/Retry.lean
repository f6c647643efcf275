import OperatorKit.Proofs.Random.Draw

/-!
# Drawing again

A draw that is repeated until its result is accepted is as reliable as the draw
itself. The tries are bounded by the words that are left: each one uses up a word,
so the words run out first.
-/

namespace OperatorKit.Random.Draw

variable {α : Type} {d : Draw α} {accept : α → Bool} {P : α → Prop} {tries : Nat}
variable {words rest : List UInt32}

/-- Draw until a result is accepted, at most `tries` times. -/
def retry (d : Draw α) (accept : α → Bool) : (tries : Nat) → Draw α
  | 0,         _     => .error .starved
  | tries + 1, words =>
    match d words with
    | .error e       => .error e
    | .ok (a, words) => if accept a then .ok (a, words) else retry d accept tries words

theorem retry_sound (hd : d.Reliable P) {a : α} (h : d.retry accept tries words = .ok (a, rest)) :
    P a ∧ accept a = true := by
  induction tries generalizing words with
  | zero => cases h
  | succ tries ih =>
    simp only [retry] at h
    split at h
    case h_1 => cases h
    case h_2 hdraw =>
      split at h
      case isTrue haccept =>
        cases h
        exact ⟨hd.sound hdraw, haccept⟩
      case isFalse => exact ih h

theorem retry_starved (hd : d.Reliable P) {e : Fault} (h : d.retry accept tries words = .error e) :
    e = .starved := by
  induction tries generalizing words with
  | zero =>
    cases h
    rfl
  | succ tries ih =>
    simp only [retry] at h
    split at h
    case h_1 hdraw =>
      cases h
      exact hd.starved hdraw
    case h_2 =>
      split at h
      case isTrue => cases h
      case isFalse => exact ih h

/-- More words and more tries change nothing about a result. -/
theorem retry_extend (hd : d.Reliable P) {tries' : Nat} {a : α} (more : List UInt32)
    (hle : tries ≤ tries') (h : d.retry accept tries words = .ok (a, rest)) :
    d.retry accept tries' (words ++ more) = .ok (a, rest ++ more) := by
  induction tries generalizing words tries' with
  | zero => cases h
  | succ tries ih =>
    obtain ⟨tries', rfl⟩ : ∃ n, tries' = n + 1 := ⟨tries' - 1, by omega⟩
    simp only [retry] at h ⊢
    split at h
    case h_1 => cases h
    case h_2 hdraw =>
      rw [hd.extend more hdraw]
      split at h
      case isTrue haccept =>
        cases h
        simp [haccept]
      case isFalse haccept => simpa [haccept] using ih (Nat.le_of_succ_le_succ hle) h

/-- Where a draw stops for lack of words, it has to be possible to go on to a result
that is accepted; then the tries come to an end from anywhere. -/
theorem retry_live (hd : d.Reliable P)
    (hshorter : ∀ {words rest a}, d words = .ok (a, rest) → rest.length < words.length)
    (hlive : ∀ {words e}, d words = .error e →
      ∃ more a rest, d (words ++ more) = .ok (a, rest) ∧ accept a = true)
    (words : List UInt32) :
    ∃ more a rest, d.retry accept (words ++ more).length (words ++ more) = .ok (a, rest) := by
  have haccepted : ∀ {words rest a}, d words = .ok (a, rest) → accept a = true →
      d.retry accept words.length words = .ok (a, rest) := by
    intro words rest a hdraw haccept
    obtain ⟨n, hn⟩ : ∃ n, words.length = n + 1 :=
      ⟨words.length - 1, by have := hshorter hdraw; omega⟩
    simp [hn, retry, hdraw, haccept]
  -- A result that is not accepted leaves fewer words to try again with.
  induction hlength : words.length using Nat.strongRecOn generalizing words with
  | ind n ih =>
    cases hdraw : d words with
    | error e =>
      obtain ⟨more, a, rest, hmore, haccept⟩ := hlive hdraw
      exact ⟨more, a, rest, haccepted hmore haccept⟩
    | ok result =>
      obtain ⟨a, rest⟩ := result
      have hrest := hshorter hdraw
      by_cases haccept : accept a = true
      · exact ⟨[], a, rest, by simpa using haccepted hdraw haccept⟩
      · obtain ⟨more, b, rest', hb⟩ := ih rest.length (hlength ▸ hrest) rest rfl
        obtain ⟨m, hm⟩ : ∃ m, (words ++ more).length = m + 1 :=
          ⟨(words ++ more).length - 1, by rw [List.length_append]; omega⟩
        have hle : (rest ++ more).length ≤ m := by
          rw [List.length_append] at hm ⊢
          omega
        -- One try is spent, and there were more tries than words.
        have hagain := retry_extend hd [] hle hb
        simp only [List.append_nil] at hagain
        refine ⟨more, b, rest', ?_⟩
        simp [hm, retry, hd.extend more hdraw, haccept, hagain]

theorem Reliable.retry (hd : d.Reliable P)
    (hshorter : ∀ {words rest a}, d words = .ok (a, rest) → rest.length < words.length)
    (hlive : ∀ {words e}, d words = .error e →
      ∃ more a rest, d (words ++ more) = .ok (a, rest) ∧ accept a = true) :
    Reliable (fun words => d.retry accept words.length words) fun a => P a ∧ accept a = true where
  sound := retry_sound hd
  starved := retry_starved hd
  extend more h := retry_extend hd more (by simp) h
  live := retry_live hd hshorter hlive

end OperatorKit.Random.Draw
