import OperatorKit.Key.PrivateKeyInfo
import OperatorKit.Proofs.Key.Base64
import OperatorKit.Proofs.Key.Der
import OperatorKit.Proofs.Text.Split

/-!
# Reading back a private key

The bytes of a private key give its numbers back, and the lines of its text give
its bytes back.
-/

namespace OperatorKit.Key

/-! ## Bytes -/

namespace PrivateNumbers

theorem ofRsaBytes?_rsaBytes (k : PrivateNumbers) : ofRsaBytes? k.rsaBytes = some k := by
  have hbody := Der.decode?_encode .sequence ((0 :: k.toList).flatMap Der.encodeInteger) []
  have hnumbers := Der.decodeIntegers?_flatMap (0 :: k.toList)
  rw [List.append_nil] at hbody
  simp only [toList, List.length_cons, List.length_nil] at hbody hnumbers
  simp only [ofRsaBytes?, rsaBytes, toList, hbody, hnumbers]

theorem ofBytes?_toBytes (k : PrivateNumbers) : ofBytes? k.toBytes = some k := by
  have hbody := Der.decode?_encode .sequence
    (Der.encodeInteger 0 ++ algorithmBytes ++ Der.encode .octetString k.rsaBytes) []
  have hversion :=
    Der.decodeInteger?_encodeInteger 0 (algorithmBytes ++ Der.encode .octetString k.rsaBytes)
  have hoctets := Der.decode?_encode .octetString k.rsaBytes []
  rw [List.append_nil] at hbody hoctets
  have halgorithm :
      algorithmBytes.isPrefixOf (algorithmBytes ++ Der.encode .octetString k.rsaBytes) = true :=
    List.isPrefixOf_iff_prefix.mpr (List.prefix_append _ _)
  simp only [ofBytes?, toBytes, hbody]
  rw [List.append_assoc, hversion]
  simp only [halgorithm, if_true, List.drop_left, hoctets]
  exact ofRsaBytes?_rsaBytes k

end PrivateNumbers

/-! ## Lines -/

namespace Pem

theorem linesOf_append_newline {l : List Char} (h : ∀ c ∈ l, c ≠ '\n') (cs : List Char) :
    linesOf (l ++ '\n' :: cs) = l :: linesOf cs := by
  have hl : Text.splitBy (· == '\n') l = [l] :=
    Text.splitBy_of_forall fun c hc => beq_eq_false_iff_ne.mpr (h c hc)
  rw [linesOf, Text.splitBy_append_cons (p := (· == '\n')) (beq_self_eq_true _), hl]
  rfl

/-- The lines of a wrapped text hold that text. -/
theorem linesOf_wrap {width : Nat} (hwidth : width ≠ 0) {cs : List Char}
    (h : ∀ c ∈ cs, c ≠ '\n') :
    ∃ ls : List (List Char), ls.flatten = cs ∧
      ∀ rest, linesOf (wrap width cs ++ rest) = ls ++ linesOf rest := by
  fun_induction wrap width cs with
  | case1 cs hdone =>
    refine ⟨[], ?_, fun rest => rfl⟩
    simpa [hwidth] using hdone
  | case2 cs _ ih =>
    obtain ⟨ls, hflat, hlines⟩ := ih fun c hc => h c (List.mem_of_mem_drop hc)
    refine ⟨cs.take width :: ls, ?_, fun rest => ?_⟩
    · rw [List.flatten_cons, hflat, List.take_append_drop]
    · rw [List.append_assoc, List.cons_append,
        linesOf_append_newline fun c hc => h c (List.mem_of_mem_take hc), hlines]
      rfl

theorem decode?_encode (bytes : List UInt8) : decode? (encode bytes) = some bytes := by
  have hletters : ∀ c ∈ Alphabet.standard.encode bytes, c ≠ '\n' :=
    Alphabet.forall_mem_encode (by decide) (by decide) bytes
  obtain ⟨ls, hflat, hlines⟩ := linesOf_wrap (show lineLength ≠ 0 by decide) hletters
  have hrest : linesOf (footer.toList ++ ['\n']) = [footer.toList, []] :=
    linesOf_append_newline (by simp [footer]) []
  have hall : linesOf (encode bytes) = header.toList :: (ls ++ [footer.toList, []]) := by
    rw [encode, List.append_assoc, List.append_assoc, List.cons_append,
      linesOf_append_newline (by simp [header]), hlines, hrest]
  have hreverse : (ls ++ [footer.toList, []]).reverse = [] :: footer.toList :: ls.reverse := by
    simp
  simp only [decode?, hall, hreverse, and_self, if_true, List.reverse_reverse, hflat]
  exact Alphabet.lawful_standard.decode?_encode bytes

end Pem
end OperatorKit.Key
