import Mathlib.Algebra.GroupWithZero.Nat
import Mathlib.Order.Defs.Unbundled
import OperatorKit.Sorted

/-!
# Laws of lists sorted by key

A look-up finds the value that was inserted last under its key. An ascending
list stays ascending, so each of its keys stands in it once.
-/

namespace OperatorKit.Sorted

variable {κ α : Type} [LT κ] [DecidableLT κ] [DecidableEq κ]

/-- The keys of a list ascend, and none of them comes twice. -/
def Ascending (l : List (κ × α)) : Prop := l.Pairwise fun a b => a.1 < b.1

/-! ## Look-ups -/

theorem find?_insert_self (k : κ) (v : α) (l : List (κ × α)) : find? k (insert k v l) = some v := by
  induction l with
  | nil => simp [insert, update, find?]
  | cons p l ih =>
    obtain ⟨k', v'⟩ := p
    simp only [insert, update] at ih ⊢
    split
    case isTrue => simp [find?]
    case isFalse =>
      split
      case isTrue => simp [find?]
      case isFalse hne => simpa [find?, hne] using ih

theorem find?_insert_of_ne {k k' : κ} (hne : k' ≠ k) (v : α) (l : List (κ × α)) :
    find? k' (insert k v l) = find? k' l := by
  induction l with
  | nil => simp [insert, update, find?, hne]
  | cons p l ih =>
    obtain ⟨j, w⟩ := p
    simp only [insert, update] at ih ⊢
    split
    case isTrue => simp [find?, hne]
    case isFalse =>
      split
      case isTrue h =>
        subst h
        simp [find?, hne]
      case isFalse => simp only [find?, ih]

theorem find?_insert (k k' : κ) (v : α) (l : List (κ × α)) :
    find? k' (insert k v l) = if k' = k then some v else find? k' l := by
  split
  case isTrue h => rw [h, find?_insert_self]
  case isFalse h => rw [find?_insert_of_ne h]

omit [LT κ] [DecidableLT κ] in
theorem mem_of_find? {k : κ} {v : α} {l : List (κ × α)} (h : find? k l = some v) : (k, v) ∈ l := by
  induction l with
  | nil => cases h
  | cons p l ih =>
    obtain ⟨k', v'⟩ := p
    simp only [find?] at h
    split at h
    case isTrue heq =>
      cases h
      rw [heq]
      exact List.mem_cons_self
    case isFalse => exact List.mem_cons_of_mem _ (ih h)

theorem mem_of_mem_insert {k : κ} {v : α} {l : List (κ × α)} {p : κ × α}
    (h : p ∈ insert k v l) : p = (k, v) ∨ p ∈ l := by
  induction l with
  | nil => simpa [insert, update] using h
  | cons q l ih =>
    obtain ⟨k', v'⟩ := q
    simp only [insert, update] at ih h
    split at h
    case isTrue => exact List.mem_cons.mp h
    case isFalse =>
      split at h
      case isTrue => exact (List.mem_cons.mp h).imp_right (List.mem_cons_of_mem _)
      case isFalse =>
        rcases List.mem_cons.mp h with hq | hp
        · exact .inr (hq ▸ List.mem_cons_self)
        · exact (ih hp).imp_right (List.mem_cons_of_mem _)

/-! ## Order -/

section

variable [IsStrictTotalOrder κ (· < ·)]

theorem Ascending.insert {l : List (κ × α)} (h : Ascending l) (k : κ) (v : α) :
    Ascending (insert k v l) := by
  induction l with
  | nil => exact List.pairwise_singleton _ _
  | cons p l ih =>
    obtain ⟨k', v'⟩ := p
    obtain ⟨hhead, htail⟩ := List.pairwise_cons.mp h
    have hrest := ih htail
    simp only [Sorted.insert, update] at hrest ⊢
    split
    case isTrue hlt =>
      refine List.pairwise_cons.mpr ⟨?_, h⟩
      intro q hq
      rcases List.mem_cons.mp hq with rfl | hq
      · exact hlt
      · exact trans_of (· < ·) hlt (hhead q hq)
    case isFalse hnlt =>
      split
      case isTrue heq =>
        subst heq
        exact List.pairwise_cons.mpr ⟨hhead, htail⟩
      case isFalse hne =>
        have hgt : k' < k := (trichotomous_of (· < ·) k k').resolve_left hnlt |>.resolve_left hne
        refine List.pairwise_cons.mpr ⟨?_, hrest⟩
        intro q hq
        rcases mem_of_mem_insert hq with rfl | hq
        · exact hgt
        · exact hhead q hq

/-- A key that is greater than all others goes to the end. -/
theorem insert_of_forall_lt {l : List (κ × α)} {k : κ} (v : α) (h : ∀ p ∈ l, p.1 < k) :
    insert k v l = l ++ [(k, v)] := by
  induction l with
  | nil => rfl
  | cons p l ih =>
    obtain ⟨k', v'⟩ := p
    obtain ⟨hhead, htail⟩ := List.forall_mem_cons.mp h
    have hne : k ≠ k' := (ne_of_irrefl hhead).symm
    simp only [insert, update] at ih ⊢
    rw [if_neg (asymm_of (· < ·) hhead), if_neg hne, ih htail, List.cons_append]

/-- A value that a key already has is inserted to no effect. -/
theorem Ascending.insert_of_find? {l : List (κ × α)} (h : Ascending l) {k : κ} {v : α}
    (hfind : find? k l = some v) : Sorted.insert k v l = l := by
  induction l with
  | nil => cases hfind
  | cons p l ih =>
    obtain ⟨k', v'⟩ := p
    obtain ⟨hhead, htail⟩ := List.pairwise_cons.mp h
    simp only [find?] at hfind
    simp only [Sorted.insert, update] at ih ⊢
    split at hfind
    case isTrue heq =>
      cases hfind
      subst heq
      rw [if_neg (irrefl_of (· < ·) k), if_pos rfl]
    case isFalse hne =>
      have hnlt : ¬ k < k' := fun hlt => asymm_of (· < ·) hlt (hhead _ (mem_of_find? hfind))
      rw [if_neg hnlt, if_neg hne, ih htail hfind]

omit [DecidableLT κ] in
/-- Each entry is found under its key, as no other one has that key. -/
theorem Ascending.find?_of_mem {l : List (κ × α)} (h : Ascending l) {k : κ} {v : α}
    (hmem : (k, v) ∈ l) : find? k l = some v := by
  induction l with
  | nil => cases hmem
  | cons p l ih =>
    obtain ⟨k', v'⟩ := p
    obtain ⟨hhead, htail⟩ := List.pairwise_cons.mp h
    unfold find?
    rcases List.mem_cons.mp hmem with heq | hmem
    · cases heq
      exact if_pos rfl
    · have hne : k ≠ k' := fun heq => irrefl_of (· < ·) k (heq ▸ hhead _ hmem)
      rw [if_neg hne]
      exact ih htail hmem

omit [DecidableLT κ] in
theorem find?_eq_none {l : List (κ × α)} {k : κ} (h : ∀ p ∈ l, k < p.1) : find? k l = none := by
  refine Option.eq_none_iff_forall_ne_some.mpr fun v hv => ?_
  exact irrefl_of (· < ·) k (h _ (mem_of_find? hv))

omit [DecidableLT κ] in
/-- A list is known from its look-ups. -/
theorem Ascending.ext {l l' : List (κ × α)} (h : Ascending l) (h' : Ascending l')
    (heq : ∀ k, find? k l = find? k l') : l = l' := by
  induction l generalizing l' with
  | nil =>
    cases l' with
    | nil => rfl
    | cons q l' => simpa [find?] using heq q.1
  | cons p l ih =>
    cases l' with
    | nil => simpa [find?] using heq p.1
    | cons q l' =>
      obtain ⟨k, v⟩ := p
      obtain ⟨k', v'⟩ := q
      obtain ⟨hhead, htail⟩ := List.pairwise_cons.mp h
      obtain ⟨hhead', htail'⟩ := List.pairwise_cons.mp h'
      -- A key that is short of the other list's head is not in that list.
      have hkey : k = k' := by
        rcases trichotomous_of (· < ·) k k' with hlt | hk | hgt
        · have hnone : find? k ((k', v') :: l') = none := by
            refine find?_eq_none (List.forall_mem_cons.mpr ⟨hlt, fun r hr => ?_⟩)
            exact trans_of (· < ·) hlt (hhead' r hr)
          exact absurd ((heq k).trans hnone) (by simp [find?])
        · exact hk
        · have hnone : find? k' ((k, v) :: l) = none := by
            refine find?_eq_none (List.forall_mem_cons.mpr ⟨hgt, fun r hr => ?_⟩)
            exact trans_of (· < ·) hgt (hhead r hr)
          exact absurd ((heq k').symm.trans hnone) (by simp [find?])
      subst hkey
      have hvalue : v = v' := by simpa [find?] using heq k
      subst hvalue
      rw [ih htail htail' fun j => ?_]
      by_cases hj : j = k
      · rw [hj, find?_eq_none hhead, find?_eq_none hhead']
      · simpa [find?, hj] using heq j

/-- An inserted value takes the place of the one under its key in any sum over the list. -/
theorem Ascending.sum_insert {l : List (κ × α)} (h : Ascending l) (f : α → Nat) (k : κ) (v : α) :
    ((Sorted.insert k v l).map fun p => f p.2).sum + ((find? k l).map f).getD 0 =
      (l.map fun p => f p.2).sum + f v := by
  induction l with
  | nil => simp [Sorted.insert, update]
  | cons p l ih =>
    obtain ⟨k', v'⟩ := p
    obtain ⟨hhead, htail⟩ := List.pairwise_cons.mp h
    have hrest := ih htail
    simp only [Sorted.insert, update] at hrest ⊢
    split
    case isTrue hlt =>
      -- The key is short of the head's, so it is nowhere in the list.
      have hnone : find? k ((k', v') :: l) = none := by
        refine find?_eq_none fun p hp => ?_
        rcases List.mem_cons.mp hp with rfl | hp
        · exact hlt
        · exact trans_of (· < ·) hlt (hhead p hp)
      simp only [hnone, List.map_cons, List.sum_cons, Option.map_none, Option.getD_none]
      omega
    case isFalse hnlt =>
      split
      case isTrue heq =>
        simp only [find?, heq, if_true, List.map_cons, List.sum_cons, Option.map_some,
          Option.getD_some]
        omega
      case isFalse hne =>
        simp only [find?, hne, if_false, List.map_cons, List.sum_cons]
        omega

omit [DecidableLT κ] in
/-- A list with the number of times that each key comes from some items has as many of them under
keys of any kind as there are items with such a key. -/
theorem Ascending.sum_filter_eq_countP {β : Type} {l : List (κ × Nat)} (h : Ascending l)
    {xs : List β} {key : β → Option κ}
    (hcount : ∀ k n, find? k l = some n ↔ 0 < n ∧ xs.countP (key · == some k) = n)
    (p : κ → Bool) :
    ((l.filter fun e => p e.1).map fun e => e.2).sum = xs.countP fun x => (key x).any p := by
  induction l generalizing xs with
  | nil =>
    -- An item with a key would have an entry.
    have hnone : ∀ x ∈ xs, key x = none := by
      intro x hx
      refine Option.eq_none_iff_forall_ne_some.mpr fun k hk => ?_
      have hpos : 0 < xs.countP (key · == some k) :=
        List.countP_pos_iff.mpr ⟨x, hx, beq_iff_eq.mpr hk⟩
      cases (hcount k _).mpr ⟨hpos, rfl⟩
    refine (List.countP_eq_zero.mpr fun x hx => ?_).symm
    simp [hnone x hx]
  | cons e l ih =>
    obtain ⟨k, n⟩ := e
    obtain ⟨hhead, htail⟩ := List.pairwise_cons.mp h
    have hn : xs.countP (key · == some k) = n := ((hcount k n).mp (by simp [find?])).2
    -- The items with other keys are what the rest of the list counts.
    have hrest : ∀ k' m, find? k' l = some m ↔
        0 < m ∧ (xs.filter fun x => !(key x == some k)).countP (key · == some k') = m := by
      intro k' m
      rw [List.countP_filter]
      by_cases hk : k' = k
      · have hzero : xs.countP (fun x => key x == some k && !(key x == some k)) = 0 := by simp
        rw [hk, find?_eq_none hhead, hzero]
        simp only [reduceCtorEq, false_iff]
        omega
      · have hsame : xs.countP (fun x => key x == some k' && !(key x == some k)) =
            xs.countP (key · == some k') := by
          refine List.countP_congr fun x _ => ?_
          simp only [Bool.and_eq_true, beq_iff_eq, Bool.not_eq_true', beq_eq_false_iff_ne]
          refine and_iff_left_of_imp fun hx => ?_
          simp [hx, hk]
        rw [hsame, ← hcount k' m]
        simp [find?, hk]
    have hfirst : ((xs.filter (key · == some k)).countP fun x => (key x).any p) =
        if p k then n else 0 := by
      rw [List.countP_filter]
      split
      case isTrue hp =>
        rw [← hn]
        refine List.countP_congr fun x _ => ?_
        simp only [Bool.and_eq_true, beq_iff_eq]
        refine and_iff_right_of_imp fun hx => ?_
        simp [hx, hp]
      case isFalse hp =>
        refine List.countP_eq_zero.mpr fun x _ => ?_
        simp only [Bool.and_eq_true, beq_iff_eq, not_and]
        intro hany hx
        simp [hx, hp] at hany
    rw [List.countP_eq_countP_filter_add xs _ (key · == some k), hfirst, ← ih htail hrest,
      List.filter_cons]
    split <;> simp

end

end OperatorKit.Sorted
