import OperatorKit.Proofs.Load.Rotation

/-!
# Rotations whose weights change

A rotation is given the weights anew for every pick. It looks at them when a run begins and not
again before the run is over, so a run is as long as its index weighed when it began. A pick
from weights that are all zero moves the position and leaves the run as it is. The run then goes
on at the new position, and that may be the one behind the last index.
-/

namespace OperatorKit.Load.Rotation

variable {n i left : Nat} {ws : List UInt32} {wss : List (List UInt32)} {r r' : Rotation}

/-! ## Rows of picks -/

/-- Pick once from each of a row of weights. -/
def nextEach : List (List UInt32) → Rotation → Except Fault (List Nat × Rotation)
  | [],        r => .ok ([], r)
  | ws :: wss, r =>
    match r.next ws with
    | .error e   => .error e
    | .ok (i, r) =>
      match nextEach wss r with
      | .error e       => .error e
      | .ok (picks, r) => .ok (i :: picks, r)

variable {picks : List Nat} {r'' : Rotation}

theorem nextEach_cons_eq_ok_iff :
    nextEach (ws :: wss) r = .ok (picks, r'') ↔
      ∃ i r' rest, r.next ws = .ok (i, r') ∧ nextEach wss r' = .ok (rest, r'') ∧
        picks = i :: rest := by
  constructor
  · intro h
    simp only [nextEach] at h
    split at h
    case h_1 => cases h
    case h_2 hnext =>
      split at h
      case h_1 => cases h
      case h_2 hrest =>
        cases h
        exact ⟨_, _, _, hnext, hrest, rfl⟩
  · rintro ⟨i, r', rest, hnext, hrest, rfl⟩
    simp [nextEach, hnext, hrest]

theorem nextEach_append_eq_ok_iff {vss : List (List UInt32)} :
    nextEach (vss ++ wss) r = .ok (picks, r'') ↔
      ∃ front r' rest, nextEach vss r = .ok (front, r') ∧ nextEach wss r' = .ok (rest, r'') ∧
        picks = front ++ rest := by
  induction vss generalizing r picks with
  | nil =>
    constructor
    · intro h
      exact ⟨[], r, picks, rfl, h, rfl⟩
    · rintro ⟨front, r', rest, hfront, hrest, rfl⟩
      cases hfront
      exact hrest
  | cons vs vss ih =>
    simp only [List.cons_append, nextEach_cons_eq_ok_iff, ih]
    constructor
    · rintro ⟨i, r₁, rest, hnext, ⟨front, r₂, rest', hfront, hrest, rfl⟩, rfl⟩
      exact ⟨i :: front, r₂, rest', ⟨i, r₁, front, hnext, hfront, rfl⟩, hrest, rfl⟩
    · rintro ⟨_, r₂, rest', ⟨i, r₁, front, hnext, hfront, rfl⟩, hrest, rfl⟩
      exact ⟨i, r₁, front ++ rest', hnext, ⟨front, r₂, rest', hfront, hrest, rfl⟩, rfl⟩

/-- Each pick of a row is made from where the picks before it lead to. -/
theorem exists_next_of_getElem? {k : Nat} (h : nextEach wss r = .ok (picks, r''))
    (hws : wss[k]? = some ws) :
    ∃ r₁ i r₂, nextEach (wss.take k) r = .ok (picks.take k, r₁) ∧ r₁.next ws = .ok (i, r₂) ∧
      picks[k]? = some i := by
  induction wss generalizing k r picks with
  | nil => cases hws
  | cons vs wss ih =>
    obtain ⟨i, r', rest, hnext, hrest, rfl⟩ := nextEach_cons_eq_ok_iff.mp h
    cases k with
    | zero =>
      cases hws
      exact ⟨r, i, r', rfl, hnext, rfl⟩
    | succ k =>
      obtain ⟨r₁, j, r₂, htake, hpick, hget⟩ := ih hrest hws
      exact ⟨r₁, j, r₂, nextEach_cons_eq_ok_iff.mpr ⟨i, r', _, hnext, htake, rfl⟩, hpick, hget⟩

/-- What every pick finds and keeps, a row of picks finds and keeps. -/
theorem nextEach_spec {P : Rotation → Prop} {Q : Nat → Prop}
    (hstep : ∀ ws ∈ wss, ∀ r, P r → ∃ i r', r.next ws = .ok (i, r') ∧ Q i ∧ P r') (hr : P r) :
    ∃ picks r', nextEach wss r = .ok (picks, r') ∧ picks.length = wss.length ∧
      (∀ i ∈ picks, Q i) ∧ P r' := by
  induction wss generalizing r with
  | nil => exact ⟨[], r, rfl, rfl, List.forall_mem_nil _, hr⟩
  | cons ws wss ih =>
    obtain ⟨i, r', hnext, hi, hr'⟩ := hstep ws List.mem_cons_self r hr
    obtain ⟨picks, r'', hrest, hlength, hpicks, hr''⟩ :=
      ih (fun ws hws => hstep ws (List.mem_cons_of_mem _ hws)) hr'
    exact ⟨i :: picks, r'', nextEach_cons_eq_ok_iff.mpr ⟨i, r', picks, hnext, hrest, rfl⟩,
      congrArg (· + 1) hlength, List.forall_mem_cons.mpr ⟨hi, hpicks⟩, hr''⟩

/-! ## The index that a run begins with -/

/-- The first index with a weight at or behind a position, counted round the end of the list,
comes `d` steps behind it and has the weight `w`. -/
structure FirstFrom (ws : List UInt32) (position d : Nat) (w : UInt32) : Prop where
  lt_length : d < ws.length
  weight : ws[(position + d) % ws.length]? = some w
  ne_zero : w ≠ 0
  passed (e : Nat) : e < d → ws[(position + e) % ws.length]? = some 0

theorem exists_of_seek?_eq_some {passes position : Nat} {found : Nat × Nat}
    (h : seek? ws passes position = some found) :
    ∃ d < passes, ∃ w, ws[(position + d) % ws.length]? = some w ∧ w ≠ 0 ∧
      ∀ e < d, ws[(position + e) % ws.length]? = some 0 := by
  induction passes generalizing position with
  | zero => cases h
  | succ passes ih =>
    simp only [seek?] at h
    split at h
    case h_1 => cases h
    case h_2 w hw =>
      split at h
      case isFalse hne =>
        exact ⟨0, Nat.zero_lt_succ _, w, hw, hne, fun e he => absurd he (Nat.not_lt_zero e)⟩
      case isTrue hzero =>
        obtain ⟨d, hd, v, hv, hne, hpassed⟩ := ih h
        refine ⟨d + 1, Nat.succ_lt_succ hd, v, by rwa [← mod_succ_add], hne, fun e he => ?_⟩
        cases e with
        | zero => rw [Nat.add_zero, hw, hzero]
        | succ e => rw [← mod_succ_add, hpassed e (Nat.lt_of_succ_lt_succ he)]

theorem exists_firstFrom (hpos : 0 < totalWeight ws) (position : Nat) :
    ∃ d w, FirstFrom ws position d w := by
  obtain ⟨i, runs, hseek⟩ := seek?_isSome hpos position
  obtain ⟨d, hd, w, hw, hne, hpassed⟩ := exists_of_seek?_eq_some hseek
  exact ⟨d, w, hd, hw, hne, hpassed⟩

/-- The search comes to the first index with a weight in one pass more than it passes over
indices, however many passes it is allowed. -/
theorem FirstFrom.seek?_eq {position d : Nat} {w : UInt32} (h : FirstFrom ws position d w)
    (passes : Nat) :
    seek? ws passes position =
      if d < passes then some ((position + d) % ws.length, w.toNat) else none := by
  induction passes generalizing position d with
  | zero => rfl
  | succ passes ih =>
    cases d with
    | zero =>
      have hw := h.weight
      rw [Nat.add_zero] at hw
      simp [seek?, hw, h.ne_zero]
    | succ d =>
      have hzero := h.passed 0 (Nat.zero_lt_succ d)
      rw [Nat.add_zero] at hzero
      have hrest : FirstFrom ws (position % ws.length + 1) d w := by
        refine ⟨Nat.lt_of_succ_lt h.lt_length, ?_, h.ne_zero, fun e he => ?_⟩
        · rw [mod_succ_add, h.weight]
        · rw [mod_succ_add, h.passed (e + 1) (Nat.succ_lt_succ he)]
      simp only [seek?, hzero, if_true, ih hrest, mod_succ_add, Nat.add_lt_add_iff_right]

/-! ## Runs -/

/-- A rotation with a number of picks left in a run at an index. With none left, the next index
has its turn. -/
def running (i left : Nat) : Rotation := if left = 0 then ⟨i + 1, 0⟩ else ⟨i, left⟩

theorem running_of_pos (h : 0 < left) : running i left = ⟨i, left⟩ :=
  if_neg (Nat.ne_of_gt h)

theorem spend_eq_running (h : 0 < r.runsLeft) : r.spend = running r.position (r.runsLeft - 1) := by
  have hlast : r.runsLeft ≤ 1 ↔ r.runsLeft - 1 = 0 := by omega
  simp only [spend, running, hlast]

/-- Weights that are not all zero are picked from by the run that is settled on. -/
theorem next_of_totalWeight_pos (hpos : 0 < totalWeight ws) :
    r.next ws = .ok ((r.settle ws).position, (r.settle ws).spend) := by
  have hsome : allZero ws = false := by
    rw [Bool.eq_false_iff, ne_eq, allZero_iff]
    omega
  simp [next, hsome]

theorem settle_of_runsLeft_pos (hruns : 0 < r.runsLeft) : r.settle ws = r :=
  if_neg (Nat.ne_of_gt hruns)

theorem FirstFrom.settle_eq {d : Nat} {w : UInt32} (h : FirstFrom ws r.position d w)
    (hruns : r.runsLeft = 0) : r.settle ws = ⟨(r.position + d) % ws.length, w.toNat⟩ := by
  simp [settle, hruns, h.seek?_eq, h.lt_length]

/-- A run under way goes on whatever the weights are, as long as they are not all zero. -/
theorem next_of_runsLeft_pos (hpos : 0 < totalWeight ws) (hruns : 0 < r.runsLeft) :
    r.next ws = .ok (r.position, running r.position (r.runsLeft - 1)) := by
  rw [next_of_totalWeight_pos hpos, settle_of_runsLeft_pos hruns, spend_eq_running hruns]

/-- A run begins at the first index with a weight. -/
theorem FirstFrom.next_eq {d : Nat} {w : UInt32} (h : FirstFrom ws r.position d w)
    (hpos : 0 < totalWeight ws) (hruns : r.runsLeft = 0) :
    r.next ws = .ok ((r.position + d) % ws.length,
      running ((r.position + d) % ws.length) (w.toNat - 1)) := by
  have hw : 0 < w.toNat := Nat.pos_of_ne_zero fun h0 => h.ne_zero (UInt32.toNat_inj.mp h0)
  rw [next_of_totalWeight_pos hpos, h.settle_eq hruns, spend_eq_running hw]

theorem nextEach_running (hpos : ∀ ws ∈ wss, 0 < totalWeight ws) (hle : wss.length ≤ left) :
    nextEach wss (running i left) =
      .ok (List.replicate wss.length i, running i (left - wss.length)) := by
  induction wss generalizing left with
  | nil => rfl
  | cons ws wss ih =>
    rw [List.length_cons] at hle
    have hleft : 0 < left := by omega
    have hnext : (running i left).next ws = .ok (i, running i (left - 1)) := by
      rw [running_of_pos hleft, next_of_runsLeft_pos (hpos ws List.mem_cons_self) hleft]
    have hrest := ih (fun ws hws => hpos ws (List.mem_cons_of_mem _ hws))
      (Nat.le_sub_one_of_lt hle)
    rw [Nat.sub_sub, Nat.add_comm 1] at hrest
    exact nextEach_cons_eq_ok_iff.mpr ⟨_, _, _, hnext, hrest, List.replicate_succ⟩

/-! ## Rows without a weight of zero throughout -/

/-- A rotation stands no further than `n`, and below `n` while a run is under way. If that is the
length of the list, the rotation stands in the list or right behind it. -/
structure Placed (n : Nat) (r : Rotation) : Prop where
  position_le : r.position ≤ n
  position_lt : 0 < r.runsLeft → r.position < n

theorem placed_fresh (n : Nat) : fresh.Placed n :=
  ⟨Nat.zero_le n, fun h => absurd h (Nat.lt_irrefl 0)⟩

theorem placed_running (hi : i < n) (left : Nat) : (running i left).Placed n := by
  simp only [running]
  split
  case isTrue => exact ⟨hi, fun h => absurd h (Nat.lt_irrefl 0)⟩
  case isFalse => exact ⟨Nat.le_of_lt hi, fun _ => hi⟩

theorem Placed.next (hr : r.Placed n) (hlength : ws.length = n) (hpos : 0 < totalWeight ws) :
    ∃ i r', r.next ws = .ok (i, r') ∧ i < n ∧ r'.Placed n := by
  rcases Nat.eq_zero_or_pos r.runsLeft with hruns | hruns
  · obtain ⟨d, w, hfirst⟩ := exists_firstFrom hpos r.position
    have hi : (r.position + d) % ws.length < n := by
      rw [hlength]
      exact Nat.mod_lt _ (Nat.zero_lt_of_lt (hlength ▸ hfirst.lt_length))
    exact ⟨_, _, hfirst.next_eq hpos hruns, hi, placed_running hi _⟩
  · exact ⟨_, _, next_of_runsLeft_pos hpos hruns, hr.position_lt hruns,
      placed_running (hr.position_lt hruns) _⟩

/-- Whatever weights a rotation is given, one list of the same length for each pick and never
all zero, it picks an index of the list. A run begins at the first index with a weight, which is
found before the list has been gone through once, and is as long as that weight, whatever the
weights for its other picks are. -/
theorem runs_last_as_begun {n : Nat} {wss : List (List UInt32)}
    (hwss : ∀ ws ∈ wss, ws.length = n ∧ 0 < totalWeight ws) :
    ∃ picks r, nextEach wss fresh = .ok (picks, r) ∧ picks.length = wss.length ∧
      (∀ i ∈ picks, i < n) ∧ r.position ≤ n ∧ (0 < r.runsLeft → r.position < n) ∧
      ∀ ws, ws.length = n → 0 < totalWeight ws →
        (0 < r.runsLeft → r.settle ws = r) ∧
        (r.runsLeft = 0 → ∃ d w, d < n ∧ ws[(r.position + d) % n]? = some w ∧ w ≠ 0 ∧
          (∀ e < d, ws[(r.position + e) % n]? = some 0) ∧
          (∀ passes, seek? ws passes r.position =
            if d < passes then some ((r.position + d) % n, w.toNat) else none) ∧
          ∀ later : List (List UInt32), (∀ vs ∈ later, 0 < totalWeight vs) →
            later.length < w.toNat →
            nextEach (ws :: later) r =
              .ok (List.replicate (later.length + 1) ((r.position + d) % n),
                running ((r.position + d) % n) (w.toNat - (later.length + 1)))) := by
  obtain ⟨picks, r, hpicks, hlength, hlt, hr⟩ := nextEach_spec (P := Placed n) (Q := (· < n))
    (fun ws hws r hr => hr.next (hwss ws hws).1 (hwss ws hws).2) (placed_fresh n)
  refine ⟨picks, r, hpicks, hlength, hlt, hr.position_le, hr.position_lt, fun ws hws hpos =>
    ⟨settle_of_runsLeft_pos, fun hruns => ?_⟩⟩
  obtain ⟨d, w, hfirst⟩ := exists_firstFrom hpos r.position
  subst hws
  refine ⟨d, w, hfirst.lt_length, hfirst.weight, hfirst.ne_zero, hfirst.passed, hfirst.seek?_eq,
    fun later hlater hshort => ?_⟩
  -- The first pick begins the run, and the others are some of those that are left then.
  have hrest := nextEach_running (i := (r.position + d) % ws.length) hlater
    (Nat.le_sub_one_of_lt hshort)
  rw [Nat.sub_sub, Nat.add_comm 1] at hrest
  exact nextEach_cons_eq_ok_iff.mpr
    ⟨_, _, _, hfirst.next_eq hpos hruns, hrest, List.replicate_succ⟩

theorem run_of_three_across_weights :
    ∃ r, nextEach [[0, 2], [1, 1]] fresh = .ok ([1, 1], r) ∧
      nextEach [[3, 0], [0, 9], [7, 7]] r = .ok ([0, 0, 0], ⟨1, 0⟩) := by
  have hwss : ∀ ws ∈ ([[0, 2], [1, 1]] : List (List UInt32)),
      ws.length = 2 ∧ 0 < totalWeight ws := by decide
  obtain ⟨picks, r, hpicks, -, -, -, -, hruns⟩ := runs_last_as_begun hwss
  have hbegun : nextEach [[0, 2], [1, 1]] fresh = .ok ([1, 1], ⟨2, 0⟩) := rfl
  rw [hbegun] at hpicks
  cases hpicks
  obtain ⟨d, w, -, -, -, -, hpasses, hlater⟩ := (hruns [3, 0] rfl (by decide)).2 rfl
  have hfound : seek? [3, 0] 1 2 = some (0, 3) := rfl
  rw [hpasses 1] at hfound
  split at hfound
  case isTrue hd =>
    obtain ⟨hi, hw⟩ := Prod.mk.inj (Option.some.inj hfound)
    have hrun := hlater [[0, 9], [7, 7]] (by decide) (by rw [hw]; decide)
    rw [hi, hw] at hrun
    exact ⟨⟨2, 0⟩, hbegun, hrun⟩
  case isFalse => cases hfound

/-! ## Rows with weights that may be all zero -/

/-- A pick is the index behind the end exactly if it goes on with a run that stands there. -/
theorem Placed.next_le (hn : 0 < n) (hr : r.Placed (n + 1)) (hlength : ws.length = n) :
    ∃ i r', r.next ws = .ok (i, r') ∧ r'.Placed (n + 1) ∧ i ≤ n ∧
      (i = n ↔ 0 < totalWeight ws ∧ r.position = n ∧ 0 < r.runsLeft) := by
  subst hlength
  rcases Nat.eq_zero_or_pos (totalWeight ws) with hzero | hpos
  · have hlt := Nat.mod_lt r.position hn
    refine ⟨_, _, next_of_totalWeight_eq_zero (List.length_pos_iff.mp hn) hzero,
      ⟨Nat.succ_le_succ (Nat.le_of_lt hlt), fun _ => Nat.succ_lt_succ hlt⟩, Nat.le_of_lt hlt, ?_⟩
    omega
  · rcases Nat.eq_zero_or_pos r.runsLeft with hruns | hruns
    · obtain ⟨d, w, hfirst⟩ := exists_firstFrom hpos r.position
      have hlt := Nat.mod_lt (r.position + d) hn
      refine ⟨_, _, hfirst.next_eq hpos hruns, placed_running (Nat.lt_succ_of_lt hlt) _,
        Nat.le_of_lt hlt, ?_⟩
      omega
    · have hlt := hr.position_lt hruns
      exact ⟨_, _, next_of_runsLeft_pos hpos hruns, placed_running hlt _, Nat.le_of_lt_succ hlt,
        fun h => ⟨hpos, h, hruns⟩, fun h => h.2.1⟩

/-- A row of weights carries a run over the end of lists of length `n`: while a run is under
way, the last index is picked from weights that are all zero, and what follows are fewer picks,
from weights that are not, than the run has left. -/
def CarriesOver (n : Nat) (wss : List (List UInt32)) : Prop :=
  ∃ before zeros later picks r, wss = before ++ zeros :: later ∧
    nextEach before fresh = .ok (picks, r) ∧ totalWeight zeros = 0 ∧ r.position % n + 1 = n ∧
    (∀ ws ∈ later, 0 < totalWeight ws) ∧ later.length < r.runsLeft

/-- Where a run stands behind the end, it was carried there. -/
theorem exists_carry (hn : 0 < n) (hwss : ∀ ws ∈ wss, ws.length = n)
    (h : nextEach wss fresh = .ok (picks, r)) (hposition : r.position = n)
    (hruns : 0 < r.runsLeft) :
    ∃ before zeros later picks r₀, wss = before ++ zeros :: later ∧
      nextEach before fresh = .ok (picks, r₀) ∧ totalWeight zeros = 0 ∧
      r₀.position % n + 1 = n ∧ (∀ ws ∈ later, 0 < totalWeight ws) ∧
      r₀.runsLeft = later.length + r.runsLeft := by
  -- The induction is on the row from its end: the last pick moved the run or went on with it.
  induction wss using List.reverseRecOn generalizing picks r with
  | nil =>
    cases h
    exact absurd hruns (Nat.lt_irrefl 0)
  | append_singleton wss ws ih =>
    obtain ⟨front, r₁, rest, hfront, hlast, -⟩ := nextEach_append_eq_ok_iff.mp h
    obtain ⟨i, r₂, _, hnext, hnil, -⟩ := nextEach_cons_eq_ok_iff.mp hlast
    cases hnil
    have hlength : ws.length = n := hwss ws (by simp)
    rcases Nat.eq_zero_or_pos (totalWeight ws) with hzero | hpos
    · rw [next_of_totalWeight_eq_zero (List.length_pos_iff.mp (hlength ▸ hn)) hzero,
        hlength] at hnext
      cases hnext
      exact ⟨wss, ws, [], front, r₁, rfl, hfront, hzero, hposition, List.forall_mem_nil _,
        (Nat.zero_add _).symm⟩
    · rcases Nat.eq_zero_or_pos r₁.runsLeft with hnone | hsome
      · -- A run that begins stands in the list.
        obtain ⟨d, w, hfirst⟩ := exists_firstFrom hpos r₁.position
        rw [hfirst.next_eq hpos hnone, hlength] at hnext
        cases hnext
        have hlt := (placed_running (Nat.mod_lt (r₁.position + d) hn) (w.toNat - 1)).position_lt
          hruns
        exact absurd hposition (Nat.ne_of_lt hlt)
      · rw [next_of_runsLeft_pos hpos hsome] at hnext
        cases hnext
        have hleft : 0 < r₁.runsLeft - 1 := by
          refine Nat.pos_of_ne_zero fun h0 => ?_
          simp [running, h0] at hruns
        rw [running_of_pos hleft] at hposition ⊢
        obtain ⟨before, zeros, later, picks, r₀, rfl, hbefore, hzeros, hend, hlater, hcount⟩ :=
          ih (fun ws hws => hwss ws (List.mem_append_left _ hws)) hfront hposition hsome
        have hmore : ∀ vs ∈ later ++ [ws], 0 < totalWeight vs :=
          List.forall_mem_append.mpr ⟨hlater, List.forall_mem_singleton.mpr hpos⟩
        refine ⟨before, zeros, later ++ [ws], picks, r₀, by simp, hbefore, hzeros, hend, hmore, ?_⟩
        simp only [List.length_append, List.length_singleton, hcount]
        omega

/-- A run stands behind the end of the list exactly if it was carried there. -/
theorem carriesOver_iff (hn : 0 < n) (hwss : ∀ ws ∈ wss, ws.length = n)
    (h : nextEach wss fresh = .ok (picks, r)) :
    CarriesOver n wss ↔ r.position = n ∧ 0 < r.runsLeft := by
  constructor
  · rintro ⟨before, zeros, later, picks, r₀, rfl, hbefore, hzeros, hend, hlater, hshort⟩
    have hlength : zeros.length = n := hwss zeros (by simp)
    have hnext := next_of_totalWeight_eq_zero (r := r₀) (List.length_pos_iff.mp (hlength ▸ hn))
      hzeros
    rw [hlength, hend, ← running_of_pos (Nat.zero_lt_of_lt hshort)] at hnext
    have hrest := nextEach_append_eq_ok_iff.mpr ⟨_, _, _, hbefore,
      nextEach_cons_eq_ok_iff.mpr
        ⟨_, _, _, hnext, nextEach_running hlater (Nat.le_of_lt hshort), rfl⟩, rfl⟩
    have hleft : 0 < r₀.runsLeft - later.length := by omega
    rw [h, running_of_pos hleft] at hrest
    cases hrest
    exact ⟨rfl, hleft⟩
  · rintro ⟨hposition, hruns⟩
    obtain ⟨before, zeros, later, picks, r₀, hrow, hbefore, hzeros, hend, hlater, hcount⟩ :=
      exists_carry hn hwss h hposition hruns
    exact ⟨before, zeros, later, picks, r₀, hrow, hbefore, hzeros, hend, hlater, by omega⟩

/-- Weights of which some are not zero carry no run over the end. -/
theorem not_carriesOver (h : ∀ ws ∈ wss, 0 < totalWeight ws) : ¬ CarriesOver n wss := by
  rintro ⟨before, zeros, later, picks, r, rfl, -, hzeros, -⟩
  have hpos := h zeros (List.mem_append_right _ List.mem_cons_self)
  rw [hzeros] at hpos
  exact absurd hpos (Nat.lt_irrefl 0)

/-- Whatever weights of one length a rotation is given, it picks an index of the list, or the
one behind the last: that one exactly where a pick goes on with a run that was carried over
the end. So it never leaves the list if some weight of each row is not zero. -/
theorem picks_pass_end_iff {n : Nat} {wss : List (List UInt32)} (hn : 0 < n)
    (hwss : ∀ ws ∈ wss, ws.length = n) :
    ∃ picks r, nextEach wss fresh = .ok (picks, r) ∧ picks.length = wss.length ∧
      (∀ i ∈ picks, i ≤ n) ∧ r.position ≤ n + 1 ∧
      (∀ k i ws, picks[k]? = some i → wss[k]? = some ws →
        (i = n ↔ 0 < totalWeight ws ∧ CarriesOver n (wss.take k))) ∧
      ((∀ ws ∈ wss, 0 < totalWeight ws) → ∀ i ∈ picks, i < n) := by
  have hspec : ∀ vss : List (List UInt32), (∀ ws ∈ vss, ws.length = n) →
      ∃ picks r, nextEach vss fresh = .ok (picks, r) ∧ picks.length = vss.length ∧
        (∀ i ∈ picks, i ≤ n) ∧ r.Placed (n + 1) := by
    refine fun vss hvss => nextEach_spec (fun ws hws r hr => ?_) (placed_fresh (n + 1))
    obtain ⟨i, r', hnext, hr', hi, -⟩ := hr.next_le hn (hvss ws hws)
    exact ⟨i, r', hnext, hi, hr'⟩
  obtain ⟨picks, r, hpicks, hlength, hle, hr⟩ := hspec wss hwss
  have hpasses : ∀ k i ws, picks[k]? = some i → wss[k]? = some ws →
      (i = n ↔ 0 < totalWeight ws ∧ CarriesOver n (wss.take k)) := by
    intro k i ws hi hws
    have htake : ∀ vs ∈ wss.take k, vs.length = n := fun vs hvs =>
      hwss vs (List.mem_of_mem_take hvs)
    obtain ⟨r₁, j, r₂, hbefore, hnext, hj⟩ := exists_next_of_getElem? hpicks hws
    obtain ⟨front, r₁', hfront, -, -, hr₁⟩ := hspec _ htake
    rw [hbefore] at hfront
    cases hfront
    obtain ⟨j', r₂', hnext', -, -, hiff⟩ := hr₁.next_le hn (hwss ws (List.mem_of_getElem? hws))
    rw [hnext] at hnext'
    cases hnext'
    rw [hi] at hj
    cases hj
    rw [hiff, carriesOver_iff hn htake hbefore]
  refine ⟨picks, r, hpicks, hlength, hle, hr.position_le, hpasses, fun hpos i hi => ?_⟩
  obtain ⟨k, hk⟩ := List.mem_iff_getElem?.mp hi
  obtain ⟨hlt, -⟩ := List.getElem?_eq_some_iff.mp hk
  have hws := List.getElem?_eq_getElem (hlength ▸ hlt)
  refine Nat.lt_of_le_of_ne (hle i hi) fun hend => ?_
  obtain ⟨-, hcarried⟩ := (hpasses k i _ hk hws).mp hend
  exact not_carriesOver (fun vs hvs => hpos vs (List.mem_of_mem_take hvs)) hcarried

theorem fifth_pick_passes_end : ∃ picks r,
    nextEach [[3, 1], [0, 0], [0, 0], [3, 1], [3, 1]] fresh = .ok (picks, r) ∧
      picks.length = 5 ∧ picks[4]? = some 2 := by
  have hwss : ∀ ws ∈ ([[3, 1], [0, 0], [0, 0], [3, 1], [3, 1]] : List (List UInt32)),
      ws.length = 2 := by decide
  obtain ⟨picks, r, hpicks, hlength, -, -, hpasses, -⟩ := picks_pass_end_iff (by decide) hwss
  obtain ⟨i, hi⟩ : ∃ i, picks[4]? = some i :=
    ⟨_, List.getElem?_eq_getElem (by rw [hlength]; decide)⟩
  have hcarried : CarriesOver 2 [[3, 1], [0, 0], [0, 0], [3, 1]] :=
    ⟨[[3, 1], [0, 0]], [0, 0], [[3, 1]], [0, 0], ⟨1, 2⟩, rfl, rfl, rfl, rfl, by decide, by decide⟩
  have hend : i = 2 := (hpasses 4 i [3, 1] hi rfl).mpr ⟨by decide, hcarried⟩
  exact ⟨picks, r, hpicks, hlength, hend ▸ hi⟩

/-- With a run of two picks under way, one pick from no weight at all makes the next one leave a
list of a single index. -/
theorem picks_leave_list :
    ¬ ∀ (n : Nat) (wss : List (List UInt32)), 0 < n → (∀ ws ∈ wss, ws.length = n) →
      ∃ picks r, nextEach wss fresh = .ok (picks, r) ∧ ∀ i ∈ picks, i < n := by
  intro h
  obtain ⟨picks, r, hpicks, hlt⟩ := h 1 [[2], [0], [2]] (by decide) (by decide)
  have hrun : nextEach [[2], [0], [2]] fresh = .ok ([0, 0, 1], ⟨2, 0⟩) := rfl
  rw [hrun] at hpicks
  cases hpicks
  exact absurd (hlt 1 (by decide)) (by decide)

end OperatorKit.Load.Rotation
