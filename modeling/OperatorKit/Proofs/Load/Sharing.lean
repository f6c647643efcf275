import Mathlib.Data.List.GetD
import Mathlib.Logic.Relation
import OperatorKit.Proofs.Load.Summary

/-!
# Shared tallies

Any number of handles lead to one tally, and reports are taken of it at any time.
A report summarizes what was recorded until then through all handles of its tally,
and nothing else. It is the same in whatever order that was recorded.
-/

namespace OperatorKit.Load

/-! ## Sessions -/

/-- What can be done with shared tallies. -/
inductive Operation where
  | record (handle : Nat) (e : Recording)
  | share (handle : Nat)
  | create
  | report (handle : Nat)

namespace Operation

/-- A report is taken. -/
def isReport : Operation → Bool
  | .report _ => true
  | _         => false

/-- What is recorded through one of the handles that satisfy `p`. -/
def recording? (p : Nat → Bool) : Operation → Option Recording
  | .record handle e => if p handle then some e else none
  | _                => none

end Operation

/-- Shared tallies and the reports that were taken of them, the oldest first. -/
structure Session where
  registry : Registry
  reports : List Tally

namespace Session

/-- One empty tally with one handle, and no reports. -/
def start : Session := ⟨.initial, []⟩

/-- How many handles there are. They have the numbers below it. -/
def handleCount (s : Session) : Nat := s.registry.handles.length

/-- The session behind an operation. There is none if the operation is on a handle that
does not exist, or if recording meets a fault. -/
def step? (s : Session) : Operation → Option Session
  | .record handle e =>
    let (registry, fault) := s.registry.record handle e.task e.request e.outcome
    if handle < s.handleCount ∧ fault = none then some { s with registry } else none
  | .share handle    =>
    if handle < s.handleCount then some { s with registry := s.registry.share handle } else none
  | .create          => some { s with registry := s.registry.create }
  | .report handle   =>
    if handle < s.handleCount then
      some { s with reports := s.reports ++ [s.registry.report handle] }
    else none

/-- The session behind operations. -/
def run? (s : Session) (ops : List Operation) : Option Session := ops.foldlM step? s

end Session

/-! ## Roots -/

/-- The roots of the handles behind one more operation. -/
def addRoot (roots : List Nat) : Operation → List Nat
  | .share handle => roots ++ [roots.getD handle 0]
  | .create       => roots ++ [roots.length]
  | _             => roots

/-- For each handle its root: the first handle of its tally. -/
def roots (ops : List Operation) : List Nat := ops.foldl addRoot [0]

/-- The root of a handle. -/
def root (ops : List Operation) (handle : Nat) : Nat := (roots ops).getD handle 0

/-- A handle is made by sharing another one. -/
def SharedFrom (ops : List Operation) (handle copy : Nat) : Prop :=
  ∃ before after, ops = before ++ .share handle :: after ∧ copy = (roots before).length

/-- What is recorded through the handles of the tally behind a handle. -/
def recordingsOf (ops : List Operation) (handle : Nat) : List Recording :=
  ops.filterMap (·.recording? fun other => root ops other == root ops handle)

variable {ops : List Operation} {op : Operation} {s s' : Session} {g h : Nat}

theorem roots_append_singleton (ops : List Operation) (op : Operation) :
    roots (ops ++ [op]) = addRoot (roots ops) op := by simp [roots]

theorem length_roots_le (ops : List Operation) (op : Operation) :
    (roots ops).length ≤ (roots (ops ++ [op])).length := by
  rw [roots_append_singleton]
  cases op <;> simp [addRoot]

/-- The root of a handle stays what it is. -/
theorem root_append_singleton (hg : g < (roots ops).length) (op : Operation) :
    root (ops ++ [op]) g = root ops g := by
  rw [root, root, roots_append_singleton]
  cases op with
  | record _ _ | report _ => rfl
  | share _ | create => exact List.getD_append _ _ _ _ hg

theorem root_of_length {n r : Nat} (hn : n = (roots ops).length)
    (hroots : roots (ops ++ [op]) = roots ops ++ [r]) : root (ops ++ [op]) n = r := by
  rw [root, hroots, hn, List.getD_append_right _ _ _ _ (Nat.le_refl _), Nat.sub_self]
  rfl

theorem SharedFrom.append (hcopy : SharedFrom ops g h) (op : Operation) :
    SharedFrom (ops ++ [op]) g h := by
  obtain ⟨before, after, rfl, hh⟩ := hcopy
  exact ⟨before, after ++ [op], by simp, hh⟩

theorem sharedFrom_append_singleton (hcopy : SharedFrom (ops ++ [op]) g h) :
    SharedFrom ops g h ∨ op = .share g ∧ h = (roots ops).length := by
  obtain ⟨before, after, heq, hh⟩ := hcopy
  rcases List.eq_nil_or_concat after with rfl | ⟨after, last, rfl⟩
  · obtain ⟨rfl, hop⟩ := List.append_inj' heq rfl
    exact .inr ⟨(List.singleton_inj.mp hop), hh⟩
  · rw [List.concat_eq_append, ← List.cons_append, ← List.append_assoc] at heq
    obtain ⟨rfl, -⟩ := List.append_inj' heq rfl
    exact .inl ⟨before, after, rfl, hh⟩

/-- What is recorded for a handle behind one more operation, if the root of the handle was
that of `g` before. -/
theorem recordingsOf_append_singleton
    (hknown : ∀ other e, .record other e ∈ ops → other < (roots ops).length)
    (hroot : root (ops ++ [op]) h = root ops g) :
    recordingsOf (ops ++ [op]) h = recordingsOf ops g ++
      (op.recording? fun other => root (ops ++ [op]) other == root ops g).toList := by
  rw [recordingsOf, recordingsOf, List.filterMap_append, hroot]
  congr 1
  refine List.filterMap_congr fun op' hop' => ?_
  cases op' with
  | record other e =>
    rw [Operation.recording?, Operation.recording?, root_append_singleton (hknown other e hop')]
  | share _ | create | report _ => rfl

/-! ## Handles -/

section

variable {r r' : Registry} {place : Nat}

theorem Registry.place_of_append (hhandles : r'.handles = r.handles ++ [place])
    (hg : g < r.handles.length) : r'.place g = r.place g := by
  rw [Registry.place, hhandles, List.getD_append _ _ _ _ hg]
  rfl

theorem Registry.place_length (hhandles : r'.handles = r.handles ++ [place]) :
    r'.place r.handles.length = place := by
  rw [Registry.place, hhandles, List.getD_append_right _ _ _ _ (Nat.le_refl _), Nat.sub_self]
  rfl

end

/-- The handles of a session are those that operations made: two lead to one tally if and
only if they have one root, and each comes from its root by sharing. -/
structure Session.Handles (s : Session) (ops : List Operation) : Prop where
  count : s.handleCount = (roots ops).length
  place_lt : ∀ g < s.handleCount, s.registry.place g < s.registry.tallies.length
  root_lt : ∀ g < s.handleCount, root ops g < s.handleCount
  same : ∀ g < s.handleCount, ∀ h < s.handleCount,
    s.registry.place g = s.registry.place h ↔ root ops g = root ops h
  reached : ∀ g < s.handleCount, Relation.EqvGen (SharedFrom ops) (root ops g) g
  copied (g h : Nat) : SharedFrom ops g h →
    g < s.handleCount ∧ h < s.handleCount ∧ root ops g = root ops h

namespace Session.Handles

theorem start : Session.start.Handles [] := by
  have hzero : ∀ g < Session.start.handleCount, g = 0 := fun g hg => Nat.lt_one_iff.mp hg
  refine ⟨rfl, ?_, ?_, ?_, ?_, ?_⟩
  · intro g hg
    rw [hzero g hg]
    exact Nat.one_pos
  · intro g hg
    rw [hzero g hg]
    exact Nat.one_pos
  · intro g hg h hh
    rw [hzero g hg, hzero h hh]
    exact iff_of_true rfl rfl
  · intro g hg
    rw [hzero g hg]
    exact .refl 0
  · rintro g h ⟨before, after, heq, -⟩
    cases before <;> cases heq

/-- Two handles have one root if and only if one comes from the other by sharing. -/
theorem root_eq_iff (hs : s.Handles ops) (hg : g < s.handleCount) (hh : h < s.handleCount) :
    root ops g = root ops h ↔ Relation.EqvGen (SharedFrom ops) g h := by
  constructor
  · intro hroot
    exact (hs.reached g hg).symm.trans _ _ _ (hroot ▸ hs.reached h hh)
  · intro hkin
    clear hg hh
    induction hkin with
    | rel g h hcopy => exact (hs.copied g h hcopy).2.2
    | refl g => rfl
    | symm g h _ ih => exact ih.symm
    | trans f g h _ _ ih ih' => exact ih.trans ih'

/-- Handles are kept by an operation that makes none. -/
theorem keep (hs : s.Handles ops) (hhandles : s'.registry.handles = s.registry.handles)
    (htallies : s'.registry.tallies.length = s.registry.tallies.length)
    (hroots : roots (ops ++ [op]) = roots ops) (hop : ∀ g, op ≠ .share g) :
    s'.Handles (ops ++ [op]) := by
  have hcount : s'.handleCount = s.handleCount := congrArg List.length hhandles
  have hplace : s'.registry.place = s.registry.place := by
    funext g
    rw [Registry.place, Registry.place, hhandles]
  have hroot : root (ops ++ [op]) = root ops := by
    funext g
    rw [root, root, hroots]
  refine ⟨?_, ?_, ?_, ?_, ?_, ?_⟩
  · rw [hcount, hroots, hs.count]
  · rw [hcount, hplace, htallies]
    exact hs.place_lt
  · rw [hcount, hroot]
    exact hs.root_lt
  · rw [hcount, hplace, hroot]
    exact hs.same
  · rw [hcount, hroot]
    exact fun g hg => (hs.reached g hg).mono fun _ _ hcopy => hcopy.append op
  · rw [hcount, hroot]
    intro g h hcopy
    obtain hcopy | ⟨heq, -⟩ := sharedFrom_append_singleton hcopy
    · exact hs.copied g h hcopy
    · exact absurd heq (hop g)

/-- A handle is added whose root `r` tells to which tally it leads. -/
theorem add (hs : s.Handles ops) {place r : Nat}
    (hhandles : s'.registry.handles = s.registry.handles ++ [place])
    (htallies : s.registry.tallies.length ≤ s'.registry.tallies.length)
    (hplace : place < s'.registry.tallies.length)
    (hroots : roots (ops ++ [op]) = roots ops ++ [r]) (hr : r ≤ s.handleCount)
    (hsame : ∀ g < s.handleCount, s.registry.place g = place ↔ root ops g = r)
    (hreached : Relation.EqvGen (SharedFrom (ops ++ [op])) r s.handleCount)
    (hcopied : ∀ g, op = .share g → g < s.handleCount ∧ root ops g = r) :
    s'.Handles (ops ++ [op]) := by
  have hcount : s'.handleCount = s.handleCount + 1 := by
    rw [handleCount, hhandles, List.length_append]
    rfl
  have hroot : ∀ g < s.handleCount, root (ops ++ [op]) g = root ops g :=
    fun g hg => root_append_singleton (hs.count ▸ hg) op
  have hnew : root (ops ++ [op]) s.handleCount = r := root_of_length hs.count hroots
  have hplaces : ∀ g < s.handleCount, s'.registry.place g = s.registry.place g :=
    fun g hg => Registry.place_of_append hhandles hg
  have hnewPlace : s'.registry.place s.handleCount = place := Registry.place_length hhandles
  have hcases : ∀ g < s'.handleCount, g < s.handleCount ∨ g = s.handleCount :=
    fun g hg => Nat.lt_succ_iff_lt_or_eq.mp (Nat.lt_of_lt_of_eq hg hcount)
  refine ⟨?_, ?_, ?_, ?_, ?_, ?_⟩
  · rw [hcount, hroots, List.length_append, ← hs.count]
    rfl
  · intro g hg
    obtain hg | rfl := hcases g hg
    · rw [hplaces g hg]
      exact Nat.lt_of_lt_of_le (hs.place_lt g hg) htallies
    · rwa [hnewPlace]
  · intro g hg
    rw [hcount]
    obtain hg | rfl := hcases g hg
    · rw [hroot g hg]
      exact Nat.lt_succ_of_lt (hs.root_lt g hg)
    · rw [hnew]
      exact Nat.lt_succ_of_le hr
  · intro g hg h hh
    obtain hg | rfl := hcases g hg
    · obtain hh | rfl := hcases h hh
      · rw [hplaces g hg, hplaces h hh, hroot g hg, hroot h hh]
        exact hs.same g hg h hh
      · rw [hplaces g hg, hnewPlace, hroot g hg, hnew]
        exact hsame g hg
    · obtain hh | rfl := hcases h hh
      · rw [hplaces h hh, hnewPlace, hroot h hh, hnew, eq_comm, @eq_comm _ r]
        exact hsame h hh
      · exact iff_of_true rfl rfl
  · intro g hg
    obtain hg | rfl := hcases g hg
    · rw [hroot g hg]
      exact (hs.reached g hg).mono fun _ _ hcopy => hcopy.append op
    · rw [hnew]
      exact hreached
  · intro g h hcopy
    rw [hcount]
    obtain hcopy | ⟨heq, rfl⟩ := sharedFrom_append_singleton hcopy
    · obtain ⟨hg, hh, hgh⟩ := hs.copied g h hcopy
      rw [hroot g hg, hroot h hh]
      exact ⟨Nat.lt_succ_of_lt hg, Nat.lt_succ_of_lt hh, hgh⟩
    · obtain ⟨hg, hgr⟩ := hcopied g heq
      rw [← hs.count, hroot g hg, hnew]
      exact ⟨Nat.lt_succ_of_lt hg, Nat.lt_succ_self _, hgr⟩

end Session.Handles

/-! ## What is recorded -/

/-- A tally that takes the place of another is seen through its handles and no others. -/
theorem Registry.report_set (r : Registry) {handle : Nat} (t : Tally)
    (hplace : r.place handle < r.tallies.length) (g : Nat) :
    ({ r with tallies := r.tallies.set (r.place handle) t } : Registry).report g =
      if r.place g = r.place handle then t else r.report g := by
  simp only [report, place, List.getD_eq_getElem?_getD, List.getElem?_set] at hplace ⊢
  split
  case isTrue heq => rw [if_pos heq.symm, Option.getD_some]
  case isFalse hne => rw [if_neg (Ne.symm hne)]

/-- A session is what operations make of the first one: every tally summarizes what was
recorded through its handles. -/
structure Session.Follows (s : Session) (ops : List Operation) : Prop where
  handles : s.Handles ops
  known (g : Nat) (e : Recording) : .record g e ∈ ops → g < s.handleCount
  summarizes : ∀ g < s.handleCount, (s.registry.report g).Summarizes (recordingsOf ops g)

namespace Session.Follows

theorem start : Session.start.Follows [] where
  handles := Handles.start
  known _ _ hmem := absurd hmem List.not_mem_nil
  summarizes g hg := by
    rw [Nat.lt_one_iff.mp hg]
    exact Tally.summarizes_empty

theorem recordingsOf_append (hs : s.Follows ops) (hroot : root (ops ++ [op]) h = root ops g) :
    recordingsOf (ops ++ [op]) h = recordingsOf ops g ++
      (op.recording? fun other => root (ops ++ [op]) other == root ops g).toList :=
  recordingsOf_append_singleton
    (fun other e hmem => Nat.lt_of_lt_of_eq (hs.known other e hmem) hs.handles.count) hroot

theorem record (hs : s.Follows ops) {handle : Nat} {e : Recording} {t : Tally}
    (hhandle : handle < s.handleCount)
    (hrecord : (s.registry.report handle).record e.task e.request e.outcome = (t, none)) :
    Session.Follows { s with registry :=
      { s.registry with tallies := s.registry.tallies.set (s.registry.place handle) t } }
      (ops ++ [.record handle e]) := by
  have hroots : roots (ops ++ [.record handle e]) = roots ops := roots_append_singleton ops _
  have hroot : root (ops ++ [.record handle e]) = root ops := by
    funext g
    rw [root, root, hroots]
  refine ⟨hs.handles.keep rfl (List.length_set ..) hroots (fun _ => Operation.noConfusion), ?_, ?_⟩
  · intro g e' hmem
    obtain hmem | hmem := List.mem_append.mp hmem
    · exact hs.known g e' hmem
    · cases List.mem_singleton.mp hmem
      exact hhandle
  · intro g hg
    have hg : g < s.handleCount := hg
    have hsame := hs.handles.same g hg handle hhandle
    rw [Registry.report_set _ _ (hs.handles.place_lt handle hhandle),
      hs.recordingsOf_append (congrFun hroot g), Operation.recording?, hroot]
    by_cases heq : root ops g = root ops handle
    · rw [if_pos (hsame.mpr heq), if_pos (beq_iff_eq.mpr heq.symm), Option.toList]
      -- All handles of the tally see the same recordings.
      have hreport : s.registry.report handle = s.registry.report g := by
        rw [Registry.report, Registry.report, hsame.mpr heq]
      exact (hs.summarizes g hg).record e (hreport ▸ hrecord)
    · rw [if_neg (mt hsame.mp heq), if_neg (by simpa using Ne.symm heq), Option.toList,
        List.append_nil]
      exact hs.summarizes g hg

/-- An operation that records nothing leaves to each handle what another one had, or gives it
an empty tally of its own. -/
theorem keep (hs : s.Follows ops) (hhandles : s'.Handles (ops ++ [op]))
    (hop : ∀ p, op.recording? p = none)
    (hreports : ∀ h < s'.handleCount,
      (∃ g < s.handleCount, s'.registry.report h = s.registry.report g ∧
        root (ops ++ [op]) h = root ops g) ∨
      s'.registry.report h = .empty ∧ ∀ g < s.handleCount, root ops g ≠ root (ops ++ [op]) h) :
    s'.Follows (ops ++ [op]) := by
  refine ⟨hhandles, ?_, ?_⟩
  · intro g e hmem
    obtain hmem | hmem := List.mem_append.mp hmem
    · have hcount := length_roots_le ops op
      rw [← hs.handles.count, ← hhandles.count] at hcount
      exact Nat.lt_of_lt_of_le (hs.known g e hmem) hcount
    · have := hop fun _ => true
      rw [← List.mem_singleton.mp hmem] at this
      cases this
  · intro h hh
    obtain ⟨g, hg, hreport, hroot⟩ | ⟨hreport, hroot⟩ := hreports h hh
    · rw [hs.recordingsOf_append hroot, hop, Option.toList, List.append_nil, hreport]
      exact hs.summarizes g hg
    · have hnone : recordingsOf (ops ++ [op]) h = [] := by
        refine List.filterMap_eq_nil_iff.mpr fun op' hop' => ?_
        obtain hop' | hop' := List.mem_append.mp hop'
        · cases op' with
          | record g e =>
            have hg := hs.known g e hop'
            rw [Operation.recording?, root_append_singleton (hs.handles.count ▸ hg)]
            exact if_neg (by simpa using hroot g hg)
          | share _ | create | report _ => rfl
        · rw [List.mem_singleton.mp hop', hop]
      rw [hnone, hreport]
      exact Tally.summarizes_empty

theorem report (hs : s.Follows ops) (handle : Nat) (reports : List Tally) :
    Session.Follows { s with reports } (ops ++ [.report handle]) := by
  have hroots : roots (ops ++ [.report handle]) = roots ops := roots_append_singleton ops _
  refine hs.keep (hs.handles.keep rfl rfl hroots fun _ => Operation.noConfusion) (fun _ => rfl) ?_
  exact fun g hg => .inl ⟨g, hg, rfl, by rw [root, root, hroots]⟩

theorem share (hs : s.Follows ops) {handle : Nat} (hhandle : handle < s.handleCount) :
    Session.Follows { s with registry := s.registry.share handle } (ops ++ [.share handle]) := by
  have hroots : roots (ops ++ [.share handle]) = roots ops ++ [root ops handle] :=
    roots_append_singleton ops _
  have hcopy : SharedFrom (ops ++ [.share handle]) handle s.handleCount :=
    ⟨ops, [], rfl, hs.handles.count⟩
  have hreached := (hs.handles.reached handle hhandle).mono
    fun _ _ hcopy => hcopy.append (.share handle)
  have hhandles : Session.Handles { s with registry := s.registry.share handle }
      (ops ++ [.share handle]) :=
    hs.handles.add rfl (Nat.le_refl _) (hs.handles.place_lt handle hhandle) hroots
      (Nat.le_of_lt (hs.handles.root_lt handle hhandle))
      (fun g hg => hs.handles.same g hg handle hhandle) (hreached.trans _ _ _ (.rel _ _ hcopy))
      fun g hg => by cases hg; exact ⟨hhandle, rfl⟩
  refine hs.keep hhandles (fun _ => rfl) fun g hg => .inl ?_
  obtain hg | rfl := Nat.lt_succ_iff_lt_or_eq.mp (Nat.lt_of_lt_of_eq hg List.length_append)
  · refine ⟨g, hg, ?_, root_append_singleton (hs.handles.count ▸ hg) _⟩
    rw [Registry.report, Registry.place_of_append rfl hg]
    rfl
  · refine ⟨handle, hhandle, ?_, root_of_length hs.handles.count hroots⟩
    rw [Registry.report, Registry.place_length rfl]
    rfl

theorem create (hs : s.Follows ops) :
    Session.Follows { s with registry := s.registry.create } (ops ++ [.create]) := by
  have hroots : roots (ops ++ [.create]) = roots ops ++ [s.handleCount] := by
    rw [roots_append_singleton, hs.handles.count]
    rfl
  have hnew : root (ops ++ [.create]) s.handleCount = s.handleCount :=
    root_of_length hs.handles.count hroots
  have htallies : (s.registry.tallies ++ [Tally.empty]).length = s.registry.tallies.length + 1 :=
    List.length_append
  -- Neither the place nor the root of the new handle is that of an older one.
  have hplace : ∀ g < s.handleCount, s.registry.place g ≠ s.registry.tallies.length :=
    fun g hg => Nat.ne_of_lt (hs.handles.place_lt g hg)
  have hroot : ∀ g < s.handleCount, root ops g ≠ s.handleCount :=
    fun g hg => Nat.ne_of_lt (hs.handles.root_lt g hg)
  have hhandles : Session.Handles { s with registry := s.registry.create } (ops ++ [.create]) :=
    hs.handles.add rfl (htallies ▸ Nat.le_succ _) (htallies ▸ Nat.lt_succ_self _) hroots
      (Nat.le_refl _) (fun g hg => iff_of_false (hplace g hg) (hroot g hg)) (.refl _)
      fun _ => Operation.noConfusion
  refine hs.keep hhandles (fun _ => rfl) fun g hg => ?_
  obtain hg | rfl := Nat.lt_succ_iff_lt_or_eq.mp (Nat.lt_of_lt_of_eq hg List.length_append)
  · refine .inl ⟨g, hg, ?_, root_append_singleton (hs.handles.count ▸ hg) _⟩
    rw [Registry.report, Registry.place_of_append rfl hg]
    exact List.getD_append _ _ _ _ (hs.handles.place_lt g hg)
  · refine .inr ⟨?_, fun g hg => ?_⟩
    · rw [Registry.report, Registry.place_length rfl]
      exact (List.getD_append_right _ _ _ _ (Nat.le_refl _)).trans (by rw [Nat.sub_self]; rfl)
    · exact hnew.symm ▸ hroot g hg

end Session.Follows

namespace Session

theorem follows_of_step {ops : List Operation} {op : Operation} {s s' : Session}
    (hs : s.Follows ops) (h : s.step? op = some s') : s'.Follows (ops ++ [op]) := by
  cases op with
  | record handle e =>
    rcases hrecord : (s.registry.report handle).record e.task e.request e.outcome with ⟨t, fault⟩
    simp only [step?, Registry.record, hrecord] at h
    split at h
    case isTrue hok =>
      obtain ⟨hhandle, rfl⟩ := hok
      cases h
      exact hs.record hhandle hrecord
    case isFalse => cases h
  | share handle =>
    simp only [step?] at h
    split at h
    case isTrue hhandle =>
      cases h
      exact hs.share hhandle
    case isFalse => cases h
  | create =>
    cases h
    exact hs.create
  | report handle =>
    simp only [step?] at h
    split at h
    case isTrue =>
      cases h
      exact hs.report handle _
    case isFalse => cases h

theorem run?_cons (s : Session) (op : Operation) (ops : List Operation) :
    s.run? (op :: ops) = (s.step? op).bind (·.run? ops) := rfl

theorem run?_append (s : Session) (ops ops' : List Operation) :
    s.run? (ops ++ ops') = (s.run? ops).bind (·.run? ops') := List.foldlM_append

/-- Whatever is done with shared tallies, they follow it. -/
theorem Follows.run {s s' : Session} {before ops : List Operation} (hs : s.Follows before)
    (h : s.run? ops = some s') : s'.Follows (before ++ ops) := by
  induction ops generalizing s before with
  | nil =>
    cases h
    rw [List.append_nil]
    exact hs
  | cons op ops ih =>
    rw [run?_cons] at h
    obtain ⟨s₁, hstep, hrun⟩ := Option.bind_eq_some_iff.mp h
    rw [List.append_cons]
    exact ih (follows_of_step hs hstep) hrun

/-! ## Reports -/

/-- An operation takes a report or none, and leaves those that were taken. -/
theorem reports_of_step {s s' : Session} {op : Operation} (h : s.step? op = some s') :
    ∃ taken, s'.reports = s.reports ++ taken ∧ taken.length = [op].countP (·.isReport) := by
  cases op with
  | record handle e =>
    rcases hrecord : s.registry.record handle e.task e.request e.outcome with ⟨registry, fault⟩
    simp only [step?, hrecord] at h
    split at h <;> cases h
    exact ⟨[], (List.append_nil _).symm, rfl⟩
  | share handle =>
    simp only [step?] at h
    split at h <;> cases h
    exact ⟨[], (List.append_nil _).symm, rfl⟩
  | create =>
    cases h
    exact ⟨[], (List.append_nil _).symm, rfl⟩
  | report handle =>
    simp only [step?] at h
    split at h <;> cases h
    exact ⟨_, rfl, rfl⟩

theorem reports_of_run {s s' : Session} {ops : List Operation} (h : s.run? ops = some s') :
    ∃ taken, s'.reports = s.reports ++ taken ∧ taken.length = ops.countP (·.isReport) := by
  induction ops generalizing s with
  | nil =>
    cases h
    exact ⟨[], (List.append_nil _).symm, rfl⟩
  | cons op ops ih =>
    rw [run?_cons] at h
    obtain ⟨s₁, hstep, hrun⟩ := Option.bind_eq_some_iff.mp h
    obtain ⟨taken, hreports, hlength⟩ := reports_of_step hstep
    obtain ⟨taken', hreports', hlength'⟩ := ih hrun
    refine ⟨taken ++ taken', ?_, ?_⟩
    · rw [hreports', hreports, List.append_assoc]
    · rw [List.length_append, hlength, hlength', ← List.countP_append, List.singleton_append]

/-- A report that was taken between other operations summarizes what was recorded before it
through the handles of its tally, whatever happened later. -/
theorem summarizes_of_report {before after : List Operation} {handle : Nat} {s : Session}
    (h : start.run? (before ++ .report handle :: after) = some s) :
    ∃ report, s.reports[before.countP (·.isReport)]? = some report ∧
      report.Summarizes (recordingsOf before handle) := by
  rw [run?_append] at h
  obtain ⟨s₁, hbefore, hrest⟩ := Option.bind_eq_some_iff.mp h
  rw [run?_cons] at hrest
  obtain ⟨s₂, hstep, hafter⟩ := Option.bind_eq_some_iff.mp hrest
  obtain ⟨taken, htaken, hlength⟩ := reports_of_run hbefore
  obtain ⟨later, hlater, -⟩ := reports_of_run hafter
  simp only [step?] at hstep
  split at hstep <;> cases hstep
  case isTrue hhandle =>
    have hs₁ : s₁.Follows before := by simpa using Follows.start.run hbefore
    refine ⟨s₁.registry.report handle, ?_, hs₁.summarizes handle hhandle⟩
    rw [start, List.nil_append] at htaken
    rw [hlater, htaken, ← hlength, List.append_assoc,
      List.getElem?_append_right (Nat.le_refl _), Nat.sub_self]
    rfl

/-- Whatever is done with shared tallies without a fault, each handle leads to the summary of
what was recorded through the handles that come from one with it by sharing; and so does each
report, up to when it was taken. If the requests of each task are alike, the order in which
they are recorded makes no difference. -/
theorem reports_summarize_recordings {ops : List Operation} {s : Session}
    (h : start.run? ops = some s) :
    (∀ g < s.handleCount, ∀ g' < s.handleCount,
      root ops g = root ops g' ↔ Relation.EqvGen (SharedFrom ops) g g') ∧
    (∀ g < s.handleCount, (s.registry.report g).Summarizes (recordingsOf ops g)) ∧
    (∀ before handle after, ops = before ++ .report handle :: after →
      ∃ report, s.reports[before.countP (·.isReport)]? = some report ∧
        report.Summarizes (recordingsOf before handle)) ∧
    ∀ ops' s' g g', start.run? ops' = some s' → g < s.handleCount → g' < s'.handleCount →
      (recordingsOf ops g).Perm (recordingsOf ops' g') →
      (∀ e ∈ recordingsOf ops g, ∀ e' ∈ recordingsOf ops g, e.task = e'.task →
        e.request.method = e'.request.method ∧ e.request.path = e'.request.path) →
      s.registry.report g = s'.registry.report g' := by
  have hs : s.Follows ops := Follows.start.run h
  refine ⟨?_, hs.summarizes, ?_, ?_⟩
  · exact fun g hg g' hg' => hs.handles.root_eq_iff hg hg'
  · rintro before handle after rfl
    exact summarizes_of_report h
  · intro ops' s' g g' h' hg hg' hperm halike
    have hs' : s'.Follows ops' := Follows.start.run h'
    exact (hs.summarizes g hg).eq_of_perm (hs'.summarizes g' hg') hperm halike

/-- A success and a failure of one task. -/
def success : Recording :=
  ⟨"get_time", ⟨.get, "/webhook/AAAA", .null⟩, ⟨some 200, .ofWord 1, none⟩⟩

def failure : Recording :=
  ⟨"get_time", ⟨.get, "/webhook/AAAA", .null⟩, ⟨none, .ofWord 3, some "connection refused"⟩⟩

/-- Two handles of one tally and one of another. The report comes before the last recording. -/
def sharedUse (e e' : Recording) : List Operation :=
  [.share 0, .create, .record 2 e', .record 1 e, .record 0 e', .report 0, .record 1 e]

theorem reports_of_two_handles :
    ∃ s s' report, start.run? (sharedUse success failure) = some s ∧
      start.run? [.record 0 failure, .record 0 success, .record 0 success] = some s' ∧
      s.reports = [report] ∧ report.Summarizes [success, failure] ∧
      s.registry.report 1 = s'.registry.report 0 := by
  obtain ⟨s, hs, hcount, report, hreport⟩ :
      ∃ s, start.run? (sharedUse success failure) = some s ∧ s.handleCount = 3 ∧
        ∃ report, s.reports = [report] := ⟨_, rfl, rfl, _, rfl⟩
  obtain ⟨s', hs', hcount'⟩ :
      ∃ s', start.run? [.record 0 failure, .record 0 success, .record 0 success] = some s' ∧
        s'.handleCount = 1 := ⟨_, rfl, rfl⟩
  obtain ⟨-, -, htaken, horder⟩ := reports_summarize_recordings hs
  obtain ⟨report', hreport', hsummary⟩ := htaken
    [.share 0, .create, .record 2 failure, .record 1 success, .record 0 failure] 0
    [.record 1 success] rfl
  rw [hreport] at hreport'
  cases hreport'
  refine ⟨s, s', report, hs, hs', hreport, hsummary, ?_⟩
  have hperm : [success, failure, success].Perm [failure, success, success] := .swap ..
  have halike : ∀ e ∈ [success, failure, success], ∀ e' ∈ [success, failure, success],
      e.task = e'.task →
        e.request.method = e'.request.method ∧ e.request.path = e'.request.path := by
    simp [success, failure]
  exact horder _ s' 1 0 hs' (by rw [hcount]; decide) (by rw [hcount']; decide) hperm halike

end Session
end OperatorKit.Load
