import OperatorKit.Load.Plan
import OperatorKit.Proofs.Text.Trailing

/-!
# Plans and the addresses in them

A host is trimmed when a plan is made of an order and once more when a path is joined to it.
Trimming twice is trimming once, so an address is the same whether it is made of the host that was
ordered or of the one that is planned, and slashes between host and path do not count.
-/

namespace OperatorKit.Load

/-- A row of slashes. -/
def slashes (n : Nat) : String := String.ofList (List.replicate n '/')

namespace Plan

variable {h t : String}

/-! ## Trimmed hosts -/

theorem toList_trimHost (h : String) : (trimHost h).toList = Text.dropTrailing '/' h.toList :=
  String.toList_ofList

theorem trimHost_trimHost (h : String) : trimHost (trimHost h) = trimHost h := by
  rw [← String.toList_inj]
  simp only [toList_trimHost, Text.dropTrailing_dropTrailing]

theorem trimHost_append_slashes (h : String) (n : Nat) : trimHost (h ++ slashes n) = trimHost h := by
  rw [← String.toList_inj]
  simp only [toList_trimHost, slashes, String.toList_append, String.toList_ofList,
    Text.dropTrailing_append_replicate]

theorem trimHost_eq_self_iff : trimHost h = h ↔ h.toList.getLast? ≠ some '/' := by
  rw [← String.toList_inj, toList_trimHost, Text.dropTrailing_eq_self_iff]

theorem getLast?_of_mem_schemes {scheme : String} (h : scheme ∈ schemes) :
    scheme.toList.getLast? = some '/' := by
  simp only [schemes, List.mem_cons, List.not_mem_nil, or_false] at h
  obtain rfl | rfl := h <;> rfl

/-- A host is accepted if it has a known scheme when it is trimmed. The slashes of the scheme are
not at its end then, so something stands behind them. -/
theorem host?_eq_some_iff :
    host? h = some t ↔
      trimHost h = t ∧ ∃ scheme ∈ schemes, ∃ rest, rest ≠ "" ∧ t = scheme ++ rest := by
  simp only [host?, List.any_eq_true, List.isPrefixOf_iff_prefix]
  constructor
  · intro heq
    split at heq
    case isFalse => cases heq
    case isTrue hscheme =>
      cases heq
      obtain ⟨scheme, hmem, rest, hrest⟩ := hscheme
      refine ⟨rfl, scheme, hmem, String.ofList rest, ?_, ?_⟩
      · intro hnil
        rw [String.ofList_eq_empty_iff.mp hnil, List.append_nil] at hrest
        refine trimHost_eq_self_iff.mp (trimHost_trimHost h) ?_
        rw [← hrest, getLast?_of_mem_schemes hmem]
      · rw [← String.toList_inj, String.toList_append, String.toList_ofList, hrest]
  · rintro ⟨rfl, scheme, hmem, rest, -, hrest⟩
    have hscheme : ∃ scheme ∈ schemes, scheme.toList <+: (trimHost h).toList :=
      ⟨scheme, hmem, rest.toList, by rw [hrest, String.toList_append]⟩
    rw [if_pos hscheme]

/-! ## Joined paths -/

theorem joinUrl_eq (h path : String) :
    joinUrl h path = trimHost h ++ "/" ++ String.ofList (path.toList.dropWhile (· == '/')) := by
  rw [← String.toList_inj]
  simp [joinUrl, toList_trimHost]

theorem joinUrl_trimHost (h path : String) : joinUrl (trimHost h) path = joinUrl h path := by
  rw [joinUrl_eq, joinUrl_eq, trimHost_trimHost]

theorem joinUrl_slashes (h path : String) (j k : Nat) :
    joinUrl (h ++ slashes j) (slashes k ++ path) = joinUrl h path := by
  rw [joinUrl_eq, joinUrl_eq, trimHost_append_slashes, slashes, String.toList_append,
    String.toList_ofList, Text.dropWhile_replicate_append]

/-- Behind the slash in front of it, the path of a webhook begins with a letter. -/
theorem joinUrl_webhookPath (h id : String) :
    joinUrl h (webhookPath id) = trimHost h ++ "/webhook/" ++ id := by
  rw [joinUrl_eq, ← String.toList_inj]
  simp [webhookPath]

/-! ## Planned hosts -/

/-- An order has a plan if its host is accepted, it has users, and its spawn rate and its pauses can
be kept. The plan has all else as it was ordered. -/
theorem ofOrder_eq_ok_iff {o : Order} {plan : Plan} :
    ofOrder o = .ok plan ↔
      ∃ host interval pauses, host? o.host = some host ∧ o.users ≠ 0 ∧
        spawnInterval? o.spawnRate = some interval ∧
        PauseRange.ofSeconds? o.minWait o.maxWait = some pauses ∧
        plan = {
          host, users := o.users, spawnRate := o.spawnRate, spawnInterval := interval
          runTime := o.runTime, pauses, picker := o.picker, weights := o.weights
          timeout := Span.ofWord o.timeout } := by
  constructor
  · intro h
    simp only [ofOrder] at h
    split at h
    case h_1 => cases h
    case h_2 host hhost =>
      split at h
      case isTrue => cases h
      case isFalse husers =>
        split at h
        case h_1 => cases h
        case h_2 interval hinterval =>
          split at h
          case h_1 => cases h
          case h_2 pauses hpauses =>
            cases h
            exact ⟨host, interval, pauses, hhost, husers, hinterval, hpauses, rfl⟩
  · rintro ⟨host, interval, pauses, hhost, husers, hinterval, hpauses, rfl⟩
    simp only [ofOrder, hhost, husers, hinterval, hpauses, if_false]

/-- Whatever is ordered, an accepted host is planned with its scheme, something behind it and no
slash at its end. To order the planned host makes the same plan. An address is the same for the
host that was ordered and the planned one, and that of a webhook is the planned host, the fixed part
of the path and the webhook's name, whatever characters that begins with. No number of slashes at
the end of a host or at the front of a path changes an address. -/
theorem planned_hosts_make_same_addresses :
    (∀ o plan, ofOrder o = .ok plan →
      plan.host.toList.getLast? ≠ some '/' ∧
      (∃ scheme ∈ ["http://", "https://"], ∃ rest, rest ≠ "" ∧ plan.host = scheme ++ rest) ∧
      trimHost plan.host = plan.host ∧ ofOrder { o with host := plan.host } = .ok plan ∧
      (∀ path, joinUrl o.host path = joinUrl plan.host path) ∧
      ∀ id, joinUrl plan.host (webhookPath id) = plan.host ++ "/webhook/" ++ id) ∧
    ∀ h path j k, joinUrl (h ++ slashes j) (slashes k ++ path) = joinUrl h path := by
  refine ⟨fun o plan hplan => ?_, joinUrl_slashes⟩
  obtain ⟨host, interval, pauses, hhost, husers, hinterval, hpauses, rfl⟩ :=
    ofOrder_eq_ok_iff.mp hplan
  obtain ⟨rfl, hscheme⟩ := host?_eq_some_iff.mp hhost
  have htrimmed : trimHost (trimHost o.host) = trimHost o.host := trimHost_trimHost o.host
  refine ⟨trimHost_eq_self_iff.mp htrimmed, hscheme, htrimmed, ?_, fun path => ?_, fun id => ?_⟩
  · exact ofOrder_eq_ok_iff.mpr ⟨_, interval, pauses, host?_eq_some_iff.mpr ⟨htrimmed, hscheme⟩,
      husers, hinterval, hpauses, rfl⟩
  · exact (joinUrl_trimHost o.host path).symm
  · rw [joinUrl_webhookPath, htrimmed]

/-- An order of one user of a host with slashes at its end. -/
def slashedOrder : Order where
  host := "https://localhost//"
  users := 1
  spawnRate := 1
  runTime := none
  minWait := 1
  maxWait := 2
  picker := .random
  weights := []
  timeout := 30
  scenario := .get "/A"

theorem planned_hosts_make_same_addresses_of_slashes :
    ∃ plan, ofOrder slashedOrder = .ok plan ∧ plan.host = "https://localhost" ∧
      joinUrl "https://localhost//" "a" = joinUrl plan.host "a" ∧
      joinUrl plan.host (webhookPath "/A") = "https://localhost/webhook//A" ∧
      joinUrl ("https://localhost" ++ slashes 2) (slashes 3 ++ "a") =
        joinUrl "https://localhost" "a" := by
  obtain ⟨haccepted, hslashes⟩ := planned_hosts_make_same_addresses
  have hhost : host? slashedOrder.host = some "https://localhost" := by decide +kernel
  have hinterval : spawnInterval? slashedOrder.spawnRate = some (.ofWord 1) := by decide +kernel
  have hpauses : PauseRange.ofSeconds? slashedOrder.minWait slashedOrder.maxWait =
      some ⟨.ofWord 1, .ofWord 2, Span.le_def.mpr (by decide)⟩ := by decide +kernel
  have hplan := ofOrder_eq_ok_iff.mpr ⟨_, _, _, hhost, Nat.one_ne_zero, hinterval, hpauses, rfl⟩
  obtain ⟨-, -, -, -, hpath, hwebhook⟩ := haccepted _ _ hplan
  exact ⟨_, hplan, rfl, hpath "a", hwebhook "/A", hslashes _ _ 2 3⟩

end Plan
end OperatorKit.Load
