import Ccflare.WindowRebuild

/-!
Snapshots of a capacity state. The window is evicted by requests and polls only, and a
snapshot reads the running total as the last of them left it. What it shows is measured
against the entries that were recorded, whether or not they are still in the window.
-/

namespace Ccflare.CapacitySnapshots

open MachineNumber RollingWindow CapacityState StableSort WindowRebuild

variable {K : Type} [Field K] [LinearOrder K]

/-- The entry a call records, whatever is evicted later. -/
def recordedBy : Call K → Option (Int × K)
  | .onRequest nowMs weightedTokens =>
      if weightedTokens ≤ 0 then none else some (nowMs, weightedTokens)
  | .onUsagePoll .. => none

theorem recorded_time (call : Call K) (entry : Int × K) (made : recordedBy call = some entry) :
    entry.1 = call.nowMs := by
  cases call with
  | onUsagePoll nowMs u => cases made
  | onRequest nowMs weightedTokens =>
      simp only [recordedBy] at made
      split at made
      · cases made
      · obtain rfl := Option.some.inj made
        rfl

/-- Everything recorded for an account since its state was put into the cache. -/
def recordedEntries (start : AccountCapacityState K) (calls : List (Call K)) : List (Int × K) :=
  start.window5h ++ calls.filterMap recordedBy

/-- Recorded entries that have left the window. -/
def forgotten (recorded : List (Int × K)) (s : AccountCapacityState K) : List (Int × K) :=
  recorded.take (recorded.length - s.window5h.length)

def inLastFiveHours (nowMs : Int) (entry : Int × K) : Bool :=
  decide (nowMs - window5hMs ≤ entry.1 ∧ entry.1 ≤ nowMs)

/-- The snapshot at `nowMs` shows what was recorded in the last five hours, and computes
with that. -/
structure ShowsLastFiveHours (functions : Functions K) (s : AccountCapacityState K)
    (recorded : List (Int × K)) (nowMs : Int) : Prop where
  weighted : (buildSnapshot functions s nowMs).proxyTokens5hWeighted =
    total (recorded.filter (inLastFiveHours nowMs))
  remaining : ((buildSnapshot functions s nowMs).remainingPessimistic,
      (buildSnapshot functions s nowMs).remainingExpected,
      (buildSnapshot functions s nowMs).remainingOptimistic) =
    { s with proxyTokens5hWeighted :=
        total (recorded.filter (inLastFiveHours nowMs)) }.remainingTokensEstimate functions
  utilization : (buildSnapshot functions s nowMs).utilizationPct =
    { s with proxyTokens5hWeighted :=
        total (recorded.filter (inLastFiveHours nowMs)) }.utilizationPct functions
  stops : (buildSnapshot functions s nowMs).shouldStopAssign =
    { s with proxyTokens5hWeighted :=
        total (recorded.filter (inLastFiveHours nowMs)) }.shouldStopAssign functions

-- The other figures are computed from the running total alone.
theorem shows_iff (functions : Functions K) (s : AccountCapacityState K)
    (recorded : List (Int × K)) (nowMs : Int) :
    ShowsLastFiveHours functions s recorded nowMs ↔
      s.proxyTokens5hWeighted = total (recorded.filter (inLastFiveHours nowMs)) := by
  constructor
  · intro shows
    exact shows.weighted
  · intro same
    refine ⟨same, ?_, ?_, ?_⟩ <;> rw [← same] <;> rfl

section Runs
variable (functions : Functions K)

/-- One call moves entries over the front of the window, all of them old at its time. -/
theorem perform_entries (s : AccountCapacityState K) (call : Call K) :
    ∃ lost, s.window5h ++ (recordedBy call).toList =
        lost ++ (perform functions s call).window5h ∧
      ∀ entry ∈ lost, entry.1 < wrappingSub call.nowMs window5hMs := by
  have split := expired_expire (wrappingSub call.nowMs window5hMs) s.window5h
  have old := expired_old (wrappingSub call.nowMs window5hMs) s.window5h
  cases call with
  | onUsagePoll nowMs u =>
      refine ⟨expired (wrappingSub nowMs window5hMs) s.window5h, ?_, old⟩
      rw [perform, (poll_window functions s nowMs u).2.1, evict_old_window]
      simpa [recordedBy, Call.nowMs] using split.symm
  | onRequest nowMs weightedTokens =>
      by_cases weightless : weightedTokens ≤ 0
      · refine ⟨[], ?_, by simp⟩
        simp [recordedBy, perform, AccountCapacityState.onRequest, weightless]
      · refine ⟨expired (wrappingSub nowMs window5hMs) s.window5h, ?_, old⟩
        have window := (request_window s nowMs weightedTokens (not_le.mp weightless)).2
        rw [perform, window, evict_old_window, ← List.append_assoc]
        simp only [Call.nowMs] at split
        rw [split]
        simp [recordedBy, weightless]

theorem replay_entries (s : AccountCapacityState K) (calls : List (Call K)) :
    ∃ lost, recordedEntries s calls = lost ++ (replay functions s calls).window5h ∧
      ∀ entry ∈ lost, ∃ call ∈ calls, entry.1 < wrappingSub call.nowMs window5hMs := by
  induction calls generalizing s with
  | nil => exact ⟨[], by simp [recordedEntries, replay], by simp⟩
  | cons call rest ih =>
      obtain ⟨first, moved, firstOld⟩ := perform_entries functions s call
      obtain ⟨later, kept, laterOld⟩ := ih (perform functions s call)
      refine ⟨first ++ later, ?_, ?_⟩
      · have entries : recordedEntries s (call :: rest) =
            (s.window5h ++ (recordedBy call).toList) ++ rest.filterMap recordedBy := by
          cases made : recordedBy call <;> simp [recordedEntries, made]
        rw [entries, moved, List.append_assoc, List.append_assoc]
        exact congrArg (first ++ ·) kept
      · intro entry member
        rcases List.mem_append.mp member with here | there
        · exact ⟨call, List.mem_cons_self, firstOld entry here⟩
        · obtain ⟨other, listed, old⟩ := laterOld entry there
          exact ⟨other, List.mem_cons_of_mem call listed, old⟩

variable [IsStrictOrderedRing K]

theorem replay_balanced {s : AccountCapacityState K} (balanced : Balanced s)
    (calls : List (Call K)) : Balanced (replay functions s calls) := by
  induction calls generalizing s with
  | nil => exact balanced
  | cons call rest ih =>
      cases call with
      | onRequest nowMs weightedTokens =>
          exact ih (on_request_balanced balanced nowMs weightedTokens)
      | onUsagePoll nowMs u => exact ih (on_usage_poll_balanced functions balanced nowMs u)

variable {s : AccountCapacityState K}

theorem shows_iff_forgotten (balanced : Balanced s) (calls : List (Call K)) (nowMs : Int) :
    let t := replay functions s calls
    ShowsLastFiveHours functions t (recordedEntries s calls) nowMs ↔
      total (t.window5h.filter fun entry => !inLastFiveHours nowMs entry) =
        total ((forgotten (recordedEntries s calls) t).filter (inLastFiveHours nowMs)) := by
  intro t
  obtain ⟨lost, entries, _⟩ := replay_entries functions s calls
  have gone : forgotten (recordedEntries s calls) t = lost := by
    rw [forgotten, entries, List.length_append, Nat.add_sub_cancel]
    exact List.take_left
  have running : t.proxyTokens5hWeighted = total t.window5h :=
    (replay_balanced functions balanced calls).running
  rw [shows_iff, running, gone, entries]
  exact suffix_total_iff (inLastFiveHours nowMs) lost _

-- Under a clock that did not go back nothing recent is forgotten and nothing is in the future.
theorem shows_iff_fresh (balanced : Balanced s) (calls : List (Call K)) (nowMs : Int)
    (rebuilt : ∀ entry ∈ s.window5h, entry.1 ≤ nowMs)
    (past : ∀ call ∈ calls, ClockReading call.nowMs ∧ call.nowMs ≤ nowMs) :
    let t := replay functions s calls
    ShowsLastFiveHours functions t (recordedEntries s calls) nowMs ↔
      ∀ entry ∈ t.window5h, nowMs - window5hMs ≤ entry.1 := by
  intro t
  obtain ⟨lost, entries, old⟩ := replay_entries functions s calls
  have balanced : Balanced t := replay_balanced functions balanced calls
  have gone : lost.filter (inLastFiveHours nowMs) = [] := by
    rw [List.filter_eq_nil_iff]
    intro entry member
    obtain ⟨call, listed, before⟩ := old entry member
    rw [cutoff_of_reading _ (past call listed).1] at before
    have earlier := (past call listed).2
    simp only [inLastFiveHours, decide_eq_true_eq]
    omega
  have reached : ∀ entry ∈ t.window5h, entry.1 ≤ nowMs := by
    intro entry member
    have recorded : entry ∈ recordedEntries s calls := by
      rw [entries]
      exact List.mem_append_right lost member
    rcases List.mem_append.mp recorded with start | made
    · exact rebuilt entry start
    · obtain ⟨call, listed, made⟩ := List.mem_filterMap.mp made
      rw [recorded_time call entry made]
      exact (past call listed).2
  rw [shows_iff, balanced.running, entries, suffix_total_iff, gone, total_nil, total_eq_zero_iff,
    List.filter_eq_nil_iff]
  · apply forall₂_congr
    intro entry member
    simp [inLastFiveHours, reached entry member]
  · intro entry member
    exact balanced.positive entry (List.mem_of_mem_filter member)

end Runs

/-- A snapshot shows the last five hours exactly if what it still counts of other times
weighs as much as what it has forgotten of these; under a clock that did not go back, if
no entry in the window is older. -/
theorem snapshot_shows_iff (account : Account) (db : Option (XFactorDbState ℝ))
    (requests : List RequestRow) (createdMs : Int) (calls : List (Call ℝ)) (nowMs : Int) :
    let start := initialState real account db requests createdMs
    let s := replay real start calls
    let recorded := recordedEntries start calls
    (ShowsLastFiveHours real s recorded nowMs ↔
      total (s.window5h.filter fun entry => !inLastFiveHours nowMs entry) =
        total ((forgotten recorded s).filter (inLastFiveHours nowMs))) ∧
    ((∀ entry ∈ start.window5h, entry.1 ≤ nowMs) →
      (∀ call ∈ calls, ClockReading call.nowMs ∧ call.nowMs ≤ nowMs) →
      (ShowsLastFiveHours real s recorded nowMs ↔
        ∀ entry ∈ s.window5h, nowMs - window5hMs ≤ entry.1)) := by
  have balanced := initial_state_balanced real account db requests createdMs
  exact ⟨shows_iff_forgotten real balanced calls nowMs, shows_iff_fresh real balanced calls nowMs⟩

/-- Six hours after its only request the account still shows it. -/
theorem snapshot_shows_expired :
    let start := initialState real (makeAccount "acc1" "anthropic" 0) none [] 1700000000000
    let calls : List (Call ℝ) := [.onRequest 1700000000000 1000]
    ¬ ShowsLastFiveHours real (replay real start calls) (recordedEntries start calls)
      1700021600000 := by
  simp only [shows_iff]
  norm_num [initialState, restoredState, rebuildWindow, recentRequestsForAccount, sortByKey,
    AccountCapacityState.new, replay, perform, AccountCapacityState.onRequest,
    AccountCapacityState.evictOld, popOld, recordedEntries, recordedBy, inLastFiveHours, window5hMs,
    List.filterMap_cons]

end Ccflare.CapacitySnapshots
