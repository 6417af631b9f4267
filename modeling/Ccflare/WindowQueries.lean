import Ccflare.CapacitySnapshots

/-!
Sums over a part of the window: what falls out of it in the next minutes, and what was in it
when the utilisation that a poll reports was measured. Both are sums over what eviction has
left, and eviction drops what is older than five hours and keeps what is just that old.
-/

namespace Ccflare.WindowQueries

open MachineNumber RollingWindow CapacityState WindowRebuild CapacitySnapshots

-- The proofs that definitions with these numerals share.
local instance five_atLeastTwo : Nat.AtLeastTwo 5 := ⟨by decide⟩

local instance twelve_atLeastTwo : Nat.AtLeastTwo 12 := ⟨by decide⟩

local instance fifty_atLeastTwo : Nat.AtLeastTwo 50 := ⟨by decide⟩

local instance thousand_atLeastTwo : Nat.AtLeastTwo 1000 := ⟨by decide⟩

local instance five_thousand_atLeastTwo : Nat.AtLeastTwo 5000 := ⟨by decide⟩

local instance prior_atLeastTwo : Nat.AtLeastTwo 88000 := ⟨by decide⟩

variable {K : Type} [Field K] [LinearOrder K]

section Recovery
variable [IsStrictOrderedRing K] {s : AccountCapacityState K}

def Sorted (s : AccountCapacityState K) : Prop := s.window5h.Pairwise fun a b => a.1 ≤ b.1

omit [IsStrictOrderedRing K] in
theorem evicted_window (sorted : Sorted s) (nowMs : Int) (reading : ClockReading nowMs) :
    (s.evictOld nowMs).window5h =
      s.window5h.filter fun entry => decide (nowMs - window5hMs ≤ entry.1) := by
  rw [evict_old_window, cutoff_of_reading nowMs reading, expire_ordered _ _ sorted]

omit [LinearOrder K] [IsStrictOrderedRing K] in
-- The query reaches to the boundary, where eviction stops short of it.
theorem recovery_boundary (entries : List (Int × K)) (start cutoff : Int) (forward : start ≤ cutoff) :
    total (entries.filter fun entry => decide (start ≤ entry.1 ∧ entry.1 ≤ cutoff)) =
      total (entries.filter fun entry => decide (start ≤ entry.1)) -
        total (entries.filter fun entry => decide (cutoff ≤ entry.1)) +
        total (entries.filter fun entry => decide (entry.1 = cutoff)) := by
  have later := total_split (fun entry => decide (cutoff ≤ entry.1))
    (entries.filter fun entry => decide (start ≤ entry.1))
  have edge := total_split (fun entry => decide (entry.1 = cutoff))
    (entries.filter fun entry => decide (start ≤ entry.1 ∧ entry.1 ≤ cutoff))
  have kept : (entries.filter fun entry => decide (start ≤ entry.1)).filter
      (fun entry => decide (cutoff ≤ entry.1)) =
        entries.filter fun entry => decide (cutoff ≤ entry.1) := by
    rw [List.filter_filter]
    apply List.filter_congr
    intro entry _
    rw [← Bool.decide_and, decide_eq_decide]
    omega
  have last : (entries.filter fun entry => decide (start ≤ entry.1 ∧ entry.1 ≤ cutoff)).filter
      (fun entry => decide (entry.1 = cutoff)) =
        entries.filter fun entry => decide (entry.1 = cutoff) := by
    rw [List.filter_filter]
    apply List.filter_congr
    intro entry _
    rw [← Bool.decide_and, decide_eq_decide]
    omega
  have freed : (entries.filter fun entry => decide (start ≤ entry.1)).filter
      (fun entry => !decide (cutoff ≤ entry.1)) =
        (entries.filter fun entry => decide (start ≤ entry.1 ∧ entry.1 ≤ cutoff)).filter
          fun entry => !decide (entry.1 = cutoff) := by
    rw [List.filter_filter, List.filter_filter]
    apply List.filter_congr
    intro entry _
    simp only [← decide_not, ← Bool.decide_and]
    rw [decide_eq_decide]
    omega
  rw [kept, freed] at later
  rw [last] at edge
  rw [← edge, ← later]
  abel

/-- The query is what eviction frees exactly if nothing was recorded just five hours before
the end of the time asked about. -/
theorem window_recovery_iff (balanced : Balanced s) (sorted : Sorted s) (nowMs deltaMs : Int)
    (forward : 0 ≤ deltaMs) (reading : ClockReading nowMs) (later : InI64 (nowMs + deltaMs)) :
    s.windowRecoveryTokens nowMs deltaMs =
        (s.evictOld nowMs).proxyTokens5hWeighted -
          (s.evictOld (nowMs + deltaMs)).proxyTokens5hWeighted ↔
      ∀ entry ∈ s.window5h, entry.1 + window5hMs ≠ nowMs + deltaMs := by
  have laterReading : ClockReading (nowMs + deltaMs) := by
    obtain ⟨low, _⟩ := reading
    obtain ⟨_, high⟩ := later
    constructor
    · omega
    · rw [window5hMs]
      omega
  have sum : wrappingAdd nowMs deltaMs = nowMs + deltaMs := wrap_of_in_i64 _ later
  have edge : ∀ entry ∈ s.window5h.filter
      (fun entry => decide (entry.1 = nowMs + deltaMs - window5hMs)), 0 < entry.2 := by
    intro entry member
    exact balanced.positive entry (List.mem_of_mem_filter member)
  rw [(evict_old_balanced balanced nowMs).running,
    (evict_old_balanced balanced (nowMs + deltaMs)).running, evicted_window sorted nowMs reading,
    evicted_window sorted _ laterReading]
  simp only [AccountCapacityState.windowRecoveryTokens, sum, cutoff_of_reading nowMs reading,
    cutoff_of_reading _ laterReading]
  rw [recovery_boundary _ _ _ (by omega), add_eq_left, total_eq_zero_iff _ edge,
    List.filter_eq_nil_iff]
  apply forall₂_congr
  intro entry _
  rw [decide_eq_true_eq]
  constructor
  · intro other same
    exact other (by omega)
  · intro other same
    exact other (by omega)

end Recovery

section Boundary

/-- An account with one request. -/
noncomputable def usedState : AccountCapacityState ℝ :=
  (AccountCapacityState.new real "acc1" "test" none false 1699999900000).onRequest 1700000000000 1000

theorem used_window :
    usedState.window5h = [(1700000000000, 1000)] ∧ usedState.proxyTokens5hWeighted = 1000 := by
  constructor <;> norm_num [usedState, AccountCapacityState.onRequest, AccountCapacityState.evictOld,
    AccountCapacityState.new, popOld]

/-- The same account ten seconds later, after a second request. -/
noncomputable def busyState : AccountCapacityState ℝ := usedState.onRequest 1700000010000 500

theorem busy_window :
    busyState.window5h = [(1700000000000, 1000), (1700000010000, 500)] ∧
      busyState.proxyTokens5hWeighted = 1500 := by
  obtain ⟨window, sum⟩ := used_window
  have cutoff : wrappingSub 1700000010000 window5hMs = 1699982010000 := by decide
  constructor <;> norm_num [busyState, AccountCapacityState.onRequest,
    AccountCapacityState.evictOld, window, sum, cutoff, popOld]

theorem busy_balanced : Balanced busyState := by
  obtain ⟨window, sum⟩ := busy_window
  refine ⟨by norm_num [window, sum, total_cons, total_nil], ?_⟩
  rw [window]
  norm_num

theorem busy_sorted : Sorted busyState := by
  rw [Sorted, busy_window.1]
  norm_num

-- Half an hour on, both requests are out of the window, and their tokens are recovered.
theorem used_recovery :
    busyState.windowRecoveryTokens 1700017000000 1800000 = 1500 ∧
      busyState.windowRecoveryTokens 1700017000000 1800000 =
        (busyState.evictOld 1700017000000).proxyTokens5hWeighted -
          (busyState.evictOld (1700017000000 + 1800000)).proxyTokens5hWeighted := by
  have start : wrappingSub 1700017000000 window5hMs = 1699999000000 := by decide
  have cutoff : wrappingSub (wrappingAdd 1700017000000 1800000) window5hMs = 1700000800000 := by
    decide
  refine ⟨?_, (window_recovery_iff busy_balanced busy_sorted 1700017000000 1800000 (by decide)
    (by decide) (by decide)).mpr ?_⟩
  · norm_num [AccountCapacityState.windowRecoveryTokens, busy_window.1, start, cutoff]
  · rw [busy_window.1]
    decide

/-- A second later its tokens are counted as recovered, and eviction frees none. -/
theorem boundary_recovery :
    ¬ usedState.windowRecoveryTokens 1700017100000 900000 =
      (usedState.evictOld 1700017100000).proxyTokens5hWeighted -
        (usedState.evictOld (1700017100000 + 900000)).proxyTokens5hWeighted := by
  obtain ⟨window, sum⟩ := used_window
  have start : wrappingSub 1700017100000 window5hMs = 1699999100000 := by decide
  have cutoff : wrappingSub (wrappingAdd 1700017100000 900000) window5hMs = 1700000000000 := by
    decide
  have later : wrappingSub 1700018000000 window5hMs = 1700000000000 := by decide
  norm_num [AccountCapacityState.windowRecoveryTokens, AccountCapacityState.evictOld, window, sum,
    start, cutoff, later, popOld]

end Boundary

section Lag
variable (functions : Functions K)

/-- What `p_at_lag` is in a poll, when the poll comes to the measurement. -/
def measuredLag (s : AccountCapacityState K) (nowMs : Int) (u : K) : Option K :=
  let s := s.beginPoll nowMs
  let lb := s.proxyTokens5hWeighted / (u / 100)
  if censoredUThreshold ≤ u then none
  else if u < minUForLb then none
  else if lb ≤ 0 then none
  else
    let s := (s.updatePosterior functions lb).kfPredictTo nowMs
    if 5 ≤ s.nEff then some (s.pAtLaggedTime (wrappingSub nowMs s.lagEstimateMs)) else none

/-- The measurement with a given `p_at_lag`. -/
def measureWith (s : AccountCapacityState K) (u pAtLag : K) : AccountCapacityState K :=
  let cEst := s.cEstimate functions
  let eObs := max (cEst * u / 100 - pAtLag) 0
  let r := (cEst * 0.01) ^ 2 / 12
  let s := s.kfUpdate eObs r
  { s with
    kfE := max s.kfE (-5000)
    kfEDot := max s.kfEDot 0 }

theorem measure_external_eq (s : AccountCapacityState K) (nowMs : Int) (u : K) :
    s.measureExternal functions nowMs u =
      if 5 ≤ s.nEff then
        measureWith functions s u (s.pAtLaggedTime (wrappingSub nowMs s.lagEstimateMs))
      else s := rfl

theorem predict_lag (s : AccountCapacityState K) (nowMs : Int) :
    (s.kfPredictTo nowMs).lagEstimateMs = s.lagEstimateMs := by
  simp only [AccountCapacityState.kfPredictTo]
  split
  · rfl
  · split
    · rfl
    · rfl

theorem measure_lag (s : AccountCapacityState K) (nowMs : Int) (u : K) :
    (s.measureExternal functions nowMs u).lagEstimateMs = s.lagEstimateMs := by
  simp only [AccountCapacityState.measureExternal]
  split
  · simp only [AccountCapacityState.kfUpdate]
    split
    · rfl
    · rfl
  · rfl

/-- A poll that comes to the measurement takes it with the sum over the lagged window. -/
theorem poll_measures (s : AccountCapacityState K) (nowMs : Int) (u pAtLag : K)
    (measured : measuredLag functions s nowMs u = some pAtLag) :
    pAtLag = (s.evictOld nowMs).pAtLaggedTime (wrappingSub nowMs s.lagEstimateMs) ∧
      ∃ t, s.onUsagePoll functions nowMs u = measureWith functions t u pAtLag := by
  simp only [measuredLag] at measured
  simp only [AccountCapacityState.onUsagePoll]
  split at measured
  · cases measured
  · rename_i uncensored
    split at measured
    · cases measured
    · rename_i reliable
      split at measured
      · cases measured
      · rename_i positive
        rw [if_neg uncensored, if_neg reliable, if_neg positive]
        generalize learnt : (s.beginPoll nowMs).updatePosterior functions
          ((s.beginPoll nowMs).proxyTokens5hWeighted / (u / 100)) = t at measured ⊢
        have lag : t.lagEstimateMs = s.lagEstimateMs := by
          rw [← learnt]
          rfl
        have window : t.window5h = (s.evictOld nowMs).window5h := by
          rw [← learnt]
          rfl
        split at measured
        · rename_i stable
          rw [measure_external_eq, if_pos stable, Option.some.inj measured]
          refine ⟨?_, _, rfl⟩
          rw [← Option.some.inj measured, predict_lag, lag]
          simp only [AccountCapacityState.pAtLaggedTime, (predict_frame t nowMs).window, window]
        · cases measured

/-- When a call evicts. -/
def evictsAt : Call K → Option Int
  | .onRequest nowMs weightedTokens => if weightedTokens ≤ 0 then none else some nowMs
  | .onUsagePoll nowMs _ => some nowMs

theorem evicts_at_time (call : Call K) (evictMs : Int) (evicts : evictsAt call = some evictMs) :
    call.nowMs = evictMs := by
  cases call with
  | onUsagePoll nowMs u => exact Option.some.inj evicts
  | onRequest nowMs weightedTokens =>
      simp only [evictsAt] at evicts
      split at evicts
      · cases evicts
      · exact Option.some.inj evicts

def outlives (evictions : List Int) (ts : Int) : Bool :=
  evictions.all fun evictMs => decide (evictMs - window5hMs ≤ ts)

/-- Every recorded entry with the evictions it is exposed to: those of the calls after it, and
`last`. -/
def exposed (last : List Int) : List (Call K) → List ((Int × List Int) × K)
  | [] => []
  | call :: rest =>
      ((recordedBy call).toList.map fun entry =>
        ((entry.1, rest.filterMap evictsAt ++ last), entry.2)) ++ exposed last rest

omit [Field K] [LinearOrder K] in
def entryOf (marked : (Int × List Int) × K) : Int × K := (marked.1.1, marked.2)

theorem exposed_entries (last : List Int) (calls : List (Call K)) :
    (exposed last calls).map entryOf = calls.filterMap recordedBy := by
  induction calls with
  | nil => rfl
  | cons call rest ih =>
      cases made : recordedBy call with
      | none => simp [exposed, made, ih]
      | some entry => simp [exposed, made, ih, entryOf]

theorem exposed_mem (last : List Int) (calls : List (Call K)) (marked : (Int × List Int) × K) :
    marked ∈ exposed last calls ↔ ∃ before call after, calls = before ++ call :: after ∧
      recordedBy call = some (entryOf marked) ∧ marked.1.2 = after.filterMap evictsAt ++ last := by
  induction calls with
  | nil => simp [exposed]
  | cons first rest ih =>
      rw [exposed, List.mem_append, ih]
      constructor
      · rintro (here | ⟨before, call, after, rfl, made, evictions⟩)
        · obtain ⟨entry, made, rfl⟩ := List.mem_map.mp here
          exact ⟨[], first, rest, rfl, Option.mem_toList.mp made, rfl⟩
        · exact ⟨first :: before, call, after, rfl, made, evictions⟩
      · rintro ⟨before, call, after, split, made, evictions⟩
        cases before with
        | nil =>
            obtain ⟨rfl, rfl⟩ := List.cons.inj split
            refine .inl (List.mem_map.mpr ⟨entryOf marked, Option.mem_toList.mpr made, ?_⟩)
            rw [← evictions]
            rfl
        | cons other before =>
            obtain ⟨rfl, tail⟩ := List.cons.inj split
            exact .inr ⟨before, call, after, tail, made, evictions⟩

/-- One call leaves what outlives its eviction, and adds what it records. -/
theorem perform_window (s : AccountCapacityState K) (call : Call K) (sorted : Sorted s)
    (reading : ClockReading call.nowMs) :
    (perform functions s call).window5h =
      s.window5h.filter (fun entry => outlives (evictsAt call).toList entry.1) ++
        (recordedBy call).toList := by
  cases call with
  | onUsagePoll nowMs u =>
      rw [perform, (poll_window functions s nowMs u).2.1, evicted_window sorted nowMs reading]
      simp [outlives, evictsAt, recordedBy]
  | onRequest nowMs weightedTokens =>
      by_cases weightless : weightedTokens ≤ 0
      · simp [perform, AccountCapacityState.onRequest, weightless, outlives, evictsAt, recordedBy]
      · rw [perform, (request_window s nowMs weightedTokens (not_le.mp weightless)).2,
          evicted_window sorted nowMs reading]
        simp [outlives, evictsAt, recordedBy, weightless]

theorem outlives_append (first later : List Int) (ts : Int) :
    outlives (first ++ later) ts = (outlives first ts && outlives later ts) :=
  List.all_append

theorem filter_map_cons {Element Image : Type} (f : Element → Option Image) (first : Element)
    (rest : List Element) : (first :: rest).filterMap f = (f first).toList ++ rest.filterMap f := by
  cases made : f first <;> simp [made]

/-- The recorded entries that outlive the evictions they are exposed to. -/
def surviving (last : List Int) (calls : List (Call K)) : List (Int × K) :=
  ((exposed last calls).filter fun marked => outlives marked.1.2 marked.1.1).map entryOf

theorem surviving_cons (last : List Int) (call : Call K) (rest : List (Call K)) :
    surviving last (call :: rest) = (recordedBy call).toList.filter
        (fun entry => outlives (rest.filterMap evictsAt ++ last) entry.1) ++ surviving last rest := by
  rw [surviving, exposed, List.filter_append, List.map_append, List.filter_map, List.map_map]
  exact congrArg (· ++ surviving last rest) (List.map_id _)

/-- After a run the window holds what outlives the evictions it was exposed to. -/
theorem replay_window (last : List Int) (calls : List (Call K)) (s : AccountCapacityState K)
    (ordered : (s.window5h ++ calls.filterMap recordedBy).Pairwise fun a b => a.1 ≤ b.1)
    (readings : ∀ call ∈ calls, ClockReading call.nowMs) :
    (replay functions s calls).window5h.filter (fun entry => outlives last entry.1) =
      s.window5h.filter (fun entry => outlives (calls.filterMap evictsAt ++ last) entry.1) ++
        surviving last calls := by
  induction calls generalizing s with
  | nil => simp [replay, surviving, exposed]
  | cons call rest ih =>
      have sorted : Sorted s := (List.pairwise_append.mp ordered).1
      have window := perform_window functions s call sorted (readings call List.mem_cons_self)
      have next : ((perform functions s call).window5h ++ rest.filterMap recordedBy).Pairwise
          fun a b => a.1 ≤ b.1 := by
        rw [window, List.append_assoc, ← filter_map_cons]
        exact ordered.sublist (List.filter_sublist.append_right _)
      have later := ih (perform functions s call) next fun other member =>
        readings other (List.mem_cons_of_mem call member)
      have kept : (s.window5h.filter fun entry => outlives (evictsAt call).toList entry.1).filter
            (fun entry => outlives (rest.filterMap evictsAt ++ last) entry.1) =
          s.window5h.filter fun entry =>
            outlives ((call :: rest).filterMap evictsAt ++ last) entry.1 := by
        rw [List.filter_filter, filter_map_cons]
        apply List.filter_congr
        intro entry _
        rw [List.append_assoc, outlives_append _ (rest.filterMap evictsAt ++ last), Bool.and_comm]
      refine later.trans ?_
      rw [window, List.filter_append, kept, surviving_cons, List.append_assoc]

theorem perform_lag (s : AccountCapacityState K) (call : Call K) :
    (perform functions s call).lagEstimateMs = s.lagEstimateMs := by
  cases call with
  | onRequest nowMs weightedTokens =>
      simp only [perform, AccountCapacityState.onRequest]
      split
      · rfl
      · rfl
  | onUsagePoll nowMs u =>
      rcases poll_cases functions s nowMs u with ⟨bound, polled⟩ | polled | ⟨lb, _, polled⟩
      · rw [perform, polled, predict_lag]
        rfl
      · rw [perform, polled, predict_lag]
        rfl
      · rw [perform, polled, measure_lag, predict_lag]
        rfl

theorem replay_lag (calls : List (Call K)) (s : AccountCapacityState K) :
    (replay functions s calls).lagEstimateMs = s.lagEstimateMs := by
  induction calls generalizing s with
  | nil => rfl
  | cons call rest ih => exact (ih (perform functions s call)).trans (perform_lag functions s call)

/-- The window that the utilisation of a poll was measured over. -/
def inLaggedWindow (nowMs lagMs : Int) (entry : Int × K) : Bool :=
  decide (nowMs - lagMs - window5hMs ≤ entry.1 ∧ entry.1 ≤ nowMs - lagMs)

theorem recorded_positive (calls : List (Call K)) :
    ∀ entry ∈ calls.filterMap recordedBy, 0 < entry.2 := by
  intro entry member
  obtain ⟨call, _, made⟩ := List.mem_filterMap.mp member
  cases call with
  | onUsagePoll nowMs u => cases made
  | onRequest nowMs weightedTokens =>
      simp only [recordedBy] at made
      split at made
      · cases made
      · rename_i weighs
        obtain rfl := Option.some.inj made
        exact not_le.mp weighs

omit [LinearOrder K] in
theorem total_entries (marked : List ((Int × List Int) × K)) :
    total (marked.map entryOf) = total marked := by
  simp [total, entryOf, Function.comp_def]

variable [IsStrictOrderedRing K]

/-- What survives of a selection weighs as much as the selection exactly if all of it survives. -/
theorem surviving_total_iff (last : List Int) (calls : List (Call K)) (selects : Int × K → Bool) :
    total ((surviving last calls).filter selects) =
        total ((calls.filterMap recordedBy).filter selects) ↔
      ∀ marked ∈ exposed last calls, selects (entryOf marked) = true →
        outlives marked.1.2 marked.1.1 = true := by
  have split := total_split (fun marked => outlives marked.1.2 marked.1.1)
    ((exposed last calls).filter fun marked => selects (entryOf marked))
  have whole : total ((calls.filterMap recordedBy).filter selects) =
      total ((exposed last calls).filter fun marked => selects (entryOf marked)) := by
    rw [← exposed_entries last calls, List.filter_map, total_entries]
    rfl
  have part : total ((surviving last calls).filter selects) =
      total (((exposed last calls).filter fun marked => selects (entryOf marked)).filter
        fun marked => outlives marked.1.2 marked.1.1) := by
    rw [surviving, List.filter_map, total_entries, List.filter_filter, List.filter_filter]
    congr 2
    funext marked
    exact Bool.and_comm _ _
  have positive : ∀ marked ∈ ((exposed last calls).filter fun marked =>
      selects (entryOf marked)).filter (fun marked => !outlives marked.1.2 marked.1.1),
      0 < marked.2 := by
    intro marked member
    have listed := List.mem_of_mem_filter (List.mem_of_mem_filter member)
    have recorded := List.mem_map_of_mem (f := entryOf) listed
    rw [exposed_entries] at recorded
    exact recorded_positive calls _ recorded
  rw [whole, part, ← split, left_eq_add, total_eq_zero_iff _ positive, List.filter_eq_nil_iff]
  constructor
  · intro none marked listed selected
    have gone := none marked (List.mem_filter.mpr ⟨listed, selected⟩)
    simpa using gone
  · intro all marked member
    obtain ⟨listed, selected⟩ := List.mem_filter.mp member
    simp [all marked listed selected]

/-- The sum over the lagged window has all that was recorded in it exactly if no request of
that window was evicted, by a call after it or by the poll itself. -/
theorem lagged_sum_iff (s : AccountCapacityState K) (empty : s.window5h = []) (calls : List (Call K))
    (ordered : (calls.filterMap recordedBy).Pairwise fun a b => a.1 ≤ b.1)
    (readings : ∀ call ∈ calls, ClockReading call.nowMs) (nowMs lagMs : Int)
    (reading : ClockReading nowMs) (lagged : InI64 (nowMs - lagMs))
    (start : ClockReading (nowMs - lagMs)) :
    ((replay functions s calls).evictOld nowMs).pAtLaggedTime (wrappingSub nowMs lagMs) =
        total ((calls.filterMap recordedBy).filter (inLaggedWindow nowMs lagMs)) ↔
      ∀ before call after entry, calls = before ++ call :: after → recordedBy call = some entry →
        inLaggedWindow nowMs lagMs entry = true →
        ∀ evictMs ∈ after.filterMap evictsAt ++ [nowMs], evictMs - window5hMs ≤ entry.1 := by
  have window := replay_window functions [nowMs] calls s (by simpa [empty] using ordered) readings
  have sorted : Sorted (replay functions s calls) := by
    obtain ⟨lost, entries, _⟩ := replay_entries functions s calls
    have all : (recordedEntries s calls).Pairwise fun a b => a.1 ≤ b.1 := by
      simpa [recordedEntries, empty] using ordered
    rw [entries] at all
    exact (List.pairwise_append.mp all).2.1
  have evicted : ((replay functions s calls).evictOld nowMs).window5h = surviving [nowMs] calls := by
    rw [evicted_window sorted nowMs reading]
    simpa [outlives, empty] using window
  have lag : wrappingSub nowMs lagMs = nowMs - lagMs := wrap_of_in_i64 _ lagged
  have sum : ((replay functions s calls).evictOld nowMs).pAtLaggedTime (wrappingSub nowMs lagMs) =
      total ((surviving [nowMs] calls).filter (inLaggedWindow nowMs lagMs)) := by
    rw [lag, AccountCapacityState.pAtLaggedTime, evicted, cutoff_of_reading _ start]
    rfl
  rw [sum, surviving_total_iff]
  constructor
  · intro all before call after entry split made inside evictMs member
    have survives := all ((entry.1, after.filterMap evictsAt ++ [nowMs]), entry.2)
      ((exposed_mem _ _ _).mpr ⟨before, call, after, split, made, rfl⟩) inside
    exact of_decide_eq_true (List.all_eq_true.mp survives evictMs member)
  · intro all marked listed inside
    obtain ⟨before, call, after, split, made, evictions⟩ := (exposed_mem _ _ _).mp listed
    rw [outlives, List.all_eq_true, evictions]
    intro evictMs member
    exact decide_eq_true (all before call after _ split made inside evictMs member)

end Lag

section Correction

/-- The value of `p_at_lag` in a poll that comes to the measurement is the sum over the lagged
window exactly if no request of that window was evicted; on a clock that does not go back, if
none of them is older than five hours at the poll. -/
theorem lag_correction_iff (account : Account) (db : Option (XFactorDbState ℝ)) (createdMs : Int)
    (calls : List (Call ℝ)) (nowMs : Int) (u pAtLag : ℝ)
    (ordered : (calls.filterMap recordedBy).Pairwise fun a b => a.1 ≤ b.1)
    (readings : ∀ call ∈ calls, ClockReading call.nowMs) (reading : ClockReading nowMs)
    (lagged : InI64 (nowMs - (restoredState real account db createdMs).lagEstimateMs) ∧
      ClockReading (nowMs - (restoredState real account db createdMs).lagEstimateMs))
    (measured : measuredLag real (replay real (restoredState real account db createdMs) calls)
      nowMs u = some pAtLag) :
    let lagMs := (restoredState real account db createdMs).lagEstimateMs
    let recorded := calls.filterMap recordedBy
    (pAtLag = total (recorded.filter (inLaggedWindow nowMs lagMs)) ↔
      ∀ before call after entry, calls = before ++ call :: after → recordedBy call = some entry →
        inLaggedWindow nowMs lagMs entry = true →
        ∀ evictMs ∈ after.filterMap evictsAt ++ [nowMs], evictMs - window5hMs ≤ entry.1) ∧
    ((∀ call ∈ calls, call.nowMs ≤ nowMs) →
      (pAtLag = total (recorded.filter (inLaggedWindow nowMs lagMs)) ↔
        ∀ entry ∈ recorded, inLaggedWindow nowMs lagMs entry = true →
          nowMs - window5hMs ≤ entry.1)) := by
  intro lagMs recorded
  obtain ⟨_, empty, _⟩ := restored_state_empty real account db createdMs
  have whole := lagged_sum_iff real (restoredState real account db createdMs) empty calls ordered
    readings nowMs lagMs reading lagged.1 lagged.2
  rw [(poll_measures real _ nowMs u pAtLag measured).1, replay_lag]
  refine ⟨whole, fun forward => whole.trans ?_⟩
  constructor
  · intro all entry member inside
    obtain ⟨call, listed, made⟩ := List.mem_filterMap.mp member
    obtain ⟨before, after, split⟩ := List.append_of_mem listed
    exact all before call after entry split made inside nowMs (by simp)
  · intro all before call after entry split made inside evictMs member
    have listed : entry ∈ recorded :=
      List.mem_filterMap.mpr ⟨call, by simp [split], made⟩
    have recent := all entry listed inside
    have reached : evictMs ≤ nowMs := by
      rcases List.mem_append.mp member with later | last
      · obtain ⟨other, behind, evicts⟩ := List.mem_filterMap.mp later
        have before := forward other (by simp [split, behind])
        rwa [evicts_at_time other evictMs evicts] at before
      · rw [List.mem_singleton.mp last]
    omega

/-- The saved state of an account whose posterior is known well. -/
noncomputable def knownPosterior : XFactorDbState ℝ :=
  ⟨"acc1", Real.log 88000, 0.05, 50, 0, 0, 1699999900000, 90000⟩

noncomputable def knownState : AccountCapacityState ℝ :=
  restoredState real (makeAccount "acc1" "anthropic" 0) (some knownPosterior) 1699999900000

theorem measured_lag_some (s : AccountCapacityState ℝ) (nowMs : Int) (u : ℝ) (balanced : Balanced s)
    (reliable : minUForLb ≤ u) (uncensored : u < censoredUThreshold) (stable : 5 ≤ s.nEff)
    (seen : 0 < total (s.evictOld nowMs).window5h) :
    ∃ pAtLag, measuredLag real s nowMs u = some pAtLag := by
  have sum : (s.beginPoll nowMs).proxyTokens5hWeighted = total (s.evictOld nowMs).window5h :=
    (evict_old_balanced balanced nowMs).running
  have usage : (5 : ℝ) ≤ u := reliable
  have bound : 0 < total (s.evictOld nowMs).window5h / (u / 100) := div_pos seen (by linarith)
  have samples := (predict_frame ((s.beginPoll nowMs).updatePosterior real
    (total (s.evictOld nowMs).window5h / (u / 100))) nowMs).posterior
  simp only [Prod.mk.injEq] at samples
  have known : 5 ≤ min (s.nEff + 0.3) 100 := le_min (by linarith) (by norm_num)
  simp only [measuredLag, sum]
  rw [if_neg (not_le_of_gt uncensored), if_neg (not_lt_of_ge reliable), if_neg (not_le_of_gt bound),
    samples.2.2]
  exact ⟨_, if_pos known⟩

/-- A request in the last hour, and in the first calls one more: five hours before the poll and
a minute. -/
noncomputable def recentCalls : List (Call ℝ) := [.onRequest 1700015000000 1000]

noncomputable def gapCalls : List (Call ℝ) :=
  [.onRequest 1700000000000 1000, .onRequest 1700015000000 1000]

theorem known_replayed (calls : List (Call ℝ)) (either : calls = recentCalls ∨ calls = gapCalls) :
    Balanced (replay real knownState calls) ∧ 5 ≤ (replay real knownState calls).nEff ∧
      ((replay real knownState calls).evictOld 1700018060000).window5h = [(1700015000000, 1000)] := by
  have balanced := restored_state_balanced real (makeAccount "acc1" "anthropic" 0)
    (some knownPosterior) 1699999900000
  have cutoff : wrappingSub 1700018060000 window5hMs = 1700000060000 := by decide
  have middle : wrappingSub 1700015000000 window5hMs = 1699997000000 := by decide
  refine ⟨replay_balanced real balanced calls, ?_⟩
  rcases either with rfl | rfl
  · constructor <;> norm_num [replay, recentCalls, perform, AccountCapacityState.onRequest,
      knownState, restoredState, AccountCapacityState.restoreFromDb, AccountCapacityState.new,
      knownPosterior, evict_old_window, expire, cutoff, middle, AccountCapacityState.evictOld, popOld]
  · constructor <;> norm_num [replay, gapCalls, perform, AccountCapacityState.onRequest,
      knownState, restoredState, AccountCapacityState.restoreFromDb, AccountCapacityState.new,
      knownPosterior, evict_old_window, expire, cutoff, middle, AccountCapacityState.evictOld, popOld]

/-- The older request is in the lagged window, and is evicted before the sum is taken. -/
theorem lag_gap_missed :
    ∃ pAtLag, measuredLag real (replay real knownState gapCalls) 1700018060000 10 = some pAtLag ∧
      pAtLag ≠ total ((gapCalls.filterMap recordedBy).filter
        (inLaggedWindow 1700018060000 knownState.lagEstimateMs)) := by
  obtain ⟨balanced, stable, window⟩ := known_replayed gapCalls (.inr rfl)
  obtain ⟨pAtLag, measured⟩ := measured_lag_some _ 1700018060000 10 balanced
    (by norm_num [minUForLb]) (by norm_num [censoredUThreshold]) stable (by norm_num [window])
  refine ⟨pAtLag, measured, ?_⟩
  have lag : wrappingSub 1700018060000 90000 = 1700017970000 := by decide
  have start : wrappingSub 1700017970000 window5hMs = 1699999970000 := by decide
  have lagMs : knownState.lagEstimateMs = 90000 := rfl
  have summed : pAtLag = 1000 := by
    rw [(poll_measures real _ _ _ _ measured).1, replay_lag, lagMs]
    norm_num [AccountCapacityState.pAtLaggedTime, window, lag, start]
  have recorded : total ((gapCalls.filterMap recordedBy).filter
      (inLaggedWindow 1700018060000 90000)) = 2000 := by
    norm_num [gapCalls, recordedBy, List.filterMap_cons, inLaggedWindow, window5hMs]
  rw [summed, lagMs, recorded]
  norm_num

theorem recent_lag_summed :
    ∃ pAtLag, measuredLag real (replay real knownState recentCalls) 1700018060000 10 = some pAtLag ∧
      pAtLag = total ((recentCalls.filterMap recordedBy).filter
        (inLaggedWindow 1700018060000 knownState.lagEstimateMs)) := by
  obtain ⟨balanced, stable, window⟩ := known_replayed recentCalls (.inl rfl)
  obtain ⟨pAtLag, measured⟩ := measured_lag_some _ 1700018060000 10 balanced
    (by norm_num [minUForLb]) (by norm_num [censoredUThreshold]) stable (by norm_num [window])
  have recorded : recentCalls.filterMap recordedBy = [((1700015000000 : Int), (1000 : ℝ))] := by
    norm_num [recentCalls, recordedBy, List.filterMap_cons]
  have correct := (lag_correction_iff (makeAccount "acc1" "anthropic" 0) (some knownPosterior)
    1699999900000 recentCalls 1700018060000 10 pAtLag (by simp [recorded])
    (by simp [recentCalls, Call.nowMs, ClockReading, InI64, i64Min, i64Max, window5hMs])
    (by decide) (by decide) measured).2
    (by simp [recentCalls, Call.nowMs])
  refine ⟨pAtLag, measured, correct.mpr ?_⟩
  rw [recorded]
  norm_num [window5hMs]

end Correction

end Ccflare.WindowQueries
