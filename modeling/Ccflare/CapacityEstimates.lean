import Ccflare.WindowRebuild
import Mathlib.Analysis.Complex.ExponentialBounds

/-!
The estimates of a capacity state in exact arithmetic. A poll that learns moves the mean of
the posterior towards its observation and narrows the variance; the other polls leave the
posterior. The pessimistic and the expected estimate are lifted to the hard lower bound and
the optimistic one is not, so the three are in order as long as the bound is below it.
-/

namespace Ccflare.CapacityEstimates

open MachineNumber RollingWindow CapacityState WindowRebuild

-- The proofs that definitions with these numerals share.
local instance five_atLeastTwo : Nat.AtLeastTwo 5 := ⟨by decide⟩

local instance ninety_five_atLeastTwo : Nat.AtLeastTwo 95 := ⟨by decide⟩

local instance thousand_atLeastTwo : Nat.AtLeastTwo 1000 := ⟨by decide⟩

section Averages
variable {K : Type} [Field K] [LinearOrder K] [IsStrictOrderedRing K]

-- A mean of two values with positive weights lies between them.
theorem weighted_mean_between (p q a b : K) (hp : 0 < p) (hq : 0 < q) :
    min a b ≤ (p * a + q * b) / (p + q) ∧ (p * a + q * b) / (p + q) ≤ max a b := by
  have weight : 0 < p + q := add_pos hp hq
  constructor
  · rw [le_div_iff₀ weight, mul_add, mul_comm _ p, mul_comm _ q]
    exact add_le_add (mul_le_mul_of_nonneg_left (min_le_left a b) hp.le)
      (mul_le_mul_of_nonneg_left (min_le_right a b) hq.le)
  · rw [div_le_iff₀ weight, mul_add, mul_comm _ p, mul_comm _ q]
    exact add_le_add (mul_le_mul_of_nonneg_left (le_max_left a b) hp.le)
      (mul_le_mul_of_nonneg_left (le_max_right a b) hq.le)

-- Two observations are known better than either of them.
theorem combined_variance_lt (v w : K) (hv : 0 < v) (hw : 0 < w) :
    1 / (1 / v + 1 / w) < v ∧ 1 / (1 / v + 1 / w) < w := by
  have first : 0 < 1 / v := one_div_pos.mpr hv
  have second : 0 < 1 / w := one_div_pos.mpr hw
  constructor
  · calc
      1 / (1 / v + 1 / w) < 1 / (1 / v) := one_div_lt_one_div_of_lt first (lt_add_of_pos_right _ second)
      _ = v := one_div_one_div v
  · calc
      1 / (1 / v + 1 / w) < 1 / (1 / w) := one_div_lt_one_div_of_lt second (lt_add_of_pos_left _ first)
      _ = w := one_div_one_div w

end Averages

section Polls
variable {K : Type} [Field K] [LinearOrder K] (functions : Functions K)

/-- The window sum that a poll at `nowMs` sees. -/
def windowSum (s : AccountCapacityState K) (nowMs : Int) : K :=
  total (s.evictOld nowMs).window5h

def lowerBound (s : AccountCapacityState K) (nowMs : Int) (u : K) : K :=
  windowSum s nowMs / (u / 100)

variable [IsStrictOrderedRing K] {s : AccountCapacityState K}

theorem begun_sum (balanced : Balanced s) (nowMs : Int) :
    (s.beginPoll nowMs).proxyTokens5hWeighted = windowSum s nowMs :=
  (evict_old_balanced balanced nowMs).running

theorem lower_bound_pos (s : AccountCapacityState K) (nowMs : Int) (u : K) (reliable : minUForLb ≤ u) :
    0 < lowerBound s nowMs u ↔ 0 < windowSum s nowMs := by
  have usage : 0 < u / 100 := by
    apply div_pos _ (by norm_num)
    exact lt_of_lt_of_le (by norm_num [minUForLb]) reliable
  exact div_pos_iff_of_pos_right usage

theorem poll_censored (balanced : Balanced s) (nowMs : Int) (u : K)
    (censored : censoredUThreshold ≤ u) (seen : 0 < windowSum s nowMs) :
    FilterOnly { s.beginPoll nowMs with
      cIHardLower := max s.cIHardLower (lowerBound s nowMs u) }
      (s.onUsagePoll functions nowMs u) := by
  have sum := begun_sum balanced nowMs
  simp only [AccountCapacityState.onUsagePoll, sum]
  rw [if_pos censored, if_pos seen]
  exact predict_frame _ nowMs

/-- Outside the range, or over an empty window, nothing is learnt. -/
theorem poll_ignored (balanced : Balanced s) (nowMs : Int) (u : K)
    (unreliable : u < minUForLb ∨ windowSum s nowMs ≤ 0) :
    FilterOnly (s.beginPoll nowMs) (s.onUsagePoll functions nowMs u) := by
  have sum := begun_sum balanced nowMs
  simp only [AccountCapacityState.onUsagePoll, sum]
  split
  · rename_i censored
    have reliable : ¬u < minUForLb := by
      apply not_lt_of_ge (le_trans _ censored)
      norm_num [minUForLb, censoredUThreshold]
    rw [if_neg (not_lt_of_ge (unreliable.resolve_left reliable))]
    exact predict_frame _ nowMs
  · split
    · exact predict_frame _ nowMs
    · rename_i reliable
      have bound : windowSum s nowMs / (u / 100) ≤ 0 := by
        have empty := unreliable.resolve_left reliable
        rw [← not_lt]
        exact fun positive => not_lt_of_ge empty
          ((lower_bound_pos s nowMs u (not_lt.mp reliable)).mp positive)
      rw [if_pos bound]
      exact predict_frame _ nowMs

theorem poll_learnt (balanced : Balanced s) (nowMs : Int) (u : K) (reliable : minUForLb ≤ u)
    (uncensored : u < censoredUThreshold) (seen : 0 < windowSum s nowMs) :
    FilterOnly ((s.beginPoll nowMs).updatePosterior functions (lowerBound s nowMs u))
      (s.onUsagePoll functions nowMs u) := by
  have sum := begun_sum balanced nowMs
  have bound := (lower_bound_pos s nowMs u reliable).mpr seen
  simp only [AccountCapacityState.onUsagePoll, sum]
  rw [if_neg (not_le_of_gt uncensored), if_neg (not_lt_of_ge reliable)]
  rw [lowerBound] at bound ⊢
  rw [if_neg (not_le_of_gt bound)]
  exact (predict_frame _ nowMs).trans (measure_frame functions _ nowMs u)

end Polls

section Posterior
variable {K : Type} [Field K] [LinearOrder K] [IsStrictOrderedRing K] (functions : Functions K)
  {s : AccountCapacityState K}

/-- A poll learns a lower bound: the mean goes towards it, the variance becomes less than
that of the observation and than the decayed one, nothing that was known is lost. -/
structure Averages (s t : AccountCapacityState K) (lb : K) : Prop where
  mean : min s.mu (functions.ln lb) ≤ t.mu ∧ t.mu ≤ max s.mu (functions.ln lb)
  observed : t.sigmaSq < 0.05
  decayed : t.sigmaSq < min (s.sigmaSq / 0.98) 4
  samples : s.nEff ≤ t.nEff
  bound : 0.9 * lb ≤ t.cIHardLower

structure SamePosterior (s t : AccountCapacityState K) : Prop where
  mean : t.mu = s.mu
  variance : t.sigmaSq = s.sigmaSq
  samples : t.nEff = s.nEff

omit [Field K] [LinearOrder K] [IsStrictOrderedRing K] in
theorem same_posterior {s t : AccountCapacityState K} (frame : FilterOnly s t) :
    SamePosterior s t := by
  obtain ⟨mean, variance, samples⟩ : t.mu = s.mu ∧ t.sigmaSq = s.sigmaSq ∧ t.nEff = s.nEff := by
    simpa using frame.posterior
  exact ⟨mean, variance, samples⟩

theorem decayed_positive (sound : Sound s) : 0 < min (s.sigmaSq / decayFactor) 4 := by
  apply lt_min
  · apply div_pos sound.variance.1
    norm_num [decayFactor]
  · norm_num

theorem update_averages (sound : Sound s) (lb : K) :
    Averages functions s (s.updatePosterior functions lb) lb := by
  have prior := decayed_positive sound
  have observation : (0 : K) < sigmaSqObs := by norm_num [sigmaSqObs]
  obtain ⟨belowPrior, belowObserved⟩ := combined_variance_lt _ _ prior observation
  refine ⟨?_, ?_, ?_, ?_, ?_⟩
  · exact weighted_mean_between _ _ _ _ (one_div_pos.mpr prior) (one_div_pos.mpr observation)
  · exact belowObserved
  · exact belowPrior
  · exact le_min (le_add_of_nonneg_right (by norm_num)) sound.samples.2
  · rw [mul_comm]
    exact le_trans (by norm_num) (le_max_right _ _)

theorem poll_averages (sound : Sound s) (nowMs : Int) (u : K) (reliable : 5 ≤ u)
    (uncensored : u < 95) (seen : 0 < windowSum s nowMs) :
    Averages functions s (s.onUsagePoll functions nowMs u) (lowerBound s nowMs u) := by
  have frame := poll_learnt functions sound.toBalanced nowMs u reliable uncensored seen
  have kept := same_posterior frame
  obtain ⟨mean, observed, decayed, samples, bound⟩ :=
    update_averages functions (begin_poll_sound sound nowMs) (lowerBound s nowMs u)
  refine ⟨?_, ?_, ?_, ?_, ?_⟩
  · rw [kept.mean]
    exact mean
  · rw [kept.variance]
    exact observed
  · rw [kept.variance]
    exact decayed
  · rw [kept.samples]
    exact samples
  · rw [frame.bound]
    exact bound

theorem poll_keeps_posterior (balanced : Balanced s) (nowMs : Int) (u : K)
    (unlearnt : u < 5 ∨ 95 ≤ u ∨ windowSum s nowMs ≤ 0) :
    SamePosterior s (s.onUsagePoll functions nowMs u) := by
  by_cases tightened : 95 ≤ u ∧ 0 < windowSum s nowMs
  · have kept := same_posterior (poll_censored functions balanced nowMs u tightened.1 tightened.2)
    exact ⟨kept.mean, kept.variance, kept.samples⟩
  · have ignored : u < 5 ∨ windowSum s nowMs ≤ 0 := by
      rcases unlearnt with unreliable | censored | empty
      · exact .inl unreliable
      · exact .inr (not_lt.mp fun seen => tightened ⟨censored, seen⟩)
      · exact .inr empty
    have kept := same_posterior (poll_ignored functions balanced nowMs u ignored)
    exact ⟨kept.mean, kept.variance, kept.samples⟩

end Posterior

section Reachable

/-- What is saved of a state and read back when the proxy starts again. -/
def toDbState {K : Type} (s : AccountCapacityState K) : XFactorDbState K where
  accountId := s.accountId
  mu := s.mu
  sigmaSq := s.sigmaSq
  nEff := s.nEff
  emaProxyRate := s.emaProxyRate
  cIHardLower := s.cIHardLower
  updatedAtMs := s.updatedAtMs
  lagEstimateMs := s.lagEstimateMs

/-- The states of an account: as the proxy starts, with or without a saved one, and after
requests and polls. -/
inductive Reachable : AccountCapacityState ℝ → Prop where
  | started (account : Account) (requests : List RequestRow) (createdMs : Int) :
      Reachable (initialState real account none requests createdMs)
  | restarted (saved : AccountCapacityState ℝ) (account : Account) (requests : List RequestRow)
      (createdMs : Int) : Reachable saved →
      Reachable (initialState real account (some (toDbState saved)) requests createdMs)
  | called (s : AccountCapacityState ℝ) (call : Call ℝ) : Reachable s →
      Reachable (perform real s call)

theorem rebuild_frame (rows : List (Int × ℝ × Option String)) (s : AccountCapacityState ℝ) :
    let t := rebuildWindow s rows
    (t.nEff, t.sigmaSq, t.kfP01, t.kfP10, t.kfE, t.kfEDot) =
      (s.nEff, s.sigmaSq, s.kfP01, s.kfP10, s.kfE, s.kfEDot) := by
  induction rows generalizing s with
  | nil => rfl
  | cons row rest ih =>
      refine (ih (rebuildEntry s row)).trans ?_
      unfold rebuildEntry
      dsimp only
      split
      · rfl
      · rfl

theorem initial_sound (account : Account) (db : Option (XFactorDbState ℝ))
    (requests : List RequestRow) (createdMs : Int)
    (saved : ∀ state, db = some state →
      (0 ≤ state.nEff ∧ state.nEff ≤ 100) ∧ 0 < state.sigmaSq ∧ state.sigmaSq ≤ 4) :
    Sound (initialState real account db requests createdMs) := by
  have frame := rebuild_frame (recentRequestsForAccount requests account.id
    (wrappingSub createdMs window5hMs)) (restoredState real account db createdMs)
  simp only [Prod.mk.injEq] at frame
  obtain ⟨samples, variance, upper, lower, external, rate⟩ := frame
  have restored : Sound (restoredState real account db createdMs) := by
    have fresh := new_sound real account.id account.name account.subscriptionTier account.isShared
      createdMs
    cases db with
    | none => exact fresh
    | some state =>
        obtain ⟨known, spread⟩ := saved state rfl
        exact ⟨⟨fresh.running, fresh.positive⟩, known, spread, rfl, by norm_num [restoredState,
          AccountCapacityState.restoreFromDb], le_rfl⟩
  refine ⟨initial_state_balanced real account db requests createdMs, ?_, ?_, ?_, ?_, ?_⟩
  · rw [initialState, samples]
    exact restored.samples
  · rw [initialState, variance]
    exact restored.variance
  · rw [initialState, upper, lower]
    exact restored.symmetric
  · rw [initialState, external]
    exact restored.external
  · rw [initialState, rate]
    exact restored.rate

theorem reachable_sound (s : AccountCapacityState ℝ) (reachable : Reachable s) : Sound s := by
  induction reachable with
  | started account requests createdMs =>
      exact initial_sound account none requests createdMs (by simp)
  | restarted saved account requests createdMs _ ih =>
      apply initial_sound
      rintro state same
      obtain rfl := Option.some.inj same
      exact ⟨ih.samples, ih.variance⟩
  | called s call _ ih => exact perform_sound real ih call

/-- A poll takes the average of the posterior and what it observes, or leaves the posterior. -/
theorem posterior_average (s : AccountCapacityState ℝ) (reachable : Reachable s) (nowMs : Int)
    (u : ℝ) :
    let t := s.onUsagePoll real nowMs u
    (5 ≤ u ∧ u < 95 ∧ 0 < windowSum s nowMs → Averages real s t (lowerBound s nowMs u)) ∧
      (u < 5 ∨ 95 ≤ u ∨ windowSum s nowMs = 0 → SamePosterior s t) := by
  have sound := reachable_sound s reachable
  constructor
  · rintro ⟨reliable, uncensored, seen⟩
    exact poll_averages real sound nowMs u reliable uncensored seen
  · rintro unlearnt
    apply poll_keeps_posterior real sound.toBalanced nowMs u
    exact unlearnt.imp_right fun other => other.imp_right le_of_eq

/-- An account with one request a minute before the poll. -/
noncomputable def polledState : AccountCapacityState ℝ :=
  perform real (initialState real (makeAccount "acc1" "anthropic" 0) none [] 1700000000000)
    (.onRequest 1700000000000 1000)

theorem polled_average :
    Averages real polledState (polledState.onUsagePoll real 1700000060000 50)
      (lowerBound polledState 1700000060000 50) := by
  have seen : 0 < windowSum polledState 1700000060000 := by
    have cutoff : wrappingSub 1700000060000 window5hMs = 1699982060000 := by decide
    norm_num [windowSum, polledState, initialState, restoredState, rebuildWindow,
      recentRequestsForAccount, StableSort.sortByKey, AccountCapacityState.new, perform,
      AccountCapacityState.onRequest, AccountCapacityState.evictOld, popOld, cutoff]
  exact (posterior_average polledState (.called _ _ (.started _ _ _)) 1700000060000 50).1
    ⟨by norm_num, by norm_num, seen⟩

end Reachable

section Order

/-- The three estimates, and the three factors, from the pessimistic to the optimistic. -/
structure EstimatesOrdered (functions : Functions ℝ) (s : AccountCapacityState ℝ) : Prop where
  pessimistic : (s.remainingTokensEstimate functions).1 ≤ (s.remainingTokensEstimate functions).2.1
  optimistic : (s.remainingTokensEstimate functions).2.1 ≤ (s.remainingTokensEstimate functions).2.2
  low : (s.xFactor functions).1 ≤ (s.xFactor functions).2.1
  high : (s.xFactor functions).2.1 ≤ (s.xFactor functions).2.2

/-- The ninety-fifth percentile of a log-normal distribution. -/
def upperQuantile (functions : Functions ℝ) (mu sigmaSq : ℝ) : ℝ :=
  functions.exp (mu + 1.645 * functions.sqrt sigmaSq)

-- Only the last comparison looks at the bound on one side alone.
theorem estimates_ordered_iff (s : AccountCapacityState ℝ) :
    EstimatesOrdered real s ↔ s.cIHardLower ≤ upperQuantile real s.mu s.sigmaSq := by
  have sigma : 0 ≤ 1.645 * Real.sqrt s.sigmaSq := mul_nonneg (by norm_num) (Real.sqrt_nonneg _)
  have base : (0 : ℝ) < cBasePro := by norm_num [cBasePro]
  have lower : max (Real.exp (s.mu - 1.645 * Real.sqrt s.sigmaSq)) s.cIHardLower ≤
      max (Real.exp s.mu) s.cIHardLower :=
    max_le_max_right _ (Real.exp_le_exp.mpr (sub_le_self _ sigma))
  have median : Real.exp s.mu ≤ upperQuantile real s.mu s.sigmaSq :=
    Real.exp_le_exp.mpr (le_add_of_nonneg_right sigma)
  constructor
  · intro ordered
    have estimate := (div_le_div_iff_of_pos_right base).mp ordered.high
    exact (le_max_right _ _).trans estimate
  · intro below
    have upper : max (Real.exp s.mu) s.cIHardLower ≤ upperQuantile real s.mu s.sigmaSq :=
      max_le median below
    refine ⟨?_, ?_, ?_, ?_⟩
    · exact max_le_max_right _ (sub_le_sub_right lower _)
    · exact max_le_max_right _ (sub_le_sub_right upper _)
    · exact (div_le_div_iff_of_pos_right base).mpr lower
    · exact (div_le_div_iff_of_pos_right base).mpr upper

/-- What a poll observes is not above the percentile of the posterior it leaves: of the same
one where it is censored, of the updated one with a tenth to spare where it learns, and there
the bound known before is not above it either. -/
def WithinPosterior (functions : Functions ℝ) (s : AccountCapacityState ℝ) : Call ℝ → Prop
  | .onRequest _ _ => True
  | .onUsagePoll nowMs u =>
      let lb := lowerBound s nowMs u
      let updated := s.updatePosterior functions lb
      0 < windowSum s nowMs →
        (95 ≤ u → lb ≤ upperQuantile functions s.mu s.sigmaSq) ∧
        (5 ≤ u → u < 95 →
          max s.cIHardLower (lb * 0.90) ≤ upperQuantile functions updated.mu updated.sigmaSq)

/-- The bound is below the percentile. -/
def BoundBelow (s : AccountCapacityState ℝ) : Prop :=
  s.cIHardLower ≤ upperQuantile real s.mu s.sigmaSq

theorem frame_bound_below {s t : AccountCapacityState ℝ} (frame : FilterOnly s t) :
    BoundBelow t ↔ BoundBelow s := by
  have kept := same_posterior frame
  rw [BoundBelow, BoundBelow, frame.bound, kept.mean, kept.variance]

theorem perform_bound_below (s : AccountCapacityState ℝ) (call : Call ℝ) (balanced : Balanced s)
    (below : BoundBelow s) : BoundBelow (perform real s call) ↔ WithinPosterior real s call := by
  cases call with
  | onRequest nowMs weightedTokens =>
      refine iff_of_true ?_ trivial
      simp only [perform, AccountCapacityState.onRequest]
      split
      · exact below
      · exact below
  | onUsagePoll nowMs u =>
      simp only [perform, WithinPosterior]
      by_cases seen : 0 < windowSum s nowMs
      · rcases lt_or_ge u 5 with unreliable | reliable
        · rw [frame_bound_below (poll_ignored real balanced nowMs u (.inl unreliable))]
          exact iff_of_true below fun _ =>
            ⟨fun high => absurd high (by linarith), fun high => absurd high (by linarith)⟩
        · rcases lt_or_ge u 95 with uncensored | censored
          · rw [frame_bound_below (poll_learnt real balanced nowMs u reliable uncensored seen)]
            constructor
            · intro learnt _
              exact ⟨fun high => absurd high (by linarith), fun _ _ => learnt⟩
            · intro within
              exact (within seen).2 reliable uncensored
          · rw [frame_bound_below (poll_censored real balanced nowMs u censored seen)]
            constructor
            · intro tightened _
              exact ⟨fun _ => (le_max_right _ _).trans tightened,
                fun _ low => absurd low (by linarith)⟩
            · intro within
              exact max_le below ((within seen).1 censored)
      · rw [frame_bound_below (poll_ignored real balanced nowMs u (.inr (not_lt.mp seen)))]
        exact iff_of_true below fun positive => absurd positive seen

theorem perform_balanced (s : AccountCapacityState ℝ) (call : Call ℝ) (balanced : Balanced s) :
    Balanced (perform real s call) := by
  cases call with
  | onRequest nowMs weightedTokens => exact on_request_balanced balanced nowMs weightedTokens
  | onUsagePoll nowMs u => exact on_usage_poll_balanced real balanced nowMs u

/-- The estimates are in order all along a run exactly if every poll of it stays within the
posterior. -/
theorem estimates_ordered_along (accountId accountName : String) (subscriptionTier : Option String)
    (isShared : Bool) (createdMs : Int) (calls : List (Call ℝ)) :
    let s := AccountCapacityState.new real accountId accountName subscriptionTier isShared createdMs
    (∀ before after, calls = before ++ after → EstimatesOrdered real (replay real s before)) ↔
      ∀ before call after, calls = before ++ call :: after →
        WithinPosterior real (replay real s before) call := by
  intro s
  have fresh : Sound s := new_sound real _ _ _ _ _
  have initially : BoundBelow s := (Real.exp_pos _).le
  simp only [estimates_ordered_iff]
  exact Transition.replay_iff (perform real) BoundBelow Balanced (WithinPosterior real)
    perform_balanced perform_bound_below calls s fresh.toBalanced initially

/-- The whole window of a Pro account weighs a million when the account is full. -/
noncomputable def outgrownCalls : List (Call ℝ) :=
  [.onRequest 1700000000000 1000000, .onUsagePoll 1700000001000 100, .onUsagePoll 1700021600000 0]

noncomputable def outgrownState : AccountCapacityState ℝ :=
  replay real (AccountCapacityState.new real "acc1" "test" (some "pro") false 1700000000000)
    outgrownCalls

theorem pro_prior : tierPrior real (some "pro") = (Real.log 88000, 0.353 * 0.353) := by
  have name : Text.trim "pro" = "pro" := by decide
  have lower : Text.toAsciiLowercase "pro" = "pro" := by decide
  have twenty : Text.contains "20x" "pro" = false := by decide
  have five : Text.contains "5x" "pro" = false := by decide
  have generic : Text.contains "max" "pro" = false := by decide
  have pro : Text.contains "pro" "pro" = true := by decide
  simp [tierPrior, name, lower, twenty, five, generic, pro, real]

theorem outgrown_state :
    outgrownState.mu = Real.log 88000 ∧ outgrownState.sigmaSq = 0.353 * 0.353 ∧
      outgrownState.cIHardLower = 1000000 ∧ outgrownState.proxyTokens5hWeighted = 0 ∧
      outgrownState.kfE = 0 := by
  have first : wrappingSub 1700000000000 window5hMs = 1699982000000 := by decide
  have full : wrappingSub 1700000001000 window5hMs = 1699982001000 := by decide
  have later : wrappingSub 1700021600000 window5hMs = 1700003600000 := by decide
  have gap : wrappingSub 1700021600000 1700000001000 = 21599000 := by decide
  norm_num [outgrownState, outgrownCalls, replay, perform, AccountCapacityState.onRequest,
    AccountCapacityState.onUsagePoll, AccountCapacityState.beginPoll, AccountCapacityState.evictOld,
    AccountCapacityState.kfPredictTo, AccountCapacityState.predictCovariance,
    AccountCapacityState.predictionGap, AccountCapacityState.new, popOld, pro_prior,
    censoredUThreshold, minUForLb, first, full, later, gap]

/-- Six hours later all of it has left the window: the account is expected to take a million,
and a sixth of that at best. -/
theorem estimates_disordered :
    ¬ (outgrownState.remainingTokensEstimate real).2.1 ≤
        (outgrownState.remainingTokensEstimate real).2.2 ∧
      ¬ (outgrownState.xFactor real).2.1 ≤ (outgrownState.xFactor real).2.2 := by
  obtain ⟨mean, variance, bound, sum, external⟩ := outgrown_state
  have deviation : Real.sqrt (0.353 * 0.353) = 0.353 := Real.sqrt_mul_self (by norm_num)
  have best : upperQuantile real outgrownState.mu outgrownState.sigmaSq < 1000000 := by
    have growth : Real.exp (1.645 * 0.353) ≤ Real.exp 1 := Real.exp_le_exp.mpr (by norm_num)
    have known := Real.exp_one_lt_d9
    rw [upperQuantile, mean, variance]
    simp only [real, deviation]
    rw [Real.exp_add, Real.exp_log (by norm_num)]
    linarith
  have expected : (1000000 : ℝ) ≤ outgrownState.cEstimate real := by
    rw [← bound]
    exact le_max_right _ _
  have base : (0 : ℝ) < cBasePro := by norm_num [cBasePro]
  constructor
  · have used : outgrownState.proxyTokens5hWeighted + max outgrownState.kfE 0 = 0 := by
      simp [sum, external]
    simp only [AccountCapacityState.remainingTokensEstimate, used, sub_zero, not_le]
    exact max_lt (best.trans_le (expected.trans (le_max_left _ _)))
      (lt_max_of_lt_left (by linarith))
  · simp only [AccountCapacityState.xFactor, not_le]
    exact div_lt_div_of_pos_right (best.trans_le expected) base

end Order

end Ccflare.CapacityEstimates
