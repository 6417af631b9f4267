import Ccflare.CapacityState
import Ccflare.Transition
import Mathlib.Analysis.SpecialFunctions.Log.Basic
import Mathlib.Analysis.SpecialFunctions.Pow.Real

/-!
What every sequence of requests and usage polls keeps of a capacity state: the running
total is the weight of the window, the posterior and the filter stay in their ranges.
The covariance of the filter is kept semidefinite by every poll whose prediction the cap
spares, and by no other.
-/

namespace Ccflare.CapacityState

open MachineNumber Covariance RollingWindow AccountCapacityState

inductive Call (K : Type) where
  | onRequest (nowMs : Int) (weightedTokens : K)
  | onUsagePoll (nowMs : Int) (utilizationPct : K)

variable {K : Type}

def Call.nowMs : Call K → Int
  | .onRequest nowMs _ | .onUsagePoll nowMs _ => nowMs

variable [Field K] [LinearOrder K]

def perform (functions : Functions K) (s : AccountCapacityState K) :
    Call K → AccountCapacityState K
  | .onRequest nowMs weightedTokens => s.onRequest nowMs weightedTokens
  | .onUsagePoll nowMs utilizationPct => s.onUsagePoll functions nowMs utilizationPct

def replay (functions : Functions K) (s : AccountCapacityState K) (calls : List (Call K)) :
    AccountCapacityState K :=
  calls.foldl (perform functions) s

/-- The exits of a poll: the bound is tightened, nothing is learnt, or the posterior and
the filter are updated. -/
theorem poll_cases (functions : Functions K) (s : AccountCapacityState K) (nowMs : Int) (u : K) :
    (∃ bound, s.onUsagePoll functions nowMs u =
      { s.beginPoll nowMs with
        cIHardLower := max (s.beginPoll nowMs).cIHardLower bound }.kfPredictTo nowMs) ∨
    s.onUsagePoll functions nowMs u = (s.beginPoll nowMs).kfPredictTo nowMs ∨
    ∃ lb, 0 < lb ∧ s.onUsagePoll functions nowMs u =
      (((s.beginPoll nowMs).updatePosterior functions lb).kfPredictTo nowMs).measureExternal
        functions nowMs u := by
  simp only [onUsagePoll]
  split
  · split
    · exact .inl ⟨_, rfl⟩
    · exact .inr (.inl rfl)
  · split
    · exact .inr (.inl rfl)
    · split
      · exact .inr (.inl rfl)
      · rename_i positive
        exact .inr (.inr ⟨_, not_le.mp positive, rfl⟩)

/-- A step that touches nothing but the filter. -/
structure FilterOnly (s t : AccountCapacityState K) : Prop where
  account : t.accountId = s.accountId
  window : t.window5h = s.window5h
  running : t.proxyTokens5hWeighted = s.proxyTokens5hWeighted
  posterior : (t.mu, t.sigmaSq, t.nEff) = (s.mu, s.sigmaSq, s.nEff)
  bound : t.cIHardLower = s.cIHardLower

omit [Field K] [LinearOrder K] in
theorem FilterOnly.trans {r s t : AccountCapacityState K} (first : FilterOnly r s)
    (second : FilterOnly s t) : FilterOnly r t where
  account := second.account.trans first.account
  window := second.window.trans first.window
  running := second.running.trans first.running
  posterior := second.posterior.trans first.posterior
  bound := second.bound.trans first.bound

theorem predict_frame (s : AccountCapacityState K) (nowMs : Int) :
    FilterOnly s (s.kfPredictTo nowMs) := by
  simp only [kfPredictTo]
  split
  · exact ⟨rfl, rfl, rfl, rfl, rfl⟩
  · split
    · exact ⟨rfl, rfl, rfl, rfl, rfl⟩
    · exact ⟨rfl, rfl, rfl, rfl, rfl⟩

theorem measure_frame (functions : Functions K) (s : AccountCapacityState K) (nowMs : Int) (u : K) :
    FilterOnly s (s.measureExternal functions nowMs u) := by
  simp only [measureExternal]
  split
  · simp only [kfUpdate]
    split
    · exact ⟨rfl, rfl, rfl, rfl, rfl⟩
    · exact ⟨rfl, rfl, rfl, rfl, rfl⟩
  · exact ⟨rfl, rfl, rfl, rfl, rfl⟩

/-- A poll evicts, and does nothing else to the window. -/
theorem poll_window (functions : Functions K) (s : AccountCapacityState K) (nowMs : Int) (u : K) :
    (s.onUsagePoll functions nowMs u).accountId = s.accountId ∧
      (s.onUsagePoll functions nowMs u).window5h = (s.evictOld nowMs).window5h ∧
      (s.onUsagePoll functions nowMs u).proxyTokens5hWeighted =
        (s.evictOld nowMs).proxyTokens5hWeighted := by
  rcases poll_cases functions s nowMs u with ⟨bound, polled⟩ | polled | ⟨lb, _, polled⟩
  · rw [polled]
    have frame := predict_frame
      { s.beginPoll nowMs with cIHardLower := max (s.beginPoll nowMs).cIHardLower bound } nowMs
    exact ⟨frame.account, frame.window, frame.running⟩
  · rw [polled]
    have frame := predict_frame (s.beginPoll nowMs) nowMs
    exact ⟨frame.account, frame.window, frame.running⟩
  · rw [polled]
    have frame := (predict_frame ((s.beginPoll nowMs).updatePosterior functions lb) nowMs).trans
      (measure_frame functions _ nowMs u)
    exact ⟨frame.account, frame.window, frame.running⟩

theorem request_window (s : AccountCapacityState K) (nowMs : Int) (weightedTokens : K)
    (weighs : 0 < weightedTokens) :
    (s.onRequest nowMs weightedTokens).accountId = s.accountId ∧
      (s.onRequest nowMs weightedTokens).window5h =
        (s.evictOld nowMs).window5h ++ [(nowMs, weightedTokens)] := by
  rw [onRequest, if_neg (not_le.mpr weighs)]
  exact ⟨rfl, rfl⟩

/-- The running total is the weight of the window, whose entries all weigh something. -/
structure Balanced (s : AccountCapacityState K) : Prop where
  running : s.proxyTokens5hWeighted = total s.window5h
  positive : ∀ entry ∈ s.window5h, 0 < entry.2

structure Sound (s : AccountCapacityState K) : Prop extends Balanced s where
  samples : 0 ≤ s.nEff ∧ s.nEff ≤ 100
  variance : 0 < s.sigmaSq ∧ s.sigmaSq ≤ 4
  symmetric : s.kfP01 = s.kfP10
  external : -5000 ≤ s.kfE
  rate : 0 ≤ s.kfEDot

section Step
variable {s : AccountCapacityState K}

theorem evict_old_window (s : AccountCapacityState K) (nowMs : Int) :
    (s.evictOld nowMs).window5h = expire (wrappingSub nowMs window5hMs) s.window5h := by
  simp [evictOld, pop_old_eq]

theorem predict_sound (sound : Sound s) (nowMs : Int) : Sound (s.kfPredictTo nowMs) := by
  obtain ⟨balanced, samples, variance, symmetric, external, rate⟩ := sound
  simp only [kfPredictTo]
  split
  · exact ⟨⟨balanced.running, balanced.positive⟩, samples, variance, symmetric, external, rate⟩
  · split
    · exact ⟨⟨balanced.running, balanced.positive⟩, samples, variance, symmetric, external, rate⟩
    · exact ⟨⟨balanced.running, balanced.positive⟩, samples, variance, rfl, le_max_right _ _, le_max_right _ _⟩

-- The update may leave the ranges of the filter; the clamps after it restore them.
theorem measure_sound (functions : Functions K) (sound : Sound s) (nowMs : Int) (u : K) :
    Sound (s.measureExternal functions nowMs u) := by
  obtain ⟨balanced, samples, variance, symmetric, external, rate⟩ := sound
  simp only [measureExternal]
  split
  · simp only [kfUpdate]
    split
    · exact ⟨⟨balanced.running, balanced.positive⟩, samples, variance, symmetric, le_max_right _ _, le_max_right _ _⟩
    · exact ⟨⟨balanced.running, balanced.positive⟩, samples, variance, rfl, le_max_right _ _, le_max_right _ _⟩
  · exact ⟨⟨balanced.running, balanced.positive⟩, samples, variance, symmetric, external, rate⟩

theorem bound_sound (sound : Sound s) (bound : K) : Sound { s with cIHardLower := bound } := by
  obtain ⟨balanced, samples, variance, symmetric, external, rate⟩ := sound
  exact ⟨⟨balanced.running, balanced.positive⟩, samples, variance, symmetric, external, rate⟩

theorem perform_bound (functions : Functions K) (s : AccountCapacityState K) (call : Call K) :
    s.cIHardLower ≤ (perform functions s call).cIHardLower := by
  cases call with
  | onRequest nowMs weightedTokens =>
      simp only [perform, onRequest]
      split
      · exact le_rfl
      · exact le_rfl
  | onUsagePoll nowMs u =>
      rcases poll_cases functions s nowMs u with ⟨bound, polled⟩ | polled | ⟨lb, _, polled⟩
      · rw [perform, polled, (predict_frame _ nowMs).bound]
        exact le_max_left _ _
      · rw [perform, polled, (predict_frame _ nowMs).bound]
        exact le_rfl
      · rw [perform, polled, (measure_frame functions _ nowMs u).bound, (predict_frame _ nowMs).bound]
        exact le_max_left _ _

variable [IsStrictOrderedRing K]

theorem new_sound (functions : Functions K) (accountId accountName : String)
    (subscriptionTier : Option String) (isShared : Bool) (nowMs : Int) :
    Sound (new functions accountId accountName subscriptionTier isShared nowMs) where
  running := by simp [new]
  positive := by simp [new]
  samples := by simp [new]
  variance := by
    simp only [new, tierPrior]
    split
    · norm_num
    · split_ifs <;> norm_num
  symmetric := rfl
  external := by simp [new]
  rate := le_rfl

theorem evict_old_balanced (balanced : Balanced s) (nowMs : Int) :
    Balanced (s.evictOld nowMs) := by
  have kept : ∀ entry ∈ (s.evictOld nowMs).window5h, 0 < entry.2 := by
    rw [evict_old_window]
    intro entry member
    exact balanced.positive entry ((expire_suffix _ _).subset member)
  refine ⟨?_, kept⟩
  have weighs := total_nonneg _ kept
  rw [evict_old_window] at weighs ⊢
  simp only [evictOld, balanced.running, pop_old_total]
  exact max_eq_left weighs

theorem on_request_balanced (balanced : Balanced s) (nowMs : Int) (weightedTokens : K) :
    Balanced (s.onRequest nowMs weightedTokens) := by
  simp only [onRequest]
  split
  · exact balanced
  · rename_i weighs
    have evicted := evict_old_balanced balanced nowMs
    refine ⟨by simp [evicted.running], ?_⟩
    intro entry member
    rcases List.mem_append.mp member with earlier | last
    · exact evicted.positive entry earlier
    · obtain rfl := List.mem_singleton.mp last
      exact not_le.mp weighs

theorem on_usage_poll_balanced (functions : Functions K) (balanced : Balanced s) (nowMs : Int)
    (u : K) : Balanced (s.onUsagePoll functions nowMs u) := by
  have evicted := evict_old_balanced balanced nowMs
  obtain ⟨_, window, running⟩ := poll_window functions s nowMs u
  refine ⟨by rw [window, running, evicted.running], ?_⟩
  rw [window]
  exact evicted.positive

theorem on_request_sound (sound : Sound s) (nowMs : Int) (weightedTokens : K) :
    Sound (s.onRequest nowMs weightedTokens) := by
  have balanced := on_request_balanced sound.toBalanced nowMs weightedTokens
  obtain ⟨_, samples, variance, symmetric, external, rate⟩ := sound
  simp only [onRequest] at balanced ⊢
  split
  · rename_i weightless
    rw [if_pos weightless] at balanced
    exact ⟨balanced, samples, variance, symmetric, external, rate⟩
  · rename_i weighs
    rw [if_neg weighs] at balanced
    exact ⟨balanced, samples, variance, symmetric, external, rate⟩

-- One observation alone bounds the variance of the posterior by its own.
theorem posterior_variance (prior : K) (positive : 0 < prior) :
    0 < 1 / (1 / prior + 1 / sigmaSqObs) ∧ 1 / (1 / prior + 1 / sigmaSqObs) ≤ sigmaSqObs := by
  have observed : (0 : K) < sigmaSqObs := by norm_num [sigmaSqObs]
  have precision : 0 < 1 / prior := one_div_pos.mpr positive
  have known : 0 < 1 / (sigmaSqObs : K) := one_div_pos.mpr observed
  constructor
  · positivity
  · calc
      1 / (1 / prior + 1 / sigmaSqObs) ≤ 1 / (1 / sigmaSqObs) :=
        one_div_le_one_div_of_le known (le_add_of_nonneg_left precision.le)
      _ = sigmaSqObs := one_div_one_div _

theorem update_posterior_sound (functions : Functions K) (sound : Sound s) (lb : K) :
    Sound (s.updatePosterior functions lb) where
  running := sound.running
  positive := sound.positive
  samples := by
    refine ⟨le_min (add_nonneg sound.samples.1 ?_) ?_, min_le_right _ _⟩ <;> norm_num
  variance := by
    have decayed : 0 < min (s.sigmaSq / decayFactor) 4 := by
      apply lt_min
      · apply div_pos sound.variance.1
        norm_num [decayFactor]
      · norm_num
    obtain ⟨low, high⟩ := posterior_variance _ decayed
    refine ⟨low, high.trans ?_⟩
    norm_num [sigmaSqObs]
  symmetric := sound.symmetric
  external := sound.external
  rate := sound.rate

theorem begin_poll_sound (sound : Sound s) (nowMs : Int) : Sound (s.beginPoll nowMs) := by
  have evicted := evict_old_balanced sound.toBalanced nowMs
  obtain ⟨_, samples, variance, symmetric, external, rate⟩ := sound
  exact ⟨⟨evicted.running, evicted.positive⟩, samples, variance, symmetric, external, rate⟩

theorem perform_sound (functions : Functions K) (sound : Sound s) (call : Call K) :
    Sound (perform functions s call) := by
  cases call with
  | onRequest nowMs weightedTokens => exact on_request_sound sound nowMs weightedTokens
  | onUsagePoll nowMs u =>
      have begun := begin_poll_sound sound nowMs
      rcases poll_cases functions s nowMs u with ⟨bound, polled⟩ | polled | ⟨lb, _, polled⟩
      · rw [perform, polled]
        exact predict_sound (bound_sound begun _) nowMs
      · rw [perform, polled]
        exact predict_sound begun nowMs
      · rw [perform, polled]
        have updated := update_posterior_sound functions begun lb
        exact measure_sound functions (predict_sound updated nowMs) nowMs u

theorem replay_sound (functions : Functions K) (sound : Sound s) (calls : List (Call K)) :
    Sound (replay functions s calls) := by
  induction calls generalizing s with
  | nil => exact sound
  | cons call rest ih => exact ih (perform_sound functions sound call)

end Step

section Filter
variable {s : AccountCapacityState K}

def AccountCapacityState.covariance (s : AccountCapacityState K) : Symmetric K :=
  ⟨s.kfP00, s.kfP01, s.kfP11⟩

/-- What the prediction of a poll has to meet for the clamps to leave the determinant. -/
def SparedAt (s : AccountCapacityState K) (nowMs : Int) : Prop :=
  s.lastKfPredictMs = 0 ∨ s.predictionGap nowMs < 0.001 ∨
    (s.covariance.predict (s.predictionGap nowMs)
      (kfProcessNoiseRate * s.predictionGap nowMs)).Spared kfVarianceCap

def SparedBy (s : AccountCapacityState K) : Call K → Prop
  | .onRequest _ _ => True
  | .onUsagePoll nowMs _ => SparedAt s nowMs

/-- A step that leaves what prediction reads of the filter. -/
structure SameFilter (s t : AccountCapacityState K) : Prop where
  covariance : t.covariance = s.covariance
  lower : t.kfP10 = s.kfP10
  predicted : t.lastKfPredictMs = s.lastKfPredictMs

/-- A poll predicts, and may then take a measurement. -/
theorem poll_filter (functions : Functions K) (s : AccountCapacityState K) (nowMs : Int) (u : K) :
    ∃ t, SameFilter s t ∧ (s.onUsagePoll functions nowMs u = t.kfPredictTo nowMs ∨
      s.onUsagePoll functions nowMs u =
        (t.kfPredictTo nowMs).measureExternal functions nowMs u) := by
  rcases poll_cases functions s nowMs u with ⟨bound, polled⟩ | polled | ⟨lb, _, polled⟩
  · exact ⟨{ s.beginPoll nowMs with cIHardLower := max (s.beginPoll nowMs).cIHardLower bound },
      ⟨rfl, rfl, rfl⟩, .inl polled⟩
  · exact ⟨s.beginPoll nowMs, ⟨rfl, rfl, rfl⟩, .inl polled⟩
  · exact ⟨(s.beginPoll nowMs).updatePosterior functions lb, ⟨rfl, rfl, rfl⟩, .inr polled⟩

theorem request_filter (s : AccountCapacityState K) (nowMs : Int) (weightedTokens : K) :
    SameFilter s (s.onRequest nowMs weightedTokens) := by
  simp only [onRequest]
  split
  · exact ⟨rfl, rfl, rfl⟩
  · exact ⟨rfl, rfl, rfl⟩

theorem SameFilter.spared {t : AccountCapacityState K} (same : SameFilter s t) (nowMs : Int) :
    SparedAt t nowMs ↔ SparedAt s nowMs := by
  have gap : t.predictionGap nowMs = s.predictionGap nowMs := by
    rw [predictionGap, same.predicted, predictionGap]
  rw [SparedAt, same.predicted, gap, same.covariance, SparedAt]

structure Filtering (s : AccountCapacityState K) : Prop where
  symmetric : s.kfP01 = s.kfP10
  nonneg : s.covariance.Nonneg

theorem SameFilter.filtering {t : AccountCapacityState K} (same : SameFilter s t)
    (filtering : Filtering s) : Filtering t where
  symmetric := by
    have upper := congrArg Symmetric.b same.covariance
    exact upper.trans (filtering.symmetric.trans same.lower.symm)
  nonneg := by
    rw [same.covariance]
    exact filtering.nonneg

theorem kf_update_covariance (filtering : Filtering s) (eObs r : K) (certain : 0 < s.kfP00 + r) :
    (s.kfUpdate eObs r).covariance = (s.covariance.update r).clip := by
  rw [kfUpdate, if_neg (not_le.mpr certain), ← filtering.symmetric]
  rfl

theorem kf_update_symmetric (filtering : Filtering s) (eObs r : K) :
    (s.kfUpdate eObs r).kfP01 = (s.kfUpdate eObs r).kfP10 := by
  simp only [kfUpdate]
  split
  · exact filtering.symmetric
  · rfl

variable [IsStrictOrderedRing K]

theorem gap_nonneg (s : AccountCapacityState K) (nowMs : Int) : 0 ≤ s.predictionGap nowMs := by
  apply div_nonneg
  · exact_mod_cast le_max_right _ 0
  · norm_num

theorem noise_nonneg (dt : K) (forward : 0 ≤ dt) : 0 ≤ kfProcessNoiseRate * dt := by
  apply mul_nonneg _ forward
  norm_num [kfProcessNoiseRate]

theorem cap_positive : (0 : K) < kfVarianceCap := by
  norm_num [kfVarianceCap]

theorem predict_filtering (filtering : Filtering s) (nowMs : Int) :
    Filtering (s.kfPredictTo nowMs) := by
  simp only [kfPredictTo]
  split
  · exact ⟨filtering.symmetric, filtering.nonneg⟩
  · split
    · exact filtering
    · have forward := gap_nonneg s nowMs
      have predicted := predict_nonneg forward (noise_nonneg _ forward) filtering.nonneg
      exact ⟨rfl, cap_nonneg cap_positive.le predicted⟩

theorem predict_semidefinite_iff (filtering : Filtering s) (nowMs : Int)
    (semidefinite : s.covariance.Semidefinite) :
    (s.kfPredictTo nowMs).covariance.Semidefinite ↔ SparedAt s nowMs := by
  simp only [kfPredictTo, SparedAt]
  split
  · rename_i fresh
    exact iff_of_true semidefinite (.inl fresh)
  · rename_i predicted
    split
    · rename_i short
      exact iff_of_true semidefinite (.inr (.inl short))
    · rename_i long
      have forward := gap_nonneg s nowMs
      have noise := noise_nonneg _ forward
      have nonneg := predict_nonneg forward noise filtering.nonneg
      have grown := predict_semidefinite forward noise filtering.nonneg semidefinite
      have capped := cap_semidefinite_iff cap_positive nonneg grown
      simp only [predicted, long, false_or]
      exact capped

variable {functions : Functions K} (positive : ∀ x, 0 < functions.exp x)
include positive

theorem measurement_noise (s : AccountCapacityState K) :
    0 < (s.cEstimate functions * 0.01) ^ 2 / 12 := by
  have estimate : 0 < s.cEstimate functions := lt_max_of_lt_left (positive s.mu)
  positivity

theorem measure_covariance (filtering : Filtering s) (nowMs : Int) (u : K) :
    (s.measureExternal functions nowMs u).covariance = s.covariance ∨
      ∃ r, 0 < r ∧ (s.measureExternal functions nowMs u).covariance =
        (s.covariance.update r).clip := by
  have noise := measurement_noise positive s
  have certain := add_pos_of_nonneg_of_pos filtering.nonneg.1 noise
  simp only [measureExternal]
  split
  · exact .inr ⟨_, noise, kf_update_covariance filtering _ _ certain⟩
  · exact .inl rfl

theorem measure_filtering (filtering : Filtering s) (nowMs : Int) (u : K) :
    Filtering (s.measureExternal functions nowMs u) where
  symmetric := by
    simp only [measureExternal]
    split
    · exact kf_update_symmetric filtering _ _
    · exact filtering.symmetric
  nonneg := by
    rcases measure_covariance positive filtering nowMs u with same | ⟨r, noise, updated⟩
    · rw [same]
      exact filtering.nonneg
    · rw [updated]
      exact clip_nonneg (update_first_nonneg noise filtering.nonneg).2

theorem measure_semidefinite_iff (filtering : Filtering s) (nowMs : Int) (u : K) :
    (s.measureExternal functions nowMs u).covariance.Semidefinite ↔
      s.covariance.Semidefinite := by
  rcases measure_covariance positive filtering nowMs u with same | ⟨r, noise, updated⟩
  · rw [same]
  · rw [updated]
    exact update_semidefinite_iff noise filtering.nonneg

theorem perform_filtering (filtering : Filtering s) (call : Call K) :
    Filtering (perform functions s call) := by
  cases call with
  | onRequest nowMs weightedTokens =>
      exact (request_filter s nowMs weightedTokens).filtering filtering
  | onUsagePoll nowMs u =>
      obtain ⟨t, same, polled⟩ := poll_filter functions s nowMs u
      have predicted := predict_filtering (same.filtering filtering) nowMs
      rcases polled with polled | polled
      · rw [perform, polled]
        exact predicted
      · rw [perform, polled]
        exact measure_filtering positive predicted nowMs u

/-- A call keeps the covariance semidefinite exactly if the prediction in it is spared. -/
theorem perform_semidefinite_iff (filtering : Filtering s) (semidefinite : s.covariance.Semidefinite)
    (call : Call K) :
    (perform functions s call).covariance.Semidefinite ↔ SparedBy s call := by
  cases call with
  | onRequest nowMs weightedTokens =>
      have same := request_filter s nowMs weightedTokens
      rw [perform, same.covariance]
      exact iff_of_true semidefinite trivial
  | onUsagePoll nowMs u =>
      obtain ⟨t, same, polled⟩ := poll_filter functions s nowMs u
      have begun := same.filtering filtering
      rw [← same.covariance] at semidefinite
      have predicted := predict_semidefinite_iff begun nowMs semidefinite
      rw [same.spared] at predicted
      rcases polled with polled | polled
      · rw [perform, polled]
        exact predicted
      · rw [perform, polled, measure_semidefinite_iff positive (predict_filtering begun nowMs)]
        exact predicted

end Filter

section Exact

/-- Exact real arithmetic. -/
noncomputable def real : Functions ℝ := ⟨Real.exp, Real.log, Real.sqrt⟩

variable (accountId accountName : String) (subscriptionTier : Option String) (isShared : Bool)
  (createdMs : Int)

/-- Requests and polls in any order keep a capacity state sound, and its hard bound only
rises. -/
theorem capacity_state_sound (calls : List (Call ℝ)) :
    let s := replay real (new real accountId accountName subscriptionTier isShared createdMs) calls
    Sound s ∧ ∀ call, s.cIHardLower ≤ (perform real s call).cIHardLower :=
  ⟨replay_sound real (new_sound real _ _ _ _ _) calls, perform_bound real _⟩

theorem new_filtering :
    Filtering (new real accountId accountName subscriptionTier isShared createdMs) := by
  refine ⟨rfl, ?_, le_rfl, ?_⟩ <;> norm_num [covariance, new, kfInitVariance]

theorem new_semidefinite :
    (new real accountId accountName subscriptionTier isShared createdMs).covariance.Semidefinite := by
  refine ⟨?_, ?_, ?_⟩ <;> norm_num [covariance, new, kfInitVariance]

/-- The covariance stays semidefinite exactly as long as every poll is spared. -/
theorem covariance_semidefinite_iff (calls : List (Call ℝ)) :
    let s := new real accountId accountName subscriptionTier isShared createdMs
    (∀ before after, calls = before ++ after →
      (replay real s before).covariance.Semidefinite) ↔
    ∀ before call after, calls = before ++ call :: after →
      SparedBy (replay real s before) call :=
  Transition.replay_iff (perform real) (fun s => s.covariance.Semidefinite) Filtering SparedBy
    (fun _ call filtering => perform_filtering Real.exp_pos filtering call)
    (fun _ call filtering semidefinite =>
      perform_semidefinite_iff Real.exp_pos filtering semidefinite call)
    calls _ (new_filtering _ _ _ _ _) (new_semidefinite _ _ _ _ _)

/-- Two idle polls a hundred seconds apart: the cap takes the determinant. -/
theorem covariance_lost :
    ¬ (replay real (new real "acc1" "test" none false 1700000000000)
      [.onUsagePoll 1700000000000 0, .onUsagePoll 1700000100000 0]).covariance.Semidefinite := by
  have gap : wrappingSub 1700000100000 1700000000000 = 100000 := by decide
  norm_num [replay, perform, onUsagePoll, beginPoll, evictOld, kfPredictTo, predictCovariance,
    predictionGap, new, popOld, censoredUThreshold, minUForLb, gap, covariance,
    Symmetric.Semidefinite, kfInitVariance, kfProcessNoiseRate, kfVarianceCap]

end Exact

end Ccflare.CapacityState
