import Ccflare.Account
import Mathlib.Tactic.Common

/-!
The failover loop of `try_accounts_in_order`. The closure that tries one account
is arbitrary: its result is a function of the account and of the loop index, so
every sequence of outcomes is one such function. The run also keeps what it
tried, in order, with the result of each attempt.
-/

namespace Ccflare.Failover

structure RateLimitInfo where
  isRateLimited : Bool
  resetTime : Option Int
  statusHeader : Option String
  remaining : Option Int
  deriving DecidableEq

inductive AccountResult (Response : Type) where
  | success (response : Response)
  | rateLimited (info : RateLimitInfo)
  | authFailed (status : Nat)
  | error (message : String)
  deriving DecidableEq

def maxFailoverAttempts : Nat := 5

structure Attempt (Response : Type) where
  index : Nat
  account : Account
  result : AccountResult Response
  deriving DecidableEq

structure Run (Response : Type) where
  answer : Option (Response × String)
  attempts : List (Attempt Response)
  deriving DecidableEq

variable {Response Meta Body : Type}

def AccountResult.isSuccess : AccountResult Response → Bool
  | .success _ => true
  | .rateLimited _ | .authFailed _ | .error _ => false

def AccountResult.isRateLimited : AccountResult Response → Bool
  | .rateLimited _ => true
  | .success _ | .authFailed _ | .error _ => false

def Run.after (attempt : Attempt Response) (run : Run Response) : Run Response :=
  { run with attempts := attempt :: run.attempts }

/-- One pass of the loop over the accounts `take` left, from a loop index and
the providers that answered 429 so far. -/
def tryFrom (tryAccount : Account → Nat → AccountResult Response) :
    List String → Nat → List Account → Run Response
  | _, _, [] => ⟨none, []⟩
  | limited, attempt, account :: rest =>
      if account.provider ∈ limited then tryFrom tryAccount limited (attempt + 1) rest
      else
        let tried := Attempt.mk attempt account (tryAccount account attempt)
        match tryAccount account attempt with
        | .success response => ⟨some (response, account.id), [tried]⟩
        | .rateLimited _ =>
            (tryFrom tryAccount (limited ++ [account.provider]) (attempt + 1) rest).after tried
        | .authFailed _ | .error _ =>
            (tryFrom tryAccount limited (attempt + 1) rest).after tried

def tryAccountsInOrder (accounts : List Account) (info : Meta) (body : Body)
    (tryAccount : Account → Meta → Body → Nat → AccountResult Response) : Run Response :=
  let maxAttempts := min accounts.length maxFailoverAttempts
  tryFrom (fun account attempt => tryAccount account info body attempt) [] 0
    (accounts.take maxAttempts)

variable (tryAccount : Account → Nat → AccountResult Response)

/-- The provider is limited before position `i`, by the initial set or by an
earlier account of the list whose result is a 429. -/
def LimitedBefore (limited : List String) (start : Nat) (accounts : List Account) (i : Nat)
    (provider : String) : Prop :=
  provider ∈ limited ∨ ∃ j < i, ∃ account, accounts[j]? = some account ∧
    account.provider = provider ∧ (tryAccount account (start + j)).isRateLimited = true

-- A skipped account adds nothing: its provider is in the set already.
theorem limited_before_succ (limited : List String) (start : Nat) (account : Account)
    (rest : List Account) (i : Nat) (provider : String) :
    LimitedBefore tryAccount limited start (account :: rest) (i + 1) provider ↔
      LimitedBefore tryAccount limited (start + 1) rest i provider ∨
        account.provider = provider ∧ (tryAccount account start).isRateLimited = true := by
  unfold LimitedBefore
  constructor
  · rintro (known | ⟨j, before, found, at_, same, hit⟩)
    · exact Or.inl (Or.inl known)
    · cases j with
      | zero =>
          simp only [List.getElem?_cons_zero, Option.some.injEq] at at_
          subst at_
          exact Or.inr ⟨same, by simpa using hit⟩
      | succ j =>
          refine Or.inl (Or.inr ⟨j, by omega, found, by simpa using at_, same, ?_⟩)
          rwa [Nat.add_assoc, Nat.add_comm 1 j]
  · rintro ((known | ⟨j, before, found, at_, same, hit⟩) | ⟨same, hit⟩)
    · exact Or.inl known
    · refine Or.inr ⟨j + 1, by omega, found, by simpa using at_, same, ?_⟩
      rwa [Nat.add_comm j 1, ← Nat.add_assoc]
    · exact Or.inr ⟨0, by omega, account, by simp, same, by simpa using hit⟩

theorem limited_before_zero (limited : List String) (start : Nat) (accounts : List Account)
    (provider : String) :
    LimitedBefore tryAccount limited start accounts 0 provider ↔ provider ∈ limited := by
  simp [LimitedBefore]

theorem limited_before_append (limited : List String) (start : Nat) (accounts : List Account)
    (i : Nat) (provider added : String) :
    LimitedBefore tryAccount (limited ++ [added]) start accounts i provider ↔
      LimitedBefore tryAccount limited start accounts i provider ∨ added = provider := by
  simp only [LimitedBefore, List.mem_append, List.mem_singleton]
  constructor
  · rintro ((known | same) | later)
    · exact Or.inl (Or.inl known)
    · exact Or.inr same.symm
    · exact Or.inl (Or.inr later)
  · rintro ((known | later) | same)
    · exact Or.inl (Or.inl known)
    · exact Or.inr later
    · exact Or.inl (Or.inr same.symm)

/-- What one pass of the loop does to the providers it skips. -/
def limitedAfter (limited : List String) (attempt : Nat) (account : Account) : List String :=
  if account.provider ∉ limited ∧ (tryAccount account attempt).isRateLimited then
    limited ++ [account.provider]
  else limited

theorem limited_before_step (limited : List String) (start : Nat) (account : Account)
    (rest : List Account) (i : Nat) (provider : String) :
    LimitedBefore tryAccount limited start (account :: rest) (i + 1) provider ↔
      LimitedBefore tryAccount (limitedAfter tryAccount limited start account) (start + 1) rest i
        provider := by
  rw [limited_before_succ]
  unfold limitedAfter
  by_cases skipped : account.provider ∈ limited
  · simp only [skipped, not_true_eq_false, false_and, ↓reduceIte, or_iff_left_iff_imp, and_imp]
    rintro rfl -
    exact Or.inl skipped
  · by_cases hit : (tryAccount account start).isRateLimited = true
    · simp [skipped, hit, limited_before_append]
    · simp [hit]

/-- The three things one pass can do: skip, answer, or record a failed attempt. -/
theorem try_from_cases (limited : List String) (start : Nat) (account : Account)
    (rest : List Account) :
    (account.provider ∈ limited ∧
      tryFrom tryAccount limited start (account :: rest) =
        tryFrom tryAccount (limitedAfter tryAccount limited start account) (start + 1) rest) ∨
    (account.provider ∉ limited ∧ ∃ response, tryAccount account start = .success response ∧
      tryFrom tryAccount limited start (account :: rest) =
        ⟨some (response, account.id), [⟨start, account, tryAccount account start⟩]⟩) ∨
    (account.provider ∉ limited ∧ (tryAccount account start).isSuccess = false ∧
      tryFrom tryAccount limited start (account :: rest) =
        (tryFrom tryAccount (limitedAfter tryAccount limited start account) (start + 1) rest).after
          ⟨start, account, tryAccount account start⟩) := by
  by_cases skipped : account.provider ∈ limited
  · exact Or.inl ⟨skipped, by simp [tryFrom, limitedAfter, skipped]⟩
  · cases outcome : tryAccount account start with
    | success response => exact Or.inr (Or.inl ⟨skipped, response, rfl,
        by simp [tryFrom, skipped, outcome]⟩)
    | rateLimited info => exact Or.inr (Or.inr ⟨skipped, rfl,
        by simp [tryFrom, limitedAfter, skipped, outcome, AccountResult.isRateLimited]⟩)
    | authFailed status => exact Or.inr (Or.inr ⟨skipped, rfl,
        by simp [tryFrom, limitedAfter, skipped, outcome, AccountResult.isRateLimited]⟩)
    | error message => exact Or.inr (Or.inr ⟨skipped, rfl,
        by simp [tryFrom, limitedAfter, skipped, outcome, AccountResult.isRateLimited]⟩)

theorem forall_position_cons {Item : Type} (first : Item) (rest : List Item)
    (holds : Nat → Item → Prop) :
    (∀ i item, (first :: rest)[i]? = some item → holds i item) ↔
      holds 0 first ∧ ∀ i item, rest[i]? = some item → holds (i + 1) item := by
  constructor
  · intro all
    exact ⟨all 0 first rfl, fun i item at_ => all (i + 1) item (by simpa using at_)⟩
  · rintro ⟨head, tail⟩ i item at_
    cases i with
    | zero =>
        simp only [List.getElem?_cons_zero, Option.some.injEq] at at_
        exact at_ ▸ head
    | succ i => exact tail i item (by simpa using at_)

/-- The loop falls through exactly when no account it asks answers. -/
theorem answer_none_iff (limited : List String) (start : Nat) (accounts : List Account) :
    (tryFrom tryAccount limited start accounts).answer = none ↔
      ∀ i account, accounts[i]? = some account →
        LimitedBefore tryAccount limited start accounts i account.provider ∨
          (tryAccount account (start + i)).isSuccess = false := by
  induction accounts generalizing limited start with
  | nil => simp [tryFrom]
  | cons account rest ih =>
      rw [forall_position_cons]
      have shift : ∀ i, start + 1 + i = start + (i + 1) := by omega
      simp only [limited_before_step, limited_before_zero, Nat.add_zero]
      rcases try_from_cases tryAccount limited start account rest with
        ⟨skipped, runs⟩ | ⟨fresh, response, outcome, runs⟩ | ⟨fresh, failed, runs⟩
      · rw [runs, ih]
        simp only [shift, skipped, true_or, true_and]
      · simp [runs, fresh, outcome, AccountResult.isSuccess]
      · rw [runs]
        simp only [Run.after, ih, shift, failed, or_true, true_and]

/-- What a run that falls through has asked: each account not limited before. -/
theorem attempted_iff (limited : List String) (start : Nat) (accounts : List Account)
    (fell : (tryFrom tryAccount limited start accounts).answer = none)
    (attempt : Attempt Response) :
    attempt ∈ (tryFrom tryAccount limited start accounts).attempts ↔
      ∃ i, accounts[i]? = some attempt.account ∧ attempt.index = start + i ∧
        attempt.result = tryAccount attempt.account attempt.index ∧
        ¬ LimitedBefore tryAccount limited start accounts i attempt.account.provider := by
  induction accounts generalizing limited start with
  | nil => simp [tryFrom]
  | cons account rest ih =>
      have later : (tryFrom tryAccount (limitedAfter tryAccount limited start account)
          (start + 1) rest).answer = none →
          (attempt ∈ (tryFrom tryAccount (limitedAfter tryAccount limited start account)
            (start + 1) rest).attempts ↔
          ∃ i, (account :: rest)[i + 1]? = some attempt.account ∧
            attempt.index = start + (i + 1) ∧
            attempt.result = tryAccount attempt.account attempt.index ∧
            ¬ LimitedBefore tryAccount limited start (account :: rest) (i + 1)
              attempt.account.provider) := by
        intro fellLater
        rw [ih _ _ fellLater]
        simp only [limited_before_step, List.getElem?_cons_succ, Nat.add_assoc,
          Nat.add_comm 1]
      -- An attempt is one on the head or one of the later run, whose positions are shifted.
      rw [← Nat.or_exists_add_one]
      simp only [List.getElem?_cons_zero, Option.some.injEq, Nat.add_zero, limited_before_zero]
      rcases try_from_cases tryAccount limited start account rest with
        ⟨skipped, runs⟩ | ⟨fresh, response, outcome, runs⟩ | ⟨fresh, failed, runs⟩
      · rw [runs] at fell ⊢
        rw [later fell]
        constructor
        · exact Or.inr
        · rintro (⟨rfl, -, -, fresh⟩ | asked)
          · exact absurd skipped fresh
          · exact asked
      · simp [runs] at fell
      · rw [runs] at fell ⊢
        simp only [Run.after, List.mem_cons, later fell]
        apply or_congr_left
        constructor
        · rintro rfl
          exact ⟨rfl, rfl, rfl, fresh⟩
        · rintro ⟨same, at_, result, -⟩
          obtain ⟨index, tried, outcome⟩ := attempt
          simp only at same at_ result
          subst same at_
          rw [result]

theorem attempts_length_le (limited : List String) (start : Nat) (accounts : List Account) :
    (tryFrom tryAccount limited start accounts).attempts.length ≤ accounts.length := by
  induction accounts generalizing limited start with
  | nil => simp [tryFrom]
  | cons account rest ih =>
      have bound := ih (limitedAfter tryAccount limited start account) (start + 1)
      rcases try_from_cases tryAccount limited start account rest with
        ⟨-, runs⟩ | ⟨-, response, -, runs⟩ | ⟨-, -, runs⟩
      · rw [runs, List.length_cons]
        omega
      · simp [runs]
      · simpa [runs, Run.after] using bound

/-- The whole window is asked exactly when no account of it is skipped. -/
theorem asked_all_iff (limited : List String) (start : Nat) (accounts : List Account)
    (fell : (tryFrom tryAccount limited start accounts).answer = none) :
    (tryFrom tryAccount limited start accounts).attempts.length = accounts.length ↔
      ∀ i account, accounts[i]? = some account →
        ¬ LimitedBefore tryAccount limited start accounts i account.provider := by
  induction accounts generalizing limited start with
  | nil => simp [tryFrom]
  | cons account rest ih =>
      rw [forall_position_cons]
      simp only [limited_before_step, limited_before_zero]
      rcases try_from_cases tryAccount limited start account rest with
        ⟨skipped, runs⟩ | ⟨fresh, response, outcome, runs⟩ | ⟨fresh, failed, runs⟩
      · have bound := attempts_length_le tryAccount
          (limitedAfter tryAccount limited start account) (start + 1) rest
        rw [runs, List.length_cons]
        simp only [skipped, not_true_eq_false, false_and, iff_false]
        omega
      · simp [runs] at fell
      · rw [runs] at fell ⊢
        simp only [Run.after, List.length_cons, Nat.add_right_cancel_iff, fresh,
          not_false_eq_true, true_and]
        exact ih _ _ fell

-- A skipped account names an earlier one that was asked and answered 429.
theorem limited_iff_attempted (accounts : List Account)
    (fell : (tryFrom tryAccount [] 0 accounts).answer = none) (i : Nat) (provider : String) :
    LimitedBefore tryAccount [] 0 accounts i provider ↔
      ∃ attempt ∈ (tryFrom tryAccount [] 0 accounts).attempts, attempt.index < i ∧
        attempt.account.provider = provider ∧ attempt.result.isRateLimited = true := by
  constructor
  · intro limited
    induction i using Nat.strong_induction_on with
    | _ i ih =>
        rcases limited with known | ⟨j, before, account, at_, same, hit⟩
        · simp at known
        · rw [Nat.zero_add] at hit
          by_cases skipped : LimitedBefore tryAccount [] 0 accounts j provider
          · obtain ⟨attempt, asked, earlier, rest⟩ := ih j before skipped
            exact ⟨attempt, asked, by omega, rest⟩
          · refine ⟨⟨j, account, tryAccount account j⟩, ?_, before, same, hit⟩
            exact (attempted_iff tryAccount [] 0 accounts fell _).mpr
              ⟨j, at_, (Nat.zero_add j).symm, rfl, same ▸ skipped⟩
  · rintro ⟨attempt, asked, before, same, hit⟩
    obtain ⟨j, at_, index, result, -⟩ := (attempted_iff tryAccount [] 0 accounts fell _).mp asked
    rw [Nat.zero_add] at index
    refine Or.inr ⟨j, by omega, attempt.account, at_, same, ?_⟩
    rwa [Nat.zero_add, ← index, ← result]

theorem limited_before_take (accounts : List Account) (window i : Nat) (provider : String)
    (inside : i ≤ window) :
    LimitedBefore tryAccount [] 0 (accounts.take window) i provider ↔
      LimitedBefore tryAccount [] 0 accounts i provider := by
  unfold LimitedBefore
  apply or_congr_right
  constructor
  · rintro ⟨j, before, account, at_, rest⟩
    rw [List.getElem?_take_of_lt (by omega)] at at_
    exact ⟨j, before, account, at_, rest⟩
  · rintro ⟨j, before, account, at_, rest⟩
    refine ⟨j, before, account, ?_, rest⟩
    rwa [List.getElem?_take_of_lt (by omega)]

theorem take_min_length (accounts : List Account) (bound : Nat) :
    accounts.take (min accounts.length bound) = accounts.take bound := by
  rw [Nat.min_comm, ← List.take_take, List.take_length]

/-- An account the run may give up on: asked in vain, or of a provider an
earlier attempt of this request found limited. -/
def Exhausted (run : Run Response) (i : Nat) (account : Account) : Prop :=
  (∃ attempt ∈ run.attempts, attempt.index = i ∧ attempt.account = account ∧
    attempt.result.isSuccess = false) ∨
  ∃ attempt ∈ run.attempts, attempt.index < i ∧
    attempt.account.provider = account.provider ∧ attempt.result.isRateLimited = true

def GivesUpLate (accounts : List Account) (run : Run Response) : Prop :=
  run.answer = none →
    (∀ i account, accounts[i]? = some account → Exhausted run i account) ∨
      run.attempts.length = maxFailoverAttempts

/-- The budget is spent on accounts, asked or skipped. What the window leaves out
is lost, unless the window answers, skips nobody, or found the provider of all
that is left out limited. -/
def WindowSuffices (accounts : List Account) : Prop :=
  accounts.length ≤ maxFailoverAttempts ∨
  (∃ i < maxFailoverAttempts, ∃ account, accounts[i]? = some account ∧
    ¬ LimitedBefore tryAccount [] 0 accounts i account.provider ∧
    (tryAccount account i).isSuccess = true) ∨
  (∀ i < maxFailoverAttempts, ∀ account, accounts[i]? = some account →
    ¬ LimitedBefore tryAccount [] 0 accounts i account.provider) ∨
  (∀ i account, maxFailoverAttempts ≤ i → accounts[i]? = some account →
    LimitedBefore tryAccount [] 0 accounts maxFailoverAttempts account.provider)

section Window

variable (accounts : List Account)

theorem window_index (window i : Nat) (account : Account)
    (at_ : (accounts.take window)[i]? = some account) :
    i < window ∧ accounts[i]? = some account := by
  have inside : i < window := by
    by_contra outside
    rw [List.getElem?_take_eq_none (by omega)] at at_
    cases at_
  exact ⟨inside, List.getElem?_take_of_lt inside ▸ at_⟩

theorem window_exhausted (window : Nat)
    (fell : (tryFrom tryAccount [] 0 (accounts.take window)).answer = none)
    (i : Nat) (account : Account) (inside : i < window) (at_ : accounts[i]? = some account) :
    Exhausted (tryFrom tryAccount [] 0 (accounts.take window)) i account := by
  have here : (accounts.take window)[i]? = some account := by
    rwa [List.getElem?_take_of_lt inside]
  by_cases skipped : LimitedBefore tryAccount [] 0 (accounts.take window) i account.provider
  · exact Or.inr ((limited_iff_attempted tryAccount _ fell i account.provider).mp skipped)
  · have failed := (answer_none_iff tryAccount [] 0 _).mp fell i account here
    rw [or_iff_right skipped, Nat.zero_add] at failed
    refine Or.inl ⟨⟨i, account, tryAccount account i⟩, ?_, rfl, rfl, failed⟩
    exact (attempted_iff tryAccount [] 0 _ fell _).mpr ⟨i, here, (Nat.zero_add i).symm, rfl, skipped⟩

-- Beyond the window nobody is asked, so only a limit found inside it counts.
theorem beyond_exhausted_iff (window : Nat)
    (fell : (tryFrom tryAccount [] 0 (accounts.take window)).answer = none)
    (i : Nat) (account : Account) (outside : window ≤ i) :
    Exhausted (tryFrom tryAccount [] 0 (accounts.take window)) i account ↔
      LimitedBefore tryAccount [] 0 accounts window account.provider := by
  have asked : ∀ attempt ∈ (tryFrom tryAccount [] 0 (accounts.take window)).attempts,
      attempt.index < window := by
    intro attempt member
    obtain ⟨j, at_, index, -⟩ := (attempted_iff tryAccount [] 0 _ fell attempt).mp member
    have inside := (window_index accounts window j _ at_).1
    omega
  rw [← limited_before_take tryAccount accounts window window _ le_rfl,
    limited_iff_attempted tryAccount _ fell]
  constructor
  · rintro (⟨attempt, member, index, -⟩ | ⟨attempt, member, -, rest⟩)
    · have inside := asked attempt member
      omega
    · exact ⟨attempt, member, asked attempt member, rest⟩
  · rintro ⟨attempt, member, inside, rest⟩
    exact Or.inr ⟨attempt, member, by omega, rest⟩

theorem budget_spent_iff (window : Nat)
    (fell : (tryFrom tryAccount [] 0 (accounts.take window)).answer = none) :
    (tryFrom tryAccount [] 0 (accounts.take window)).attempts.length = window ↔
      window ≤ accounts.length ∧ ∀ i < window, ∀ account, accounts[i]? = some account →
        ¬ LimitedBefore tryAccount [] 0 accounts i account.provider := by
  have bound := attempts_length_le tryAccount [] 0 (accounts.take window)
  have all := asked_all_iff tryAccount [] 0 _ fell
  have positions : (∀ i account, (accounts.take window)[i]? = some account →
      ¬ LimitedBefore tryAccount [] 0 (accounts.take window) i account.provider) ↔
      ∀ i < window, ∀ account, accounts[i]? = some account →
        ¬ LimitedBefore tryAccount [] 0 accounts i account.provider := by
    constructor
    · intro free i inside account at_
      rw [← limited_before_take tryAccount accounts window i _ inside.le]
      exact free i account (by rwa [List.getElem?_take_of_lt inside])
    · intro free i account at_
      obtain ⟨inside, here⟩ := window_index accounts window i account at_
      rw [limited_before_take tryAccount accounts window i _ inside.le]
      exact free i inside account here
  rw [positions, List.length_take] at all
  rw [List.length_take] at bound
  by_cases enough : window ≤ accounts.length
  · rw [Nat.min_eq_left enough] at all
    rw [all]
    exact (and_iff_right enough).symm
  · constructor
    · intro spent
      omega
    · rintro ⟨long, -⟩
      exact absurd long enough

end Window

/-- Failover gives up late exactly when its window of five accounts suffices. -/
theorem gives_up_late_iff (accounts : List Account) (info : Meta) (body : Body)
    (tryAccount : Account → Meta → Body → Nat → AccountResult Response) :
    GivesUpLate accounts (tryAccountsInOrder accounts info body tryAccount) ↔
      WindowSuffices (fun account attempt => tryAccount account info body attempt) accounts := by
  simp only [tryAccountsInOrder, take_min_length]
  generalize (fun account attempt => tryAccount account info body attempt) = asks
  -- The run tries the first accounts only; what is left outside matters when none of them answered.
  by_cases fell : (tryFrom asks [] 0 (accounts.take maxFailoverAttempts)).answer = none
  · have silent : ¬ ∃ i < maxFailoverAttempts, ∃ account, accounts[i]? = some account ∧
        ¬ LimitedBefore asks [] 0 accounts i account.provider ∧
        (asks account i).isSuccess = true := by
      rintro ⟨i, inside, account, at_, fresh, answers⟩
      have failed := (answer_none_iff asks [] 0 _).mp fell i account
        (by rwa [List.getElem?_take_of_lt inside])
      rw [limited_before_take asks accounts _ i _ inside.le, or_iff_right fresh,
        Nat.zero_add] at failed
      exact Bool.false_ne_true (failed.symm.trans answers)
    simp only [GivesUpLate, fell, forall_const, WindowSuffices, silent, false_or,
      budget_spent_iff asks accounts _ fell]
    constructor
    · rintro (exhausted | ⟨-, free⟩)
      · refine Or.inr (Or.inr fun i account outside at_ => ?_)
        exact (beyond_exhausted_iff asks accounts _ fell i account outside).mp
          (exhausted i account at_)
      · exact Or.inr (Or.inl free)
    -- Inside the window every account was tried or known to be limited.
    · have covered : (∀ i account, maxFailoverAttempts ≤ i → accounts[i]? = some account →
          LimitedBefore asks [] 0 accounts maxFailoverAttempts account.provider) →
          ∀ i account, accounts[i]? = some account →
            Exhausted (tryFrom asks [] 0 (accounts.take maxFailoverAttempts)) i account := by
        intro beyond i account at_
        by_cases inside : i < maxFailoverAttempts
        · exact window_exhausted asks accounts _ fell i account inside at_
        · have outside := Nat.le_of_not_lt inside
          exact (beyond_exhausted_iff asks accounts _ fell i account outside).mpr
            (beyond i account outside at_)
      rintro (short | free | beyond)
      · refine Or.inl (covered fun i account outside at_ => ?_)
        rw [List.getElem?_eq_none (by omega)] at at_
        cases at_
      · by_cases enough : maxFailoverAttempts ≤ accounts.length
        · exact Or.inr ⟨enough, free⟩
        · refine Or.inl (covered fun i account outside at_ => ?_)
          rw [List.getElem?_eq_none (by omega)] at at_
          cases at_
      · exact Or.inl (covered beyond)
  · refine iff_of_true (fun none => absurd none fell) (Or.inr (Or.inl ?_))
    rw [answer_none_iff] at fell
    push Not at fell
    obtain ⟨i, account, at_, fresh, answers⟩ := fell
    obtain ⟨inside, here⟩ := window_index accounts _ i account at_
    rw [limited_before_take asks accounts _ i _ inside.le] at fresh
    exact ⟨i, inside, account, here, fresh, by simpa using answers⟩

def limitedPool : List Account :=
  ["a", "b", "c", "d", "e"].map (makeAccount · "anthropic" 0) ++ [makeAccount "f" "zai" 1]

def onlyZaiAnswers (account : Account) : AccountResult String :=
  if account.provider = "zai" then .success "ok" else .rateLimited ⟨true, none, none, none⟩

/-- Five accounts of one provider that answers 429 hide the healthy one. -/
theorem limited_pool_gives_up_early :
    ¬ GivesUpLate limitedPool
      (tryAccountsInOrder limitedPool () () fun account _ _ _ => onlyZaiAnswers account) := by
  have run : tryAccountsInOrder limitedPool () () (fun account _ _ _ => onlyZaiAnswers account) =
      ⟨none, [⟨0, makeAccount "a" "anthropic" 0, .rateLimited ⟨true, none, none, none⟩⟩]⟩ := by
    decide
  rw [run]
  intro late
  rcases late rfl with exhausted | spent
  · have lost := exhausted 5 (makeAccount "f" "zai" 1) rfl
    revert lost
    simp [Exhausted, makeAccount]
  · simp [maxFailoverAttempts] at spent

end Ccflare.Failover
