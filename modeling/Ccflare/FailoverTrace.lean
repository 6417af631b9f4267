import Ccflare.Failover

/-!
The order of a failover run: what its attempts keep to, whatever each of them
answers. The loop carries the providers that answered 429 so far, so the facts
are about a run from any such set and the whole window is the run from none.
-/

namespace Ccflare.Failover

variable {Response Meta Body : Type}

/-- A response an attempt succeeded with, no earlier attempt having succeeded. -/
def FirstSuccess (attempts : List (Attempt Response)) (response : Response) (id : String) :
    Prop :=
  ∃ before attempt after, attempts = before ++ attempt :: after ∧
    (∀ earlier ∈ before, earlier.result.isSuccess = false) ∧
    attempt.result = .success response ∧ attempt.account.id = id

/-- An attempt after which the loop still comes to the account. -/
def Passes (attempt : Attempt Response) (account : Account) : Prop :=
  attempt.result.isSuccess = false ∧
    (attempt.result.isRateLimited = true → attempt.account.provider ≠ account.provider)

/-- What the trace of a request keeps to. -/
structure Orderly (accounts : List Account)
    (tryAccount : Account → Nat → AccountResult Response) (run : Run Response) : Prop where
  asked : ∀ attempt ∈ run.attempts, accounts[attempt.index]? = some attempt.account ∧
    attempt.result = tryAccount attempt.account attempt.index
  inOrder : (run.attempts.map Attempt.account).Sublist accounts
  once : (run.attempts.map fun attempt => attempt.account.id).Nodup
  bounded : run.attempts.length ≤ maxFailoverAttempts
  spared : run.attempts.Pairwise fun earlier later =>
    earlier.result.isRateLimited = true → later.account.provider ≠ earlier.account.provider
  stopped : run.attempts.Pairwise fun earlier _ => earlier.result.isSuccess = false
  complete : ∀ i < maxFailoverAttempts, ∀ account, accounts[i]? = some account →
    (∀ attempt ∈ run.attempts, attempt.index < i → Passes attempt account) →
    ∃ attempt ∈ run.attempts, attempt.index = i
  answered : ∀ response id,
    run.answer = some (response, id) ↔ FirstSuccess run.attempts response id

variable (tryAccount : Account → Nat → AccountResult Response)

theorem limited_after_subset (limited : List String) (attempt : Nat) (account : Account) :
    limited ⊆ limitedAfter tryAccount limited attempt account := by
  unfold limitedAfter
  split
  · exact List.subset_append_left limited _
  · exact List.Subset.refl limited

theorem limited_after_hit (limited : List String) (attempt : Nat) (account : Account)
    (fresh : account.provider ∉ limited)
    (hit : (tryAccount account attempt).isRateLimited = true) :
    account.provider ∈ limitedAfter tryAccount limited attempt account := by
  simp [limitedAfter, fresh, hit]

/-- Each attempt is on the account at its index, with the outcome for that index. -/
theorem attempts_asked (limited : List String) (start : Nat) (accounts : List Account) :
    ∀ attempt ∈ (tryFrom tryAccount limited start accounts).attempts, ∃ i,
      attempt.index = start + i ∧ accounts[i]? = some attempt.account ∧
      attempt.result = tryAccount attempt.account attempt.index := by
  induction accounts generalizing limited start with
  | nil => simp [tryFrom]
  | cons account rest ih =>
      have later : ∀ attempt ∈ (tryFrom tryAccount
          (limitedAfter tryAccount limited start account) (start + 1) rest).attempts, ∃ i,
          attempt.index = start + i ∧ (account :: rest)[i]? = some attempt.account ∧
          attempt.result = tryAccount attempt.account attempt.index := by
        intro attempt member
        obtain ⟨i, index, at_, result⟩ := ih _ _ attempt member
        exact ⟨i + 1, by omega, by simpa using at_, result⟩
      have head : ∃ i, start = start + i ∧ (account :: rest)[i]? = some account ∧
          tryAccount account start = tryAccount account start :=
        ⟨0, rfl, rfl, rfl⟩
      rcases try_from_cases tryAccount limited start account rest with
        ⟨-, runs⟩ | ⟨-, response, -, runs⟩ | ⟨-, -, runs⟩
      · rw [runs]
        exact later
      · rw [runs]
        intro attempt member
        obtain rfl := List.mem_singleton.mp member
        exact head
      · rw [runs]
        intro attempt member
        rcases List.mem_cons.mp member with rfl | member
        · exact head
        · exact later attempt member

theorem attempts_in_order (limited : List String) (start : Nat) (accounts : List Account) :
    ((tryFrom tryAccount limited start accounts).attempts.map Attempt.account).Sublist
      accounts := by
  induction accounts generalizing limited start with
  | nil => simp [tryFrom]
  | cons account rest ih =>
      have later := ih (limitedAfter tryAccount limited start account) (start + 1)
      rcases try_from_cases tryAccount limited start account rest with
        ⟨-, runs⟩ | ⟨-, response, -, runs⟩ | ⟨-, -, runs⟩
      · rw [runs]
        exact later.cons account
      · rw [runs]
        exact (List.nil_sublist rest).cons_cons account
      · rw [runs]
        exact later.cons_cons account

-- The set only grows, so what is limited at the start is never asked.
theorem attempts_not_limited (limited : List String) (start : Nat) (accounts : List Account) :
    ∀ attempt ∈ (tryFrom tryAccount limited start accounts).attempts,
      attempt.account.provider ∉ limited := by
  induction accounts generalizing limited start with
  | nil => simp [tryFrom]
  | cons account rest ih =>
      have later : ∀ attempt ∈ (tryFrom tryAccount
          (limitedAfter tryAccount limited start account) (start + 1) rest).attempts,
          attempt.account.provider ∉ limited := by
        intro attempt member known
        exact ih _ _ attempt member (limited_after_subset tryAccount limited start account known)
      rcases try_from_cases tryAccount limited start account rest with
        ⟨-, runs⟩ | ⟨fresh, response, -, runs⟩ | ⟨fresh, -, runs⟩
      · rw [runs]
        exact later
      · rw [runs]
        intro attempt member
        obtain rfl := List.mem_singleton.mp member
        exact fresh
      · rw [runs]
        intro attempt member
        rcases List.mem_cons.mp member with rfl | member
        · exact fresh
        · exact later attempt member

theorem attempts_spared (limited : List String) (start : Nat) (accounts : List Account) :
    (tryFrom tryAccount limited start accounts).attempts.Pairwise fun earlier later =>
      earlier.result.isRateLimited = true →
        later.account.provider ≠ earlier.account.provider := by
  induction accounts generalizing limited start with
  | nil => simp [tryFrom]
  | cons account rest ih =>
      have later := ih (limitedAfter tryAccount limited start account) (start + 1)
      rcases try_from_cases tryAccount limited start account rest with
        ⟨-, runs⟩ | ⟨-, response, -, runs⟩ | ⟨fresh, -, runs⟩
      · rw [runs]
        exact later
      · rw [runs]
        exact List.pairwise_singleton _ _
      · rw [runs]
        apply List.Pairwise.cons
        · intro attempt member hit same
          have limited' := limited_after_hit tryAccount limited start account fresh hit
          exact attempts_not_limited tryAccount _ _ rest attempt member (same ▸ limited')
        · exact later

theorem attempts_stopped (limited : List String) (start : Nat) (accounts : List Account) :
    (tryFrom tryAccount limited start accounts).attempts.Pairwise fun earlier _ =>
      earlier.result.isSuccess = false := by
  induction accounts generalizing limited start with
  | nil => simp [tryFrom]
  | cons account rest ih =>
      have later := ih (limitedAfter tryAccount limited start account) (start + 1)
      rcases try_from_cases tryAccount limited start account rest with
        ⟨-, runs⟩ | ⟨-, response, -, runs⟩ | ⟨-, failed, runs⟩
      · rw [runs]
        exact later
      · rw [runs]
        exact List.pairwise_singleton _ _
      · rw [runs]
        exact later.cons fun _ _ => failed

/-- An account is asked unless its provider is limited or an earlier attempt stands in its
way. -/
theorem attempts_complete (limited : List String) (start : Nat) (accounts : List Account)
    (i : Nat) (account : Account) (at_ : accounts[i]? = some account)
    (fresh : account.provider ∉ limited)
    (passed : ∀ attempt ∈ (tryFrom tryAccount limited start accounts).attempts,
      attempt.index < start + i → Passes attempt account) :
    ∃ attempt ∈ (tryFrom tryAccount limited start accounts).attempts,
      attempt.index = start + i := by
  induction accounts generalizing limited start i with
  | nil => simp at at_
  | cons head rest ih =>
      rcases try_from_cases tryAccount limited start head rest with
        ⟨skipped, runs⟩ | ⟨-, response, success, runs⟩ | ⟨-, failed, runs⟩
      · rw [runs] at passed ⊢
        have same : limitedAfter tryAccount limited start head = limited :=
          if_neg fun both => both.1 skipped
        cases i with
        | zero =>
            obtain rfl := Option.some.inj at_
            exact absurd skipped fresh
        | succ i =>
            rw [← Nat.add_assoc, Nat.add_right_comm] at passed ⊢
            exact ih _ _ i at_ (by rwa [same]) passed
      · rw [runs] at passed ⊢
        cases i with
        | zero => exact ⟨_, List.mem_singleton_self _, rfl⟩
        | succ i =>
            have open_ := (passed _ (List.mem_singleton_self _) (by simp)).1
            rw [success] at open_
            cases open_
      · rw [runs] at passed ⊢
        cases i with
        | zero => exact ⟨_, List.mem_cons_self, rfl⟩
        | succ i =>
            have apart : account.provider ∉ limitedAfter tryAccount limited start head := by
              unfold limitedAfter
              split
              · rename_i hit
                have differs := (passed _ List.mem_cons_self (by simp)).2 hit.2
                simp [fresh, differs.symm]
              · exact fresh
            rw [← Nat.add_assoc, Nat.add_right_comm] at passed ⊢
            obtain ⟨attempt, member, index⟩ := ih _ _ i at_ apart fun attempt member =>
              passed attempt (List.mem_cons_of_mem _ member)
            exact ⟨attempt, List.mem_cons_of_mem _ member, index⟩

theorem first_success_cons (attempt : Attempt Response) (attempts : List (Attempt Response))
    (response : Response) (id : String) (failed : attempt.result.isSuccess = false) :
    FirstSuccess (attempt :: attempts) response id ↔ FirstSuccess attempts response id := by
  constructor
  · rintro ⟨before, found, after, split, failures, result, same⟩
    cases before with
    | nil =>
        obtain ⟨rfl, -⟩ := List.cons.inj split
        rw [result] at failed
        cases failed
    | cons first before =>
        obtain ⟨-, rfl⟩ := List.cons.inj split
        exact ⟨before, found, after, rfl,
          fun earlier member => failures earlier (List.mem_cons_of_mem _ member), result, same⟩
  · rintro ⟨before, found, after, rfl, failures, result, same⟩
    refine ⟨attempt :: before, found, after, rfl, ?_, result, same⟩
    intro earlier member
    rcases List.mem_cons.mp member with rfl | member
    · exact failed
    · exact failures earlier member

theorem answer_first_success (limited : List String) (start : Nat) (accounts : List Account)
    (response : Response) (id : String) :
    (tryFrom tryAccount limited start accounts).answer = some (response, id) ↔
      FirstSuccess (tryFrom tryAccount limited start accounts).attempts response id := by
  induction accounts generalizing limited start with
  | nil => simp [tryFrom, FirstSuccess]
  | cons account rest ih =>
      have later := ih (limitedAfter tryAccount limited start account) (start + 1)
      rcases try_from_cases tryAccount limited start account rest with
        ⟨-, runs⟩ | ⟨-, given, outcome, runs⟩ | ⟨-, failed, runs⟩
      · rw [runs]
        exact later
      · rw [runs]
        constructor
        · intro same
          obtain ⟨rfl, rfl⟩ := Prod.mk.inj (Option.some.inj same)
          exact ⟨[], _, [], rfl, by simp, outcome, rfl⟩
        · rintro ⟨before, found, after, split, -, result, rfl⟩
          -- The only attempt is the one that answered.
          have member : found ∈ [Attempt.mk start account (tryAccount account start)] := by
            dsimp only at split
            rw [split]
            exact List.mem_append_right before List.mem_cons_self
          obtain rfl := List.mem_singleton.mp member
          rw [outcome] at result
          cases result
          rfl
      · rw [runs]
        exact later.trans (first_success_cons _ _ response id failed).symm

theorem failover_is_orderly (accounts : List Account) (info : Meta) (body : Body)
    (tryAccount : Account → Meta → Body → Nat → AccountResult Response)
    (distinct : (accounts.map Account.id).Nodup) :
    Orderly accounts (fun account attempt => tryAccount account info body attempt)
      (tryAccountsInOrder accounts info body tryAccount) := by
  have window : accounts.take (min accounts.length maxFailoverAttempts) =
      accounts.take maxFailoverAttempts :=
    take_min_length accounts maxFailoverAttempts
  simp only [tryAccountsInOrder, window]
  have inOrder := attempts_in_order (fun account attempt => tryAccount account info body attempt)
    [] 0 (accounts.take maxFailoverAttempts)
  exact {
    asked := by
      intro attempt member
      obtain ⟨i, index, at_, result⟩ := attempts_asked _ [] 0 _ attempt member
      obtain ⟨-, here⟩ := window_index accounts maxFailoverAttempts i _ at_
      exact ⟨by rwa [index, Nat.zero_add], result⟩
    inOrder := inOrder.trans (List.take_sublist _ accounts)
    once := by
      have ids := (inOrder.trans (List.take_sublist _ accounts)).map Account.id
      rw [List.map_map] at ids
      exact distinct.sublist ids
    bounded := by
      have most := attempts_length_le
        (fun account attempt => tryAccount account info body attempt) [] 0
        (accounts.take maxFailoverAttempts)
      exact most.trans (List.length_take_le _ accounts)
    spared := attempts_spared _ [] 0 _
    stopped := attempts_stopped _ [] 0 _
    complete := by
      intro i early account at_ passed
      have here : (accounts.take maxFailoverAttempts)[i]? = some account := by
        rwa [List.getElem?_take_of_lt early]
      have found := attempts_complete
        (fun account attempt => tryAccount account info body attempt) [] 0
        (accounts.take maxFailoverAttempts) i account here List.not_mem_nil
        (by simpa using passed)
      simpa using found
    answered := answer_first_success _ [] 0 _ }

/-- The test on a 429: the second account is spared, the third answers. -/
theorem failover_after_limit :
    let accounts := [makeAccount "a" "anthropic" 0, makeAccount "b" "anthropic" 1,
      makeAccount "c" "zai" 2]
    let tryAccount : Account → Nat → AccountResult String := fun account _ =>
      if account.provider = "anthropic" then .rateLimited ⟨true, none, none, none⟩
      else .success account.id
    let run := tryAccountsInOrder accounts () () fun account _ _ => tryAccount account
    Orderly accounts tryAccount run ∧
      run.attempts.map (fun attempt => attempt.account.id) = ["a", "c"] ∧
      run.answer = some ("c", "c") := by
  refine ⟨?_, by decide, by decide⟩
  exact failover_is_orderly _ () () (fun account _ _ _ =>
    if account.provider = "anthropic" then .rateLimited ⟨true, none, none, none⟩
    else .success account.id) (by decide)

end Ccflare.Failover
