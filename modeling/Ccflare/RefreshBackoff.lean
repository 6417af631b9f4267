import Ccflare.TokenManager

/-!
How long a recorded failure keeps the refresher from being asked. The record is looked
at once, before the wait for the lock. So it speaks to the calls that make their check
while it stands, not to those that are past it, and not once it was dropped for its age.
-/

namespace Ccflare.RefreshBackoff

open MachineNumber TokenHealth TokenManager TokenRefresh Transition

variable (accountId : String)

def Within (since now : Int) : Prop := since ≤ now ∧ now < since + tokenRefreshBackoffMs

/-- From the backoff check to the record of a failure. -/
def underway : Phase → Bool
  | .expired | .locking | .waiting _ | .holding _ | .refreshing _ | .failed _ _ => true
  | _ => false

/-- `clear_account_state`, a successful refresh or a recovery from the database. -/
def Lifts (taken : Taken) : Prop :=
  taken.2.1 = .clearLock accountId ∨ taken.2.1 = .clearFailure accountId ∨
  ∃ task call, taken.1.calls task = some call ∧ call.account.id = accountId ∧
    ((∃ result, taken.2.1 = .answer task (.ok result)) ∨
      taken.2.1 = .advance task ∧
        ((∃ mutex token, call.phase = .persisted mutex token) ∨
          ∃ token, call.phase = .recovered token))

/-- From a recorded failure on, no call with a clock in the backoff asks the refresher
before the backoff is lifted. -/
def BackoffHolds (trace : List Taken) : Prop :=
  ∀ before middle after failure start failing starting failed started,
    trace = before ++ failure :: (middle ++ start :: after) →
    RecordsFailure failure failing failed → failed.account.id = accountId →
    (∀ taken ∈ middle, ¬ Lifts accountId taken) →
    StartsRefresh start starting started → started.account.id = accountId →
    ¬ Within failed.now started.now

/-- When a failure is recorded, no other call for the account is past its check. -/
def RecordsAlone (taken : Taken) : Prop :=
  ∀ task call, RecordsFailure taken task call → call.account.id = accountId →
    ∀ other otherCall, other ≠ task → taken.1.calls other = some otherCall →
      otherCall.account.id = accountId → underway otherCall.phase = false

/-- A record is dropped for its age, by the cleanup or behind a check. -/
def Drops (since : Int) (taken : Taken) : Prop :=
  (∃ record, taken.1.shared.failures accountId = some record ∧ record.timestamp = since) ∧
  taken.2.2.shared.failures accountId = none ∧
  ∃ task call, taken.2.1 = .advance task ∧ taken.1.calls task = some call ∧
    (call.phase = .expired ∨ call.phase = .sweeping)

def Checks (now : Int) (taken : Taken) : Prop :=
  ∃ task call, taken.2.1 = .advance task ∧ taken.1.calls task = some call ∧
    call.account.id = accountId ∧ call.now = now ∧ call.phase = .checking

/-- A check that comes after the drop of a record has a clock outside its backoff. -/
def InTime (earlier later : Taken) : Prop :=
  ∀ since now, Drops accountId since earlier → Checks accountId now later → ¬ Within since now

theorem set_failure_other (shared : Shared) (id other : String) (record : Option FailureRecord)
    (different : id ≠ other) : (shared.setFailure other record).failures id = shared.failures id :=
  Function.update_of_ne different ..

theorem set_failure_same (shared : Shared) (id : String) (record : Option FailureRecord) :
    (shared.setFailure id record).failures id = record := Function.update_self ..

theorem check_keeps_time (record : FailureRecord) (now : Int) :
    (checkBackoff record now).1.timestamp = record.timestamp := by
  unfold checkBackoff
  split <;> rfl

theorem lock_keeps_failures (shared : Shared) (id : String) :
    (shared.lockFor id).1.failures = shared.failures := by
  unfold Shared.lockFor
  split <;> rfl

/-- The phases in which a call changes failure records. -/
def changesRecords : Phase → Bool
  | .sweeping | .checking | .expired | .recovered _ | .persisted _ _ | .failed _ _ => true
  | _ => false

theorem advance_keeps_records (shared after : Shared) (call next : Call)
    (taken : advance shared call = some (after, next))
    (idle : changesRecords call.phase = false) : after.failures = shared.failures := by
  cases phase : call.phase with
  | locking =>
      simp only [advance, phase, Option.some.injEq, Prod.mk.injEq] at taken
      rw [← taken.1]
      exact lock_keeps_failures shared call.account.id
  | sweeping | checking | expired | recovered | persisted | failed => simp [phase, changesRecords] at idle
  | refreshing | returned | dropped => simp [advance, phase] at taken
  | _ =>
      simp only [advance, phase] at taken
      grind [Shared.setHeld]

/-- What becomes of a record when a call advances. -/
theorem advance_record (s t : State) (task : Nat) (step : Step s (.advance task) t)
    (record : FailureRecord) (held : s.shared.failures accountId = some record) :
    (∃ counted, t.shared.failures accountId = some counted ∧
      counted.timestamp = record.timestamp) ∨
    Lifts accountId (s, .advance task, t) ∨
    Drops accountId record.timestamp (s, .advance task, t) ∨
    ∃ call, RecordsFailure (s, .advance task, t) task call ∧ call.account.id = accountId := by
  obtain ⟨call, next, found, moves, -⟩ := advanced s t task step
  by_cases idle : changesRecords call.phase = false
  · have kept := advance_keeps_records _ _ call next moves idle
    exact Or.inl ⟨record, kept ▸ held, rfl⟩
  -- What the other phases write is the record of the call's own account, or a sweep.
  · have elsewhere : ∀ written, t.shared = s.shared.setFailure call.account.id written →
        call.account.id ≠ accountId → ∃ counted, t.shared.failures accountId = some counted ∧
          counted.timestamp = record.timestamp := by
      intro written shared different
      refine ⟨record, ?_, rfl⟩
      rw [shared, set_failure_other _ _ _ _ different.symm, held]
    cases phase : call.phase with
    | sweeping =>
        simp only [advance, phase, Option.some.injEq, Prod.mk.injEq] at moves
        have swept : t.shared.failures accountId = (some record).filter fun record =>
            wrappingSub call.now record.timestamp ≤ failureTtlMs := by
          rw [← moves.1, ← held]
          rfl
        by_cases recent : wrappingSub call.now record.timestamp ≤ failureTtlMs
        · exact Or.inl ⟨record, by simp [swept, recent], rfl⟩
        · have gone : t.shared.failures accountId = none := by simpa [swept] using recent
          exact Or.inr (Or.inr (Or.inl ⟨⟨record, held, rfl⟩, gone, task, call, rfl, found,
            Or.inr phase⟩))
    | checking =>
        by_cases same : call.account.id = accountId
        · simp only [advance, phase, same, held, Option.some.injEq, Prod.mk.injEq] at moves
          refine Or.inl ⟨(checkBackoff record call.now).1, ?_, check_keeps_time record call.now⟩
          rw [← moves.1]
          exact set_failure_same ..
        · simp only [advance, phase] at moves
          split at moves
          · simp only [Option.some.injEq, Prod.mk.injEq] at moves
            exact Or.inl ⟨record, moves.1 ▸ held, rfl⟩
          · simp only [Option.some.injEq, Prod.mk.injEq] at moves
            exact Or.inl (elsewhere _ moves.1.symm same)
    | expired =>
        simp only [advance, phase, Option.some.injEq, Prod.mk.injEq] at moves
        by_cases same : call.account.id = accountId
        -- An expired check drops the record, whoever wrote it in the meantime.
        · have gone : t.shared.failures accountId = none := by
            rw [← moves.1, same]
            exact set_failure_same ..
          exact Or.inr (Or.inr (Or.inl ⟨⟨record, held, rfl⟩, gone, task, call, rfl, found,
            Or.inl phase⟩))
        · exact Or.inl (elsewhere _ moves.1.symm same)
    | recovered token =>
        simp only [advance, phase, Option.some.injEq, Prod.mk.injEq] at moves
        by_cases same : call.account.id = accountId
        · exact Or.inr (Or.inl (Or.inr (Or.inr ⟨task, call, found, same,
            Or.inr ⟨rfl, Or.inr ⟨token, phase⟩⟩⟩)))
        · exact Or.inl (elsewhere _ moves.1.symm same)
    | persisted mutex token =>
        simp only [advance, phase, Option.some.injEq, Prod.mk.injEq] at moves
        by_cases same : call.account.id = accountId
        · exact Or.inr (Or.inl (Or.inr (Or.inr ⟨task, call, found, same,
            Or.inr ⟨rfl, Or.inl ⟨mutex, token, phase⟩⟩⟩)))
        · exact Or.inl (elsewhere _ moves.1.symm same)
    | failed mutex error =>
        simp only [advance, phase, Option.some.injEq, Prod.mk.injEq] at moves
        by_cases same : call.account.id = accountId
        · exact Or.inr (Or.inr (Or.inr ⟨call, ⟨rfl, found, mutex, error, phase⟩, same⟩))
        · exact Or.inl (elsewhere _ moves.1.symm same)
    | _ => simp [phase, changesRecords] at idle

/-- A record stands through a step, unless the step lifts it, drops it for its age or
puts another failure in its place. -/
theorem step_record (s t : State) (event : Event) (step : Step s event t)
    (record : FailureRecord) (held : s.shared.failures accountId = some record) :
    (∃ counted, t.shared.failures accountId = some counted ∧
      counted.timestamp = record.timestamp) ∨
    Lifts accountId (s, event, t) ∨ Drops accountId record.timestamp (s, event, t) ∨
    ∃ task call, RecordsFailure (s, event, t) task call ∧ call.account.id = accountId := by
  cases event with
  | call task account now =>
      simp only [Does, perform] at step
      split at step
      · cases step
      · obtain rfl := Option.some.inj step
        exact Or.inl ⟨record, held, rfl⟩
  | advance task =>
      rcases advance_record accountId s t task step record held with
        stands | lifted | dropped | ⟨call, recorded⟩
      · exact Or.inl stands
      · exact Or.inr (Or.inl lifted)
      · exact Or.inr (Or.inr (Or.inl dropped))
      · exact Or.inr (Or.inr (Or.inr ⟨task, call, recorded⟩))
  | answer task result =>
      obtain ⟨call, next, -, moves, -⟩ := moved s t task _ step
      have kept : t.shared = s.shared := by
        unfold answer at moves
        grind
      exact Or.inl ⟨record, kept ▸ held, rfl⟩
  | drop task =>
      obtain ⟨call, next, -, moves, -⟩ := moved s t task _ step
      have kept : t.shared.failures = s.shared.failures := by
        unfold dropCall at moves
        grind [Shared.setHeld]
      exact Or.inl ⟨record, kept ▸ held, rfl⟩
  | clearLock id =>
      obtain rfl := Option.some.inj step
      exact Or.inl ⟨record, held, rfl⟩
  | clearFailure id =>
      obtain rfl := Option.some.inj step
      by_cases same : id = accountId
      · exact Or.inr (Or.inl (Or.inr (Or.inl (congrArg Event.clearFailure same))))
      · refine Or.inl ⟨record, ?_, rfl⟩
        rw [← held]
        exact set_failure_other _ _ _ _ (Ne.symm same)
  | store rows =>
      obtain rfl := Option.some.inj step
      exact Or.inl ⟨record, held, rfl⟩

/-- Where a call past its check comes from. -/
inductive CameFrom (s t : State) (event : Event) (task : Nat) (call next : Call) : Prop where
  | still : next = call → CameFrom s t event task call next
  | checked : event = .advance task → call.phase = .checking →
      (s.shared.failures call.account.id = none ∨
        ∃ record, s.shared.failures call.account.id = some record ∧ next.phase = .expired ∧
          tokenRefreshBackoffMs ≤ wrappingSub call.now record.timestamp) →
      CameFrom s t event task call next
  | dropped : event = .advance task → call.phase = .expired →
      t.shared.failures call.account.id = none → CameFrom s t event task call next
  | ahead : underway call.phase = true → call.phase ≠ .expired →
      CameFrom s t event task call next

theorem advance_came_from (s t : State) (task : Nat) (call next : Call)
    (moves : advance s.shared call = some (t.shared, next)) (past : underway next.phase = true) :
    CameFrom s t (.advance task) task call next := by
  cases phase : call.phase with
  | checking =>
      apply CameFrom.checked rfl phase
      cases held : s.shared.failures call.account.id with
      | none => exact Or.inl rfl
      | some record =>
          simp only [advance, phase, held, Option.some.injEq, Prod.mk.injEq] at moves
          refine Or.inr ⟨record, rfl, ?_⟩
          rw [← moves.2] at past ⊢
          unfold checkBackoff at past ⊢
          by_cases recent : wrappingSub call.now record.timestamp < tokenRefreshBackoffMs
          · simp only [if_pos recent] at past
            split at past <;> simp [Call.to, BackoffAction.phase, underway] at past
          · simp only [if_neg recent]
            exact ⟨rfl, not_lt.mp recent⟩
  | expired =>
      apply CameFrom.dropped rfl phase
      simp only [advance, phase, Option.some.injEq, Prod.mk.injEq] at moves
      rw [← moves.1]
      exact set_failure_same ..
  | locking | waiting | holding | refreshing | failed =>
      exact CameFrom.ahead (by simp [phase, underway]) (by simp [phase])
  | _ =>
      simp only [advance, phase] at moves
      grind [Call.to, underway]

theorem step_came_from (s t : State) (event : Event) (step : Step s event t) (task : Nat)
    (next : Call) (after : t.calls task = some next) (past : underway next.phase = true) :
    ∃ call, s.calls task = some call ∧ call.account.id = next.account.id ∧
      call.now = next.now ∧ CameFrom s t event task call next := by
  rcases step_call s t event step task with
    still | ⟨account, now, -, fresh⟩ | ⟨call, other, held, there, moves⟩
  · exact ⟨next, still.symm.trans after, rfl, rfl, .still rfl⟩
  · obtain rfl := Option.some.inj (after.symm.trans fresh)
    unfold newCall at past
    cases early : withoutRefresh account now <;> simp [early, underway] at past
  · obtain rfl := Option.some.inj (after.symm.trans there)
    obtain ⟨-, clock, same⟩ := moves_keep _ _ task call next event moves
    refine ⟨call, held, same.symm, clock.symm, ?_⟩
    rcases moves with ⟨rfl, moves⟩ | ⟨result, rfl, moves⟩ | ⟨rfl, moves⟩
    · exact advance_came_from s t task call next moves past
    · cases phase : call.phase with
      | refreshing mutex => exact .ahead (by simp [phase, underway]) (by simp [phase])
      | _ => simp [answer, phase] at moves
    · unfold dropCall at moves
      grind [Call.to, underway]

/-- A failure recorded at `since` stands: the calls past their check have clocks outside
its backoff, and until its record is dropped none of them has come to the lock. -/
structure Stands (since : Int) (before : List Taken) (s : State) : Prop where
  outside : ∀ task call, s.calls task = some call → call.account.id = accountId →
    underway call.phase = true → ¬ Within since call.now
  kept : (∃ taken ∈ before, Drops accountId since taken) ∨
    (∃ record, s.shared.failures accountId = some record ∧ record.timestamp = since) ∧
    ∀ task call, s.calls task = some call → call.account.id = accountId →
      underway call.phase = true → call.phase = .expired

/-- A check with a clock in the backoff of the record on file does not pass. -/
theorem late_outside (since now : Int)
    (late : tokenRefreshBackoffMs ≤ wrappingSub now since) : ¬ Within since now := by
  rintro ⟨first, last⟩
  unfold tokenRefreshBackoffMs wrappingSub wrapI64 at *
  omega

theorem stands_step (since : Int) (before : List Taken) (s t : State) (event : Event)
    (stands : Stands accountId since before s) (step : Step s event t)
    (unlifted : ¬ Lifts accountId (s, event, t))
    (inTime : ∀ taken ∈ before, InTime accountId taken (s, event, t)) :
    Stands accountId since (before ++ [(s, event, t)]) t := by
  constructor
  · intro task next after same past
    obtain ⟨call, held, id, clock, origin⟩ := step_came_from s t event step task next after past
    rw [← clock]
    rw [← id] at same
    cases origin with
    | still unmoved => exact stands.outside task call held same (unmoved ▸ past)
    | ahead earlier _ => exact stands.outside task call held same earlier
    | dropped _ phase _ => exact stands.outside task call held same (by simp [phase, underway])
    | checked advancing phase found =>
        rcases stands.kept with ⟨taken, member, drops⟩ | ⟨⟨record, stored, time⟩, -⟩
        · exact inTime taken member since call.now drops
            ⟨task, call, advancing, held, same, rfl, phase⟩
        · rw [same, stored] at found
          rcases found with absent | ⟨other, known, -, late⟩
          · cases absent
          · obtain rfl := Option.some.inj known
            exact late_outside since call.now (time ▸ late)
  · rcases stands.kept with dropped | ⟨⟨record, stored, time⟩, early⟩
    · exact Or.inl (seen_later _ _ dropped)
    · rcases step_record accountId s t event step record stored with
        ⟨counted, there, sameTime⟩ | lifted | drops | ⟨task, call, ⟨_, held, mutex, error, phase⟩, same⟩
      · refine Or.inr ⟨⟨counted, there, sameTime.trans time⟩, ?_⟩
        intro task next after same past
        obtain ⟨call, held, id, -, origin⟩ := step_came_from s t event step task next after past
        rw [← id] at same
        cases origin with
        | still unmoved => exact unmoved ▸ early task call held same (unmoved ▸ past)
        | ahead earlier unexpired => exact absurd (early task call held same earlier) unexpired
        | dropped _ _ gone =>
            rw [same, there] at gone
            cases gone
        | checked _ _ found =>
            rw [same, stored] at found
            rcases found with absent | ⟨_, -, expired, -⟩
            · cases absent
            · exact expired
      · exact absurd lifted unlifted
      · exact Or.inl ⟨_, List.mem_append_right _ (List.mem_singleton_self _), time ▸ drops⟩
      · have expired := early task call held same (by simp [phase, underway])
        simp [phase] at expired

theorem recorded_stands (s t : State) (task : Nat) (call : Call)
    (step : Step s (.advance task) t) (recorded : RecordsFailure (s, .advance task, t) task call)
    (same : call.account.id = accountId) (alone : RecordsAlone accountId (s, .advance task, t)) :
    Stands accountId call.now [] t := by
  obtain ⟨-, found, mutex, error, phase⟩ := recorded
  obtain ⟨failed, next, held, moves, after⟩ := advanced s t task step
  obtain rfl := Option.some.inj (found.symm.trans held)
  simp only [advance, phase, Option.some.injEq, Prod.mk.injEq] at moves
  have none_underway : ∀ other otherCall, t.calls other = some otherCall →
      otherCall.account.id = accountId → underway otherCall.phase = false := by
    intro other otherCall there id
    by_cases different : other = task
    · subst different
      obtain rfl := Option.some.inj (after.symm.trans there)
      rw [← moves.2]
      rfl
    · rcases moved_or_still s t other task _ step with still | ⟨equal, -⟩
      · exact alone task call ⟨rfl, found, mutex, error, phase⟩ same other otherCall different
          (still.symm.trans there) id
      · exact absurd equal different
  constructor
  · intro other otherCall there id past
    rw [none_underway other otherCall there id] at past
    cases past
  · refine Or.inr ⟨⟨⟨call.now, 0⟩, ?_, rfl⟩, ?_⟩
    · rw [← moves.1, same]
      exact set_failure_same ..
    · intro other otherCall there id past
      rw [none_underway other otherCall there id] at past
      cases past

/-- The backoff holds in the runs in which failures are recorded while no other call is
past its check, and no check comes late to a record that was dropped. -/
theorem backoff_holds (start final : State) (trace : List Taken)
    (run : Run Step start trace final) (alone : ∀ taken ∈ trace, RecordsAlone accountId taken)
    (inTime : trace.Pairwise (InTime accountId)) : BackoffHolds accountId trace := by
  intro before middle after failure asking failing starting failed started split recorded same
    unlifted ⟨_, held, ⟨mutex, holding⟩, _⟩ other
  rw [split] at run alone inTime
  obtain ⟨source, event, target⟩ := failure
  obtain ⟨-, step, rest⟩ := run.cut
  obtain ⟨quiet, -, -⟩ := rest.cut_at
  obtain rfl : event = .advance failing := recorded.1
  have first := recorded_stands accountId source target failing failed step recorded same
    (alone _ (List.mem_append_right _ List.mem_cons_self))
  have ordered : middle.Pairwise (InTime accountId) := by
    have tail := (List.pairwise_append.mp inTime).2.1
    exact (List.pairwise_append.mp (List.pairwise_cons.mp tail).2).1
  have carried := quiet.history
    (fun passed s => (∀ taken ∈ passed, ¬ Lifts accountId taken) →
      passed.Pairwise (InTime accountId) → Stands accountId failed.now passed s)
    (fun _ _ => first)
    (fun passed source event target ih step unlifted ordered => by
      obtain ⟨early, -, last⟩ := List.pairwise_append.mp ordered
      exact stands_step accountId failed.now passed source target event
        (ih (fun taken member => unlifted taken (List.mem_append_left _ member)) early) step
        (unlifted _ (List.mem_append_right _ (List.mem_singleton_self _)))
        fun taken member => last taken member _ (List.mem_singleton_self _))
  exact (carried unlifted ordered).outside starting started held other (by simp [holding, underway])

def failedCall : Call := ⟨staleAccount, staleAccount, 1000, .failed 0 (.tokenRefresh "refused")⟩

def laterCall : Call := ⟨staleAccount, staleAccount, 2000, .checking⟩

def failing : State where
  shared := { (newState [staleAccount]).shared with held := fun _ => true }
  calls task := if task = 0 then some failedCall else if task = 1 then some laterCall else none

def messageOf (call : Call) (error : ProviderError) : String :=
  getOauthErrorMessage call.account (errorText error) call.now

def recorded : State where
  shared := failing.shared.setFailure "a" (some ⟨1000, 0⟩)
  calls := Function.update failing.calls 0 (some (failedCall.to (.leaving 0 (.error
    (.refreshFailed "a" (messageOf failedCall (.tokenRefresh "refused")))))))

def putOff : State where
  shared := recorded.shared.setFailure "a" (some ⟨1000, 1⟩)
  calls := Function.update recorded.calls 1 (some (laterCall.to
    (.returned (.error (.inBackoff "a")))))

theorem failure_recorded : Step failing (.advance 0) recorded := by
  change perform failing (.advance 0) = some recorded
  rfl

theorem later_call_put_off : Step recorded (.advance 1) putOff := by
  change perform recorded (.advance 1) = some putOff
  rfl

/-- A failure is recorded and a later call is put off. -/
theorem later_call_waits : BackoffHolds "a"
    [(failing, .advance 0, recorded), (recorded, .advance 1, putOff)] := by
  apply backoff_holds "a" failing putOff _ (.cons failure_recorded (.cons later_call_put_off .nil))
  · rintro taken member task call ⟨event, held, mutex, error, phase⟩ - other otherCall different
      there -
    simp only [List.mem_cons, List.not_mem_nil, or_false] at member
    rcases member with rfl | rfl
    · obtain rfl : 0 = task := by simpa using event
      by_cases later : other = 1
      · subst later
        obtain rfl : laterCall = otherCall := by simpa [failing] using there
        rfl
      · simp [failing, different, later] at there
    · obtain rfl : 1 = task := by simpa using event
      obtain rfl : laterCall = call := by simpa [recorded, failing] using held
      cases phase
  · simp only [List.pairwise_cons, List.mem_singleton, forall_eq, List.not_mem_nil,
      List.Pairwise.nil, false_implies, implies_true, and_true]
    rintro since now ⟨-, kept, -⟩ -
    cases kept

def standsAt (s : State) (task : Nat) (at_ : Phase → Bool) : Bool :=
  (s.calls task).any fun call => at_ call.phase && call.account.id = "a" && call.now = 1000

theorem stands_at (s : State) (task : Nat) (at_ : Phase → Bool)
    (there : standsAt s task at_ = true) :
    ∃ call, s.calls task = some call ∧ at_ call.phase = true ∧ call.account.id = "a" ∧
      call.now = 1000 := by
  simpa [standsAt, Option.any_eq_true, and_assoc] using there

def isFailed : Phase → Bool
  | .failed _ _ => true
  | _ => false

def isLeaving : Phase → Bool
  | .leaving _ _ => true
  | _ => false

def isWaiting : Phase → Bool
  | .waiting _ => true
  | _ => false

/-- Only the end of a refresh and a recovery lift the backoff when a call advances. -/
theorem advance_lifts_not (s t : State) (task : Nat) (call : Call)
    (held : s.calls task = some call)
    (phase : isLeaving call.phase = true ∨ isWaiting call.phase = true) :
    ¬ Lifts accountId (s, .advance task, t) := by
  rintro (cleared | cleared | ⟨other, otherCall, found, -, ⟨result, answered⟩ | ⟨event, lifting⟩⟩)
  · cases cleared
  · cases cleared
  · cases answered
  · obtain rfl := Event.advance.inj event
    obtain rfl := Option.some.inj (held.symm.trans found)
    rcases lifting with ⟨mutex, token, persisted⟩ | ⟨token, recovered⟩
    · simp [persisted, isLeaving, isWaiting] at phase
    · simp [recovered, isLeaving, isWaiting] at phase

/-- A call that waits for the lock when a failure is recorded asks the refresher in the
backoff. -/
theorem queued_call_not_put_off :
    ∃ trace final, Run Step (newState [staleAccount]) trace final ∧
      ¬ BackoffHolds "a" trace := by
  obtain ⟨before, s, run, -, ready⟩ := @performed _ _ (newState [staleAccount]) perform
    (queuedCalls ++ [.answer 0 (.error (.tokenRefresh "refused"))])
    (fun s => standsAt s 0 isFailed && (perform s (.advance 0)).any fun t =>
      standsAt t 0 isLeaving && (perform t (.advance 0)).any fun u =>
      standsAt u 1 isWaiting && (perform u (.advance 1)).any fun v =>
      standsAt v 1 (fun _ => true) && isAsking v 1 && (perform v (.advance 1)).any fun _ => true)
    (by decide +kernel)
  obtain ⟨failed, afterFailure⟩ := Bool.and_eq_true_iff.mp ready
  obtain ⟨t, fails, left⟩ := performed_once perform _ _ afterFailure
  obtain ⟨leaving, afterLeaving⟩ := Bool.and_eq_true_iff.mp left
  obtain ⟨u, leaves, passed⟩ := performed_once perform _ _ afterLeaving
  obtain ⟨waiting, afterLock⟩ := Bool.and_eq_true_iff.mp passed
  obtain ⟨v, locks, holding⟩ := performed_once perform _ _ afterLock
  obtain ⟨asks, afterAsking⟩ := Bool.and_eq_true_iff.mp holding
  obtain ⟨there, asking⟩ := Bool.and_eq_true_iff.mp asks
  obtain ⟨final, starts, -⟩ := performed_once perform _ _ afterAsking
  refine ⟨_, final, run.trans (.cons fails (.cons leaves (.cons locks (.cons starts .nil)))), ?_⟩
  intro holds
  obtain ⟨refused, held, phase, same, clock⟩ := stands_at s 0 _ failed
  obtain ⟨leavingCall, leavingHeld, leavingPhase, -⟩ := stands_at t 0 _ leaving
  obtain ⟨waitingCall, waitingHeld, waitingPhase, -⟩ := stands_at u 1 _ waiting
  obtain ⟨asker, askerHeld, -, askerSame, askerClock⟩ := stands_at v 1 _ there
  obtain ⟨call, started⟩ := is_asking v final 1 asking
  obtain rfl := Option.some.inj (askerHeld.symm.trans started.2.1)
  have records : RecordsFailure (s, .advance 0, t) 0 refused := by
    refine ⟨rfl, held, ?_⟩
    cases shown : refused.phase with
    | failed mutex error => exact ⟨mutex, error, rfl⟩
    | _ => simp [shown, isFailed] at phase
  apply holds before [(t, .advance 0, u), (u, .advance 1, v)] [] _ _ 0 1 refused asker rfl records
    same ?_ started askerSame
  · unfold Within tokenRefreshBackoffMs
    omega
  · intro taken member
    simp only [List.mem_cons, List.not_mem_nil, or_false] at member
    rcases member with rfl | rfl
    · exact advance_lifts_not "a" t u 0 leavingCall leavingHeld (Or.inl leavingPhase)
    · exact advance_lifts_not "a" u v 1 waitingCall waitingHeld (Or.inr waitingPhase)

end Ccflare.RefreshBackoff
