import Ccflare.CapacityAccounting

/-!
Usage payloads and the posterior updates made of them. The cache of usage data hands out a
payload until it is replaced or ten minutes old, and nothing remembers that a cycle has
used it; so what counts is that the poller stores a payload between two updates.
-/

namespace Ccflare.CapacityService

open MachineNumber CapacityState Transition WindowRebuild

variable {K : Type}

abbrev Transit (K : Type) := Service K × Event K × Service K

/-- The posterior an account has, if it is cached. -/
def posterior (s : Service K) (accountId : String) : Option (K × K × K) :=
  (s.cache.lookup accountId).map fun state => (state.mu, state.sigmaSq, state.nEff)

def stores (accountId : String) (taken : Transit K) : Bool :=
  match taken.2.1 with
  | .setUsage other _ => decide (other = accountId)
  | _ => false

/-- The poll of a cycle changes the posterior of the account. -/
def updates [DecidableEq K] (accountId : String) (taken : Transit K) : Bool :=
  match taken.2.1 with
  | .pollAccount => decide (posterior taken.1 accountId ≠ posterior taken.2.2 accountId)
  | _ => false

variable [Field K] [LinearOrder K]

/-- The utilisation is one that a posterior is updated with. -/
def informative (state : AccountCapacityState K) (nowMs : Int) (u : K) : Bool :=
  decide (minUForLb ≤ u ∧ u < censoredUThreshold ∧
    0 < (state.beginPoll nowMs).proxyTokens5hWeighted / (u / 100))

/-- The poll of a cycle comes to the account and finds an informative payload. -/
def observes (accountId : String) (taken : Transit K) : Bool :=
  match taken.2.1, taken.1.task with
  | .pollAccount, .polling nowMs (polled :: _) =>
      decide (polled = accountId) &&
        ((getUsage taken.1.usage taken.1.clock accountId).1.bind extract5hUtilization).any
          fun u => (taken.1.cache.lookup accountId).any fun state => informative state nowMs u
  | _, _ => false

/-- Between two polls that find an informative payload of the account, one is stored. -/
def Paced (accountId : String) (trace : List (Transit K)) : Prop :=
  ∀ before first between second after,
    trace = before ++ first :: (between ++ second :: after) → observes accountId first = true →
      observes accountId second = true → ∃ stored ∈ between, stores accountId stored = true

theorem paced_before {accountId : String} {before after : List (Transit K)}
    (paced : Paced accountId (before ++ after)) : Paced accountId before := by
  intro earlier first between second later same
  apply paced earlier first between second (later ++ after)
  simp [same]

variable (functions : Functions K)

/-- A poll that is not informative leaves the posterior alone. -/
theorem poll_posterior (state : AccountCapacityState K) (nowMs : Int) (u : K)
    (idle : informative state nowMs u = false) :
    let polled := state.onUsagePoll functions nowMs u
    (polled.mu, polled.sigmaSq, polled.nEff) = (state.mu, state.sigmaSq, state.nEff) := by
  simp only [informative, decide_eq_false_iff_not, not_and] at idle
  simp only [AccountCapacityState.onUsagePoll]
  split
  · split
    · exact (predict_frame _ nowMs).posterior
    · exact (predict_frame _ nowMs).posterior
  · rename_i censored
    split
    · exact (predict_frame _ nowMs).posterior
    · rename_i low
      rw [if_pos (not_lt.mp (idle (not_lt.mp low) (not_le.mp censored)))]
      exact (predict_frame _ nowMs).posterior

/-- The sample count tells that a poll has updated the posterior. -/
theorem poll_samples [IsStrictOrderedRing K] (state : AccountCapacityState K) (nowMs : Int) (u : K)
    (here : informative state nowMs u = true) (few : state.nEff ≤ 99) :
    (state.onUsagePoll functions nowMs u).nEff = state.nEff + 0.3 := by
  obtain ⟨low, high, positive⟩ := of_decide_eq_true here
  have capped : min (state.nEff + 0.3) 100 = state.nEff + 0.3 := by
    apply min_eq_left
    linarith
  have posterior := ((predict_frame ((state.beginPoll nowMs).updatePosterior functions
    ((state.beginPoll nowMs).proxyTokens5hWeighted / (u / 100))) nowMs).trans
      (measure_frame functions _ nowMs u)).posterior
  simp only [Prod.mk.injEq] at posterior
  simp only [AccountCapacityState.onUsagePoll, if_neg (not_le.mpr high), if_neg (not_lt.mpr low),
    if_neg (not_le.mpr positive)]
  exact posterior.2.2.trans capped

omit [Field K] [LinearOrder K] in
theorem get_usage_lookup (usage : UsageMap K) (nowMs : Int) (accountId other : String)
    (held : ((getUsage usage nowMs accountId).2.lookup other).isSome) :
    (usage.lookup other).isSome := by
  simp only [getUsage] at held
  split at held
  · exact held
  · split at held
    · by_cases same : other = accountId
      · subst same
        simp [AList.lookup_erase] at held
      · rwa [AList.lookup_erase_ne same] at held
    · exact held

/-- A step that leaves an account with a payload found one there or stored one. -/
theorem perform_usage {s target : Service K} {event : Event K} (accountId : String)
    (taken : perform functions s event = some target)
    (held : (target.usage.lookup accountId).isSome) :
    (s.usage.lookup accountId).isSome ∨ stores accountId (s, event, target) = true := by
  cases event with
  | setUsage other data =>
      obtain rfl := Option.some.inj taken
      by_cases same : other = accountId
      · exact .inr (decide_eq_true same)
      · exact .inl (by rwa [AList.lookup_insert_ne (Ne.symm same)] at held)
  | removeUsage other =>
      obtain rfl := Option.some.inj taken
      left
      by_cases same : accountId = other
      · subst same
        simp [AList.lookup_erase] at held
      · rwa [AList.lookup_erase_ne same] at held
  | pollAccount =>
      simp only [perform] at taken
      split at taken
      · obtain rfl := Option.some.inj taken
        exact .inl (get_usage_lookup _ _ _ _ held)
      · cases taken
  | _ =>
      left
      simp only [perform] at taken
      repeat' split at taken
      all_goals first
        | cases taken
          done
        | obtain rfl := Option.some.inj taken
          exact held

theorem observed_payload {accountId : String} {taken : Transit K}
    (observed : observes accountId taken = true) :
    taken.2.1 = .pollAccount ∧ (taken.1.usage.lookup accountId).isSome := by
  obtain ⟨source, event, target⟩ := taken
  simp only [observes] at observed
  split at observed
  · refine ⟨rfl, ?_⟩
    cases held : source.usage.lookup accountId with
    | none => simp [getUsage, held] at observed
    | some entry => rfl
  · cases observed

/-- Only a poll that finds an informative payload updates the posterior. -/
theorem updates_observes {s target : Service K} {event : Event K} (accountId : String)
    (taken : perform functions s event = some target)
    (updated : updates accountId (s, event, target) = true) :
    observes accountId (s, event, target) = true := by
  cases event with
  | pollAccount =>
      have changed : posterior s accountId ≠ posterior target accountId :=
        of_decide_eq_true updated
      simp only [perform] at taken
      split at taken
      · rename_i nowMs polled todo task
        obtain rfl := Option.some.inj taken
        simp only [posterior] at changed
        split at changed
        · rename_i u read
          rw [modify_lookup] at changed
          split at changed
          · rename_i same
            subst same
            cases held : s.cache.lookup accountId with
            | none => simp [held] at changed
            | some state =>
                simp only [observes, task, read, held, Option.any_some, decide_true, Bool.true_and]
                by_contra idle
                rw [Bool.not_eq_true] at idle
                have kept := poll_posterior functions state nowMs u idle
                simp only [held, Option.map_some] at changed
                exact changed (congrArg some kept.symm)
          · exact absurd rfl changed
        · exact absurd rfl changed
      · cases taken
  | _ => cases updated

/-- Payloads that are yet to be used: more were stored than found, or the last one found
is still the last one stored, or none was stored. -/
inductive Unused (accountId : String) (trace : List (Transit K)) (s : Service K) : Prop where
  | spare (more : trace.countP (observes accountId) < trace.countP (stores accountId))
  | spent (before : List (Transit K)) (last : Transit K) (later : List (Transit K))
      (equal : trace.countP (observes accountId) = trace.countP (stores accountId))
      (split : trace = before ++ last :: later) (observed : observes accountId last = true)
      (since : ∀ taken ∈ later, stores accountId taken = false)
  | empty (equal : trace.countP (observes accountId) = trace.countP (stores accountId))
      (absent : s.usage.lookup accountId = none)

theorem unused_step {accountId : String} {trace : List (Transit K)} {s target : Service K}
    {event : Event K} (unused : Unused accountId trace s)
    (taken : perform functions s event = some target)
    (paced : Paced accountId (trace ++ [(s, event, target)])) :
    Unused accountId (trace ++ [(s, event, target)]) target := by
  have found : (trace ++ [(s, event, target)]).countP (observes accountId) = _ :=
    List.countP_append
  have stored : (trace ++ [(s, event, target)]).countP (stores accountId) = _ :=
    List.countP_append
  rw [List.countP_singleton] at found stored
  cases finds : observes accountId (s, event, target) with
  | true =>
      obtain ⟨poll, payload⟩ := observed_payload finds
      have none : stores accountId (s, event, target) = false := by
        simp only [stores, show event = .pollAccount from poll]
      simp only [finds, none, if_true, Bool.false_eq_true, if_false] at found stored
      cases unused with
      | spare more =>
          by_cases last : trace.countP (observes accountId) + 1 = trace.countP (stores accountId)
          · exact .spent trace _ [] (by omega) rfl finds (by simp)
          · exact .spare (by omega)
      | spent before last later equal split observed since =>
          subst split
          obtain ⟨taken, member, fresh⟩ := paced before last later _ [] (by simp) observed finds
          rw [since taken member] at fresh
          cases fresh
      | empty equal absent => simp [absent] at payload
  | false =>
      simp only [finds, Bool.false_eq_true, if_false] at found
      cases fresh : stores accountId (s, event, target) with
      | true =>
          simp only [fresh, if_true] at stored
          cases unused with
          | spare more => exact .spare (by omega)
          | spent _ _ _ equal _ _ _ => exact .spare (by omega)
          | empty equal _ => exact .spare (by omega)
      | false =>
          simp only [fresh, Bool.false_eq_true, if_false] at stored
          cases unused with
          | spare more => exact .spare (by omega)
          | spent before last later equal split observed since =>
              refine .spent before last (later ++ [(s, event, target)]) (by omega) ?_ observed ?_
              · rw [split, List.append_assoc, List.cons_append]
              · intro taken member
                rcases List.mem_append.mp member with earlier | here
                · exact since taken earlier
                · obtain rfl := List.mem_singleton.mp here
                  exact fresh
          | empty equal absent =>
              refine .empty (by omega) ?_
              by_contra held
              have before := perform_usage functions accountId taken
                (Option.isSome_iff_ne_none.mpr held)
              simp [absent, fresh] at before

/-- Where every second informative poll of an account finds a newer payload than the first,
its posterior is updated at most once for each payload that was stored. -/
theorem updates_at_most_stored {start final : Service ℝ}
    {trace : List (Service ℝ × Event ℝ × Service ℝ)} (accountId : String)
    (empty : start.usage = ∅) (run : Run (Does (perform real)) start trace final)
    (paced : Paced accountId trace) :
    trace.countP (updates accountId) ≤ trace.countP (stores accountId) := by
  have counted : Paced accountId trace → Unused accountId trace final := by
    apply run.history fun before s => Paced accountId before → Unused accountId before s
    · intro _
      exact .empty rfl (by simp [empty])
    · intro before source event target unused taken paced
      exact unused_step real (unused (paced_before paced)) taken paced
  have steps := run.transitions (fun _ => True) trivial (fun _ _ _ _ _ => trivial)
  calc
    trace.countP (updates accountId) ≤ trace.countP (observes accountId) := by
      apply List.countP_mono_left
      intro taken member
      exact updates_observes real accountId (steps taken member).2
    _ ≤ trace.countP (stores accountId) := by
      cases counted paced with
      | spare more => exact more.le
      | spent _ _ _ equal _ _ _ => exact equal.le
      | empty equal _ => exact equal.le

section Pace

/-- Between two cycles: one account is cached, with a request in its window, and a payload
is there for it. -/
structure Waiting (s : Service ℝ) (samples : ℝ) : Prop where
  idle : s.task = .idle
  clock : s.clock = 1700000000000
  keys : s.cache.keys = ["acc1"]
  held : ∃ state, s.cache.lookup "acc1" = some state ∧ state.nEff = samples ∧
    state.window5h = [(1700000000000, 400)] ∧ state.proxyTokens5hWeighted = 400
  payload : s.usage.lookup "acc1" = some ⟨.anthropic (some 50), 1700000000000⟩

def cycleEvents : List (Event ℝ) :=
  [.startCycle false, .startPolls ["acc1"], .pollAccount, .finish]

theorem waiting_evicts (state : AccountCapacityState ℝ)
    (window : state.window5h = [(1700000000000, 400)])
    (running : state.proxyTokens5hWeighted = 400) :
    (state.evictOld 1700000000000).window5h = [(1700000000000, 400)] ∧
      (state.evictOld 1700000000000).proxyTokens5hWeighted = 400 := by
  have cutoff : ¬ (1700000000000 : Int) < wrappingSub 1700000000000 window5hMs := by decide
  simp [AccountCapacityState.evictOld, RollingWindow.popOld, window, running, cutoff]

/-- A cycle updates the posterior and leaves the payload for the next one. -/
theorem waiting_cycle {s : Service ℝ} {samples : ℝ} (waiting : Waiting s samples)
    (few : samples ≤ 99) :
    ∃ trace final, Run (Does (perform real)) s trace final ∧
      trace.map (fun taken => taken.2.1) = cycleEvents ∧
      trace.countP (updates "acc1") = 1 ∧ trace.countP (stores "acc1") = 0 ∧
      Waiting final (samples + 0.3) := by
  obtain ⟨state, held, nEff, window, running⟩ := waiting.held
  obtain ⟨evictedWindow, evictedRunning⟩ := waiting_evicts state window running
  have informs : informative state 1700000000000 50 = true := by
    apply decide_eq_true
    have begun : (state.beginPoll 1700000000000).proxyTokens5hWeighted = 400 := evictedRunning
    norm_num [minUForLb, censoredUThreshold, begun]
  have updated := poll_samples real state 1700000000000 50 informs (by rw [nEff]; exact few)
  have kept := poll_window real state 1700000000000 50
  rw [evictedWindow, evictedRunning] at kept
  have read : getUsage s.usage 1700000000000 "acc1" = (some (.anthropic (some 50)), s.usage) := by
    have young : ¬ maxCacheAgeMs < wrappingSub 1700000000000 1700000000000 := by decide
    simp [getUsage, waiting.payload, young]
  have percent : extract5hUtilization (.anthropic (some (50 : ℝ))) = some 50 := by
    norm_num [extract5hUtilization]
  let adding : Service ℝ := { s with task := .adding s.clock [] }
  let polling : Service ℝ := { s with task := .polling s.clock ["acc1"] }
  let polled : Service ℝ := { s with
    cache := s.cache.insert "acc1" (state.onUsagePoll real 1700000000000 50)
    task := .polling s.clock [] }
  have started : Does (perform real) s (.startCycle false) adding := by
    simp [Does, perform, waiting.idle, adding]
  have listed : Does (perform real) adding (.startPolls ["acc1"]) polling := by
    simp [Does, perform, waiting.keys, adding, polling]
  have seen : Does (perform real) polling .pollAccount polled := by
    simp only [Does, perform, polling, polled, read, Option.bind_some, percent, modify, held,
      waiting.clock]
  have finished : Does (perform real) polled .finish { polled with task := .idle } := rfl
  refine ⟨_, _, .cons started (.cons listed (.cons seen (.cons finished .nil))), rfl, ?_, rfl,
    rfl, waiting.clock, ?_, ⟨state.onUsagePoll real 1700000000000 50, ?_, ?_, kept.2.1, kept.2.2⟩,
    waiting.payload⟩
  · have changed : updates "acc1" (polling, .pollAccount, polled) = true := by
      apply decide_eq_true
      simp only [posterior, polling, polled, held, AList.lookup_insert, Option.map_some, ne_eq,
        Option.some.injEq, Prod.mk.injEq, updated]
      intro same
      linarith [same.2.2]
    simp only [List.countP_cons, changed]
    rfl
  · simp [polled, waiting.keys]
  · exact AList.lookup_insert _
  · rw [updated, nEff]

noncomputable def waitingService : Service ℝ :=
  { emptyService with
    task := .idle
    cache := AList.singleton "acc1"
      ((AccountCapacityState.new real "acc1" "test" none false 1700000000000).onRequest
        1700000000000 400) }

noncomputable def payloadEvent : Event ℝ := .setUsage "acc1" (.anthropic (some 50))

theorem waiting_service :
    ∃ stored, Does (perform real) waitingService payloadEvent stored ∧ Waiting stored 0 := by
  refine ⟨_, rfl, rfl, rfl, rfl, ⟨_, rfl, ?_, ?_, ?_⟩, AList.lookup_insert _⟩
  · norm_num [AccountCapacityState.onRequest, AccountCapacityState.new,
      AccountCapacityState.evictOld]
  · norm_num [AccountCapacityState.onRequest, AccountCapacityState.new,
      AccountCapacityState.evictOld, RollingWindow.popOld]
  · norm_num [AccountCapacityState.onRequest, AccountCapacityState.new,
      AccountCapacityState.evictOld, RollingWindow.popOld]

theorem waiting_stores {s : Service ℝ} {samples : ℝ} (waiting : Waiting s samples) :
    ∃ stored, Does (perform real) s payloadEvent stored ∧ Waiting stored samples := by
  refine ⟨_, rfl, waiting.idle, waiting.clock, waiting.keys, waiting.held, ?_⟩
  rw [waiting.clock]
  exact AList.lookup_insert _

/-- Two cycles within the age of one payload. -/
theorem payload_counted_twice :
    ∃ trace final, waitingService.usage = ∅ ∧
      Run (Does (perform real)) waitingService trace final ∧
      trace.map (fun taken => taken.2.1) = payloadEvent :: (cycleEvents ++ cycleEvents) ∧
      trace.countP (stores "acc1") < trace.countP (updates "acc1") := by
  obtain ⟨stored, taken, waiting⟩ := waiting_service
  obtain ⟨first, between, run, events, updated, quiet, again⟩ :=
    waiting_cycle waiting (by norm_num)
  obtain ⟨second, final, more, moreEvents, moreUpdated, moreQuiet, _⟩ :=
    waiting_cycle again (by norm_num)
  refine ⟨_, final, rfl, .cons taken (run.trans more), ?_, ?_⟩
  · rw [List.map_cons, List.map_append, events, moreEvents]
  · rw [List.countP_cons, List.countP_cons, List.countP_append, List.countP_append, updated, quiet,
      moreUpdated, moreQuiet]
    have one : stores "acc1" (waitingService, payloadEvent, stored) = true := by
      simp [stores, payloadEvent]
    have none : updates "acc1" (waitingService, payloadEvent, stored) = false := rfl
    simp [one, none]

def polls : Event ℝ → Bool
  | .pollAccount => true
  | _ => false

theorem observed_polls {accountId : String} {taken : Transit ℝ}
    (observed : observes accountId taken = true) : polls taken.2.1 = true := by
  rw [(observed_payload observed).1, polls]

theorem single_poll {accountId : String} {before between after : List (Transit ℝ)}
    {first second : Transit ℝ} (one : observes accountId first = true)
    (other : observes accountId second = true)
    (single : ((before ++ first :: (between ++ second :: after)).map
      fun taken => taken.2.1).countP polls ≤ 1) : False := by
  rw [List.map_append, List.map_cons, List.map_append, List.map_cons, List.countP_append,
    List.countP_cons_of_pos (observed_polls one), List.countP_append,
    List.countP_cons_of_pos (observed_polls other)] at single
  omega

/-- Two stretches of one poll each, with a payload stored between them. -/
theorem joined_paced {accountId : String} {left right : List (Transit ℝ)} {stored : Transit ℝ}
    (stores_ : stores accountId stored = true)
    (leftSingle : (left.map fun taken => taken.2.1).countP polls ≤ 1)
    (rightSingle : (right.map fun taken => taken.2.1).countP polls ≤ 1) :
    Paced accountId (left ++ stored :: right) := by
  intro before first between second after split one other
  have apart : ∀ taken, observes accountId taken = true → stored ≠ taken := by
    rintro taken observed rfl
    have payload := (observed_payload observed).1
    simp [stores, payload] at stores_
  rcases List.append_eq_append_iff.mp split with ⟨gap, rfl, later⟩ | ⟨gap, rfl, later⟩
  · rcases List.cons_eq_append_iff.mp later with ⟨-, same⟩ | ⟨more, -, rfl⟩
    · exact absurd (List.cons.inj same).1.symm (apart first one)
    · exact (single_poll one other rightSingle).elim
  · rcases List.cons_eq_append_iff.mp later with ⟨-, same⟩ | ⟨more, rfl, rest⟩
    · exact absurd (List.cons.inj same).1 (apart first one)
    · rcases List.append_eq_append_iff.mp rest with ⟨gap, rfl, tail⟩ | ⟨gap, rfl, tail⟩
      · rcases List.cons_eq_append_iff.mp tail with ⟨-, same⟩ | ⟨more, rfl, -⟩
        · exact absurd (List.cons.inj same).1 (apart second other)
        · exact (single_poll one other leftSingle).elim
      · rcases List.cons_eq_append_iff.mp tail with ⟨-, same⟩ | ⟨more, rfl, -⟩
        · exact absurd (List.cons.inj same).1.symm (apart second other)
        · exact ⟨stored, by simp, stores_⟩

/-- Two cycles, with the payload stored anew between them. -/
theorem payload_counted_once :
    ∃ trace final, Run (Does (perform real)) waitingService trace final ∧
      trace.map (fun taken => taken.2.1) =
        payloadEvent :: (cycleEvents ++ payloadEvent :: cycleEvents) ∧
      trace.countP (updates "acc1") = 2 ∧
      trace.countP (updates "acc1") ≤ trace.countP (stores "acc1") := by
  obtain ⟨stored, taken, waiting⟩ := waiting_service
  obtain ⟨first, between, run, events, updated, quiet, idle⟩ := waiting_cycle waiting (by norm_num)
  obtain ⟨again, takenAgain, waitingAgain⟩ := waiting_stores idle
  obtain ⟨second, final, more, moreEvents, moreUpdated, moreQuiet, -⟩ :=
    waiting_cycle waitingAgain (by norm_num)
  have whole := (Run.cons taken run).trans (.cons takenAgain more)
  have single : (cycleEvents.countP polls) = 1 := rfl
  have paced : Paced "acc1" (((waitingService, payloadEvent, stored) :: first) ++
      (between, payloadEvent, again) :: second) := by
    apply joined_paced (by simp [stores, payloadEvent])
    · rw [List.map_cons, events]
      exact single.le
    · rw [moreEvents]
      exact single.le
  refine ⟨_, final, whole, ?_, ?_, updates_at_most_stored "acc1" rfl whole paced⟩
  · simp only [List.cons_append, List.map_cons, List.map_append, events, moreEvents]
  · have one : updates "acc1" (waitingService, payloadEvent, stored) = false := rfl
    have two : updates "acc1" (between, payloadEvent, again) = false := rfl
    simp [List.countP_append, updated, moreUpdated, one, two]

end Pace

end Ccflare.CapacityService
