import Ccflare.NearestDouble
import Ccflare.WindowRebuild

/-!
The window a restart rebuilds against the one it replaces, in `f64`. The live path adds the
counts of a request in `i64`, which wraps; the rebuild adds them in SQL, where a sum that
leaves the integers goes on in reals. Both weigh them and keep a running total, rounded
at every step. No sum here leaves the range of the normal numbers.
-/

namespace Ccflare.WindowRestart

open MachineNumber NearestDouble RollingWindow CapacityState SseParser StableSort WindowRebuild

/-- The part of the state of an account that its requests make. -/
@[ext] structure Window where
  window5h : List (Int × Rat)
  proxyTokens5hWeighted : Rat
  deriving DecidableEq

def popFront (cutoff : Int) : List (Int × Rat) → Rat → List (Int × Rat) × Rat
  | [], running => ([], running)
  | entry :: rest, running =>
      if entry.1 < cutoff then popFront cutoff rest (nearestF64 (running - entry.2))
      else (entry :: rest, running)

def Window.evictOld (s : Window) (nowMs : Int) : Window :=
  let left := popFront (wrappingSub nowMs window5hMs) s.window5h s.proxyTokens5hWeighted
  ⟨left.1, max left.2 0⟩

def Window.onRequest (s : Window) (nowMs : Int) (weightedTokens : Rat) : Window :=
  if weightedTokens ≤ 0 then s
  else
    let s := s.evictOld nowMs
    ⟨s.window5h ++ [(nowMs, weightedTokens)],
      nearestF64 (s.proxyTokens5hWeighted + weightedTokens)⟩

def weigh (tokens : Rat) (model : Option String) : Rat := nearestF64 (tokens * modelWeight model)

/-- What `on_summary` tells the window of an account through the cache. -/
def notify (accountId : String) (s : Window) (summary : RequestSummary) (nowMs : Int) : Window :=
  match summary.accountId, summary.totalTokens with
  | some used, some totalTokens =>
      if used = accountId then
        if totalTokens ≤ 0 then s
        else s.onRequest nowMs (weigh (nearestF64 totalTokens) summary.model)
      else s
  | _, _ => s

/-- A number of SQL: an integer of 64 bits, or a real. -/
inductive SqlNumber where
  | integer (value : Int)
  | real (value : Rat)

def SqlNumber.toF64 : SqlNumber → Rat
  | .integer value => nearestF64 value
  | .real value => value

def sqlAdd : SqlNumber → SqlNumber → SqlNumber
  | .integer a, .integer b =>
      if InI64 (a + b) then .integer (a + b) else .real (nearestF64 (nearestF64 a + nearestF64 b))
  | a, b => .real (nearestF64 (a.toF64 + b.toF64))

/-- The sum of the four columns, a NULL as 0. -/
def sqlTokens (input output cacheCreation cacheRead : Option Int) : Rat :=
  (sqlAdd (sqlAdd (sqlAdd (.integer (input.getD 0)) (.integer (output.getD 0)))
    (.integer (cacheCreation.getD 0))) (.integer (cacheRead.getD 0))).toF64

def rowTokens (row : RequestRow) : Rat :=
  sqlTokens row.inputTokens row.outputTokens row.cacheCreationInputTokens row.cacheReadInputTokens

def recentRequests (rows : List RequestRow) (accountId : String) (sinceMs : Int) :
    List (Int × Rat × Option String) :=
  (sortByKey RequestRow.timestamp (rows.filter (selectedRow accountId sinceMs))).map
    fun row => (row.timestamp, rowTokens row, row.model)

def rebuildEntry (s : Window) (row : Int × Rat × Option String) : Window :=
  let wt := weigh row.2.1 row.2.2
  if 0 < wt then
    ⟨s.window5h ++ [(row.1, wt)], nearestF64 (s.proxyTokens5hWeighted + wt)⟩
  else s

/-- The window of `initialize_cache` at the clock reading `nowMs`. -/
def initialWindow (rows : List RequestRow) (accountId : String) (nowMs : Int) : Window :=
  (recentRequests rows accountId (wrappingSub nowMs window5hMs)).foldl rebuildEntry ⟨[], 0⟩

/-- What happens to the account and its table, each at one reading of the clock. A poll
does no more to the window than to evict. -/
inductive Event where
  | onSummary (nowMs : Int) (requestId : String) (accountId : Option String) (usage : StreamUsage)
  | onUsagePoll (nowMs : Int)

def Event.nowMs : Event → Int
  | .onSummary nowMs .. | .onUsagePoll nowMs => nowMs

def Event.requestId : Event → Option String
  | .onSummary _ requestId .. => some requestId
  | .onUsagePoll _ => none

structure Process where
  requests : List RequestRow
  window : Window

def record (accountId : String) (p : Process) : Event → Process
  | .onSummary nowMs requestId used usage =>
      let summary := buildSummary requestId used usage
      ⟨save p.requests (summaryRow summary nowMs), notify accountId p.window summary nowMs⟩
  | .onUsagePoll nowMs => ⟨p.requests, p.window.evictOld nowMs⟩

/-- An account that is cached before its first request. -/
def started : Process := ⟨[], ⟨[], 0⟩⟩

/-- The live window and the one a restart builds, both brought to `nowMs`, are equal. -/
def Agrees (accountId : String) (p : Process) (nowMs : Int) : Prop :=
  p.window.evictOld nowMs = (initialWindow p.requests accountId nowMs).evictOld nowMs

/-- Events in the order of their times, each request with an id of its own. -/
structure Recorded (events : List Event) : Prop where
  ordered : events.Pairwise fun a b => a.nowMs ≤ b.nowMs
  distinct : (events.filterMap Event.requestId).Nodup
  readings : ∀ event ∈ events, ClockReading event.nowMs

/-- A restart at any moment rebuilds the live window. -/
def Restartable (accountId : String) (events : List Event) : Prop :=
  ∀ before after nowMs, events = before ++ after → ClockReading nowMs →
    (∀ event ∈ before, event.nowMs ≤ nowMs) →
    Agrees accountId (before.foldl (record accountId) started) nowMs

/-- The counts of a usage as the live path adds them, and as SQL does. -/
def liveTokens (usage : StreamUsage) : Rat := nearestF64 (wrapI64 (usageTokens usage))

def savedTokens (usage : StreamUsage) : Rat :=
  sqlTokens usage.inputTokens usage.outputTokens usage.cacheCreationInputTokens
    usage.cacheReadInputTokens

/-- The two sums of a request of the account weigh the same, or neither is positive. -/
def Alike (accountId : String) : Event → Prop
  | .onSummary _ _ used usage => used = some accountId →
      0 < liveTokens usage ∨ 0 < savedTokens usage →
      weigh (liveTokens usage) usage.model = weigh (savedTokens usage) usage.model
  | .onUsagePoll _ => True

/-- The entry a number of tokens makes, if it makes one. -/
def entryOf (nowMs : Int) (tokens : Rat) (model : Option String) : Option (Int × Rat) :=
  if 0 < tokens then some (nowMs, weigh tokens model) else none

/-- The entry of an event of the account, with its counts added in one way or the other. -/
def eventEntry (tokensOf : StreamUsage → Rat) (accountId : String) : Event → Option (Int × Rat)
  | .onSummary nowMs _ used usage =>
      if used = some accountId then entryOf nowMs (tokensOf usage) usage.model else none
  | .onUsagePoll _ => none

abbrev liveEntry : String → Event → Option (Int × Rat) := eventEntry liveTokens

abbrev savedEntry : String → Event → Option (Int × Rat) := eventEntry savedTokens

/-- No sum over consecutive entries of five hours needs rounding. -/
def Steady (entries : List (Int × Rat)) : Prop :=
  ∀ block, block <:+: entries → (∀ a ∈ block, ∀ b ∈ block, b.1 - a.1 ≤ window5hMs) →
    nearestF64 (total block) = total block

section Weights

theorem weigh_pos_iff (tokens : Rat) (model : Option String) :
    0 < weigh tokens model ↔ 0 < tokens := by
  rw [weigh, nearest_pos_iff, mul_pos_iff_of_pos_right (model_weight_positive model)]

theorem entry_of_spec (nowMs : Int) (tokens : Rat) (model : Option String) (entry : Int × Rat)
    (made : entryOf nowMs tokens model = some entry) : entry.1 = nowMs ∧ 0 < entry.2 := by
  unfold entryOf at made
  split at made
  · rename_i positive
    obtain rfl := Option.some.inj made
    exact ⟨rfl, (weigh_pos_iff tokens model).mpr positive⟩
  · cases made

theorem event_entry_spec (tokensOf : StreamUsage → Rat) (accountId : String) (event : Event)
    (entry : Int × Rat) (made : eventEntry tokensOf accountId event = some entry) :
    entry.1 = event.nowMs ∧ 0 < entry.2 := by
  cases event with
  | onUsagePoll nowMs => cases made
  | onSummary nowMs requestId used usage =>
      simp only [eventEntry] at made
      split at made
      · exact entry_of_spec _ _ _ _ made
      · cases made

theorem entry_of_alike (nowMs : Int) (a b : Rat) (model : Option String) :
    entryOf nowMs a model = entryOf nowMs b model ↔
      (0 < a ∨ 0 < b → weigh a model = weigh b model) := by
  unfold entryOf
  by_cases first : 0 < a <;> by_cases second : 0 < b
  · simp [first, second]
  · have apart : weigh a model ≠ weigh b model := by
      intro same
      exact second ((weigh_pos_iff b model).mp (same ▸ (weigh_pos_iff a model).mpr first))
    simp [first, second, apart]
  · have apart : weigh a model ≠ weigh b model := by
      intro same
      exact first ((weigh_pos_iff a model).mp (same ▸ (weigh_pos_iff b model).mpr second))
    simp [first, second, apart]
  · simp [first, second]

theorem alike_iff (accountId : String) (event : Event) :
    liveEntry accountId event = savedEntry accountId event ↔ Alike accountId event := by
  cases event with
  | onUsagePoll nowMs => exact iff_of_true rfl trivial
  | onSummary nowMs requestId used usage =>
      by_cases same : used = some accountId
      · simp only [eventEntry, Alike, same, if_true, true_implies, entry_of_alike]
      · simp [eventEntry, Alike, same]

/-- Counts whose partial sums stay in `i64` are alike on both paths. -/
theorem sums_alike (accountId requestId : String) (nowMs : Int) (used : Option String)
    (usage : StreamUsage)
    (two : InI64 (usage.inputTokens.getD 0 + usage.outputTokens.getD 0))
    (three : InI64 (usage.inputTokens.getD 0 + usage.outputTokens.getD 0 +
      usage.cacheCreationInputTokens.getD 0))
    (four : InI64 (usageTokens usage)) :
    Alike accountId (.onSummary nowMs requestId used usage) := by
  have same : liveTokens usage = savedTokens usage := by
    rw [liveTokens, wrap_of_in_i64 _ four]
    unfold usageTokens at four ⊢
    simp only [savedTokens, sqlTokens, sqlAdd, if_pos two, if_pos three, if_pos four,
      SqlNumber.toF64]
  intro _ _
  rw [same]

end Weights

section Windows
variable {entries : List (Int × Rat)} {clock : Int} {s : Window}

theorem pop_front_window (cutoff : Int) (entries : List (Int × Rat)) (running : Rat) :
    (popFront cutoff entries running).1 = expire cutoff entries := by
  induction entries generalizing running with
  | nil => rfl
  | cons entry rest ih =>
      by_cases old : entry.1 < cutoff
      · have dropped : expire cutoff (entry :: rest) = expire cutoff rest :=
          List.dropWhile_cons_of_pos (by simpa using old)
        rw [popFront, if_pos old, ih, dropped]
      · have kept : expire cutoff (entry :: rest) = entry :: rest :=
          List.dropWhile_cons_of_neg (by simpa using old)
        rw [popFront, if_neg old, kept]

/-- Where no remaining sum needs rounding, popping is exact. -/
theorem pop_front_exact (cutoff : Int) (entries : List (Int × Rat))
    (steady : ∀ rest, rest <:+ entries → nearestF64 (total rest) = total rest) :
    popFront cutoff entries (total entries) = popOld cutoff entries (total entries) := by
  induction entries with
  | nil => rfl
  | cons entry rest ih =>
      by_cases old : entry.1 < cutoff
      · have left : total (entry :: rest) - entry.2 = total rest := by
          rw [total_cons, add_sub_cancel_left]
        rw [popFront, popOld, if_pos old, if_pos old, left, steady rest (List.suffix_cons _ _)]
        exact ih fun other suffix => steady other (suffix.trans (List.suffix_cons _ _))
      · rw [popFront, popOld, if_neg old, if_neg old]

/-- A recent entry is pushed behind what is left. -/
theorem expire_push (cutoff : Int) (entries : List (Int × Rat)) (entry : Int × Rat)
    (recent : cutoff ≤ entry.1) :
    expire cutoff (entries ++ [entry]) = expire cutoff entries ++ [entry] := by
  have single : expire cutoff [entry] = [entry] :=
    List.dropWhile_cons_of_neg (by simpa using recent)
  rw [expire, List.dropWhile_append]
  split
  · rename_i empty
    have none : expire cutoff entries = [] := List.isEmpty_iff.mp empty
    rw [none]
    exact single
  · rfl

/-- The window is what is left of the entries since the last eviction, which came with the
last entry or after it. -/
structure Kept (entries : List (Int × Rat)) (clock : Int) (s : Window) : Prop where
  ordered : entries.Pairwise fun a b => a.1 ≤ b.1
  positive : ∀ entry ∈ entries, 0 < entry.2
  cut : ∃ sinceMs, sinceMs + window5hMs ≤ clock ∧
    (∀ entry ∈ entries, entry.1 ≤ sinceMs + window5hMs) ∧ s.window5h = expire sinceMs entries
  settled : Steady entries → s.proxyTokens5hWeighted = total s.window5h

theorem expire_span (ordered : entries.Pairwise fun a b => a.1 ≤ b.1) (sinceMs : Int)
    (past : ∀ entry ∈ entries, entry.1 ≤ sinceMs + window5hMs) (steady : Steady entries)
    (block : List (Int × Rat)) (inside : block <:+: expire sinceMs entries) :
    nearestF64 (total block) = total block := by
  apply steady block (inside.trans (expire_suffix sinceMs entries).isInfix)
  intro a left b right
  have late : sinceMs ≤ a.1 := by
    have here := inside.subset left
    rw [expire_ordered _ _ ordered] at here
    exact of_decide_eq_true (List.mem_filter.mp here).2
  have early := past b ((expire_suffix sinceMs entries).subset (inside.subset right))
  omega

/-- Evicting at a later time leaves what is left of the entries then. -/
theorem evicted (kept : Kept entries clock s) (nowMs : Int) (later : clock ≤ nowMs)
    (reading : ClockReading nowMs) :
    (s.evictOld nowMs).window5h = expire (nowMs - window5hMs) entries ∧
      (Steady entries → (s.evictOld nowMs).proxyTokens5hWeighted =
        total (expire (nowMs - window5hMs) entries)) := by
  obtain ⟨sinceMs, before, past, window⟩ := kept.cut
  have twice : expire (nowMs - window5hMs) (expire sinceMs entries) =
      expire (nowMs - window5hMs) entries := expire_twice _ _ _ (by omega)
  constructor
  · rw [Window.evictOld, cutoff_of_reading nowMs reading, pop_front_window, window, twice]
  · intro steady
    -- What is left after each pop is a suffix, and spans five hours at most.
    have exact_ := pop_front_exact (nowMs - window5hMs) (expire sinceMs entries) fun rest suffix =>
      expire_span kept.ordered sinceMs past steady rest suffix.isInfix
    have weighs := total_nonneg (expire (nowMs - window5hMs) entries) fun entry member =>
      kept.positive entry ((expire_suffix _ _).subset member)
    rw [Window.evictOld, cutoff_of_reading nowMs reading, kept.settled steady, window, exact_,
      pop_old_total, twice]
    exact max_eq_left weighs

theorem evict_kept (kept : Kept entries clock s) (nowMs : Int) (later : clock ≤ nowMs)
    (reading : ClockReading nowMs) : Kept entries nowMs (s.evictOld nowMs) := by
  obtain ⟨window, running⟩ := evicted kept nowMs later reading
  obtain ⟨sinceMs, before, past, -⟩ := kept.cut
  refine ⟨kept.ordered, kept.positive, ⟨nowMs - window5hMs, by omega, ?_, window⟩, ?_⟩
  · intro entry member
    have := past entry member
    omega
  · intro steady
    rw [running steady, window]

theorem request_kept (kept : Kept entries clock s) (nowMs : Int) (weighted : Rat)
    (later : clock ≤ nowMs) (reading : ClockReading nowMs) (positive : 0 < weighted) :
    Kept (entries ++ [(nowMs, weighted)]) nowMs (s.onRequest nowMs weighted) := by
  obtain ⟨window, running⟩ := evicted kept nowMs later reading
  obtain ⟨sinceMs, before, past, -⟩ := kept.cut
  have recent : ∀ entry ∈ entries, entry.1 ≤ nowMs := by
    intro entry member
    have := past entry member
    omega
  have pushed : expire (nowMs - window5hMs) (entries ++ [(nowMs, weighted)]) =
      expire (nowMs - window5hMs) entries ++ [(nowMs, weighted)] :=
    expire_push _ _ _ (by simp [window5hMs])
  have ordered : (entries ++ [(nowMs, weighted)]).Pairwise fun a b => a.1 ≤ b.1 := by
    refine List.pairwise_append.mpr ⟨kept.ordered, List.pairwise_singleton _ _, ?_⟩
    intro entry member last same
    obtain rfl := List.mem_singleton.mp same
    exact recent entry member
  have bounded : ∀ entry ∈ entries ++ [(nowMs, weighted)],
      entry.1 ≤ nowMs - window5hMs + window5hMs := by
    intro entry member
    rw [sub_add_cancel]
    rcases List.mem_append.mp member with old | last
    · exact recent entry old
    · exact (congrArg Prod.fst (List.mem_singleton.mp last)).le
  rw [Window.onRequest, if_neg (not_le.mpr positive)]
  refine ⟨ordered, ?_, ⟨nowMs - window5hMs, by omega, bounded, ?_⟩, ?_⟩
  · intro entry member
    rcases List.mem_append.mp member with old | last
    · exact kept.positive entry old
    · rw [List.mem_singleton.mp last]
      exact positive
  · simp only [pushed, window]
  · intro steady
    -- The sum with the new entry is one of five hours again, so it is not rounded either.
    have whole := expire_span ordered (nowMs - window5hMs) bounded steady _ List.infix_rfl
    have front : Steady entries := fun block inside =>
      steady block (inside.trans (List.prefix_append _ _).isInfix)
    rw [pushed, total_append, total_cons, total_nil, add_zero] at whole
    simp only [running front, window, whole, total_append, total_cons, total_nil, add_zero]

end Windows

section Runs
variable (accountId : String) {events : List Event}

/-- A completed request pushes its entry, if it makes one. -/
theorem notify_eq (s : Window) (nowMs : Int) (requestId : String) (used : Option String)
    (usage : StreamUsage) :
    notify accountId s (buildSummary requestId used usage) nowMs =
      match liveEntry accountId (.onSummary nowMs requestId used usage) with
      | none => s
      | some entry => s.onRequest nowMs entry.2 := by
  have counted : 0 < liveTokens usage ↔ 0 < wrapI64 (usageTokens usage) := by
    rw [liveTokens, nearest_pos_iff]
    exact Int.cast_pos
  have total := total_tokens_wrap requestId used usage
  simp only [notify, total, eventEntry, entryOf, counted]
  cases used with
  | none => rfl
  | some other =>
      by_cases positive : 0 < wrapI64 (usageTokens usage)
      · by_cases same : other = accountId
        · simp [buildSummary, liveTokens, positive, same, not_le.mpr positive]
        · simp [buildSummary, positive, same]
      · by_cases same : other = accountId
        · simp [buildSummary, positive, same]
        · simp [buildSummary, positive, same]

theorem record_kept {entries : List (Int × Rat)} {clock : Int} {p : Process}
    (kept : Kept entries clock p.window) (event : Event) (later : clock ≤ event.nowMs)
    (reading : ClockReading event.nowMs) :
    Kept (entries ++ (liveEntry accountId event).toList) event.nowMs
      (record accountId p event).window := by
  cases event with
  | onUsagePoll nowMs =>
      rw [show liveEntry accountId (.onUsagePoll nowMs) = none from rfl, Option.toList_none,
        List.append_nil]
      exact evict_kept kept nowMs later reading
  | onSummary nowMs requestId used usage =>
      simp only [record, notify_eq]
      cases made : liveEntry accountId (.onSummary nowMs requestId used usage) with
      | none =>
          rw [Option.toList_none, List.append_nil]
          obtain ⟨sinceMs, before, past, window⟩ := kept.cut
          exact ⟨kept.ordered, kept.positive, ⟨sinceMs, before.trans later, past, window⟩,
            kept.settled⟩
      | some entry =>
          obtain ⟨time, weighs⟩ := event_entry_spec _ _ _ entry made
          have pair : entry = (nowMs, entry.2) := Prod.ext time rfl
          rw [Option.toList_some, pair]
          exact request_kept kept nowMs entry.2 later reading weighs

theorem replayed_kept (before : List Event) {entries : List (Int × Rat)} {clock lastMs : Int}
    {p : Process} (kept : Kept entries clock p.window) (later : clock ≤ lastMs)
    (ordered : before.Pairwise fun a b => a.nowMs ≤ b.nowMs)
    (readings : ∀ event ∈ before,
      clock ≤ event.nowMs ∧ event.nowMs ≤ lastMs ∧ ClockReading event.nowMs) :
    Kept (entries ++ before.filterMap (liveEntry accountId)) lastMs
      (before.foldl (record accountId) p).window := by
  induction before generalizing entries clock p with
  | nil =>
      obtain ⟨sinceMs, early, past, window⟩ := kept.cut
      rw [List.filterMap_nil, List.append_nil]
      exact ⟨kept.ordered, kept.positive, ⟨sinceMs, early.trans later, past, window⟩,
        kept.settled⟩
  | cons event rest ih =>
      obtain ⟨first, others⟩ := List.pairwise_cons.mp ordered
      obtain ⟨after, before, reading⟩ := readings event List.mem_cons_self
      -- The clock of the run goes on with the event.
      have next := record_kept accountId kept event after reading
      have run := ih next before others fun other member =>
        ⟨first other member, (readings other (List.mem_cons_of_mem _ member)).2⟩
      rw [List.append_assoc] at run
      cases made : liveEntry accountId event with
      | none => simpa [made] using run
      | some entry => simpa [made] using run

theorem started_kept (clock : Int) : Kept [] clock started.window where
  ordered := List.Pairwise.nil
  positive := nofun
  cut := ⟨clock - window5hMs, by omega, nofun, rfl⟩
  settled _ := rfl

/-- The live window at a time that is not before any event. -/
theorem live_window (recorded : Recorded events) (nowMs : Int) (reading : ClockReading nowMs)
    (past : ∀ event ∈ events, event.nowMs ≤ nowMs) :
    ((events.foldl (record accountId) started).window.evictOld nowMs).window5h =
        expire (nowMs - window5hMs) (events.filterMap (liveEntry accountId)) ∧
      (Steady (events.filterMap (liveEntry accountId)) →
        ((events.foldl (record accountId) started).window.evictOld nowMs).proxyTokens5hWeighted =
          total (expire (nowMs - window5hMs) (events.filterMap (liveEntry accountId)))) := by
  -- A clock before all of them starts the run.
  obtain ⟨clock, before, early⟩ :
      ∃ clock, clock ≤ nowMs ∧ ∀ event ∈ events, clock ≤ event.nowMs := by
    cases events with
    | nil => exact ⟨nowMs, le_rfl, nofun⟩
    | cons event rest =>
        obtain ⟨first, -⟩ := List.pairwise_cons.mp recorded.ordered
        refine ⟨event.nowMs, past event List.mem_cons_self, ?_⟩
        intro other member
        rcases List.mem_cons.mp member with rfl | later
        · exact le_rfl
        · exact first other later
  have kept := replayed_kept accountId events (started_kept clock) before recorded.ordered
    fun event member => ⟨early event member, past event member, recorded.readings event member⟩
  rw [List.nil_append] at kept
  exact evicted kept nowMs le_rfl reading

end Runs

section Rows
variable (accountId : String) {events : List Event}

def eventRow : Event → Option RequestRow
  | .onSummary nowMs requestId used usage =>
      some (summaryRow (buildSummary requestId used usage) nowMs)
  | .onUsagePoll _ => none

def savedRowEntry (row : RequestRow) : Option (Int × Rat) :=
  entryOf row.timestamp (rowTokens row) row.model

/-- Requests with ids of their own are all in the table, in the order they were saved. -/
theorem replayed_requests (events : List Event) (p : Process)
    (distinct : (p.requests.map RequestRow.id ++ events.filterMap Event.requestId).Nodup) :
    (events.foldl (record accountId) p).requests = p.requests ++ events.filterMap eventRow := by
  induction events generalizing p with
  | nil => simp
  | cons event rest ih =>
      cases event with
      | onUsagePoll nowMs => exact ih ⟨p.requests, _⟩ distinct
      | onSummary nowMs requestId used usage =>
          have fresh : requestId ∉ p.requests.map RequestRow.id := by
            intro member
            exact List.disjoint_of_nodup_append distinct member List.mem_cons_self
          have saved : (record accountId p (.onSummary nowMs requestId used usage)).requests =
              p.requests ++ [summaryRow (buildSummary requestId used usage) nowMs] :=
            save_fresh p.requests _ fresh
          have later := ih (record accountId p (.onSummary nowMs requestId used usage))
            (by rw [saved]; simpa [summaryRow, buildSummary, Event.requestId] using distinct)
          rw [List.foldl_cons, later, saved, List.append_assoc]
          rfl

theorem rows_ordered (recorded : Recorded events) :
    (events.filterMap eventRow).Pairwise fun a b => a.timestamp ≤ b.timestamp := by
  have timed : ∀ event row, eventRow event = some row → row.timestamp = event.nowMs := by
    intro event row made
    cases event with
    | onUsagePoll nowMs => cases made
    | onSummary nowMs requestId used usage =>
        obtain rfl := Option.some.inj made
        rfl
  apply List.Pairwise.filterMap _ _ recorded.ordered
  intro a b before row made later madeLater
  rw [timed a row made, timed b later madeLater]
  exact before

theorem selected_entry (event : Event) (sinceMs : Int) :
    ((eventRow event).toList.filter (selectedRow accountId sinceMs)).filterMap savedRowEntry =
      (savedEntry accountId event).toList.filter fun entry => decide (sinceMs ≤ entry.1) := by
  cases event with
  | onUsagePoll nowMs => rfl
  | onSummary nowMs requestId used usage =>
      have entry_ : savedRowEntry (summaryRow (buildSummary requestId used usage) nowMs) =
          entryOf nowMs (savedTokens usage) usage.model := rfl
      have selected : selectedRow accountId sinceMs
          (summaryRow (buildSummary requestId used usage) nowMs) =
            decide (used = some accountId ∧ sinceMs ≤ nowMs) := rfl
      simp only [eventRow, eventEntry, Option.toList_some, List.filter_cons, List.filter_nil,
        selected]
      by_cases same : used = some accountId
      · subst same
        cases made : entryOf nowMs (savedTokens usage) usage.model with
        | none => by_cases recent : sinceMs ≤ nowMs <;> simp [recent, entry_, made]
        | some entry =>
            have time := (entry_of_spec _ _ _ _ made).1
            by_cases recent : sinceMs ≤ nowMs <;> simp [recent, entry_, made, time]
      · simp [same]

theorem selected_entries (events : List Event) (sinceMs : Int) :
    ((events.filterMap eventRow).filter (selectedRow accountId sinceMs)).filterMap savedRowEntry =
      (events.filterMap (savedEntry accountId)).filter fun entry => decide (sinceMs ≤ entry.1) := by
  induction events with
  | nil => rfl
  | cons event rest ih =>
      have here := selected_entry accountId event sinceMs
      have rows : (event :: rest).filterMap eventRow =
          (eventRow event).toList ++ rest.filterMap eventRow := by
        cases made : eventRow event <;> simp [made]
      have entries : (event :: rest).filterMap (savedEntry accountId) =
          (savedEntry accountId event).toList ++ rest.filterMap (savedEntry accountId) := by
        cases made : savedEntry accountId event <;> simp [made]
      rw [rows, entries, List.filter_append, List.filterMap_append, here, ih, List.filter_append]

/-- The rebuild pushes the entries of the rows; its total is theirs where no sum of the
first ones needs rounding. -/
theorem rebuilt (rows : List RequestRow) (s : Window) :
    ((rows.map fun row => (row.timestamp, rowTokens row, row.model)).foldl rebuildEntry
        s).window5h = s.window5h ++ rows.filterMap savedRowEntry ∧
      (s.proxyTokens5hWeighted = total s.window5h →
        (∀ block, block <+: s.window5h ++ rows.filterMap savedRowEntry →
          nearestF64 (total block) = total block) →
        ((rows.map fun row => (row.timestamp, rowTokens row, row.model)).foldl rebuildEntry
          s).proxyTokens5hWeighted = total (s.window5h ++ rows.filterMap savedRowEntry)) := by
  induction rows generalizing s with
  | nil => exact ⟨by simp, fun settled _ => by simpa using settled⟩
  | cons row rest ih =>
      have later := ih (rebuildEntry s (row.timestamp, rowTokens row, row.model))
      rw [List.map_cons, List.foldl_cons]
      -- A row that weighs nothing is passed over by the rebuild and makes no entry.
      by_cases counted : 0 < rowTokens row
      · have weighs := (weigh_pos_iff (rowTokens row) row.model).mpr counted
        have made : savedRowEntry row = some (row.timestamp, weigh (rowTokens row) row.model) :=
          if_pos counted
        simp only [rebuildEntry, if_pos weighs, List.append_assoc, List.singleton_append] at later
        rw [List.filterMap_cons_some made, rebuildEntry, if_pos weighs]
        refine ⟨later.1, fun settled steady => later.2 ?_ steady⟩
        have first := steady (s.window5h ++ [(row.timestamp, weigh (rowTokens row) row.model)])
          (by simp)
        rw [settled, ← first]
        simp
      · have weightless := mt (weigh_pos_iff (rowTokens row) row.model).mp counted
        have none : savedRowEntry row = none := if_neg counted
        simp only [rebuildEntry, if_neg weightless] at later
        rw [List.filterMap_cons_none none, rebuildEntry, if_neg weightless]
        exact later

theorem saved_ordered (recorded : Recorded events) :
    (events.filterMap (savedEntry accountId)).Pairwise fun a b => a.1 ≤ b.1 := by
  apply List.Pairwise.filterMap _ _ recorded.ordered
  intro a b before entry made later madeLater
  rw [(event_entry_spec _ _ a entry made).1, (event_entry_spec _ _ b later madeLater).1]
  exact before

/-- The rebuilt window holds the saved entries of the last five hours. -/
theorem initial_window_kept (recorded : Recorded events) (nowMs : Int)
    (reading : ClockReading nowMs) (past : ∀ event ∈ events, event.nowMs ≤ nowMs) :
    Kept (expire (nowMs - window5hMs) (events.filterMap (savedEntry accountId))) nowMs
      (initialWindow (events.filterMap eventRow) accountId nowMs) := by
  have rows := (rows_ordered recorded).filter (selectedRow accountId (nowMs - window5hMs))
  have ordered := saved_ordered accountId recorded
  have inside := (expire_suffix (nowMs - window5hMs)
    (events.filterMap (savedEntry accountId))).sublist
  have spec : ∀ entry ∈ expire (nowMs - window5hMs) (events.filterMap (savedEntry accountId)),
      entry.1 ≤ nowMs - window5hMs + window5hMs ∧ 0 < entry.2 := by
    intro entry member
    obtain ⟨event, listed, made⟩ := List.mem_filterMap.mp (inside.subset member)
    obtain ⟨time, weighs⟩ := event_entry_spec _ accountId event entry made
    have := past event listed
    exact ⟨by omega, weighs⟩
  have same : expire (nowMs - window5hMs)
      (expire (nowMs - window5hMs) (events.filterMap (savedEntry accountId))) =
        expire (nowMs - window5hMs) (events.filterMap (savedEntry accountId)) :=
    expire_twice _ _ _ le_rfl
  obtain ⟨window, running⟩ := rebuilt
    ((events.filterMap eventRow).filter (selectedRow accountId (nowMs - window5hMs))) ⟨[], 0⟩
  rw [selected_entries, ← expire_ordered _ _ ordered, List.nil_append] at window running
  have read : initialWindow (events.filterMap eventRow) accountId nowMs =
      (((events.filterMap eventRow).filter (selectedRow accountId (nowMs - window5hMs))).map
        fun row => (row.timestamp, rowTokens row, row.model)).foldl rebuildEntry ⟨[], 0⟩ := by
    rw [initialWindow, recentRequests, cutoff_of_reading nowMs reading,
      sort_by_key_sorted RequestRow.timestamp _ rows]
  rw [read]
  refine ⟨ordered.sublist inside, fun entry member => (spec entry member).2,
    ⟨nowMs - window5hMs, by omega, fun entry member => (spec entry member).1, ?_⟩, ?_⟩
  · rw [window, same]
  · intro steady
    rw [running rfl, window]
    intro block front
    apply expire_span (ordered.sublist inside) (nowMs - window5hMs)
      (fun entry member => (spec entry member).1) steady
    rw [same]
    exact front.isInfix

theorem rebuilt_window (recorded : Recorded events) (nowMs : Int) (reading : ClockReading nowMs)
    (past : ∀ event ∈ events, event.nowMs ≤ nowMs) :
    ((initialWindow (events.filterMap eventRow) accountId nowMs).evictOld nowMs).window5h =
        expire (nowMs - window5hMs) (events.filterMap (savedEntry accountId)) ∧
      (Steady (events.filterMap (savedEntry accountId)) →
        ((initialWindow (events.filterMap eventRow) accountId nowMs).evictOld
          nowMs).proxyTokens5hWeighted =
            total (expire (nowMs - window5hMs) (events.filterMap (savedEntry accountId)))) := by
  have kept := initial_window_kept accountId recorded nowMs reading past
  obtain ⟨window, running⟩ := evicted kept nowMs le_rfl reading
  rw [expire_twice _ _ _ le_rfl] at window running
  refine ⟨window, fun steady => running ?_⟩
  intro block inside
  exact steady block (inside.trans (expire_suffix _ _).isInfix)

end Rows

section Agreement
variable (accountId : String) {events : List Event} {nowMs : Int}

/-- What both windows are at a time that is not before any event. -/
theorem agreeing_windows (recorded : Recorded events) (reading : ClockReading nowMs)
    (past : ∀ event ∈ events, event.nowMs ≤ nowMs) :
    (Agrees accountId (events.foldl (record accountId) started) nowMs →
      expire (nowMs - window5hMs) (events.filterMap (liveEntry accountId)) =
        expire (nowMs - window5hMs) (events.filterMap (savedEntry accountId))) ∧
    (events.filterMap (liveEntry accountId) = events.filterMap (savedEntry accountId) →
      Steady (events.filterMap (liveEntry accountId)) →
      Agrees accountId (events.foldl (record accountId) started) nowMs) := by
  have requests := replayed_requests accountId events started
    (by simpa [started] using recorded.distinct)
  rw [show started.requests = [] from rfl, List.nil_append] at requests
  obtain ⟨live, liveRunning⟩ := live_window accountId recorded nowMs reading past
  obtain ⟨saved, savedRunning⟩ := rebuilt_window accountId recorded nowMs reading past
  rw [Agrees, requests]
  constructor
  · intro agrees
    rw [← live, ← saved, agrees]
  · intro same steady
    have running := liveRunning steady
    rw [same] at live running steady
    have rebuilt := savedRunning steady
    exact Window.ext (live.trans saved.symm) (running.trans rebuilt.symm)

theorem recorded_before {before after : List Event} (recorded : Recorded (before ++ after)) :
    Recorded before where
  ordered := (List.pairwise_append.mp recorded.ordered).1
  distinct := by
    have distinct := recorded.distinct
    rw [List.filterMap_append] at distinct
    exact (List.nodup_append.mp distinct).1
  readings event member := recorded.readings event (List.mem_append_left _ member)

/-- A restart right before an event and one right after it agree with the live window only
if the event makes the same entry on both paths. -/
theorem agreeing_entry {before : List Event} {event : Event}
    (recorded : Recorded (before ++ [event]))
    (past : ∀ other ∈ before ++ [event], other.nowMs ≤ event.nowMs)
    (first : Agrees accountId (before.foldl (record accountId) started) event.nowMs)
    (second : Agrees accountId ((before ++ [event]).foldl (record accountId) started) event.nowMs) :
    liveEntry accountId event = savedEntry accountId event := by
  have reading := recorded.readings event (by simp)
  have front := (agreeing_windows accountId (recorded_before recorded) reading
    fun other member => past other (List.mem_append_left _ member)).1 first
  have whole := (agreeing_windows accountId recorded reading past).1 second
  have pushed : ∀ tokensOf : StreamUsage → Rat,
      expire (event.nowMs - window5hMs)
          ((before ++ [event]).filterMap (eventEntry tokensOf accountId)) =
        expire (event.nowMs - window5hMs) (before.filterMap (eventEntry tokensOf accountId)) ++
          (eventEntry tokensOf accountId event).toList := by
    intro tokensOf
    rw [List.filterMap_append]
    cases made : eventEntry tokensOf accountId event with
    | none => simp [made]
    | some entry =>
        have recent : event.nowMs - window5hMs ≤ entry.1 := by
          rw [(event_entry_spec _ _ event entry made).1, window5hMs]
          omega
        have single : [event].filterMap (eventEntry tokensOf accountId) = [entry] := by
          simp [made]
        rw [single, expire_push _ _ _ recent, Option.toList_some]
  rw [pushed, pushed, front, List.append_cancel_left_eq] at whole
  simpa only [Option.head?_toList] using congrArg List.head? whole

/-- Restarts rebuild the live window only if each request counts alike on both paths, and
they do so where no sum of consecutive entries needs rounding. -/
theorem restart_agrees (events : List Event) (recorded : Recorded events) :
    (Restartable accountId events → ∀ event ∈ events, Alike accountId event) ∧
    ((∀ event ∈ events, Alike accountId event) →
      Steady (events.filterMap (liveEntry accountId)) → Restartable accountId events) := by
  constructor
  · intro agrees event member
    obtain ⟨before, after, rfl⟩ := List.append_of_mem member
    have regroup : before ++ event :: after = before ++ [event] ++ after := by simp
    rw [regroup] at recorded
    have upTo := recorded_before recorded
    have reading := upTo.readings event (by simp)
    have past : ∀ other ∈ before ++ [event], other.nowMs ≤ event.nowMs := by
      intro other member
      rcases List.mem_append.mp member with older | last
      · exact (List.pairwise_append.mp upTo.ordered).2.2 other older event (by simp)
      · obtain rfl := List.mem_singleton.mp last
        exact le_rfl
    -- The entry of an event is what two restarts around it differ in.
    have first := agrees before (event :: after) event.nowMs rfl reading fun other older =>
      past other (List.mem_append_left _ older)
    have second := agrees (before ++ [event]) after event.nowMs regroup reading past
    exact (alike_iff accountId event).mp (agreeing_entry accountId upTo past first second)
  · intro alike steady before after nowMs same reading past
    subst same
    have entries : before.filterMap (liveEntry accountId) =
        before.filterMap (savedEntry accountId) := by
      apply List.filterMap_congr
      intro event member
      exact (alike_iff accountId event).mpr (alike event (List.mem_append_left after member))
    apply (agreeing_windows accountId (recorded_before recorded) reading past).2 entries
    rw [List.filterMap_append] at steady
    intro block inside
    exact steady block (inside.trans (List.prefix_append _ _).isInfix)

/-- Counts of less than 2^51 tokens are weighed exactly, in quarters. -/
theorem small_weighed (usage : StreamUsage) (positive : 0 < usageTokens usage)
    (small : usageTokens usage < 2 ^ 51) :
    ∃ quarters : Nat, weigh (liveTokens usage) usage.model = quarters / 4 := by
  obtain ⟨tokens, same⟩ := Int.eq_ofNat_of_zero_le positive.le
  have whole : liveTokens usage = (tokens : Rat) := by
    rw [liveTokens, wrap_of_in_i64 _ (by unfold InI64 i64Min i64Max; omega), same,
      nearest_int _ (by omega)]
    norm_cast
  rw [weigh, whole]
  rcases model_weight_cases (K := Rat) usage.model with weight | weight | weight
  · have exact_ := nearest_int (4 * tokens) (by omega)
    push_cast at exact_
    exact ⟨16 * tokens, by rw [weight, mul_comm, exact_]; push_cast; ring⟩
  · have exact_ := nearest_dyadic tokens 2 (by omega)
    refine ⟨tokens, ?_⟩
    rw [weight, show (tokens : Rat) * 0.25 = ((tokens : Int) : Rat) / 2 ^ 2 by push_cast; ring,
      exact_]
    norm_num
  · have exact_ := nearest_int tokens (by omega)
    push_cast at exact_
    exact ⟨4 * tokens, by rw [weight, mul_one, exact_]; push_cast; ring⟩

theorem quarters_total (entries : List (Int × Rat))
    (quarters : ∀ entry ∈ entries, ∃ n : Nat, entry.2 = n / 4) :
    ∃ n : Nat, total entries = n / 4 := by
  induction entries with
  | nil => exact ⟨0, by simp⟩
  | cons entry rest ih =>
      obtain ⟨first, same⟩ := quarters entry List.mem_cons_self
      obtain ⟨others, rest⟩ := ih fun other member => quarters other (List.mem_cons_of_mem _ member)
      exact ⟨first + others, by rw [total_cons, same, rest]; push_cast; ring⟩

/-- Below 2^51 tokens a request, and 2^51 weighted tokens in five hours, nothing is rounded. -/
theorem light_steady (events : List Event)
    (small : ∀ nowMs requestId used usage, .onSummary nowMs requestId used usage ∈ events →
      used = some accountId → i64Min ≤ usageTokens usage ∧ usageTokens usage < 2 ^ 51)
    (light : ∀ block, block <:+: events.filterMap (liveEntry accountId) →
      (∀ a ∈ block, ∀ b ∈ block, b.1 - a.1 ≤ window5hMs) → total block < 2 ^ 51) :
    Steady (events.filterMap (liveEntry accountId)) := by
  intro block inside span
  obtain ⟨n, same⟩ := quarters_total block (by
    intro entry member
    obtain ⟨event, listed, made⟩ := List.mem_filterMap.mp (inside.subset member)
    cases event with
    | onUsagePoll nowMs => cases made
    | onSummary nowMs requestId used usage =>
        simp only [eventEntry] at made
        split at made
        · rename_i own
          obtain ⟨least, most⟩ := small nowMs requestId used usage listed own
          unfold entryOf at made
          split at made
          · rename_i counted
            obtain rfl := Option.some.inj made
            have positive : 0 < usageTokens usage := by
              rw [liveTokens, nearest_pos_iff, Int.cast_pos,
                wrap_of_in_i64 _ ⟨least, by unfold i64Max; omega⟩] at counted
              exact counted
            exact small_weighed usage positive most
          · cases made
        · cases made)
  have bound := light block inside span
  rw [same] at bound ⊢
  have below : n < 2 ^ 53 := by
    have : (n : Rat) < 2 ^ 53 := by linarith
    exact_mod_cast this
  have exact_ := nearest_dyadic n 2 (by simpa using below)
  norm_num at exact_
  exact exact_

/-- Two requests of the account, of which a restart finds the second, a poll and a request
of another account. -/
def someEvents : List Event :=
  [.onSummary 1700000000000 "req-1" (some "acc1")
      ⟨some "claude-opus-4", some 100, some 50, none, some 10⟩,
    .onUsagePoll 1700000090000,
    .onSummary 1700000095000 "req-2" (some "acc2") ⟨none, some 7, none, none, none⟩,
    .onSummary 1700007200000 "req-3" (some "acc1")
      ⟨some "claude-haiku-4", some 5, some 4, none, none⟩]

instance (accountId : String) (p : Process) (nowMs : Int) : Decidable (Agrees accountId p nowMs) :=
  inferInstanceAs (Decidable (_ = _))

theorem some_entries : someEvents.filterMap (liveEntry "acc1") =
    [(1700000000000, 640), (1700007200000, 9 / 4)] := by decide +kernel

theorem restart_agrees_some :
    let live := someEvents.foldl (record "acc1") started
    Agrees "acc1" live 1700018000001 ∧
      initialWindow live.requests "acc1" 1700018000001 = ⟨[(1700007200000, 9 / 4)], 9 / 4⟩ := by
  have recorded : Recorded someEvents := by
    refine ⟨?_, by decide, ?_⟩
    · simp [someEvents, Event.nowMs]
    · simp [someEvents, Event.nowMs, ClockReading, InI64, window5hMs, i64Min, i64Max]
  have alike : ∀ event ∈ someEvents, Alike "acc1" event := by
    intro event member
    simp only [someEvents, List.mem_cons, List.not_mem_nil, or_false] at member
    rcases member with rfl | rfl | rfl | rfl
    · exact sums_alike _ _ _ _ _ (by decide) (by decide) (by decide)
    · trivial
    · exact sums_alike _ _ _ _ _ (by decide) (by decide) (by decide)
    · exact sums_alike _ _ _ _ _ (by decide) (by decide) (by decide)
  have steady : Steady (someEvents.filterMap (liveEntry "acc1")) := by
    apply light_steady
    · intro nowMs requestId used usage member _
      simp only [someEvents, List.mem_cons, Event.onSummary.injEq, List.not_mem_nil, or_false,
        reduceCtorEq, false_or] at member
      rcases member with ⟨-, -, -, rfl⟩ | ⟨-, -, -, rfl⟩ | ⟨-, -, -, rfl⟩ <;> decide
    · intro block inside _
      rw [some_entries] at inside
      have most : total block ≤ 640 + (9 / 4 + 0) :=
        (inside.sublist.map Prod.snd).sum_le_sum (by decide +kernel)
      linarith
  have past : ∀ event ∈ someEvents, event.nowMs ≤ 1700018000001 := by
    simp [someEvents, Event.nowMs]
  exact ⟨(restart_agrees "acc1" someEvents recorded).2 alike steady someEvents [] 1700018000001
    (by simp) (by decide) past, by decide +kernel⟩

/-- Counts that leave the integers together are recorded by the rebuild only; a token beside
2^53 others is lost to the live total only. -/
theorem restart_counts_wrapped :
    ¬ Agrees "acc1" ([.onSummary 1700000000000 "req-1" (some "acc1")
        ⟨none, some 9223372036854775807, some 1, none, none⟩].foldl (record "acc1") started)
      1700000000000 ∧
    ¬ Agrees "acc1" ([.onSummary 1700000000000 "req-1" (some "acc1")
          ⟨none, some 9007199254740992, none, none, none⟩,
        .onSummary 1700000000001 "req-2" (some "acc1")
          ⟨none, some 1, none, none, none⟩].foldl (record "acc1") started) 1700018000001 := by
  decide +kernel

end Agreement

end Ccflare.WindowRestart
