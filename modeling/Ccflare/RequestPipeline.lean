import Ccflare.AnsweredRequests
import Ccflare.Ledger
import Ccflare.Pricing
import Ccflare.RecordedUsage
import Ccflare.RequestHistory
import Ccflare.WindowRebuild

/-!
The way of an answered request into the table. Handlers put messages on a bounded channel, one
task turns each into a summary, and blocking jobs write the summaries and tell the capacity
cache of them. Handlers, the task and the jobs take their steps in any order, and the database
can fail at each of them.
-/

namespace Ccflare.RequestPipeline

open AnsweredRequests Forwarding JsonValue Ledger Pricing RecordedUsage SseParser Transition

/-- A message with the time at which its request started. -/
structure Sent where
  message : PostProcessorMsg
  startTime : Int

inductive Queued where
  | message (sent : Sent)
  | shutdown

structure RequestSummary extends WindowRebuild.RequestSummary where
  path : String
  statusCode : Nat
  success : Bool
  responseTimeMs : Nat
  costUsd : Option Rat
  agentUsed : Option String
  project : Option String
  apiKeyId : Option String
  apiKeyName : Option String
  failoverAttempts : Nat
  tokensPerSecond : Option Rat

-- The cost and the speed are in exact arithmetic.
def estimateCostUsd (pricing : String → Option ModelCost) (model : String) (usage : StreamUsage) :
    Rat :=
  match pricing model with
  | none => 0
  | some cost =>
      (usage.inputTokens.getD 0) * cost.input / 1000000 +
        (usage.outputTokens.getD 0) * cost.output / 1000000 +
        (usage.cacheReadInputTokens.getD 0) * cost.cacheRead / 1000000 +
        (usage.cacheCreationInputTokens.getD 0) * cost.cacheWrite / 1000000

def buildSummary (record : RequestRecord) (responseTimeMs : Nat) (usage : StreamUsage)
    (pricing : String → Option ModelCost) : RequestSummary where
  toRequestSummary := WindowRebuild.buildSummary record.requestId record.accountId usage
  path := record.path
  statusCode := record.responseStatus
  success := isSuccess record.responseStatus
  responseTimeMs := responseTimeMs
  costUsd := usage.model.map fun model => estimateCostUsd pricing model usage
  agentUsed := record.agentUsed
  project := record.project
  apiKeyId := record.apiKeyId
  apiKeyName := record.apiKeyName
  failoverAttempts := record.failoverAttempts
  tokensPerSecond := if 0 < responseTimeMs then
    usage.outputTokens.map fun out => (out : Rat) / ((responseTimeMs : Rat) / 1000) else none

def requestRow (summary : RequestSummary) (nowMs : Int) : RequestHistory.RequestRow where
  id := summary.requestId
  timestamp := nowMs
  method := "POST"
  path := summary.path
  accountUsed := summary.accountId
  statusCode := some summary.statusCode
  success := some (if summary.success then 1 else 0)
  errorMessage := none
  responseTimeMs := some summary.responseTimeMs
  failoverAttempts := some summary.failoverAttempts
  model := summary.model
  agentUsed := summary.agentUsed
  project := summary.project
  apiKeyId := summary.apiKeyId
  apiKeyName := summary.apiKeyName
  usage :=
    { promptTokens := summary.inputTokens
      completionTokens := summary.outputTokens
      totalTokens := summary.totalTokens
      costUsd := summary.costUsd
      inputTokens := summary.inputTokens
      cacheReadInputTokens := summary.cacheReadInputTokens
      cacheCreationInputTokens := summary.cacheCreationInputTokens
      outputTokens := summary.outputTokens
      tokensPerSecond := summary.tokensPerSecond }

/-- `INSERT OR REPLACE`. -/
def save (rows : List RequestHistory.RequestRow) (row : RequestHistory.RequestRow) :
    List RequestHistory.RequestRow :=
  rows.filter (fun old => decide (old.id ≠ row.id)) ++ [row]

/-- A call of `XFactorCache::on_request`. -/
structure Notice where
  accountId : String
  model : Option String
  totalTokens : Int
  nowMs : Int

def notice (summary : RequestSummary) (nowMs : Int) : Option Notice :=
  match summary.accountId, summary.totalTokens with
  | some accountId, some totalTokens => some ⟨accountId, summary.model, totalTokens, nowMs⟩
  | _, _ => none

/-- A job still has to save its row, or only to notify the cache. -/
inductive Stage where
  | saving
  | notifying
  deriving DecidableEq

structure Job where
  summary : RequestSummary
  stage : Stage

/-- What the database does for a job: it has no connection, refuses the row or takes it. -/
inductive Outcome where
  | noConnection
  | refused
  | saved
  deriving DecidableEq

def channelCapacity : Nat := 1024

structure Pipeline where
  queue : List Queued
  reserved : Nat
  running : Bool
  jobs : List Job
  rows : List RequestHistory.RequestRow
  notices : List Notice

def spawn : Pipeline := ⟨[], 0, true, [], [], []⟩

def Pipeline.hasRoom (s : Pipeline) : Bool :=
  s.running && decide (s.queue.length + s.reserved < channelCapacity)

inductive Event where
  | send (sent : Sent)
  | reserve
  | shutdown
  | receive (nowMs : Int) (pricing : String → Option ModelCost)
  | save (job : Nat) (outcome : Outcome) (nowMs : Int)
  | notify (job : Nat) (nowMs : Int)

section Steps
variable (codec : Codec)

def Sent.record (sent : Sent) : RequestRecord := sent.message.record

def Sent.usage (sent : Sent) : StreamUsage :=
  match sent.message with
  | .streamComplete _ buffer => extractUsageFromBuffer codec buffer
  | .responseComplete _ body => recordedUsage codec body

def Sent.summary (sent : Sent) (nowMs : Int) (pricing : String → Option ModelCost) :
    RequestSummary :=
  buildSummary sent.record (nowMs - sent.startTime).toNat (sent.usage codec) pricing

def Pipeline.receive (s : Pipeline) (nowMs : Int) (pricing : String → Option ModelCost) :
    Option Pipeline :=
  match s.queue with
  | [] => none
  | .message sent :: rest =>
      some { s with queue := rest, jobs := s.jobs ++ [⟨sent.summary codec nowMs pricing, .saving⟩] }
  -- The receiver is dropped with whatever is still on the channel.
  | .shutdown :: _ => some { s with running := false, queue := [] }

def Pipeline.save (s : Pipeline) (index : Nat) (summary : RequestSummary) (nowMs : Int) :
    Outcome → Pipeline
  -- Without a connection the job returns before it notifies the cache.
  | .noConnection => { s with jobs := s.jobs.eraseIdx index }
  | .refused => { s with jobs := s.jobs.set index ⟨summary, .notifying⟩ }
  | .saved =>
      { s with
        jobs := s.jobs.set index ⟨summary, .notifying⟩
        rows := RequestPipeline.save s.rows (requestRow summary nowMs) }

def perform (s : Pipeline) : Event → Option Pipeline
  | .send sent => some (if s.hasRoom then { s with queue := s.queue ++ [.message sent] } else s)
  | .reserve => if s.hasRoom then some { s with reserved := s.reserved + 1 } else none
  | .shutdown =>
      if 0 < s.reserved then
        some { s with
          reserved := s.reserved - 1
          queue := if s.running then s.queue ++ [.shutdown] else s.queue }
      else none
  | .receive nowMs pricing => if s.running then s.receive codec nowMs pricing else none
  | .save index outcome nowMs =>
      match s.jobs[index]? with
      | some ⟨summary, .saving⟩ => some (s.save index summary nowMs outcome)
      | _ => none
  | .notify index nowMs =>
      match s.jobs[index]? with
      | some ⟨summary, .notifying⟩ =>
          some { s with
            jobs := s.jobs.eraseIdx index
            notices := s.notices ++ (notice summary nowMs).toList }
      | _ => none

end Steps

/-- What is recorded of a request: what its handler knew and what its answer used. -/
abbrev Item := RequestRecord × StreamUsage

def Sent.item (codec : Codec) (sent : Sent) : Item := (sent.record, sent.usage codec)

def RequestSummary.item (summary : RequestSummary) : Item :=
  (⟨summary.requestId, summary.accountId, summary.path, summary.statusCode, summary.agentUsed,
      summary.project, summary.apiKeyId, summary.apiKeyName, summary.failoverAttempts⟩,
    ⟨summary.model, summary.inputTokens, summary.outputTokens, summary.cacheReadInputTokens,
      summary.cacheCreationInputTokens⟩)

def rowItem (row : RequestHistory.RequestRow) : Item :=
  (⟨row.id, row.accountUsed, row.path, (row.statusCode.getD 0).toNat, row.agentUsed, row.project,
      row.apiKeyId, row.apiKeyName, (row.failoverAttempts.getD 0).toNat⟩,
    ⟨row.model, row.usage.inputTokens, row.usage.outputTokens, row.usage.cacheReadInputTokens,
      row.usage.cacheCreationInputTokens⟩)

@[simp]
theorem summary_item (record : RequestRecord) (responseTimeMs : Nat) (usage : StreamUsage)
    (pricing : String → Option ModelCost) :
    (buildSummary record responseTimeMs usage pricing).item = (record, usage) := rfl

@[simp]
theorem row_item (summary : RequestSummary) (nowMs : Int) :
    rowItem (requestRow summary nowMs) = summary.item := rfl

section Accounts
variable (codec : Codec)

def Queued.items : Queued → Multiset Item
  | .message sent => {sent.item codec}
  | .shutdown => 0

def queuedItems (queue : List Queued) : Multiset Item := (queue.map (Queued.items codec)).sum

/-- The items of the jobs that are at one stage. -/
def Job.items (stage : Stage) (job : Job) : Multiset Item :=
  if job.stage = stage then {job.summary.item} else 0

def jobItems (stage : Stage) (jobs : List Job) : Multiset Item := (jobs.map (Job.items stage)).sum

def Pipeline.itemOf (s : Pipeline) (index : Nat) : Multiset Item :=
  match s.jobs[index]? with
  | some job => {job.summary.item}
  | none => 0

abbrev Taken := Pipeline × Event × Pipeline

/-- The message that the channel accepted. -/
def accepted (taken : Taken) : Multiset Item :=
  match taken.2.1 with
  | .send sent => if taken.1.hasRoom then {sent.item codec} else 0
  | _ => 0

/-- The messages that were dropped with the receiver. -/
def discarded (taken : Taken) : Multiset Item :=
  match taken.2.1, taken.1.queue with
  | .receive .., .shutdown :: rest => queuedItems codec rest
  | _, _ => 0

def ended (outcome : Outcome) (taken : Taken) : Multiset Item :=
  match taken.2.1 with
  | .save index reached _ => if reached = outcome then taken.1.itemOf index else 0
  | _ => 0

def notified (taken : Taken) : Multiset Item :=
  match taken.2.1 with
  | .notify index _ => taken.1.itemOf index
  | _ => 0

/-- What has not met the table yet. -/
def unsaved : Book Pipeline Event (Multiset Item) where
  held s := queuedItems codec s.queue + jobItems .saving s.jobs
  taken := accepted codec
  given taken := discarded codec taken + ended .noConnection taken +
    (ended .refused taken + ended .saved taken)

/-- What the capacity cache is still to be told of. -/
def unnotified : Book Pipeline Event (Multiset Item) where
  held s := jobItems .notifying s.jobs
  taken taken := ended .refused taken + ended .saved taken
  given := notified

@[simp]
theorem queued_nil : queuedItems codec [] = 0 := rfl

@[simp]
theorem queued_cons (first : Queued) (rest : List Queued) :
    queuedItems codec (first :: rest) = first.items codec + queuedItems codec rest := rfl

@[simp]
theorem queued_append (queue : List Queued) (last : Queued) :
    queuedItems codec (queue ++ [last]) = queuedItems codec queue + last.items codec := by
  simp [queuedItems]

section Inversion
variable {codec} {s target : Pipeline}

theorem receive_step {nowMs : Int} {pricing : String → Option ModelCost}
    (moved : perform codec s (.receive nowMs pricing) = some target) :
    (∃ sent rest, s.queue = .message sent :: rest ∧ target = { s with
        queue := rest, jobs := s.jobs ++ [⟨sent.summary codec nowMs pricing, .saving⟩] }) ∨
      ∃ rest, s.queue = .shutdown :: rest ∧ target = { s with running := false, queue := [] } := by
  simp only [perform, Pipeline.receive] at moved
  split at moved
  · cases waiting : s.queue with
    | nil => rw [waiting] at moved; cases moved
    | cons first rest =>
        rw [waiting] at moved
        cases first with
        | message sent => exact .inl ⟨sent, rest, rfl, (Option.some.inj moved).symm⟩
        | shutdown => exact .inr ⟨rest, rfl, (Option.some.inj moved).symm⟩
  · cases moved

theorem save_step {index : Nat} {outcome : Outcome} {nowMs : Int}
    (moved : perform codec s (.save index outcome nowMs) = some target) :
    ∃ summary, s.jobs[index]? = some ⟨summary, .saving⟩ ∧
      target = s.save index summary nowMs outcome := by
  simp only [perform] at moved
  split at moved
  · next summary here => exact ⟨summary, here, (Option.some.inj moved).symm⟩
  · cases moved

theorem notify_step {index : Nat} {nowMs : Int}
    (moved : perform codec s (.notify index nowMs) = some target) :
    ∃ summary, s.jobs[index]? = some ⟨summary, .notifying⟩ ∧ target = { s with
      jobs := s.jobs.eraseIdx index
      notices := s.notices ++ (notice summary nowMs).toList } := by
  simp only [perform] at moved
  split at moved
  · next summary here => exact ⟨summary, here, (Option.some.inj moved).symm⟩
  · cases moved

/-- The steps of the handlers leave the jobs and their results alone. -/
theorem handler_step {event : Event} (moved : perform codec s event = some target)
    (handler : match event with | .send _ | .reserve | .shutdown => True | _ => False) :
    target.jobs = s.jobs ∧ target.rows = s.rows ∧ target.notices = s.notices := by
  cases event with
  | send sent =>
      obtain rfl := Option.some.inj moved
      split <;> exact ⟨rfl, rfl, rfl⟩
  | reserve =>
      simp only [perform, Option.ite_none_right_eq_some, Option.some.injEq] at moved
      obtain ⟨-, rfl⟩ := moved
      exact ⟨rfl, rfl, rfl⟩
  | shutdown =>
      simp only [perform, Option.ite_none_right_eq_some, Option.some.injEq] at moved
      obtain ⟨-, rfl⟩ := moved
      exact ⟨rfl, rfl, rfl⟩
  | receive nowMs pricing => exact handler.elim
  | save index outcome nowMs => exact handler.elim
  | notify index nowMs => exact handler.elim

end Inversion

section Jobs
variable (stage : Stage) {jobs : List Job} {index : Nat} {job : Job}

theorem item_of_here (s : Pipeline) (here : s.jobs[index]? = some job) :
    s.itemOf index = {job.summary.item} := by
  simp [Pipeline.itemOf, here]

@[simp]
theorem jobs_append (last : Job) :
    jobItems stage (jobs ++ [last]) = jobItems stage jobs + last.items stage := by
  simp [jobItems]

theorem jobs_erase (here : jobs[index]? = some job) :
    jobItems stage (jobs.eraseIdx index) + job.items stage = jobItems stage jobs :=
  sum_erase _ jobs index job here

theorem jobs_set (other : Job) (here : jobs[index]? = some job) :
    jobItems stage (jobs.set index other) + job.items stage =
      jobItems stage jobs + other.items stage :=
  sum_set _ jobs index job other here

@[simp]
theorem items_same (summary : RequestSummary) : (Job.mk summary stage).items stage = {summary.item} :=
  if_pos rfl

@[simp]
theorem items_saving (summary : RequestSummary) : (Job.mk summary .saving).items .notifying = 0 := rfl

@[simp]
theorem items_notifying (summary : RequestSummary) :
    (Job.mk summary .notifying).items .saving = 0 := rfl

end Jobs

theorem unsaved_entered (source : Pipeline) (event : Event) (target : Pipeline)
    (moved : perform codec source event = some target) :
    (unsaved codec).Entered (source, event, target) := by
  cases event with
  | send sent =>
      obtain rfl := Option.some.inj moved
      simp only [Book.Entered, unsaved, accepted, discarded, ended]
      split
      · simp [Queued.items, add_right_comm]
      · simp
  | reserve =>
      simp only [perform, Option.ite_none_right_eq_some, Option.some.injEq] at moved
      obtain ⟨-, rfl⟩ := moved
      simp [Book.Entered, unsaved, accepted, discarded, ended]
  | shutdown =>
      simp only [perform, Option.ite_none_right_eq_some, Option.some.injEq] at moved
      obtain ⟨-, rfl⟩ := moved
      simp only [Book.Entered, unsaved, accepted, discarded, ended]
      split <;> simp [Queued.items]
  | receive nowMs pricing =>
      rcases receive_step moved with ⟨sent, rest, waiting, rfl⟩ | ⟨rest, waiting, rfl⟩
      · simp only [Book.Entered, unsaved, accepted, discarded, ended, waiting, queued_cons,
          jobs_append, items_same, Queued.items, add_zero]
        rw [← add_assoc, add_comm (_ + _) {_}, ← add_assoc]
        rfl
      · simp [Book.Entered, unsaved, accepted, discarded, ended, waiting, Queued.items, add_comm]
  | save index outcome nowMs =>
      obtain ⟨summary, here, rfl⟩ := save_step moved
      have item := item_of_here source here
      have kept := jobs_set .saving ⟨summary, .notifying⟩ here
      cases outcome with
      | noConnection =>
          have gone := jobs_erase .saving here
          simp only [items_same] at gone
          simp [Book.Entered, unsaved, accepted, discarded, ended, item, Pipeline.save, ← gone,
            add_assoc]
      | refused | saved =>
          simp only [items_same, items_notifying, add_zero] at kept
          simp [Book.Entered, unsaved, accepted, discarded, ended, item, Pipeline.save, ← kept,
            add_assoc]
  | notify index nowMs =>
      obtain ⟨summary, here, rfl⟩ := notify_step moved
      have gone := jobs_erase .saving here
      simp only [items_notifying, add_zero] at gone
      simp [Book.Entered, unsaved, accepted, discarded, ended, gone]

theorem unnotified_entered (source : Pipeline) (event : Event) (target : Pipeline)
    (moved : perform codec source event = some target) :
    unnotified.Entered (source, event, target) := by
  cases event with
  | send _ | reserve | shutdown =>
      have jobs := (handler_step moved trivial).1
      simp [Book.Entered, unnotified, ended, notified, jobs]
  | receive nowMs pricing =>
      rcases receive_step moved with ⟨sent, rest, waiting, rfl⟩ | ⟨rest, waiting, rfl⟩
      · simp [Book.Entered, unnotified, ended, notified]
      · simp [Book.Entered, unnotified, ended, notified]
  | save index outcome nowMs =>
      obtain ⟨summary, here, rfl⟩ := save_step moved
      have item := item_of_here source here
      have kept := jobs_set .notifying ⟨summary, .notifying⟩ here
      cases outcome with
      | noConnection =>
          have gone := jobs_erase .notifying here
          simp only [items_saving, add_zero] at gone
          simp [Book.Entered, unnotified, ended, notified, Pipeline.save, gone]
      | refused | saved =>
          simp only [items_same, items_saving, add_zero] at kept
          simp [Book.Entered, unnotified, ended, notified, item, Pipeline.save, kept]
  | notify index nowMs =>
      obtain ⟨summary, here, rfl⟩ := notify_step moved
      have gone := jobs_erase .notifying here
      simp only [items_same] at gone
      simp [Book.Entered, unnotified, ended, notified, item_of_here source here, gone]

end Accounts

section Results
variable (codec : Codec)

/-- The summary is what `build_summary` makes of its item. -/
def Built (summary : RequestSummary) : Prop :=
  ∃ responseTimeMs pricing,
    summary = buildSummary summary.item.1 responseTimeMs summary.item.2 pricing

structure Sound (s : Pipeline) : Prop where
  room : s.queue.length + s.reserved ≤ channelCapacity
  jobs : ∀ job ∈ s.jobs, Built job.summary
  rows : ∀ row ∈ s.rows, ∃ summary nowMs, Built summary ∧ row = requestRow summary nowMs

theorem spawn_sound : Sound spawn := ⟨by decide, by simp [spawn], by simp [spawn]⟩

theorem has_room {s : Pipeline} (room : s.hasRoom = true) :
    s.queue.length + s.reserved < channelCapacity := by
  simp only [Pipeline.hasRoom, Bool.and_eq_true, decide_eq_true_eq] at room
  exact room.2

theorem built_erase {s : Pipeline} (sound : Sound s) (index : Nat) :
    ∀ job ∈ s.jobs.eraseIdx index, Built job.summary :=
  fun job listed => sound.jobs job (List.mem_of_mem_eraseIdx listed)

theorem save_sound {s : Pipeline} (sound : Sound s) (index : Nat) (summary : RequestSummary)
    (nowMs : Int) (outcome : Outcome) (here : s.jobs[index]? = some ⟨summary, .saving⟩) :
    Sound (s.save index summary nowMs outcome) := by
  have built : Built summary := sound.jobs _ (List.mem_of_getElem? here)
  have kept : ∀ job ∈ s.jobs.set index ⟨summary, .notifying⟩, Built job.summary := by
    intro job listed
    rcases List.mem_or_eq_of_mem_set listed with before | rfl
    · exact sound.jobs job before
    · exact built
  cases outcome with
  | noConnection => exact ⟨sound.room, built_erase sound index, sound.rows⟩
  | refused => exact ⟨sound.room, kept, sound.rows⟩
  | saved =>
      refine ⟨sound.room, kept, fun row listed => ?_⟩
      rcases List.mem_append.mp listed with old | last
      · exact sound.rows row (List.mem_of_mem_filter old)
      · obtain rfl := List.mem_singleton.mp last
        exact ⟨summary, nowMs, built, rfl⟩

variable {codec}

theorem step_sound (source : Pipeline) (event : Event) (target : Pipeline) (sound : Sound source)
    (moved : Does (perform codec) source event target) : Sound target := by
  cases event with
  | send sent =>
      obtain rfl := Option.some.inj moved
      split
      · next room =>
          refine ⟨?_, sound.jobs, sound.rows⟩
          have := has_room room
          simp only [List.length_append, List.length_singleton]
          omega
      · exact sound
  | reserve =>
      simp only [Does, perform, Option.ite_none_right_eq_some, Option.some.injEq] at moved
      obtain ⟨room, rfl⟩ := moved
      exact ⟨has_room room, sound.jobs, sound.rows⟩
  | shutdown =>
      simp only [Does, perform, Option.ite_none_right_eq_some, Option.some.injEq] at moved
      obtain ⟨held, rfl⟩ := moved
      have room := sound.room
      refine ⟨?_, sound.jobs, sound.rows⟩
      split
      · simp only [List.length_append, List.length_singleton]
        omega
      · exact Nat.le_trans (Nat.add_le_add_left (Nat.sub_le _ _) _) room
  | receive nowMs pricing =>
      have room := sound.room
      rcases receive_step moved with ⟨sent, rest, waiting, rfl⟩ | ⟨rest, waiting, rfl⟩
      · rw [waiting, List.length_cons] at room
        refine ⟨by simpa using (by omega : rest.length + source.reserved ≤ channelCapacity), ?_,
          sound.rows⟩
        intro job listed
        rcases List.mem_append.mp listed with before | last
        · exact sound.jobs job before
        · obtain rfl := List.mem_singleton.mp last
          exact ⟨_, pricing, rfl⟩
      · exact ⟨by simpa using Nat.le_trans (Nat.le_add_left _ _) room, sound.jobs, sound.rows⟩
  | save index outcome nowMs =>
      obtain ⟨summary, here, rfl⟩ := save_step moved
      exact save_sound sound index summary nowMs outcome here
  | notify index nowMs =>
      obtain ⟨summary, here, rfl⟩ := notify_step moved
      exact ⟨sound.room, built_erase sound index, sound.rows⟩

def ids (items : Multiset Item) : Multiset String := items.map fun item => item.1.requestId

def rowItems (rows : List RequestHistory.RequestRow) : Multiset Item := (rows.map rowItem : List Item)

theorem save_fresh (rows : List RequestHistory.RequestRow) (row : RequestHistory.RequestRow)
    (fresh : (rowItem row).1.requestId ∉ ids (rowItems rows)) : save rows row = rows ++ [row] := by
  have apart : ∀ old ∈ rows, decide (old.id ≠ row.id) = true := by
    intro old listed
    refine decide_eq_true fun same => fresh (Multiset.mem_map.mpr ⟨rowItem old, ?_, same⟩)
    exact Multiset.mem_coe.mpr (List.mem_map_of_mem listed)
  rw [save, List.filter_eq_self.mpr apart]

/-- Where no id is saved twice, the table holds what the jobs have saved. -/
def Stored (trace : List Taken) (s : Pipeline) : Prop :=
  (ids (total (ended .saved) trace)).Nodup → rowItems s.rows = total (ended .saved) trace

theorem step_stored (before : List Taken) (source : Pipeline) (event : Event) (target : Pipeline)
    (stored : Stored before source) (moved : Does (perform codec) source event target) :
    Stored (before ++ [(source, event, target)]) target := by
  intro distinct
  rw [total_snoc] at distinct ⊢
  rw [ids, Multiset.map_add] at distinct
  have earlier := stored (Multiset.nodup_of_le (Multiset.le_add_right _ _) distinct)
  cases event with
  | send _ | reserve | shutdown =>
      have rows := (handler_step moved trivial).2.1
      simpa [ended, rows] using earlier
  | receive nowMs pricing =>
      rcases receive_step moved with ⟨sent, rest, waiting, rfl⟩ | ⟨rest, waiting, rfl⟩
      · simpa [ended] using earlier
      · simpa [ended] using earlier
  | save index outcome nowMs =>
      obtain ⟨summary, here, rfl⟩ := save_step moved
      cases outcome with
      | noConnection | refused => simpa [ended, Pipeline.save] using earlier
      | saved =>
          simp only [ended, item_of_here source here, if_true] at distinct ⊢
          have fresh : summary.item.1.requestId ∉ ids (rowItems source.rows) := by
            rw [earlier]
            intro old
            exact Multiset.disjoint_left.mp (Multiset.nodup_add.mp distinct).2.2 old
              (Multiset.mem_singleton_self _)
          rw [Pipeline.save, save_fresh _ _ fresh, ← earlier, rowItems, List.map_append]
          exact (Multiset.coe_add _ _).symm
  | notify index nowMs =>
      obtain ⟨summary, here, rfl⟩ := notify_step moved
      simpa [ended] using earlier

def itemTokens (accountId : String) (item : Item) : Int :=
  if item.1.accountId = some accountId then
    (WindowRebuild.buildSummary item.1.requestId item.1.accountId item.2).totalTokens.getD 0 else 0

def countTokens (accountId : String) (items : Multiset Item) : Int :=
  (items.map (itemTokens accountId)).sum

/-- The tokens of an account that the capacity cache was told of. -/
def noticedTokens (accountId : String) (notices : List Notice) : Int :=
  (notices.map fun one => if one.accountId = accountId then one.totalTokens else 0).sum

/-- The tokens of an account that are in the table. -/
def storedTokens (accountId : String) (rows : List RequestHistory.RequestRow) : Int :=
  (rows.map fun row =>
    if row.accountUsed = some accountId then row.usage.totalTokens.getD 0 else 0).sum

theorem count_add (accountId : String) (left right : Multiset Item) :
    countTokens accountId (left + right) = countTokens accountId left + countTokens accountId right := by
  simp [countTokens]

theorem built_tokens (accountId : String) (summary : RequestSummary) (built : Built summary) :
    itemTokens accountId summary.item =
      if summary.accountId = some accountId then summary.totalTokens.getD 0 else 0 := by
  obtain ⟨responseTimeMs, pricing, made⟩ := built
  have totals : summary.totalTokens = (WindowRebuild.buildSummary summary.item.1.requestId
      summary.item.1.accountId summary.item.2).totalTokens :=
    congrArg (fun one => one.totalTokens) made
  rw [totals]
  rfl

theorem notice_tokens (accountId : String) (summary : RequestSummary) (nowMs : Int)
    (built : Built summary) :
    noticedTokens accountId (notice summary nowMs).toList = itemTokens accountId summary.item := by
  rw [built_tokens accountId summary built, notice]
  cases summary.accountId with
  | none => rfl
  | some used =>
      cases summary.totalTokens with
      | none => simp [noticedTokens]
      | some totalTokens => simp [noticedTokens]

theorem row_tokens (accountId : String) (row : RequestHistory.RequestRow)
    (made : ∃ summary nowMs, Built summary ∧ row = requestRow summary nowMs) :
    (if row.accountUsed = some accountId then row.usage.totalTokens.getD 0 else 0) =
      itemTokens accountId (rowItem row) := by
  obtain ⟨summary, nowMs, built, rfl⟩ := made
  exact (built_tokens accountId summary built).symm

theorem stored_tokens (accountId : String) (s : Pipeline) (sound : Sound s) :
    storedTokens accountId s.rows = countTokens accountId (rowItems s.rows) := by
  rw [storedTokens, countTokens, rowItems, Multiset.map_coe, Multiset.sum_coe, List.map_map]
  exact congrArg List.sum (List.map_congr_left fun row listed =>
    row_tokens accountId row (sound.rows row listed))

/-- The cache is told the tokens of each job that ends by telling it. -/
def Told (accountId : String) (trace : List Taken) (s : Pipeline) : Prop :=
  noticedTokens accountId s.notices = countTokens accountId (total notified trace)

theorem step_told (accountId : String) (before : List Taken) (source : Pipeline) (event : Event)
    (target : Pipeline) (sound : Sound source) (told : Told accountId before source)
    (moved : Does (perform codec) source event target) :
    Told accountId (before ++ [(source, event, target)]) target := by
  unfold Told at told ⊢
  rw [total_snoc, count_add, ← told]
  cases event with
  | send _ | reserve | shutdown =>
      have notices := (handler_step moved trivial).2.2
      simp [notified, notices, countTokens]
  | receive nowMs pricing =>
      rcases receive_step moved with ⟨sent, rest, waiting, rfl⟩ | ⟨rest, waiting, rfl⟩
      · simp [notified, countTokens]
      · simp [notified, countTokens]
  | save index outcome nowMs =>
      obtain ⟨summary, here, rfl⟩ := save_step moved
      cases outcome <;> simp [notified, countTokens, Pipeline.save]
  | notify index nowMs =>
      obtain ⟨summary, here, rfl⟩ := notify_step moved
      have built := sound.jobs _ (List.mem_of_getElem? here)
      simp only [notified, item_of_here source here, countTokens, Multiset.map_singleton,
        Multiset.sum_singleton]
      rw [← notice_tokens accountId summary nowMs built]
      simp [noticedTokens]

variable {trace : List Taken} {final : Pipeline}

theorem run_sound (run : Run (Does (perform codec)) spawn trace final) : Sound final :=
  run.invariant Sound spawn_sound step_sound

theorem run_stored (run : Run (Does (perform codec)) spawn trace final) : Stored trace final :=
  run.history Stored (fun _ => rfl) step_stored

theorem run_told (accountId : String) (run : Run (Does (perform codec)) spawn trace final) :
    Told accountId trace final := by
  have both := run.history (fun before s => Sound s ∧ Told accountId before s)
    ⟨spawn_sound, rfl⟩ fun before source event target held moved =>
      ⟨step_sound source event target held.1 moved,
        step_told accountId before source event target held.1 held.2 moved⟩
  exact both.2

/-- What is saved, refused, lost, dropped and still on its way is what was accepted. -/
theorem run_unsaved (run : Run (Does (perform codec)) spawn trace final) :
    total (accepted codec) trace =
      queuedItems codec final.queue + jobItems .saving final.jobs +
        total (discarded codec) trace + total (ended .noConnection) trace +
        total (ended .refused) trace + total (ended .saved) trace := by
  have closed := (unsaved codec).closed (unsaved_entered codec) run
  simp only [Book.Closed, unsaved, total_add] at closed
  have start : queuedItems codec spawn.queue + jobItems .saving spawn.jobs = 0 := rfl
  rw [start, zero_add] at closed
  rw [← closed]
  simp only [add_assoc]

theorem run_unnotified (run : Run (Does (perform codec)) spawn trace final) :
    jobItems .notifying final.jobs + total notified trace =
      total (ended .refused) trace + total (ended .saved) trace := by
  have closed := unnotified.closed (unnotified_entered codec) run
  simp only [Book.Closed, unnotified, total_add] at closed
  have start : jobItems .notifying spawn.jobs = 0 := rfl
  rwa [start, zero_add] at closed

theorem saved_distinct (run : Run (Does (perform codec)) spawn trace final)
    (distinct : (ids (total (accepted codec) trace)).Nodup) :
    (ids (total (ended .saved) trace)).Nodup := by
  refine Multiset.nodup_of_le (Multiset.map_le_map ?_) distinct
  rw [run_unsaved run]
  exact Multiset.le_add_left _ _

def sampleAnswer : String :=
  "\x7b\"usage\":\x7b\"input_tokens\":7,\"output_tokens\":5\x7d\x7d"

def sampleCodec : Codec := .ofTable [(sampleAnswer, Json.make [("usage", Json.make
  [("input_tokens", Json.ofInt 7), ("output_tokens", Json.ofInt 5)])])]

def sampleSent : Sent :=
  ⟨.responseComplete ⟨"r1", some "a", "/v1/messages", 200, none, none, none, none, 0⟩
    sampleAnswer.toUTF8, 0⟩

def sampleSummary : RequestSummary := sampleSent.summary sampleCodec 40 fun _ => none

/-- A request of twelve tokens on its way through. -/
theorem sample_run : ∃ trace final, Run (Does (perform sampleCodec)) spawn trace final ∧
    (ids (total (accepted sampleCodec) trace)).Nodup ∧ final.jobs = [] ∧
      storedTokens "a" final.rows = 12 := by
  have sent : Does (perform sampleCodec) spawn (.send sampleSent)
    { spawn with queue := [.message sampleSent] } := rfl
  have received : Does (perform sampleCodec) { spawn with queue := [.message sampleSent] }
    (.receive 40 fun _ => none) { spawn with jobs := [⟨sampleSummary, .saving⟩] } := rfl
  have saved : Does (perform sampleCodec) { spawn with jobs := [⟨sampleSummary, .saving⟩] }
    (.save 0 .saved 50) { spawn with
      jobs := [⟨sampleSummary, .notifying⟩], rows := [requestRow sampleSummary 50] } := rfl
  have told : Does (perform sampleCodec)
    { spawn with jobs := [⟨sampleSummary, .notifying⟩], rows := [requestRow sampleSummary 50] }
    (.notify 0 60) { spawn with
      rows := [requestRow sampleSummary 50], notices := (notice sampleSummary 60).toList } := rfl
  refine ⟨_, _, (((Run.nil.snoc sent).snoc received).snoc saved).snoc told, ?_, rfl, by decide⟩
  simp [total, accepted, ids, spawn, Pipeline.hasRoom, channelCapacity]

/-- Wherever a run stands, each message that the channel accepted is in one place: on the
channel, with a job, in the table, or gone for one of three reasons; and a message is turned
away only by a full channel or by a task that has stopped. -/
theorem requests_accounted (run : Run (Does (perform codec)) spawn trace final)
    (distinct : (ids (total (accepted codec) trace)).Nodup) :
    total (accepted codec) trace =
        queuedItems codec final.queue + jobItems .saving final.jobs +
          total (discarded codec) trace + total (ended .noConnection) trace +
          total (ended .refused) trace + rowItems final.rows ∧
      (∀ row ∈ final.rows, ∃ responseTimeMs pricing nowMs, row =
        requestRow (buildSummary (rowItem row).1 responseTimeMs (rowItem row).2 pricing) nowMs) ∧
      ∀ taken ∈ trace, ∀ sent, taken.2.1 = .send sent → accepted codec taken = 0 →
        taken.1.running = false ∨
          taken.1.queue.length + taken.1.reserved = channelCapacity := by
  refine ⟨?_, ?_, ?_⟩
  · rw [run_stored run (saved_distinct run distinct)]
    exact run_unsaved run
  · intro row listed
    obtain ⟨summary, nowMs, ⟨responseTimeMs, pricing, made⟩, rfl⟩ := (run_sound run).rows row listed
    exact ⟨responseTimeMs, pricing, nowMs, congrArg (requestRow · nowMs) made⟩
  · rintro ⟨source, event, target⟩ member sent rfl turned
    have sound := (run.transitions Sound spawn_sound step_sound _ member).1.room
    have full : source.hasRoom = false := by
      by_contra room
      simp [accepted, Bool.not_eq_false _ ▸ room] at turned
    simp only [Pipeline.hasRoom, Bool.and_eq_false_iff, decide_eq_false_iff_not] at full
    rcases full with stopped | full
    · exact .inl stopped
    · exact .inr (Nat.le_antisymm sound (Nat.not_lt.mp full))

theorem sample_accounted : ∃ trace final, Run (Does (perform sampleCodec)) spawn trace final ∧
    storedTokens "a" final.rows = 12 ∧ total (accepted sampleCodec) trace =
      queuedItems sampleCodec final.queue + jobItems .saving final.jobs +
        total (discarded sampleCodec) trace + total (ended .noConnection) trace +
        total (ended .refused) trace + rowItems final.rows := by
  obtain ⟨trace, final, run, distinct, -, stored⟩ := sample_run
  exact ⟨trace, final, run, stored, (requests_accounted run distinct).1⟩

/-- The capacity cache has counted for each account what the table holds of it, and what the
database refused, except for the jobs that are still to tell it. -/
theorem counted_as_stored (run : Run (Does (perform codec)) spawn trace final)
    (distinct : (ids (total (accepted codec) trace)).Nodup) (accountId : String) :
    noticedTokens accountId final.notices + countTokens accountId (jobItems .notifying final.jobs) =
      storedTokens accountId final.rows + countTokens accountId (total (ended .refused) trace) := by
  calc noticedTokens accountId final.notices +
        countTokens accountId (jobItems .notifying final.jobs)
      = countTokens accountId (jobItems .notifying final.jobs + total notified trace) := by
        rw [run_told accountId run, count_add, add_comm]
    _ = countTokens accountId (total (ended .saved) trace) +
          countTokens accountId (total (ended .refused) trace) := by
        rw [run_unnotified run, count_add, add_comm]
    _ = storedTokens accountId final.rows +
          countTokens accountId (total (ended .refused) trace) := by
        rw [stored_tokens accountId final (run_sound run),
          run_stored run (saved_distinct run distinct)]

theorem sample_counted : ∃ trace final, Run (Does (perform sampleCodec)) spawn trace final ∧
    noticedTokens "a" final.notices = 12 + countTokens "a" (total (ended .refused) trace) := by
  obtain ⟨trace, final, run, distinct, idle, stored⟩ := sample_run
  have counted := counted_as_stored run distinct "a"
  rw [idle, stored] at counted
  exact ⟨trace, final, run, (add_zero _).symm.trans counted⟩

end Results

end Ccflare.RequestPipeline
