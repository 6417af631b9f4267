import Ccflare.Batches
import Ccflare.MachineNumber
import Ccflare.References

/-!
The retention service: one pass deletes old payloads, then old requests, then the
payloads without a request, then old observations, each in batches. Payloads refer to
requests with foreign keys enforced, and the two have cutoffs of their own.
-/

namespace Ccflare.Retention

open MachineNumber Batches References

def batchSize : Nat := 1000

def msPerDay : Int := 24 * 60 * 60 * 1000

structure RetentionConfig where
  dataRetentionDays : Nat
  requestRetentionDays : Nat
  xfactorRetentionDays : Nat
  deriving DecidableEq

/-- `get_data_retention_days` and `get_request_retention_days` clamp what is set. -/
structure RetentionConfig.Accepted (config : RetentionConfig) : Prop where
  data : 1 ≤ config.dataRetentionDays ∧ config.dataRetentionDays ≤ 365
  request : 1 ≤ config.requestRetentionDays ∧ config.requestRetentionDays ≤ 3650

/-- A row of `requests`; `rest` is what the service does not look at. -/
structure Request (Rest : Type) where
  id : String
  timestamp : Int
  rest : Rest
  deriving DecidableEq

structure Payload where
  requestId : String
  requestBody : Option String
  responseBody : Option String
  deriving DecidableEq

structure Observation (Rest : Type) where
  id : Int
  timestampMs : Int
  rest : Rest
  deriving DecidableEq

variable {Rest : Type}

/-- The three tables; the primary keys are unique. -/
structure Database (Rest : Type) where
  requests : List (Request Rest)
  payloads : List Payload
  observations : List (Observation Rest)
  requestKeys : (requests.map Request.id).Nodup
  observationKeys : (observations.map Observation.id).Nodup

def payloadReference : Reference (Request Rest) Payload String where
  parentKey := Request.id
  childKey payload := some payload.requestId

/-- The payload belongs to a request with the property. -/
def ofRequest (holds : Request Rest → Bool) (requests : List (Request Rest)) (payload : Payload) :
    Bool :=
  requests.any fun request => holds request && payloadReference.refers payload request

def olderThan (cutoffTs : Int) (request : Request Rest) : Bool :=
  decide (request.timestamp < cutoffTs)

/-- `DELETE FROM requests`, which fails on a request that a payload refers to. -/
def deleteRequests (payloads : List Payload) : Delete (Request Rest) where
  run := payloadReference.deleteParents payloads
  deletes doomed rows kept given :=
    ((delete_parents_some payloadReference payloads doomed rows kept).mp given).2

/-- Which rows the engine returns to each `LIMIT`. -/
structure Engine (Rest : Type) where
  payloads : Limit Payload batchSize
  requests : Limit (Request Rest) batchSize
  observations : Limit (Observation Rest) batchSize

def batchedDeletePayloads (engine : Engine Rest) (requests : List (Request Rest))
    (cutoffTs : Int) (payloads : List Payload) : List Payload × Nat :=
  deleteBatches engine.payloads (ofRequest (olderThan cutoffTs) requests) Payload.requestId
    .plain payloads

def batchedDeleteRequests (engine : Engine Rest) (payloads : List Payload) (cutoffTs : Int)
    (requests : List (Request Rest)) : List (Request Rest) × Nat :=
  deleteBatches engine.requests (olderThan cutoffTs) Request.id (deleteRequests payloads) requests

def deleteOrphanedPayloadsBatched (engine : Engine Rest) (requests : List (Request Rest))
    (payloads : List Payload) : List Payload × Nat :=
  deleteBatches engine.payloads (fun payload => !ofRequest (fun _ => true) requests payload)
    Payload.requestId .plain payloads

def batchedDeleteXfactorObservations (engine : Engine Rest) (cutoffTs : Int)
    (observations : List (Observation Rest)) : List (Observation Rest) × Nat :=
  deleteBatches engine.observations (fun row => decide (row.timestampMs < cutoffTs))
    Observation.id .plain observations

def cutoff (nowMs : Int) (days : Nat) : Int := wrappingSub nowMs (days * msPerDay)

theorem requests_together (cutoffTs : Int) (rows : List (Request Rest))
    (keys : (rows.map Request.id).Nodup) : Together (olderThan cutoffTs) Request.id rows :=
  together_of_nodup _ _ rows keys

theorem delete_requests_sublist (engine : Engine Rest) (payloads : List Payload)
    (cutoffTs : Int) (rows : List (Request Rest)) (keys : (rows.map Request.id).Nodup) :
    (batchedDeleteRequests engine payloads cutoffTs rows).1.Sublist rows :=
  (batches_keep engine.requests _ _ _ rows (requests_together cutoffTs rows keys)).1

theorem delete_observations_sublist (engine : Engine Rest) (cutoffTs : Int)
    (rows : List (Observation Rest)) (keys : (rows.map Observation.id).Nodup) :
    (batchedDeleteXfactorObservations engine cutoffTs rows).1.Sublist rows :=
  (batches_keep engine.observations _ _ _ rows (together_of_nodup _ _ rows keys)).1

def runCleanup (engine : Engine Rest) (config : RetentionConfig) (nowMs : Int)
    (db : Database Rest) : Database Rest :=
  let payloads := (batchedDeletePayloads engine db.requests
    (cutoff nowMs config.dataRetentionDays) db.payloads).1
  let requestCutoff := cutoff nowMs config.requestRetentionDays
  let xfactorCutoff := cutoff nowMs config.xfactorRetentionDays
  { requests := (batchedDeleteRequests engine payloads requestCutoff db.requests).1
    payloads := (deleteOrphanedPayloadsBatched engine
      (batchedDeleteRequests engine payloads requestCutoff db.requests).1 payloads).1
    observations := (batchedDeleteXfactorObservations engine xfactorCutoff db.observations).1
    requestKeys := db.requestKeys.sublist
      ((delete_requests_sublist engine payloads requestCutoff db.requests db.requestKeys).map _)
    observationKeys := db.observationKeys.sublist
      ((delete_observations_sublist engine xfactorCutoff db.observations
        db.observationKeys).map _) }

/-- What a cleanup is for, with the rows before it and after it. -/
structure Cleaned (config : RetentionConfig) (nowMs : Int) (db after : Database Rest) :
    Prop where
  requestsGone : ∀ request ∈ after.requests,
    olderThan (cutoff nowMs config.requestRetentionDays) request = false
  payloadsGone : ∀ payload ∈ after.payloads, ∀ request ∈ db.requests,
    request.id = payload.requestId →
      olderThan (cutoff nowMs config.dataRetentionDays) request = false
  orphansGone : ∀ payload ∈ after.payloads,
    ∃ request ∈ after.requests, request.id = payload.requestId
  requestsKept : after.requests.Sublist db.requests ∧ ∀ request ∈ db.requests,
    olderThan (cutoff nowMs config.requestRetentionDays) request = false →
      request ∈ after.requests
  payloadsKept : after.payloads.Sublist db.payloads ∧ ∀ payload ∈ db.payloads,
    (∃ request ∈ db.requests, request.id = payload.requestId ∧
      olderThan (cutoff nowMs config.requestRetentionDays) request = false ∧
      olderThan (cutoff nowMs config.dataRetentionDays) request = false) →
      payload ∈ after.payloads

/-- A payload outlives its request: the request is past its own cutoff and the
payload, by the same timestamp, is not. -/
def Shielded (config : RetentionConfig) (nowMs : Int) (db : Database Rest) : Prop :=
  ∃ payload ∈ db.payloads, ∃ request ∈ db.requests, request.id = payload.requestId ∧
    olderThan (cutoff nowMs config.dataRetentionDays) request = false ∧
    olderThan (cutoff nowMs config.requestRetentionDays) request = true

theorem of_request_iff (holds : Request Rest → Bool) (requests : List (Request Rest))
    (payload : Payload) :
    ofRequest holds requests payload = true ↔
      ∃ request ∈ requests, holds request = true ∧ request.id = payload.requestId := by
  unfold ofRequest
  simp only [List.any_eq_true, Bool.and_eq_true, refers_iff, payloadReference,
    Option.some.injEq]
  constructor
  · rintro ⟨request, member, held, same⟩
    exact ⟨request, member, held, same.symm⟩
  · rintro ⟨request, member, held, same⟩
    exact ⟨request, member, held, same.symm⟩

theorem of_request_same (holds : Request Rest → Bool) (requests : List (Request Rest))
    (a b : Payload) (same : a.requestId = b.requestId) :
    ofRequest holds requests a = ofRequest holds requests b := by
  simp [ofRequest, Reference.refers, payloadReference, same]

theorem payloads_deleted (engine : Engine Rest) (requests : List (Request Rest))
    (cutoffTs : Int) (payloads : List Payload) :
    (batchedDeletePayloads engine requests cutoffTs payloads).1 =
      payloads.filter fun payload => !ofRequest (olderThan cutoffTs) requests payload := by
  apply batches_plain engine.payloads _ _ (by decide)
  intro a _ b _ same
  exact of_request_same _ requests a b same

theorem orphans_deleted (engine : Engine Rest) (requests : List (Request Rest))
    (payloads : List Payload) :
    (deleteOrphanedPayloadsBatched engine requests payloads).1 =
      payloads.filter fun payload => ofRequest (fun _ => true) requests payload := by
  have plain := batches_plain engine.payloads
    (fun payload => !ofRequest (fun _ => true) requests payload) Payload.requestId (by decide)
    payloads fun a _ b _ same => congrArg Bool.not (of_request_same _ requests a b same)
  simp only [Bool.not_not] at plain
  exact plain

theorem requests_deleted (engine : Engine Rest) (payloads : List Payload) (cutoffTs : Int)
    (requests : List (Request Rest)) (keys : (requests.map Request.id).Nodup)
    (free : ∀ request ∈ requests, olderThan cutoffTs request = true →
      ∀ payload ∈ payloads, payload.requestId ≠ request.id) :
    (batchedDeleteRequests engine payloads cutoffTs requests).1 =
      requests.filter fun request => !olderThan cutoffTs request := by
  apply batches_all engine.requests _ _ _ (by decide) requests
    (requests_together cutoffTs requests keys)
  intro doomed kept within all refused
  have given := (delete_parents_some payloadReference payloads doomed kept _).mpr
    ⟨?_, rfl⟩
  · change payloadReference.deleteParents payloads doomed kept = none at refused
    rw [given] at refused
    cases refused
  · intro request member dies payload here
    have apart := free request (within.subset member) (all request member dies) payload here
    simpa [Reference.refers, payloadReference] using apart

theorem shielded_stays (engine : Engine Rest) (payloads : List Payload) (cutoffTs : Int)
    (requests : List (Request Rest)) (request : Request Rest) (payload : Payload)
    (member : request ∈ requests) (here : payload ∈ payloads)
    (same : request.id = payload.requestId) :
    request ∈ (batchedDeleteRequests engine payloads cutoffTs requests).1 := by
  apply batches_stuck _ _ _ _ requests request member
  intro doomed kept inside dies
  apply delete_parents_refused payloadReference payloads doomed kept request payload inside dies
    here
  simp [Reference.refers, payloadReference, same]

section Pass

variable (engine : Engine Rest) (config : RetentionConfig) (nowMs : Int) (db : Database Rest)

/-- The payloads left by the first step: those of no request past the payload cutoff. -/
theorem mem_young_payloads (payload : Payload) :
    payload ∈ (batchedDeletePayloads engine db.requests
        (cutoff nowMs config.dataRetentionDays) db.payloads).1 ↔
      payload ∈ db.payloads ∧ ∀ request ∈ db.requests, request.id = payload.requestId →
        olderThan (cutoff nowMs config.dataRetentionDays) request = false := by
  rw [payloads_deleted, List.mem_filter, Bool.not_eq_true', ← Bool.not_eq_true, of_request_iff]
  apply and_congr_right
  intro _
  constructor
  · intro young request member same
    by_contra old
    exact young ⟨request, member, by simpa using old, same⟩
  · rintro young ⟨request, member, old, same⟩
    rw [young request member same] at old
    cases old

-- A payload that stays keeps its request, and the statement that meets it ends the loop.
theorem shielded_not_cleaned (shielded : Shielded config nowMs db) :
    ¬ Cleaned config nowMs db (runCleanup engine config nowMs db) := by
  obtain ⟨payload, here, request, member, same, young, old⟩ := shielded
  intro cleaned
  have payloadStays := (mem_young_payloads engine config nowMs db payload).mpr ⟨here, by
    intro other found same'
    rw [List.inj_on_of_nodup_map db.requestKeys found member (same'.trans same.symm)]
    exact young⟩
  have requestStays := shielded_stays engine _ (cutoff nowMs config.requestRetentionDays)
    db.requests request payload member payloadStays same
  have gone := cleaned.requestsGone request requestStays
  rw [old] at gone
  cases gone

theorem unshielded_requests (clear : ¬ Shielded config nowMs db) :
    (runCleanup engine config nowMs db).requests = db.requests.filter fun request =>
      !olderThan (cutoff nowMs config.requestRetentionDays) request := by
  apply requests_deleted engine _ _ db.requests db.requestKeys
  intro request member old payload stays same
  obtain ⟨here, young⟩ := (mem_young_payloads engine config nowMs db payload).mp stays
  exact clear ⟨payload, here, request, member, same.symm, young request member same.symm, old⟩

theorem unshielded_cleaned (clear : ¬ Shielded config nowMs db) :
    Cleaned config nowMs db (runCleanup engine config nowMs db) := by
  have requests := unshielded_requests engine config nowMs db clear
  have left : ∀ request, request ∈ (runCleanup engine config nowMs db).requests ↔
      request ∈ db.requests ∧
        olderThan (cutoff nowMs config.requestRetentionDays) request = false := by
    intro request
    rw [requests, List.mem_filter, Bool.not_eq_true']
  have payloads : ∀ payload, payload ∈ (runCleanup engine config nowMs db).payloads ↔
      payload ∈ (batchedDeletePayloads engine db.requests
        (cutoff nowMs config.dataRetentionDays) db.payloads).1 ∧
      ∃ request ∈ (runCleanup engine config nowMs db).requests,
        request.id = payload.requestId := by
    intro payload
    simp only [runCleanup, orphans_deleted, List.mem_filter, of_request_iff, true_and]
  refine ⟨?_, ?_, ?_, ⟨?_, ?_⟩, ⟨?_, ?_⟩⟩
  · intro request member
    exact ((left request).mp member).2
  · intro payload member
    have stayed := ((payloads payload).mp member).1
    exact ((mem_young_payloads engine config nowMs db payload).mp stayed).2
  · intro payload member
    exact ((payloads payload).mp member).2
  · rw [requests]
    exact List.filter_sublist
  · intro request member young
    exact (left request).mpr ⟨member, young⟩
  · simp only [runCleanup, orphans_deleted, payloads_deleted]
    exact List.filter_sublist.trans List.filter_sublist
  · rintro payload here ⟨request, member, same, youngRequest, youngPayload⟩
    refine (payloads payload).mpr ⟨?_, request, (left request).mpr ⟨member, youngRequest⟩, same⟩
    refine (mem_young_payloads engine config nowMs db payload).mpr ⟨here, ?_⟩
    intro other found same'
    rw [List.inj_on_of_nodup_map db.requestKeys found member (same'.trans same.symm)]
    exact youngPayload

/-- A pass deletes what it promises exactly when no payload outlives its request. -/
theorem cleaned_iff :
    Cleaned config nowMs db (runCleanup engine config nowMs db) ↔
      ¬ Shielded config nowMs db := by
  constructor
  · intro cleaned shielded
    exact shielded_not_cleaned engine config nowMs db shielded cleaned
  · exact unshielded_cleaned engine config nowMs db

end Pass

def Engine.first : Engine Rest := ⟨.first _, .first _, .first _⟩

/-- One request, twenty days old on day one hundred, with its payload. -/
def staleRequest : Database Unit where
  requests := [⟨"r", 80 * msPerDay, ()⟩]
  payloads := [⟨"r", some "body", none⟩]
  observations := []
  requestKeys := by decide
  observationKeys := by decide

/-- Payloads kept for thirty days shield requests kept for seven. -/
theorem stale_request_remains :
    ¬ ∀ (engine : Engine Unit) (config : RetentionConfig) (nowMs : Int) (db : Database Unit),
      config.Accepted → Cleaned config nowMs db (runCleanup engine config nowMs db) := by
  intro promised
  have accepted : (⟨30, 7, 30⟩ : RetentionConfig).Accepted := ⟨by decide, by decide⟩
  have shielded : Shielded ⟨30, 7, 30⟩ (100 * msPerDay) staleRequest :=
    ⟨_, List.mem_singleton_self _, _, List.mem_singleton_self _, rfl, by decide, by decide⟩
  exact shielded_not_cleaned Engine.first _ _ _ shielded (promised _ _ _ _ accepted)

end Ccflare.Retention
