import Mathlib.Logic.Function.Basic
import Ccflare.SlidingLimit

/-!
The limit on the requests of an API key, after `rate_limit.rs`. The queues of all keys are
behind one lock, so calls come one after the other; an instant is a number of nanoseconds.
-/

namespace Ccflare.RateLimit

open SlidingLimit

def window : Nat := 60 * 1000000000

structure RpmTracker where
  inner : String → Option (List Nat)

namespace RpmTracker

def new : RpmTracker := ⟨fun _ => none⟩

def queue (tracker : RpmTracker) (keyId : String) : List Nat := (tracker.inner keyId).getD []

def store (tracker : RpmTracker) (keyId : String) (queue : List Nat) : RpmTracker :=
  ⟨Function.update tracker.inner keyId (some queue)⟩

/-- `duration_since` has no value below zero. -/
def outside (now t : Nat) : Bool := decide (window < now - t)

def checkAndRecord (tracker : RpmTracker) (now : Nat) (keyId : String) (rpmLimit : Nat) :
    Bool × RpmTracker :=
  let queue := (tracker.queue keyId).dropWhile (outside now)
  if rpmLimit ≤ queue.length then (false, tracker.store keyId queue)
  else (true, tracker.store keyId (queue ++ [now]))

theorem store_queue (tracker : RpmTracker) (keyId other : String) (queue : List Nat) :
    (tracker.store keyId queue).queue other = if other = keyId then queue else tracker.queue other := by
  by_cases same : other = keyId
  · subst same
    simp [store, RpmTracker.queue]
  · simp [store, RpmTracker.queue, same]

/-- A call is one to the queue of its key. -/
theorem check_and_record_eq (tracker : RpmTracker) (now : Nat) (keyId : String) (rpmLimit : Nat) :
    tracker.checkAndRecord now keyId rpmLimit =
      ((attempt outside rpmLimit (tracker.queue keyId) now).1,
        tracker.store keyId (attempt outside rpmLimit (tracker.queue keyId) now).2) := by
  unfold checkAndRecord attempt
  dsimp only
  split
  · rfl
  · rfl

end RpmTracker

open RpmTracker

/-- A call and the clock it reads. -/
structure Call where
  keyId : String
  now : Nat
  deriving DecidableEq

def step (rpmLimit : Nat) (tracker : RpmTracker) (call : Call) :
    List (Call × Bool) × RpmTracker :=
  let (allowed, next) := tracker.checkAndRecord call.now call.keyId rpmLimit
  ([(call, allowed)], next)

def answers (rpmLimit : Nat) (calls : List Call) : List (Call × Bool) :=
  (Transducer.run (step rpmLimit) .new calls).1

def isFor (keyId : String) (call : Call) : Bool := decide (call.keyId = keyId)

/-- The calls for a key that were allowed from `first` to `last`, both included. -/
def allowedWithin (keyId : String) (first last : Nat) (given : List (Call × Bool)) : Nat :=
  given.countP fun answer =>
    isFor keyId answer.1 && (answer.2 && decide (first ≤ answer.1.now ∧ answer.1.now ≤ last))

/-- The answers for a key are those of a queue that sees the calls for this key only. -/
theorem key_answers (rpmLimit : Nat) (keyId : String) (calls : List Call) :
    (answers rpmLimit calls).filter (fun answer => isFor keyId answer.1) =
      SlidingLimit.answers outside rpmLimit Call.now (calls.filter (isFor keyId)) := by
  have part := Transducer.run_part (SlidingLimit.step outside rpmLimit Call.now) (step rpmLimit)
    (fun call => if isFor keyId call then some call else none)
    (fun answer => isFor keyId answer.1) (fun tracker => tracker.queue keyId) (fun _ => True)
  have select : calls.filterMap (fun call => if isFor keyId call then some call else none) =
      calls.filter (isFor keyId) := by
    rw [← List.filterMap_eq_filter]
    rfl
  rw [answers, part ?_ .new calls trivial, select]
  · rfl
  intro tracker call _
  by_cases mine : call.keyId = keyId
  · subst mine
    have asks : isFor call.keyId call = true := decide_eq_true rfl
    simp [step, check_and_record_eq, SlidingLimit.step, asks, store_queue]
  · have other : isFor keyId call = false := decide_eq_false mine
    simp [step, check_and_record_eq, other, store_queue, Ne.symm mine]

theorem answers_calls (rpmLimit : Nat) (tracker : RpmTracker) (calls : List Call) :
    (Transducer.run (step rpmLimit) tracker calls).1.map Prod.fst = calls := by
  induction calls generalizing tracker with
  | nil => rfl
  | cons call rest ih => simp [Transducer.run_cons, step, ih]

theorem outside_ages : Ages outside := by
  constructor
  · intro now next t forward old
    simp only [outside, decide_eq_true_eq] at old ⊢
    omega
  · intro now t earlier before old
    simp only [outside, decide_eq_true_eq] at old ⊢
    omega

theorem allowed_within_eq (rpmLimit : Nat) (keyId : String) (first last : Nat)
    (given : List (Call × Bool)) (calls : List Call)
    (mine : given.filter (fun answer => isFor keyId answer.1) =
      SlidingLimit.answers outside rpmLimit Call.now calls) :
    allowedWithin keyId first last given =
      (admitted Call.now (SlidingLimit.answers outside rpmLimit Call.now calls)).countP
        fun t => decide (first ≤ t ∧ t ≤ last) := by
  rw [admitted_count, ← mine, List.countP_filter]
  apply List.countP_congr
  intro answer _
  simp only [Bool.and_eq_true]
  tauto

/-- What the limit promises of the answers to a sequence of calls. -/
structure TrueSlidingWindow (rpmLimit : Nat) (calls : List Call) : Prop where
  answered : (answers rpmLimit calls).map Prod.fst = calls
  bounded : ∀ keyId first,
    allowedWithin keyId first (first + window) (answers rpmLimit calls) ≤ rpmLimit
  denied : ∀ before after call allowed, answers rpmLimit calls = before ++ (call, allowed) :: after →
    (allowed = false ↔ allowedWithin call.keyId (call.now - window) call.now before = rpmLimit)
  independent : ∀ keyId, (answers rpmLimit calls).filter (fun answer => isFor keyId answer.1) =
    answers rpmLimit (calls.filter (isFor keyId))

section Window
variable (rpmLimit : Nat) (calls : List Call)

theorem key_independent (keyId : String) :
    (answers rpmLimit calls).filter (fun answer => isFor keyId answer.1) =
      answers rpmLimit (calls.filter (isFor keyId)) := by
  have again : (calls.filter (isFor keyId)).filter (isFor keyId) = calls.filter (isFor keyId) := by
    simp [List.filter_filter]
  have all : (answers rpmLimit (calls.filter (isFor keyId))).filter
      (fun answer => isFor keyId answer.1) = answers rpmLimit (calls.filter (isFor keyId)) := by
    rw [List.filter_eq_self]
    intro answer member
    have listed := List.mem_map_of_mem (f := Prod.fst) member
    rw [answers, answers_calls] at listed
    exact (List.mem_filter.mp listed).2
  rw [← all, key_answers, key_answers, again]

variable (ordered : calls.Pairwise fun a b => a.now ≤ b.now)
include ordered

theorem key_bounded (keyId : String) (first : Nat) :
    allowedWithin keyId first (first + window) (answers rpmLimit calls) ≤ rpmLimit := by
  rw [allowed_within_eq rpmLimit keyId _ _ _ _ (key_answers rpmLimit keyId calls)]
  apply admitted_bounded outside_ages
  · intro now t before here there
    simp only [decide_eq_true_eq, outside, decide_eq_false_iff_not] at here there ⊢
    omega
  · exact ordered.sublist List.filter_sublist

-- The last answer for a key follows from the answers for it before.
theorem key_denied (before after : List (Call × Bool)) (call : Call) (allowed : Bool)
    (split : answers rpmLimit calls = before ++ (call, allowed) :: after) :
    allowed = false ↔
      allowedWithin call.keyId (call.now - window) call.now before = rpmLimit := by
  have mine := key_answers rpmLimit call.keyId calls
  have asks : isFor call.keyId call = true := decide_eq_true rfl
  rw [split, List.filter_append, List.filter_cons_of_pos (by exact asks)] at mine
  obtain ⟨earlier, later, listed, start, here⟩ := answers_before _ _ _ _ _ mine.symm
  have order : InOrder Call.now (earlier ++ [call]) := by
    have whole : earlier ++ [call] <+: calls.filter (isFor call.keyId) :=
      ⟨later, by simp [listed]⟩
    exact ordered.sublist (whole.sublist.trans List.filter_sublist)
  rw [here, refused_iff outside_ages earlier call order,
    allowed_within_eq rpmLimit call.keyId _ _ before earlier start]
  have same : (admitted Call.now (SlidingLimit.answers outside rpmLimit Call.now earlier)).countP
      (fun t => !outside call.now t) =
        (admitted Call.now (SlidingLimit.answers outside rpmLimit Call.now earlier)).countP
          fun t => decide (call.now - window ≤ t ∧ t ≤ call.now) := by
    apply List.countP_congr
    intro t member
    obtain ⟨answer, given, rfl⟩ := admitted_mem _ t member
    have reached := answer_before earlier call order answer given
    simp only [outside, Bool.not_eq_true', decide_eq_false_iff_not, decide_eq_true_eq]
    omega
  rw [same]

end Window

/-- On a clock that does not go back the limit holds in every minute, whenever it begins. -/
theorem true_sliding_window (rpmLimit : Nat) (calls : List Call)
    (ordered : calls.Pairwise fun a b => a.now ≤ b.now) : TrueSlidingWindow rpmLimit calls where
  answered := answers_calls rpmLimit .new calls
  bounded := key_bounded rpmLimit calls ordered
  denied := key_denied rpmLimit calls ordered
  independent := key_independent rpmLimit calls

/-- A minute later the first call counts still, a nanosecond after that no longer. -/
def minuteCalls : List Call :=
  [⟨"key1", 5⟩, ⟨"key2", 5⟩, ⟨"key1", 60000000005⟩, ⟨"key1", 60000000006⟩]

theorem minute_window : TrueSlidingWindow 1 minuteCalls :=
  true_sliding_window 1 minuteCalls (by decide)

example : (answers 1 minuteCalls).map Prod.snd = [true, true, false, true] := by decide

end Ccflare.RateLimit
