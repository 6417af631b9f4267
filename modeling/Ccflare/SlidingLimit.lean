import Mathlib.Data.List.Induction
import Ccflare.RollingWindow
import Ccflare.Transducer

/-!
A limit on the requests in a sliding window. The times of the admitted requests are kept
in a queue; those gone stale are popped at the front, and a request is refused while the
queue is full. Where requests come in the order of their times, the queue holds every
admitted time that still counts.
-/

namespace Ccflare.SlidingLimit

variable {Time Request : Type}

/-- `stale now time`: what was admitted at `time` counts no longer at `now`. -/
def attempt (stale : Time → Time → Bool) (limit : Nat) (queue : List Time) (now : Time) :
    Bool × List Time :=
  let fresh := queue.dropWhile (stale now)
  if limit ≤ fresh.length then (false, fresh) else (true, fresh ++ [now])

section Machine
variable (stale : Time → Time → Bool) (limit : Nat) (time : Request → Time)

def step (queue : List Time) (request : Request) : List (Request × Bool) × List Time :=
  let (passed, next) := attempt stale limit queue (time request)
  ([(request, passed)], next)

/-- A run that starts with an empty queue. -/
def answers (requests : List Request) : List (Request × Bool) :=
  (Transducer.run (step stale limit time) [] requests).1

def queueAfter (requests : List Request) : List Time :=
  (Transducer.run (step stale limit time) [] requests).2

/-- The times of the requests that were let through. -/
def admitted (given : List (Request × Bool)) : List Time :=
  (given.filter Prod.snd).map fun answer => time answer.1

end Machine

section Answers
variable {stale : Time → Time → Bool} {limit : Nat} {time : Request → Time}

@[simp]
theorem admitted_append (before after : List (Request × Bool)) :
    admitted time (before ++ after) = admitted time before ++ admitted time after := by
  simp [admitted]

@[simp]
theorem admitted_passed (request : Request) : admitted time [(request, true)] = [time request] :=
  rfl

@[simp]
theorem admitted_refused (request : Request) : admitted time [(request, false)] = [] := rfl

theorem admitted_mem (given : List (Request × Bool)) (moment : Time)
    (member : moment ∈ admitted time given) : ∃ answer ∈ given, time answer.1 = moment := by
  obtain ⟨answer, passed, rfl⟩ := List.mem_map.mp member
  exact ⟨answer, List.mem_of_mem_filter passed, rfl⟩

theorem admitted_count (given : List (Request × Bool)) (inside : Time → Bool) :
    (admitted time given).countP inside =
      given.countP fun answer => answer.2 && inside (time answer.1) := by
  rw [admitted, List.countP_map, List.countP_filter]
  apply List.countP_congr
  intro answer _
  simp [and_comm]

theorem answers_snoc (requests : List Request) (request : Request) :
    answers stale limit time (requests ++ [request]) = answers stale limit time requests ++
        [(request, (attempt stale limit (queueAfter stale limit time requests) (time request)).1)] ∧
      queueAfter stale limit time (requests ++ [request]) =
        (attempt stale limit (queueAfter stale limit time requests) (time request)).2 := by
  unfold answers queueAfter
  rw [Transducer.run_append, Transducer.run_singleton]
  exact ⟨rfl, rfl⟩

theorem answers_requests (requests : List Request) :
    (answers stale limit time requests).map Prod.fst = requests := by
  induction requests using List.reverseRecOn with
  | nil => rfl
  | append_singleton requests request ih =>
      rw [(answers_snoc requests request).1, List.map_append, ih]
      rfl

/-- The answers before one of them are those to the requests before it. -/
theorem answers_before (requests : List Request) (before after : List (Request × Bool))
    (request : Request) (passed : Bool)
    (split : answers stale limit time requests = before ++ (request, passed) :: after) :
    ∃ earlier later, requests = earlier ++ request :: later ∧
      before = answers stale limit time earlier ∧
      passed = (attempt stale limit (queueAfter stale limit time earlier) (time request)).1 := by
  induction requests using List.reverseRecOn generalizing after with
  | nil => exact absurd split (by simp [answers])
  | append_singleton requests last ih =>
      rw [(answers_snoc requests last).1] at split
      rcases List.eq_nil_or_concat after with rfl | ⟨rest, final, rfl⟩
      · obtain ⟨rfl, same⟩ := List.append_inj' split rfl
        obtain ⟨rfl, rfl⟩ := Prod.mk.inj (List.cons.inj same).1
        exact ⟨requests, [], rfl, rfl, rfl⟩
      · rw [List.concat_eq_append, ← List.cons_append, ← List.append_assoc] at split
        obtain ⟨earlier, later, rfl, start, here⟩ := ih rest (List.append_inj' split rfl).1
        exact ⟨earlier, later ++ [last], by simp, start, here⟩

end Answers

section Ordered
variable [LinearOrder Time] {stale : Time → Time → Bool} {limit : Nat} {time : Request → Time}

/-- What grows stale stays so, and what is older is stale no later. -/
structure Ages (stale : Time → Time → Bool) : Prop where
  later : ∀ now next moment, now ≤ next → stale now moment = true → stale next moment = true
  older : ∀ now moment earlier, earlier ≤ moment → stale now moment = true →
    stale now earlier = true

/-- The queue after a run: admitted times are in it until they are stale. -/
structure Keeps (stale : Time → Time → Bool) (limit : Nat) (time : Request → Time)
    (given : List (Request × Bool)) (queue : List Time) : Prop where
  sorted : queue.Pairwise (· ≤ ·)
  short : queue.length ≤ limit
  seen : ∀ moment ∈ queue, ∃ answer ∈ given, time answer.1 = moment
  split : ∃ lost, admitted time given = lost ++ queue ∧
    ∀ moment ∈ lost, ∃ answer ∈ given, stale (time answer.1) moment = true

theorem fresh_length (ages : Ages stale) (given : List (Request × Bool)) (queue : List Time)
    (keeps : Keeps stale limit time given queue) (now : Time)
    (last : ∀ answer ∈ given, time answer.1 ≤ now) :
    (queue.dropWhile (stale now)).length ≤ limit ∧ (queue.dropWhile (stale now)).length =
      (admitted time given).countP fun moment => !stale now moment := by
  obtain ⟨lost, whole, gone⟩ := keeps.split
  have ordered : queue.Pairwise fun a b => stale now b = true → stale now a = true :=
    keeps.sorted.imp fun before => ages.older now _ _ before
  have none : lost.countP (fun moment => !stale now moment) = 0 := by
    rw [List.countP_eq_zero]
    intro moment member
    obtain ⟨answer, listed, before⟩ := gone moment member
    simp [ages.later _ now moment (last answer listed) before]
  refine ⟨(List.dropWhile_suffix (stale now)).length_le.trans keeps.short, ?_⟩
  rw [RollingWindow.drop_while_ordered _ _ ordered, whole, List.countP_append, none, Nat.zero_add,
    List.countP_eq_length_filter]

theorem attempt_keeps (given : List (Request × Bool)) (queue : List Time)
    (keeps : Keeps stale limit time given queue) (request : Request)
    (last : ∀ answer ∈ given, time answer.1 ≤ time request) :
    Keeps stale limit time (given ++ [(request, (attempt stale limit queue (time request)).1)])
      (attempt stale limit queue (time request)).2 := by
  obtain ⟨lost, whole, gone⟩ := keeps.split
  generalize passed : (attempt stale limit queue (time request)).1 = pass
  let popped := queue.takeWhile (stale (time request))
  let fresh := queue.dropWhile (stale (time request))
  have parts : popped ++ fresh = queue := List.takeWhile_append_dropWhile
  have tail : fresh <:+ queue := List.dropWhile_suffix _
  have order : fresh.Pairwise (· ≤ ·) := keeps.sorted.sublist tail.sublist
  have short : fresh.length ≤ limit := tail.length_le.trans keeps.short
  have here : (request, pass) ∈ given ++ [(request, pass)] :=
    List.mem_append_right _ (List.mem_singleton_self _)
  have old : ∀ moment ∈ lost ++ popped, ∃ answer ∈ given ++ [(request, pass)],
      stale (time answer.1) moment = true := by
    intro moment member
    rcases List.mem_append.mp member with before | now
    · obtain ⟨answer, listed, staled⟩ := gone moment before
      exact ⟨answer, List.mem_append_left _ listed, staled⟩
    · exact ⟨_, here, List.mem_takeWhile_imp now⟩
  have shown : ∀ moment ∈ fresh, ∃ answer ∈ given ++ [(request, pass)],
      time answer.1 = moment := by
    intro moment member
    obtain ⟨answer, listed, same⟩ := keeps.seen moment (tail.subset member)
    exact ⟨answer, List.mem_append_left _ listed, same⟩
  by_cases full : limit ≤ fresh.length
  · have refused : attempt stale limit queue (time request) = (false, fresh) := if_pos full
    rw [refused] at passed ⊢
    obtain rfl : false = pass := passed
    refine ⟨order, short, shown, lost ++ popped, ?_, old⟩
    rw [admitted_append, admitted_refused, whole, ← parts, List.append_nil, List.append_assoc]
  · have through : attempt stale limit queue (time request) = (true, fresh ++ [time request]) :=
      if_neg full
    rw [through] at passed ⊢
    obtain rfl : true = pass := passed
    refine ⟨?_, ?_, ?_, lost ++ popped, ?_, old⟩
    · rw [List.pairwise_append]
      refine ⟨order, List.pairwise_singleton _ _, ?_⟩
      intro moment member other single
      obtain ⟨answer, listed, rfl⟩ := keeps.seen moment (tail.subset member)
      rw [List.mem_singleton.mp single]
      exact last answer listed
    · rw [List.length_append, List.length_singleton]
      omega
    · intro moment member
      rcases List.mem_append.mp member with before | now
      · exact shown moment before
      · exact ⟨_, here, (List.mem_singleton.mp now).symm⟩
    · rw [admitted_append, admitted_passed, whole, ← parts, List.append_assoc, List.append_assoc,
        List.append_assoc]

def InOrder (time : Request → Time) (requests : List Request) : Prop :=
  requests.Pairwise fun a b => time a ≤ time b

theorem answer_before (requests : List Request) (request : Request)
    (ordered : InOrder time (requests ++ [request])) :
    ∀ answer ∈ answers stale limit time requests, time answer.1 ≤ time request := by
  intro answer member
  have listed := List.mem_map_of_mem (f := Prod.fst) member
  rw [answers_requests] at listed
  exact (List.pairwise_append.mp ordered).2.2 _ listed request (List.mem_singleton_self _)

theorem run_keeps (requests : List Request) (ordered : InOrder time requests) :
    Keeps stale limit time (answers stale limit time requests)
      (queueAfter stale limit time requests) := by
  induction requests using List.reverseRecOn with
  | nil => exact ⟨.nil, Nat.zero_le _, by simp [queueAfter], [], rfl, by simp⟩
  | append_singleton requests request ih =>
      rw [(answers_snoc requests request).1, (answers_snoc requests request).2]
      exact attempt_keeps _ _ (ih (List.pairwise_append.mp ordered).1) request
        (answer_before requests request ordered)

/-- A request is refused exactly while the limit is used up by what was admitted and is not
stale yet. -/
theorem refused_iff (ages : Ages stale) (requests : List Request) (request : Request)
    (ordered : InOrder time (requests ++ [request])) :
    (attempt stale limit (queueAfter stale limit time requests) (time request)).1 = false ↔
      (admitted time (answers stale limit time requests)).countP
        (fun moment => !stale (time request) moment) = limit := by
  have keeps : Keeps stale limit time _ _ := run_keeps requests (List.pairwise_append.mp ordered).1
  obtain ⟨short, length⟩ := fresh_length ages _ _ keeps (time request)
    (answer_before requests request ordered)
  rw [← length]
  unfold attempt
  dsimp only
  split
  · rename_i full
    exact iff_of_true rfl (le_antisymm short full)
  · rename_i free
    exact iff_of_false (by simp) fun same => free same.ge

/-- Times none of which makes another stale are admitted no more often than the limit. -/
theorem admitted_bounded (ages : Ages stale) (inside : Time → Bool)
    (close : ∀ now moment, moment ≤ now → inside now = true → inside moment = true →
      stale now moment = false)
    (requests : List Request) (ordered : InOrder time requests) :
    (admitted time (answers stale limit time requests)).countP inside ≤ limit := by
  induction requests using List.reverseRecOn with
  | nil => exact Nat.zero_le _
  | append_singleton requests request ih =>
      have sorted := (List.pairwise_append.mp ordered).1
      have last : ∀ answer ∈ answers stale limit time requests, time answer.1 ≤ time request :=
        answer_before requests request ordered
      have before := ih sorted
      have refused := @refused_iff Time Request _ stale limit time ages requests request ordered
      rw [(answers_snoc requests request).1, admitted_append, List.countP_append]
      cases passed : (attempt stale limit (queueAfter stale limit time requests) (time request)).1 with
      | false => simpa using before
      | true =>
          by_cases here : inside (time request) = true
          · -- What is inside with this request counts at its time, and is less than the limit.
            have counting : (admitted time (answers stale limit time requests)).countP inside ≤
                (admitted time (answers stale limit time requests)).countP
                  fun moment => !stale (time request) moment := by
              apply List.countP_mono_left
              intro moment member there
              obtain ⟨answer, listed, rfl⟩ := admitted_mem _ moment member
              simp [close _ _ (last answer listed) here there]
            have keeps : Keeps stale limit time _ _ := run_keeps requests sorted
            obtain ⟨short, length⟩ := fresh_length ages _ _ keeps (time request) last
            rw [passed, ← length] at refused
            have free : ((queueAfter stale limit time requests).dropWhile
                (stale (time request))).length ≠ limit :=
              fun same => absurd (refused.mpr same) (by simp)
            rw [← length] at counting
            rw [admitted_passed, List.countP_singleton, if_pos here]
            omega
          · simpa [here] using before

end Ordered

end Ccflare.SlidingLimit
