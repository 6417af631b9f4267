import Ccflare.SseParser

/-!
The stream that passes a response on and keeps a copy of it for the post-processor. The copy
stops growing at the cap and at the first chunk that comes too late; it is handed over once,
when the stream ends or when the client lets go of it. What the client gets is not touched.
-/

namespace Ccflare.StreamTee

open SseParser

inductive Polled (Error : Type) where
  | ok (chunk : List UInt8)
  | err (error : Error)
  | ended
  | pending
  deriving DecidableEq

def Polled.isEnded {Error : Type} : Polled Error → Bool
  | .ended => true
  | .ok _ | .err _ | .pending => false

def streamTimeoutMs : Nat := 300000

def chunkTimeoutMs : Nat := 30000

/-- Instants and durations are counted in nanoseconds. -/
def fromMillis (millis : Nat) : Nat := millis * 1000000

/-- The difference of two instants, zero where the clock seems to run backwards. -/
def durationSince (now earlier : Nat) : Nat := now - earlier

/-- The sender is taken when the buffer is sent; `sent` is what the channel was given. -/
structure TeeStream where
  buffer : AnalyticsBuffer
  streamStart : Nat
  lastChunk : Nat
  timedOut : Bool
  tx : Bool
  sent : List AnalyticsBuffer
  streamTimeout : Nat
  chunkTimeout : Nat
  deriving DecidableEq

def teeStream (now : Nat) : TeeStream where
  buffer := .new
  streamStart := now
  lastChunk := now
  timedOut := false
  tx := true
  sent := []
  streamTimeout := fromMillis streamTimeoutMs
  chunkTimeout := fromMillis chunkTimeoutMs

def TeeStream.late (tee : TeeStream) (now : Nat) : Bool :=
  decide (durationSince now tee.streamStart > tee.streamTimeout) ||
    decide (durationSince now tee.lastChunk > tee.chunkTimeout)

/-- Sends the buffer if the sender is still there, and leaves a fresh one. -/
def TeeStream.send (tee : TeeStream) : TeeStream :=
  if tee.tx then { tee with buffer := .new, tx := false, sent := tee.sent ++ [tee.buffer] }
  else { tee with buffer := .new }

def TeeStream.drop (tee : TeeStream) : TeeStream := if tee.tx then tee.send else tee

def pollNext {Error : Type} (tee : TeeStream) (poll : Nat × Polled Error) :
    List (Polled Error) × TeeStream :=
  match poll.2 with
  | .ok chunk =>
      -- The flag is sticky: once set, neither test clears it.
      let timedOut := tee.timedOut || tee.late poll.1
      let buffer := if timedOut then tee.buffer else tee.buffer.push chunk
      ([.ok chunk], { tee with buffer := buffer, lastChunk := poll.1, timedOut := timedOut })
  | .err error => ([.err error], tee)
  | .ended => ([.ended], tee.send)
  | .pending => ([.pending], tee)

/-- The chunks that come before the end and before the first that is late. -/
def beforeTimeout {Error : Type} (start last : Nat) : List (Nat × Polled Error) → List (List UInt8)
  | [] => []
  | (now, .ok chunk) :: rest =>
      if durationSince now start > fromMillis streamTimeoutMs ∨
          durationSince now last > fromMillis chunkTimeoutMs then []
      else chunk :: beforeTimeout start now rest
  | (_, .err _) :: rest | (_, .pending) :: rest => beforeTimeout start last rest
  | (_, .ended) :: _ => []

section Copy
variable {Error : Type}

/-- The polls of a client, until it lets go of the stream. -/
def consumed (tee : TeeStream) (polls : List (Nat × Polled Error)) :
    List (Polled Error) × TeeStream :=
  Transducer.run pollNext tee polls

theorem poll_forwards (tee : TeeStream) (poll : Nat × Polled Error) :
    (pollNext tee poll).1 = [poll.2] := by
  obtain ⟨now, polled⟩ := poll
  cases polled <;> rfl

theorem tee_forwards (tee : TeeStream) (polls : List (Nat × Polled Error)) :
    (consumed tee polls).1 = polls.map Prod.snd := by
  unfold consumed
  induction polls generalizing tee with
  | nil => rfl
  | cons poll rest ih => rw [Transducer.run_cons, ih, poll_forwards, List.singleton_append, List.map_cons]

def Sent (copy : AnalyticsBuffer) (tee : TeeStream) : Prop := tee.tx = false ∧ tee.sent = [copy]

/-- The sender is there, and this is what it would send. -/
structure Holding (copy : AnalyticsBuffer) (tee : TeeStream) : Prop where
  tx : tee.tx = true
  unsent : tee.sent = []
  buffer : tee.buffer = copy

theorem sent_step (copy : AnalyticsBuffer) (tee : TeeStream) (poll : Nat × Polled Error)
    (sent : Sent copy tee) : Sent copy (pollNext tee poll).2 := by
  obtain ⟨now, polled⟩ := poll
  cases polled with
  | ended =>
      obtain ⟨gone, once⟩ := sent
      simp only [pollNext, TeeStream.send, gone, Bool.false_eq_true, if_false]
      exact ⟨rfl, once⟩
  | ok chunk => exact sent
  | err error => exact sent
  | pending => exact sent

theorem sent_run (copy : AnalyticsBuffer) (tee : TeeStream) (polls : List (Nat × Polled Error))
    (sent : Sent copy tee) : Sent copy (consumed tee polls).2 :=
  Transducer.run_invariant pollNext (Sent copy) (sent_step copy) tee polls sent

theorem send_sent (copy : AnalyticsBuffer) (tee : TeeStream) (holding : Holding copy tee) :
    Sent copy tee.send := by
  unfold TeeStream.send
  rw [if_pos holding.tx]
  exact ⟨rfl, by rw [holding.unsent, holding.buffer, List.nil_append]⟩

def HandsOver (copy : AnalyticsBuffer) (ended : Bool) (tee : TeeStream) : Prop :=
  if ended then Sent copy tee else Holding copy tee

theorem hands_over_cons (copy : AnalyticsBuffer) (tee : TeeStream) (poll : Nat × Polled Error)
    (rest : List (Nat × Polled Error)) (goes : poll.2.isEnded = false)
    (later : HandsOver copy (rest.any fun poll => poll.2.isEnded)
      (consumed (pollNext tee poll).2 rest).2) :
    HandsOver copy ((poll :: rest).any fun poll => poll.2.isEnded)
      (consumed tee (poll :: rest)).2 := by
  rwa [List.any_cons, goes, Bool.false_or]

theorem hands_over_ended (copy : AnalyticsBuffer) (tee : TeeStream) (now : Nat)
    (rest : List (Nat × Polled Error)) (holding : Holding copy tee) :
    HandsOver copy (((now, .ended) :: rest).any fun poll => poll.2.isEnded)
      (consumed tee ((now, .ended) :: rest)).2 :=
  sent_run copy tee.send rest (send_sent copy tee holding)

theorem timed_out_run (copy : AnalyticsBuffer) (tee : TeeStream) (polls : List (Nat × Polled Error))
    (holding : Holding copy tee) (timedOut : tee.timedOut = true) :
    HandsOver copy (polls.any fun poll => poll.2.isEnded) (consumed tee polls).2 := by
  induction polls generalizing tee with
  | nil => exact holding
  | cons poll rest ih =>
      obtain ⟨now, polled⟩ := poll
      cases polled with
      | ok chunk =>
          refine hands_over_cons copy tee _ rest rfl (ih _ ?_ ?_)
          · refine ⟨holding.tx, holding.unsent, ?_⟩
            simp only [pollNext, timedOut, Bool.true_or, if_true]
            exact holding.buffer
          · simp [pollNext, timedOut]
      | err error => exact hands_over_cons copy tee _ rest rfl (ih tee holding timedOut)
      | pending => exact hands_over_cons copy tee _ rest rfl (ih tee holding timedOut)
      | ended => exact hands_over_ended copy tee now rest holding

structure Started (start : Nat) (tee : TeeStream) : Prop where
  streamStart : tee.streamStart = start
  streamTimeout : tee.streamTimeout = fromMillis streamTimeoutMs
  chunkTimeout : tee.chunkTimeout = fromMillis chunkTimeoutMs

theorem copied_run (start : Nat) (tee : TeeStream) (polls : List (Nat × Polled Error))
    (started : Started start tee) (holding : Holding tee.buffer tee)
    (onTime : tee.timedOut = false) :
    HandsOver ((beforeTimeout start tee.lastChunk polls).foldl AnalyticsBuffer.push tee.buffer)
      (polls.any fun poll => poll.2.isEnded) (consumed tee polls).2 := by
  induction polls generalizing tee with
  | nil => exact holding
  | cons poll rest ih =>
      obtain ⟨now, polled⟩ := poll
      cases polled with
      | ok chunk =>
          have lateness : tee.late now = decide (durationSince now start > fromMillis streamTimeoutMs ∨
              durationSince now tee.lastChunk > fromMillis chunkTimeoutMs) := by
            rw [TeeStream.late, started.streamStart, started.streamTimeout, started.chunkTimeout,
              Bool.decide_or]
          apply hands_over_cons _ tee _ rest rfl
          unfold beforeTimeout
          cases late : tee.late now with
          | true =>
              rw [if_pos (of_decide_eq_true (lateness.symm.trans late))]
              apply timed_out_run
              · refine ⟨holding.tx, holding.unsent, ?_⟩
                simp [pollNext, late]
              · simp [pollNext, late]
          | false =>
              rw [if_neg (of_decide_eq_false (lateness.symm.trans late)), List.foldl_cons]
              have pushed : (pollNext tee (now, (Polled.ok chunk : Polled Error))).2 =
                  { tee with buffer := tee.buffer.push chunk, lastChunk := now } := by
                simp [pollNext, late, onTime]
              rw [pushed]
              exact ih _ ⟨started.streamStart, started.streamTimeout, started.chunkTimeout⟩
                ⟨holding.tx, holding.unsent, rfl⟩ onTime
      | err error => exact hands_over_cons _ tee _ rest rfl (ih tee started holding onTime)
      | pending => exact hands_over_cons _ tee _ rest rfl (ih tee started holding onTime)
      | ended => exact hands_over_ended _ tee now rest holding

theorem tee_hands_over (start : Nat) (polls : List (Nat × Polled Error)) :
    HandsOver ((beforeTimeout start start polls).foldl AnalyticsBuffer.push .new)
      (polls.any fun poll => poll.2.isEnded) (consumed (teeStream start) polls).2 :=
  copied_run start (teeStream start) polls ⟨rfl, rfl, rfl⟩ ⟨rfl, rfl, rfl⟩ rfl

theorem drop_sent (copy : AnalyticsBuffer) (ended : Bool) (tee : TeeStream)
    (handsOver : HandsOver copy ended tee) : tee.drop.sent = [copy] := by
  unfold TeeStream.drop
  cases ended with
  | true =>
      obtain ⟨gone, once⟩ := handsOver
      rw [if_neg (by simp [gone])]
      exact once
  | false =>
      have holding : Holding copy tee := handsOver
      rw [if_pos holding.tx]
      exact (send_sent copy tee holding).2

end Copy

/-- Whatever the polls and wherever they stop: the client gets what the inner stream gives, and
the copy of the chunks that were on time is sent once, at the end or when the tee is dropped. -/
theorem tee_transparent {Error : Type} (start : Nat) (polls : List (Nat × Polled Error)) :
    (consumed (teeStream start) polls).1 = polls.map Prod.snd ∧
    ∃ copy, Holds copy (beforeTimeout start start polls).flatten ∧
      (consumed (teeStream start) polls).2.sent =
        (if polls.any fun poll => poll.2.isEnded then [copy] else []) ∧
      (consumed (teeStream start) polls).2.drop.sent = [copy] := by
  have handsOver := tee_hands_over start polls
  refine ⟨tee_forwards _ polls, _, pushed_holds (beforeTimeout start start polls), ?_,
    drop_sent _ _ _ handsOver⟩
  unfold HandsOver at handsOver
  split at handsOver
  · rename_i ended
    rw [if_pos ended]
    exact handsOver.2
  · rename_i going
    rw [if_neg going]
    exact handsOver.unsent

end Ccflare.StreamTee
