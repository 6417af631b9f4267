import Ccflare.Transition

/-!
The async writer: senders put write operations on a bounded channel, and one loop
collects them into batches and executes them. A batch is cut by its size, by the
timer, by the shutdown sentinel or by the close of the channel; after the last two
the loop drains what the channel still holds and returns. Senders, the shutdown and
the loop take their steps in any order. The pool and the transactions succeed.
-/

namespace Ccflare.AsyncWriter

open Transition

def channelCapacity : Nat := 1000

def batchSize : Nat := 100

inductive WriteOp (Op : Type) where
  | op (op : Op)
  | shutdown
  deriving DecidableEq

def WriteOp.isShutdown {Op : Type} : WriteOp Op → Bool
  | .op _ => false
  | .shutdown => true

/-- `WriterTask`: its own sender waits for a permit, holds one, or is dropped. -/
inductive TaskPhase where
  | running
  | sending
  | reserved
  | dropped
  deriving DecidableEq

/-- Where the loop is: in `fill_batch`, in `flush_batch` with the operations still
to execute, in the drain after an exit, in the flush after the drain, or over. -/
inductive LoopPhase (Op : Type) where
  | filling
  | flushing (left : List Op) (shouldExit : Bool)
  | draining
  | lastFlush (left : List Op)
  | returned
  deriving DecidableEq

structure Writer (Op : Type) where
  queue : List (WriteOp Op)
  droppedOps : UInt64
  writers : Nat
  task : TaskPhase
  batch : List Op
  phase : LoopPhase Op
  executed : List Op
  deriving DecidableEq

variable {Op : Type}

def spawn : Writer Op := ⟨[], 0, 1, .running, [], .filling, []⟩

inductive Event (Op : Type) where
  | send (op : WriteOp Op)
  | cloneWriter
  | dropWriter
  | shutdown
  | reserve
  | sentinel
  | sentinelRefused
  | receive
  | closed
  | full
  | tick
  | execute
  | flushed
  | drain
  | drained
  deriving DecidableEq

def LoopPhase.isReturned : LoopPhase Op → Bool
  | .returned => true
  | .filling | .flushing _ _ | .draining | .lastFlush _ => false

def LoopPhase.isFilling : LoopPhase Op → Bool
  | .filling => true
  | .flushing _ _ | .draining | .lastFlush _ | .returned => false

def LoopPhase.isDraining : LoopPhase Op → Bool
  | .draining => true
  | .filling | .flushing _ _ | .lastFlush _ | .returned => false

def LoopPhase.inFlight : LoopPhase Op → List Op
  | .flushing left _ | .lastFlush left => left
  | .filling | .draining | .returned => []

/-- After the sentinel or the close of the channel the loop fills no more batch. -/
def LoopPhase.exiting : LoopPhase Op → Bool
  | .filling => false
  | .flushing _ shouldExit => shouldExit
  | .draining | .lastFlush _ | .returned => true

/-- Permits in use: one for each queued operation and the one the task holds. -/
def Writer.taken (s : Writer Op) : Nat :=
  s.queue.length + if s.task = .reserved then 1 else 0

def Writer.hasRoom (s : Writer Op) : Bool := decide (s.taken < channelCapacity)

def Writer.canFill (s : Writer Op) : Bool :=
  s.phase.isFilling && decide (s.batch.length < batchSize)

/-- `flush_loop` after `fill_batch` returned: an empty batch is not flushed. -/
def Writer.afterFill (s : Writer Op) (shouldExit : Bool) : Writer Op :=
  if s.batch.isEmpty then { s with phase := if shouldExit then .draining else .filling }
  else { s with phase := .flushing s.batch shouldExit, batch := [] }

def perform (s : Writer Op) : Event Op → Option (Writer Op)
  | .send op =>
      if s.writers = 0 then none
      -- A closed channel is ignored; only a full one counts.
      else if s.phase.isReturned then some s
      else if s.hasRoom then some { s with queue := s.queue ++ [op] }
      else some { s with droppedOps := s.droppedOps + 1 }
  | .cloneWriter => if s.writers = 0 then none else some { s with writers := s.writers + 1 }
  | .dropWriter => if s.writers = 0 then none else some { s with writers := s.writers - 1 }
  | .shutdown => if s.task = .running then some { s with task := .sending } else none
  | .reserve =>
      if s.task = .sending ∧ s.hasRoom ∧ s.phase.isReturned = false then
        some { s with task := .reserved }
      else none
  | .sentinel =>
      if s.task = .reserved ∧ s.phase.isReturned = false then
        some { s with task := .dropped, queue := s.queue ++ [.shutdown] }
      else none
  | .sentinelRefused =>
      if (s.task = .sending ∨ s.task = .reserved) ∧ s.phase.isReturned then
        some { s with task := .dropped }
      else none
  | .receive =>
      if s.canFill then
        match s.queue with
        | [] => none
        | .shutdown :: rest => some ({ s with queue := rest }.afterFill true)
        | .op op :: rest => some { s with queue := rest, batch := s.batch ++ [op] }
      else none
  | .closed =>
      if s.canFill ∧ s.queue.isEmpty ∧ s.writers = 0 ∧ s.task = .dropped then
        some (s.afterFill true)
      else none
  | .full =>
      if s.phase.isFilling ∧ batchSize ≤ s.batch.length then some (s.afterFill false) else none
  | .tick => if s.canFill then some (s.afterFill false) else none
  | .execute =>
      match s.phase with
      | .flushing (op :: left) shouldExit =>
          some { s with phase := .flushing left shouldExit, executed := s.executed ++ [op] }
      | .lastFlush (op :: left) =>
          some { s with phase := .lastFlush left, executed := s.executed ++ [op] }
      | _ => none
  | .flushed =>
      match s.phase with
      | .flushing [] shouldExit =>
          some { s with phase := if shouldExit then .draining else .filling }
      | .lastFlush [] => some { s with phase := .returned }
      | _ => none
  | .drain =>
      if s.phase.isDraining then
        match s.queue with
        | [] => none
        -- Further sentinels are skipped.
        | .shutdown :: rest => some { s with queue := rest }
        | .op op :: rest => some { s with queue := rest, batch := s.batch ++ [op] }
      else none
  | .drained =>
      if s.phase.isDraining ∧ s.queue.isEmpty then
        if s.batch.isEmpty then some { s with phase := .returned }
        else some { s with phase := .lastFlush s.batch, batch := [] }
      else none

abbrev Taken (Op : Type) := Writer Op × Event Op × Writer Op

/-- What a step puts on the channel. -/
def acceptedBy (taken : Taken Op) : List (WriteOp Op) :=
  match taken.2.1 with
  | .send op => if !taken.1.phase.isReturned && taken.1.hasRoom then [op] else []
  | .sentinel => [.shutdown]
  | _ => []

/-- A send that finds the channel open and full. -/
def refused (taken : Taken Op) : Bool :=
  match taken.2.1 with
  | .send _ => !taken.1.phase.isReturned && !taken.1.hasRoom
  | _ => false

def accepted (trace : List (Taken Op)) : List (WriteOp Op) := trace.flatMap acceptedBy

def ops (sent : List (WriteOp Op)) : List Op :=
  sent.filterMap fun sent => match sent with
    | .op op => some op
    | .shutdown => none

/-- The operations accepted before the first sentinel. -/
def beforeSentinel (sent : List (WriteOp Op)) : List Op :=
  ops (sent.takeWhile fun sent => !sent.isShutdown)

theorem ops_append (left right : List (WriteOp Op)) :
    ops (left ++ right) = ops left ++ ops right :=
  List.filterMap_append

@[simp]
theorem ops_nil : ops ([] : List (WriteOp Op)) = [] := rfl

@[simp]
theorem ops_op (op : Op) (rest : List (WriteOp Op)) : ops (.op op :: rest) = op :: ops rest := rfl

@[simp]
theorem ops_shutdown (rest : List (WriteOp Op)) : ops (.shutdown :: rest) = ops rest := rfl

theorem before_sentinel_all (sent : List (WriteOp Op)) : beforeSentinel sent <+: ops sent := by
  have split : (sent.takeWhile fun sent => !sent.isShutdown) ++
      (sent.dropWhile fun sent => !sent.isShutdown) = sent := List.takeWhile_append_dropWhile
  have whole := congrArg ops split
  rw [ops_append] at whole
  exact ⟨_, whole⟩

theorem before_sentinel_later (sent later : List (WriteOp Op))
    (stopped : WriteOp.shutdown ∈ sent) :
    beforeSentinel (sent ++ later) = beforeSentinel sent := by
  induction sent with
  | nil => cases stopped
  | cons first rest ih =>
      cases first with
      | shutdown => rfl
      | op op =>
          have inRest : WriteOp.shutdown ∈ rest := by simpa using stopped
          have same := ih inRest
          simp only [beforeSentinel, List.cons_append, List.takeWhile_cons, WriteOp.isShutdown,
            Bool.not_false, if_true, ops_op] at same ⊢
          rw [same]

theorem before_first_sentinel (held : List Op) (later : List (WriteOp Op)) :
    beforeSentinel (held.map .op ++ .shutdown :: later) = held := by
  induction held with
  | nil => rfl
  | cons op rest ih =>
      simp only [beforeSentinel, List.map_cons, List.cons_append, List.takeWhile_cons,
        WriteOp.isShutdown, Bool.not_false, if_true, ops_op] at ih ⊢
      rw [ih]

/-- What the loop has taken off the channel, oldest first. -/
def Writer.pipeline (s : Writer Op) : List Op := s.executed ++ s.phase.inFlight ++ s.batch

/-- Every accepted operation is executed, in a batch or queued, in that order; once the
loop is on its way out it holds all that was accepted before the first sentinel. -/
structure Accounted (sent : List (WriteOp Op)) (refusals : Nat) (s : Writer Op) : Prop where
  order : ops sent = s.pipeline ++ ops s.queue
  looping : s.phase.exiting = false → sent = s.pipeline.map .op ++ s.queue
  covered : s.phase.exiting = true → beforeSentinel sent <+: s.pipeline
  ended : s.phase.exiting = true →
    WriteOp.shutdown ∈ sent ∨ (s.writers = 0 ∧ s.task = .dropped)
  emptied : s.phase.isFilling = false → s.phase.isDraining = false → s.batch = []
  counted : s.droppedOps = UInt64.ofNat refusals

theorem spawn_accounted : Accounted ([] : List (WriteOp Op)) 0 spawn :=
  ⟨rfl, fun _ => rfl, nofun, nofun, fun _ _ => rfl, rfl⟩

variable {sent : List (WriteOp Op)} {refusals : Nat} {s t : Writer Op}

/-- A step of the senders that puts nothing on the channel. -/
theorem Accounted.senders (held : Accounted sent refusals s) (writers : Nat) (task : TaskPhase)
    (closed : s.writers = 0 ∧ s.task = .dropped → writers = 0 ∧ task = .dropped) :
    Accounted sent refusals { s with writers := writers, task := task } :=
  ⟨held.order, held.looping, held.covered, fun exits => (held.ended exits).imp_right closed,
    held.emptied, held.counted⟩

theorem Accounted.enqueue (held : Accounted sent refusals s) (op : WriteOp Op)
    (task : TaskPhase) (open_ : ¬ (s.writers = 0 ∧ s.task = .dropped)) :
    Accounted (sent ++ [op]) refusals { s with queue := s.queue ++ [op], task := task } where
  order := by
    change ops (sent ++ [op]) = s.pipeline ++ ops (s.queue ++ [op])
    rw [ops_append, ops_append, held.order, List.append_assoc]
  looping := by
    intro loops
    change sent ++ [op] = s.pipeline.map .op ++ (s.queue ++ [op])
    rw [held.looping loops, List.append_assoc]
  covered := by
    intro exits
    -- The loop leaves for a sentinel here: with an open channel nothing else ends it.
    have stopped := (held.ended exits).resolve_right open_
    rw [before_sentinel_later sent [op] stopped]
    exact held.covered exits
  ended := by
    intro exits
    exact Or.inl (List.mem_append_left _ ((held.ended exits).resolve_right open_))
  emptied := held.emptied
  counted := held.counted

theorem filling_phase (phase : LoopPhase Op) (filling : phase.isFilling = true) :
    phase = .filling := by
  cases phase with
  | filling => rfl
  | flushing | draining | lastFlush | returned => cases filling

theorem draining_phase (phase : LoopPhase Op) (draining : phase.isDraining = true) :
    phase = .draining := by
  cases phase with
  | draining => rfl
  | flushing | filling | lastFlush | returned => cases draining

theorem after_fill_pipeline (filling : s.phase = .filling) (shouldExit : Bool) :
    (s.afterFill shouldExit).pipeline = s.pipeline := by
  unfold Writer.afterFill
  split
  · cases shouldExit <;> simp [Writer.pipeline, filling, LoopPhase.inFlight]
  · simp [Writer.pipeline, filling, LoopPhase.inFlight]

theorem after_fill_frame (s : Writer Op) (shouldExit : Bool) :
    (s.afterFill shouldExit).queue = s.queue ∧
      (s.afterFill shouldExit).writers = s.writers ∧ (s.afterFill shouldExit).task = s.task ∧
      (s.afterFill shouldExit).droppedOps = s.droppedOps ∧
      (s.afterFill shouldExit).phase.exiting = shouldExit ∧
      ((s.afterFill shouldExit).phase.isFilling = false →
        (s.afterFill shouldExit).phase.isDraining = false →
        (s.afterFill shouldExit).batch = []) := by
  unfold Writer.afterFill
  split
  · rename_i empty
    cases shouldExit <;> simp_all [LoopPhase.exiting, LoopPhase.isFilling, LoopPhase.isDraining]
  · simp [LoopPhase.exiting]

/-- The batch is cut and the loop goes on. -/
theorem Accounted.cut (held : Accounted sent refusals s) (filling : s.phase = .filling) :
    Accounted sent refusals (s.afterFill false) := by
  have loops : s.phase.exiting = false := by rw [filling]; rfl
  have pipeline := after_fill_pipeline filling false
  obtain ⟨queue, -, -, dropped, exiting, emptied⟩ := after_fill_frame s false
  refine ⟨?_, ?_, ?_, ?_, emptied, ?_⟩
  · rw [pipeline, queue]
    exact held.order
  · intro _
    rw [pipeline, queue]
    exact held.looping loops
  · simp [exiting]
  · simp [exiting]
  · rw [dropped]
    exact held.counted

/-- The batch is cut for good: what is in hand covers all before the first sentinel. -/
theorem Accounted.leave (order : ops sent = s.pipeline ++ ops s.queue)
    (filling : s.phase = .filling) (covered : beforeSentinel sent <+: s.pipeline)
    (ended : WriteOp.shutdown ∈ sent ∨ (s.writers = 0 ∧ s.task = .dropped))
    (counted : s.droppedOps = UInt64.ofNat refusals) :
    Accounted sent refusals (s.afterFill true) := by
  have pipeline := after_fill_pipeline filling true
  obtain ⟨queue, writers, task, dropped, exiting, emptied⟩ := after_fill_frame s true
  refine ⟨?_, ?_, ?_, ?_, emptied, ?_⟩
  · rw [pipeline, queue]
    exact order
  · simp [exiting]
  · intro _
    rw [pipeline]
    exact covered
  · intro _
    rw [writers, task]
    exact ended
  · rw [dropped]
    exact counted

/-- An operation moves from the channel into the batch. -/
theorem Accounted.collect {op : Op} {rest : List (WriteOp Op)}
    (held : Accounted sent refusals s) (queue : s.queue = .op op :: rest)
    (idle : s.phase.inFlight = []) (open_ : s.phase.isFilling = true ∨ s.phase.isDraining = true) :
    Accounted sent refusals { s with queue := rest, batch := s.batch ++ [op] } := by
  have pipeline : ({ s with queue := rest, batch := s.batch ++ [op] } : Writer Op).pipeline =
      s.pipeline ++ [op] := by
    simp [Writer.pipeline, idle]
  refine ⟨?_, ?_, ?_, held.ended, ?_, held.counted⟩
  · rw [pipeline, held.order, queue]
    simp
  · intro loops
    rw [pipeline, held.looping loops, queue]
    simp
  · intro exits
    rw [pipeline]
    exact (held.covered exits).trans (List.prefix_append _ _)
  · intro notFilling notDraining
    rcases open_ with filling | draining
    · simp [filling] at notFilling
    · simp [draining] at notDraining

/-- A step of the flush: the phase moves on and what is in hand stays in order. -/
theorem Accounted.advance (held : Accounted sent refusals s) (phase : LoopPhase Op)
    (batch executed : List Op)
    (pipeline : executed ++ phase.inFlight ++ batch = s.pipeline)
    (exiting : phase.exiting = s.phase.exiting)
    (emptied : phase.isFilling = false → phase.isDraining = false → batch = []) :
    Accounted sent refusals
      { s with phase := phase, batch := batch, executed := executed } := by
  have same : ({ s with phase := phase, batch := batch, executed := executed } :
      Writer Op).pipeline = s.pipeline := pipeline
  refine ⟨?_, ?_, ?_, ?_, emptied, held.counted⟩
  · rw [same]
    exact held.order
  · intro loops
    rw [same]
    exact held.looping (exiting.symm.trans loops)
  · intro exits
    rw [same]
    exact held.covered (exiting.symm.trans exits)
  · intro exits
    exact held.ended (exiting.symm.trans exits)

theorem execute_accounted (held : Accounted sent refusals s)
    (taken : perform s .execute = some t) : Accounted sent refusals t := by
  simp only [perform] at taken
  split at taken
  · rename_i op left shouldExit phase
    cases taken
    apply held.advance (.flushing left shouldExit) s.batch
    · simp [Writer.pipeline, phase, LoopPhase.inFlight]
    · rw [phase]
      rfl
    · intro _ _
      exact held.emptied (by rw [phase]; rfl) (by rw [phase]; rfl)
  · rename_i op left phase
    cases taken
    apply held.advance (.lastFlush left) s.batch
    · simp [Writer.pipeline, phase, LoopPhase.inFlight]
    · rw [phase]
      rfl
    · intro _ _
      exact held.emptied (by rw [phase]; rfl) (by rw [phase]; rfl)
  · cases taken

theorem flushed_accounted (held : Accounted sent refusals s)
    (taken : perform s .flushed = some t) : Accounted sent refusals t := by
  simp only [perform] at taken
  split at taken
  · rename_i shouldExit phase
    have batch := held.emptied (by rw [phase]; rfl) (by rw [phase]; rfl)
    cases taken
    apply held.advance (if shouldExit then .draining else .filling) s.batch s.executed
    · cases shouldExit <;> simp [Writer.pipeline, phase, LoopPhase.inFlight]
    · rw [phase]
      cases shouldExit <;> rfl
    · intro _ _
      exact batch
  · rename_i phase
    have batch := held.emptied (by rw [phase]; rfl) (by rw [phase]; rfl)
    cases taken
    apply held.advance .returned s.batch s.executed
    · simp [Writer.pipeline, phase, LoopPhase.inFlight]
    · rw [phase]
      rfl
    · intro _ _
      exact batch
  · cases taken

theorem receive_accounted (held : Accounted sent refusals s)
    (taken : perform s .receive = some t) : Accounted sent refusals t := by
  simp only [perform] at taken
  split at taken
  · rename_i can
    simp only [Writer.canFill, Bool.and_eq_true] at can
    have filling := filling_phase _ can.1
    have loops : s.phase.exiting = false := by rw [filling]; rfl
    split at taken
    · cases taken
    · rename_i rest queue
      cases taken
      have whole := held.looping loops
      rw [queue] at whole
      have covered : beforeSentinel sent = s.pipeline := by
        rw [whole]
        exact before_first_sentinel s.pipeline rest
      apply Accounted.leave
      · have order := held.order
        rw [queue] at order
        exact order
      · exact filling
      · rw [covered]
        exact List.prefix_rfl
      · rw [whole]
        exact Or.inl (List.mem_append_right _ List.mem_cons_self)
      · exact held.counted
    · rename_i op rest queue
      cases taken
      exact held.collect queue (by rw [filling]; rfl) (Or.inl can.1)
  · cases taken

theorem closed_accounted (held : Accounted sent refusals s)
    (taken : perform s .closed = some t) : Accounted sent refusals t := by
  simp only [perform] at taken
  split at taken
  · rename_i guard
    obtain ⟨can, empty, writers, task⟩ := guard
    simp only [Writer.canFill, Bool.and_eq_true] at can
    cases taken
    have all := before_sentinel_all sent
    rw [held.order, List.isEmpty_iff.mp empty, ops_nil, List.append_nil] at all
    exact .leave held.order (filling_phase _ can.1) all (Or.inr ⟨writers, task⟩) held.counted
  · cases taken

theorem drain_accounted (held : Accounted sent refusals s)
    (taken : perform s .drain = some t) : Accounted sent refusals t := by
  simp only [perform] at taken
  split at taken
  · rename_i draining
    have phase := draining_phase _ draining
    split at taken
    · cases taken
    · rename_i rest queue
      cases taken
      refine ⟨?_, ?_, held.covered, held.ended, held.emptied, held.counted⟩
      · rw [held.order, queue]
        rfl
      · simp [phase, LoopPhase.exiting]
    · rename_i op rest queue
      cases taken
      exact held.collect queue (by rw [phase]; rfl) (Or.inr draining)
  · cases taken

theorem drained_accounted (held : Accounted sent refusals s)
    (taken : perform s .drained = some t) : Accounted sent refusals t := by
  simp only [perform] at taken
  split at taken
  · rename_i guard
    have phase := draining_phase _ guard.1
    split at taken
    · rename_i empty
      cases taken
      apply held.advance .returned s.batch s.executed
      · simp [Writer.pipeline, phase, LoopPhase.inFlight]
      · rw [phase]
        rfl
      · intro _ _
        exact List.isEmpty_iff.mp empty
    · cases taken
      apply held.advance (.lastFlush s.batch) [] s.executed
      · simp [Writer.pipeline, phase, LoopPhase.inFlight]
      · rw [phase]
        rfl
      · intro _ _
        rfl
  · cases taken

theorem send_accounted (held : Accounted sent refusals s) (op : WriteOp Op)
    (taken : perform s (.send op) = some t) :
    Accounted (sent ++ acceptedBy (s, .send op, t))
      (refusals + if refused (s, .send op, t) then 1 else 0) t := by
  simp only [perform] at taken
  split at taken
  · cases taken
  · rename_i live
    cases over_ : s.phase.isReturned with
    | true =>
        simp only [over_, if_true, Option.some.injEq] at taken
        subst taken
        simpa [acceptedBy, refused, over_] using held
    | false =>
        cases room : s.hasRoom with
        | true =>
            simp only [over_, room, Bool.false_eq_true, if_false, if_true,
              Option.some.injEq] at taken
            subst taken
            have queued := held.enqueue op s.task fun gone => live gone.1
            simpa [acceptedBy, refused, over_, room] using queued
        | false =>
            simp only [over_, room, Bool.false_eq_true, if_false, Option.some.injEq] at taken
            subst taken
            have counted : s.droppedOps + 1 = UInt64.ofNat (refusals + 1) := by
              rw [held.counted]
              simp
            have dropped : Accounted sent (refusals + 1)
                { s with droppedOps := s.droppedOps + 1 } :=
              ⟨held.order, held.looping, held.covered, held.ended, held.emptied, counted⟩
            simpa [acceptedBy, refused, over_, room] using dropped

/-- One step of a sender, of the shutdown or of the loop. -/
theorem step_accounted (event : Event Op) (held : Accounted sent refusals s)
    (taken : Does perform s event t) :
    Accounted (sent ++ acceptedBy (s, event, t))
      (refusals + if refused (s, event, t) then 1 else 0) t := by
  change perform s event = some t at taken
  cases event with
  | send op => exact send_accounted held op taken
  | cloneWriter =>
      simp only [acceptedBy, refused, List.append_nil]
      simp only [perform] at taken
      split at taken
      · cases taken
      · rename_i live
        cases taken
        exact held.senders (s.writers + 1) s.task fun gone => absurd gone.1 live
  | dropWriter =>
      simp only [acceptedBy, refused, List.append_nil]
      simp only [perform] at taken
      split at taken
      · cases taken
      · cases taken
        exact held.senders (s.writers - 1) s.task fun gone => ⟨by omega, gone.2⟩
  | shutdown =>
      simp only [acceptedBy, refused, List.append_nil]
      simp only [perform] at taken
      split at taken
      · rename_i running
        cases taken
        exact held.senders s.writers .sending fun gone => by simp [running] at gone
      · cases taken
  | reserve =>
      simp only [acceptedBy, refused, List.append_nil]
      simp only [perform] at taken
      split at taken
      · rename_i guard
        cases taken
        exact held.senders s.writers .reserved fun gone => by simp [guard.1] at gone
      · cases taken
  | sentinel =>
      simp only [perform] at taken
      split at taken
      · rename_i guard
        cases taken
        exact held.enqueue .shutdown .dropped fun gone => by simp [guard.1] at gone
      · cases taken
  | sentinelRefused =>
      simp only [acceptedBy, refused, List.append_nil]
      simp only [perform] at taken
      split at taken
      · cases taken
        exact held.senders s.writers .dropped fun gone => ⟨gone.1, rfl⟩
      · cases taken
  | receive => simpa [acceptedBy, refused] using receive_accounted held taken
  | closed => simpa [acceptedBy, refused] using closed_accounted held taken
  | full =>
      simp only [acceptedBy, refused, List.append_nil]
      simp only [perform] at taken
      split at taken
      · rename_i guard
        cases taken
        exact held.cut (filling_phase _ guard.1)
      · cases taken
  | tick =>
      simp only [acceptedBy, refused, List.append_nil]
      simp only [perform] at taken
      split at taken
      · rename_i can
        simp only [Writer.canFill, Bool.and_eq_true] at can
        cases taken
        exact held.cut (filling_phase _ can.1)
      · cases taken
  | execute => simpa [acceptedBy, refused] using execute_accounted held taken
  | flushed => simpa [acceptedBy, refused] using flushed_accounted held taken
  | drain => simpa [acceptedBy, refused] using drain_accounted held taken
  | drained => simpa [acceptedBy, refused] using drained_accounted held taken

theorem run_accounted {trace : List (Taken Op)} {final : Writer Op}
    (run : Run (Does perform) spawn trace final) :
    Accounted (accepted trace) (trace.countP refused) final := by
  apply run.history fun before state =>
    Accounted (accepted before) (before.countP refused) state
  · exact spawn_accounted
  · intro before source event target held taken
    have next := step_accounted event held taken
    simpa [accepted, List.countP_append, List.countP_cons] using next

/-- Steps of the loop alone. -/
def Event.ofLoop : Event Op → Bool
  | .receive | .closed | .full | .tick | .execute | .flushed | .drain | .drained => true
  | .send _ | .cloneWriter | .dropWriter | .shutdown | .reserve | .sentinel
  | .sentinelRefused => false

/-- The loop is on its way out, or a sentinel waits for it. -/
def Writer.Ending (s : Writer Op) : Prop :=
  s.phase.exiting = true ∨ WriteOp.shutdown ∈ s.queue

def LoopPhase.rank : LoopPhase Op → Nat
  | .flushing _ _ => 3
  | .filling | .draining => 2
  | .lastFlush _ => 1
  | .returned => 0

/-- What each step of an ending loop makes smaller. -/
def Writer.work (s : Writer Op) : Nat :=
  4 * s.queue.length + 3 * s.batch.length + 2 * s.phase.inFlight.length + s.phase.rank

theorem after_fill_work (s : Writer Op) (filling : s.phase = .filling) (shouldExit : Bool) :
    (s.afterFill shouldExit).work + s.batch.length ≤ s.work + 1 := by
  unfold Writer.afterFill
  split
  · rename_i empty
    have none_ := List.isEmpty_iff.mp empty
    cases shouldExit <;>
      simp [Writer.work, filling, LoopPhase.inFlight, LoopPhase.rank, none_]
  · simp only [Writer.work, filling, LoopPhase.inFlight, LoopPhase.rank, List.length_nil]
    omega

/-- A step of the loop that leaves it ending, with less to do. -/
def Writer.Progress (s : Writer Op) : Prop :=
  ∃ event t, Does perform s event t ∧ event.ofLoop = true ∧ t.Ending ∧ t.work < s.work

theorem filling_progress (phase : s.phase = .filling) (waits : WriteOp.shutdown ∈ s.queue) :
    s.Progress := by
  by_cases room : s.batch.length < batchSize
  · have can : s.canFill = true := by simp [Writer.canFill, phase, LoopPhase.isFilling, room]
    cases queue : s.queue with
    | nil => simp [queue] at waits
    | cons first rest =>
        cases first with
        | shutdown =>
            have less := after_fill_work { s with queue := rest } phase true
            refine ⟨.receive, ({ s with queue := rest } : Writer Op).afterFill true, ?_, rfl, ?_, ?_⟩
            · change perform s .receive = some _
              simp only [perform, can, if_true, queue]
            · exact Or.inl (after_fill_frame { s with queue := rest } true).2.2.2.2.1
            · simp only [Writer.work, queue, List.length_cons] at less ⊢
              omega
        | op op =>
            refine ⟨.receive, { s with queue := rest, batch := s.batch ++ [op] }, ?_, rfl, ?_, ?_⟩
            · change perform s .receive = some _
              simp only [perform, can, if_true, queue]
            · exact Or.inr (by simpa [queue] using waits)
            · simp only [Writer.work, queue, List.length_cons, List.length_append,
                List.length_nil]
              omega
  · have less := after_fill_work s phase false
    have fullBatch : batchSize ≤ s.batch.length := Nat.le_of_not_lt room
    have sized : 100 ≤ s.batch.length := fullBatch
    refine ⟨.full, s.afterFill false, ?_, rfl, ?_, by omega⟩
    · change perform s .full = some _
      simp [perform, phase, LoopPhase.isFilling, fullBatch]
    · refine Or.inr ?_
      rw [(after_fill_frame s false).1]
      exact waits

theorem flushing_progress (left : List Op) (shouldExit : Bool)
    (phase : s.phase = .flushing left shouldExit) (ending : s.Ending) : s.Progress := by
  cases left with
  | cons op left =>
      let t : Writer Op :=
        { s with phase := .flushing left shouldExit, executed := s.executed ++ [op] }
      refine ⟨.execute, t, ?_, rfl, ?_, ?_⟩
      · change perform s .execute = some _
        simp only [perform, phase]
        rfl
      · simpa [t, Writer.Ending, phase, LoopPhase.exiting] using ending
      · simp only [t, Writer.work, phase, LoopPhase.inFlight, LoopPhase.rank, List.length_cons]
        omega
  | nil =>
      let t : Writer Op := { s with phase := if shouldExit then .draining else .filling }
      refine ⟨.flushed, t, ?_, rfl, ?_, ?_⟩
      · change perform s .flushed = some _
        simp only [perform, phase]
        rfl
      · cases shouldExit with
        | true => exact Or.inl rfl
        | false => simpa [t, Writer.Ending, phase, LoopPhase.exiting] using ending
      · cases shouldExit <;> simp [t, Writer.work, phase, LoopPhase.inFlight, LoopPhase.rank]

theorem draining_progress (phase : s.phase = .draining) : s.Progress := by
  have exits : s.phase.exiting = true := by rw [phase]; rfl
  cases queue : s.queue with
  | cons first rest =>
      cases first with
      | shutdown =>
          refine ⟨.drain, { s with queue := rest }, ?_, rfl, Or.inl exits, ?_⟩
          · change perform s .drain = some _
            simp [perform, phase, LoopPhase.isDraining, queue]
          · simp only [Writer.work, queue, List.length_cons]
            omega
      | op op =>
          refine ⟨.drain, { s with queue := rest, batch := s.batch ++ [op] }, ?_, rfl,
            Or.inl exits, ?_⟩
          · change perform s .drain = some _
            simp [perform, phase, LoopPhase.isDraining, queue]
          · simp only [Writer.work, queue, List.length_cons, List.length_append, List.length_nil]
            omega
  | nil =>
      cases batch : s.batch with
      | nil =>
          refine ⟨.drained, { s with phase := .returned }, ?_, rfl, Or.inl rfl, ?_⟩
          · change perform s .drained = some _
            simp [perform, phase, LoopPhase.isDraining, queue, batch]
          · simp [Writer.work, phase, queue, batch, LoopPhase.inFlight, LoopPhase.rank]
      | cons op rest =>
          refine ⟨.drained, { s with phase := .lastFlush s.batch, batch := [] }, ?_, rfl,
            Or.inl rfl, ?_⟩
          · change perform s .drained = some _
            simp [perform, phase, LoopPhase.isDraining, queue, batch]
          · simp only [Writer.work, phase, queue, batch, LoopPhase.inFlight, LoopPhase.rank,
              List.length_cons, List.length_nil]
            omega

theorem last_flush_progress (left : List Op) (phase : s.phase = .lastFlush left) :
    s.Progress := by
  cases left with
  | cons op left =>
      let t : Writer Op := { s with phase := .lastFlush left, executed := s.executed ++ [op] }
      refine ⟨.execute, t, ?_, rfl, Or.inl rfl, ?_⟩
      · change perform s .execute = some _
        simp only [perform, phase]
        rfl
      · simp only [t, Writer.work, phase, LoopPhase.inFlight, LoopPhase.rank, List.length_cons]
        omega
  | nil =>
      refine ⟨.flushed, { s with phase := .returned }, ?_, rfl, Or.inl rfl, ?_⟩
      · change perform s .flushed = some _
        simp only [perform, phase]
      · simp [Writer.work, phase, LoopPhase.inFlight, LoopPhase.rank]

theorem loop_progress (ending : s.Ending) (running : s.phase.isReturned = false) :
    s.Progress := by
  cases phase : s.phase with
  | filling =>
      have waits : WriteOp.shutdown ∈ s.queue := by
        simpa [Writer.Ending, phase, LoopPhase.exiting] using ending
      exact filling_progress phase waits
  | flushing left shouldExit => exact flushing_progress left shouldExit phase ending
  | draining => exact draining_progress phase
  | lastFlush left => exact last_flush_progress left phase
  | returned => simp [phase, LoopPhase.isReturned] at running

/-- Left to itself, an ending loop returns. -/
theorem loop_returns (ending : s.Ending) :
    ∃ trace final, Run (Does perform) s trace final ∧
      (∀ taken ∈ trace, taken.2.1.ofLoop = true) ∧ final.phase.isReturned = true := by
  induction work : s.work using Nat.strong_induction_on generalizing s with
  | _ amount ih =>
      cases over_ : s.phase.isReturned with
      | true => exact ⟨[], s, .nil, by simp, over_⟩
      | false =>
          obtain ⟨event, t, taken, loop, later, less⟩ := loop_progress ending over_
          obtain ⟨trace, final, run, loops, returned⟩ := ih t.work (work ▸ less) later rfl
          refine ⟨_, final, run.cons taken, ?_, returned⟩
          intro step member
          rcases List.mem_cons.mp member with rfl | member
          · exact loop
          · exact loops step member

/-- A writer that has accepted a sentinel is ending, or was told so and has returned. -/
theorem accepted_ending (held : Accounted sent refusals s)
    (stopped : WriteOp.shutdown ∈ sent) : s.Ending := by
  cases exits : s.phase.exiting with
  | true => exact Or.inl exits
  | false =>
      have whole := held.looping exits
      rw [whole] at stopped
      rcases List.mem_append.mp stopped with taken | queued
      · simp at taken
      · exact Or.inr queued

/-- In every run the operations are executed in the order the channel took them, none
twice and none that it did not take; a returned loop has executed all that came before
the first sentinel, and a loop whose channel took a sentinel returns if it is let to. -/
theorem accepted_executed_once (trace : List (Taken Op)) (final : Writer Op)
    (run : Run (Does perform) spawn trace final) :
    final.executed <+: ops (accepted trace) ∧
      (final.phase.isReturned = true → beforeSentinel (accepted trace) <+: final.executed) ∧
      (WriteOp.shutdown ∈ accepted trace → ∃ more last, Run (Does perform) final more last ∧
        (∀ taken ∈ more, taken.2.1.ofLoop = true) ∧ last.phase.isReturned = true) ∧
      final.droppedOps = UInt64.ofNat (trace.countP refused) := by
  have held := run_accounted run
  refine ⟨?_, ?_, ?_, held.counted⟩
  · rw [held.order]
    simp only [Writer.pipeline, List.append_assoc]
    exact List.prefix_append _ _
  · intro returned
    have phase : final.phase = .returned := by
      cases phase : final.phase <;> simp [phase, LoopPhase.isReturned] at returned
      rfl
    have batch := held.emptied (by rw [phase]; rfl) (by rw [phase]; rfl)
    have covered := held.covered (by rw [phase]; rfl)
    simpa [Writer.pipeline, phase, LoopPhase.inFlight, batch] using covered
  · intro stopped
    exact loop_returns (accepted_ending held stopped)

/-- A batch that the sentinel cuts, an operation sent during its flush, and the drain. -/
theorem cut_batch_executed :
    ∃ trace final, Run (Does perform) (spawn : Writer Nat) trace final ∧
      trace.map (fun taken => taken.2.1) = [.send (.op 1), .send (.op 2), .receive, .shutdown,
        .reserve, .sentinel, .receive, .receive, .send (.op 3), .execute, .execute, .flushed,
        .drain, .drained, .execute, .flushed] ∧
      decide (final.executed = [1, 2, 3]) = true ∧ final.executed <+: ops (accepted trace) := by
  obtain ⟨trace, final, run, same, reached⟩ := @performed _ _ (spawn : Writer Nat) perform
    [.send (.op 1), .send (.op 2), .receive, .shutdown, .reserve, .sentinel, .receive, .receive,
      .send (.op 3), .execute, .execute, .flushed, .drain, .drained, .execute, .flushed]
    (fun final : Writer Nat => decide (final.executed = [1, 2, 3])) (by decide +kernel)
  exact ⟨trace, final, run, same, reached, (accepted_executed_once trace final run).1⟩

end Ccflare.AsyncWriter
