import Mathlib.Data.List.Induction
import Mathlib.Data.Set.Basic

/-!
Runs of a labelled transition system with the transitions they take, in order.
An invariant kept by every step holds at both ends of each transition of a run.
-/

namespace Ccflare.Transition

variable {State Event : Type}

inductive Run (step : State → Event → State → Prop) (start : State) :
    List (State × Event × State) → State → Prop where
  | nil : Run step start [] start
  | snoc {trace : List (State × Event × State)} {source target : State} {event : Event} :
      Run step start trace source → step source event target →
      Run step start (trace ++ [(source, event, target)]) target

variable {step : State → Event → State → Prop} {start final : State}
  {trace : List (State × Event × State)}

theorem Run.invariant (holds : State → Prop) (initially : holds start)
    (kept : ∀ source event target, holds source → step source event target → holds target)
    (run : Run step start trace final) : holds final := by
  induction run with
  | nil => exact initially
  | snoc _ taken ih => exact kept _ _ _ ih taken

/-- An invariant that also looks at the transitions taken so far. -/
theorem Run.history (holds : List (State × Event × State) → State → Prop)
    (initially : holds [] start)
    (kept : ∀ before source event target, holds before source → step source event target →
      holds (before ++ [(source, event, target)]) target)
    (run : Run step start trace final) : holds trace final := by
  induction run with
  | nil => exact initially
  | snoc _ taken ih => exact kept _ _ _ _ ih taken

/-- A run cut before one of its transitions. -/
theorem Run.cut {before after : List (State × Event × State)} {source target : State}
    {event : Event} (run : Run step start (before ++ (source, event, target) :: after) final) :
    Run step start before source ∧ step source event target ∧ Run step target after final := by
  induction after using List.reverseRecOn generalizing final with
  | nil =>
      generalize whole : before ++ [(source, event, target)] = taken at run
      cases run with
      | nil => simp at whole
      | snoc earlier last =>
          obtain ⟨rfl, same⟩ := List.append_inj' whole rfl
          simp only [List.cons.injEq, Prod.mk.injEq, and_true] at same
          obtain ⟨rfl, rfl, rfl⟩ := same
          exact ⟨earlier, last, .nil⟩
  | append_singleton later transition ih =>
      rw [← List.cons_append, ← List.append_assoc] at run
      generalize whole : before ++ (source, event, target) :: later ++ [transition] = taken at run
      cases run with
      | nil => simp at whole
      | snoc earlier last =>
          obtain ⟨rfl, same⟩ := List.append_inj' whole rfl
          obtain rfl := (List.cons.inj same).1
          obtain ⟨first, step, rest⟩ := ih earlier
          exact ⟨first, step, rest.snoc last⟩

theorem Run.cut_at {before after : List (State × Event × State)} {taken : State × Event × State}
    (run : Run step start (before ++ taken :: after) final) :
    Run step start before taken.1 ∧ step taken.1 taken.2.1 taken.2.2 ∧
      Run step taken.2.2 after final :=
  run.cut

/-- What a transition of a run did was done in every longer run. -/
theorem seen_later (did : State × Event × State → Prop) (more : List (State × Event × State))
    (seen : ∃ taken ∈ trace, did taken) : ∃ taken ∈ trace ++ more, did taken := by
  obtain ⟨taken, member, done⟩ := seen
  exact ⟨taken, List.mem_append_left more member, done⟩

theorem event_listed (events : List Event) (same : trace.map (fun taken => taken.2.1) = events) :
    ∀ taken ∈ trace, taken.2.1 ∈ events := by
  intro taken member
  rw [← same]
  exact List.mem_map_of_mem member

/-- An invariant that guarded steps keep, and what each of them owes besides. -/
theorem Run.guarded (holds : State → Prop) (guard owes : State × Event × State → Prop)
    (initially : holds start)
    (kept : ∀ source event target, holds source → guard (source, event, target) →
      step source event target → holds target ∧ owes (source, event, target))
    (all : ∀ taken ∈ trace, guard taken) (run : Run step start trace final) :
    holds final ∧ ∀ taken ∈ trace, owes taken := by
  induction run with
  | nil => exact ⟨initially, by simp⟩
  | snoc _ taken ih =>
      obtain ⟨here, before⟩ := ih fun transition member =>
        all transition (List.mem_append_left _ member)
      have last := all _ (List.mem_append_right _ (List.mem_singleton_self _))
      obtain ⟨next, owed⟩ := kept _ _ _ here last taken
      refine ⟨next, ?_⟩
      intro transition member
      rcases List.mem_append.mp member with earlier | same
      · exact before transition earlier
      · obtain rfl := List.mem_singleton.mp same
        exact owed

/-- Every transition of a run is a step from a state with the invariant. -/
theorem Run.transitions (holds : State → Prop) (initially : holds start)
    (kept : ∀ source event target, holds source → step source event target → holds target)
    (run : Run step start trace final) :
    ∀ transition ∈ trace, holds transition.1 ∧
      step transition.1 transition.2.1 transition.2.2 := by
  have guarded := run.guarded holds (fun _ => True)
    (fun taken => holds taken.1 ∧ step taken.1 taken.2.1 taken.2.2) initially
    (fun source event target here _ taken => ⟨kept source event target here taken, here, taken⟩)
  exact (guarded fun _ _ => trivial).2

/-- An invariant that the events of one kind keep holds all along a run of such events. -/
theorem Run.along (holds : State → Prop) (allowed : Event → Prop) (initially : holds start)
    (kept : ∀ source event target, holds source → allowed event → step source event target →
      holds target)
    (all : ∀ taken ∈ trace, allowed taken.2.1) (run : Run step start trace final) :
    holds final ∧ ∀ taken ∈ trace, holds taken.1 :=
  run.guarded holds (fun taken => allowed taken.2.1) (fun taken => holds taken.1) initially
    (fun source event target here guard taken =>
      ⟨kept source event target here guard taken, here⟩) all

/-- The steps of a program that computes the next state. -/
def Does (perform : State → Event → Option State) (source : State) (event : Event)
    (target : State) : Prop := perform source event = some target

theorem Run.performs {perform : State → Event → Option State} {source target : State}
    (event : Event) (run : Run (Does perform) start trace source)
    (done : perform source event = some target) :
    Run (Does perform) start (trace ++ [(source, event, target)]) target :=
  run.snoc done

theorem Run.trans {first second : List (State × Event × State)} {middle : State}
    (left : Run step start first middle) (right : Run step middle second final) :
    Run step start (first ++ second) final := by
  induction right with
  | nil => simpa using left
  | snoc _ taken ih =>
      rw [← List.append_assoc]
      exact ih.snoc taken

theorem Run.cons {target : State} {event : Event} {rest : List (State × Event × State)}
    (taken : step start event target) (run : Run step target rest final) :
    Run step start ((start, event, target) :: rest) final :=
  Run.trans (.snoc .nil taken) run

/-- Events that can be performed one after the other make a run. -/
theorem performed (perform : State → Event → Option State) (events : List Event)
    (holds : State → Bool) (done : (events.foldlM perform start).any holds = true) :
    ∃ trace final, Run (Does perform) start trace final ∧
      trace.map (fun taken => taken.2.1) = events ∧ holds final = true := by
  induction events generalizing start with
  | nil => exact ⟨[], start, .nil, rfl, by simpa using done⟩
  | cons event rest ih =>
      simp only [List.foldlM_cons, Option.bind_eq_bind] at done
      cases taken : perform start event with
      | none => simp [taken] at done
      | some target =>
          rw [taken] at done
          obtain ⟨trace, final, run, same, reached⟩ := ih done
          exact ⟨_, final, run.cons taken, by simp [same], reached⟩

/-- The same for steps that are taken only where they are allowed. -/
theorem performed_allowed (perform : State → Event → Option State) (events : List Event)
    (allowed : State → Event → Bool) (holds : State → Bool)
    (done : (events.foldlM (fun s event => if allowed s event then perform s event else none)
      start).any holds = true) :
    ∃ trace final, Run (Does perform) start trace final ∧
      trace.map (fun taken => taken.2.1) = events ∧
      (∀ taken ∈ trace, allowed taken.1 taken.2.1 = true) ∧ holds final = true := by
  obtain ⟨trace, final, run, same, reached⟩ := performed _ events holds done
  have unguarded : Run (Does perform) start trace final ∧
      ∀ taken ∈ trace, allowed taken.1 taken.2.1 = true := by
    clear same reached done
    induction run with
    | nil => exact ⟨.nil, by simp⟩
    | snoc _ taken ih =>
        obtain ⟨run, guarded⟩ := ih
        simp only [Does] at taken
        split at taken
        · rename_i here
          refine ⟨run.snoc taken, ?_⟩
          intro transition member
          rcases List.mem_append.mp member with old | last
          · exact guarded transition old
          · obtain rfl := List.mem_singleton.mp last
            exact here
        · cases taken
  exact ⟨trace, final, unguarded.1, same, unguarded.2, reached⟩

theorem performed_once (perform : State → Event → Option State) (event : Event)
    (holds : State → Bool) (done : (perform start event).any holds = true) :
    ∃ target, Does perform start event target ∧ holds target = true := by
  cases taken : perform start event with
  | none => simp [taken] at done
  | some target => exact ⟨target, taken, by simpa [taken] using done⟩

/-- A run whose events are known is split where one of them is performed. -/
theorem split_events (trace : List (State × Event × State)) (first rest : List Event)
    (event : Event) (same : trace.map (fun taken => taken.2.1) = first ++ event :: rest) :
    ∃ before taken after, trace = before ++ taken :: after ∧ taken.2.1 = event ∧
      before.map (fun taken => taken.2.1) = first ∧
      after.map (fun taken => taken.2.1) = rest := by
  obtain ⟨before, tail, rfl, beforeEvents, tailEvents⟩ := List.map_eq_append_iff.mp same
  obtain ⟨taken, after, rfl, here, afterEvents⟩ := List.map_eq_cons_iff.mp tailEvents
  exact ⟨before, taken, after, rfl, here, beforeEvents, afterEvents⟩

/-- A property holds along a whole replay exactly where every step spares it, once a step
from a state that has the property keeps it exactly when it is a step that spares it. -/
theorem replay_iff (perform : State → Event → State) (holds invariant : State → Prop)
    (spares : State → Event → Prop)
    (kept : ∀ s event, invariant s → invariant (perform s event))
    (step : ∀ s event, invariant s → holds s → (holds (perform s event) ↔ spares s event))
    (events : List Event) (s : State) (sound : invariant s) (initially : holds s) :
    (∀ before after, events = before ++ after → holds (before.foldl perform s)) ↔
      ∀ before event after, events = before ++ event :: after →
        spares (before.foldl perform s) event := by
  induction events generalizing s with
  | nil =>
      constructor
      · intro _ before event after same
        simp at same
      · intro _ before after same
        obtain ⟨rfl, rfl⟩ := List.append_eq_nil_iff.mp same.symm
        exact initially
  | cons first rest ih =>
      constructor
      · intro throughout
        have next := throughout [first] rest rfl
        have later := (ih (perform s first) (kept s first sound) next).mp fun before after same =>
          throughout (first :: before) after (by rw [same, List.cons_append])
        intro before event after same
        cases before with
        | nil =>
            obtain ⟨rfl, rfl⟩ := List.cons.inj same
            exact (step s first sound initially).mp next
        | cons other before =>
            obtain ⟨rfl, tail⟩ := List.cons.inj same
            exact later before event after tail
      · intro spared
        have next := (step s first sound initially).mpr (spared [] first rest rfl)
        have later := (ih (perform s first) (kept s first sound) next).mpr
          fun before event after same =>
            spared (first :: before) event after (by rw [same, List.cons_append])
        intro before after same
        cases before with
        | nil => exact initially
        | cons other before =>
            obtain ⟨rfl, tail⟩ := List.cons.inj same
            exact later before after tail

end Ccflare.Transition
