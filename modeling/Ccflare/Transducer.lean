import Mathlib.Data.List.Basic
import Mathlib.Tactic.Common

/-!
Machines that read one input at a time and emit a list of outputs, and acceptors
that watch what is emitted. A loop over groups of inputs is the loop over all of
them; an acceptor follows a run exactly as far as each step keeps its promise.
-/

namespace Ccflare.Transducer

variable {State Coarse Input Group Output Phase : Type}

def run (step : State → Input → List Output × State) : State → List Input → List Output × State
  | state, [] => ([], state)
  | state, input :: rest =>
      let (emitted, next) := step state input
      let (later, final) := run step next rest
      (emitted ++ later, final)

@[simp]
theorem run_nil (step : State → Input → List Output × State) (state : State) :
    run step state [] = ([], state) := rfl

theorem run_cons (step : State → Input → List Output × State) (state : State) (input : Input)
    (rest : List Input) :
    run step state (input :: rest) =
      ((step state input).1 ++ (run step (step state input).2 rest).1,
        (run step (step state input).2 rest).2) := rfl

theorem run_append (step : State → Input → List Output × State) (state : State)
    (left right : List Input) :
    run step state (left ++ right) =
      ((run step state left).1 ++ (run step (run step state left).2 right).1,
        (run step (run step state left).2 right).2) := by
  induction left generalizing state with
  | nil => simp
  | cons input rest ih => simp [run_cons, ih]

@[simp]
theorem run_singleton (step : State → Input → List Output × State) (state : State)
    (input : Input) : run step state [input] = step state input := by
  simp [run_cons]

/-- A machine whose step on a group is the run of a finer machine over the
members of the group runs over all members of all groups. `view` is the part of
its state the finer machine has, `holds` what it may assume of the rest. -/
theorem run_groups (step : State → Input → List Output × State)
    (coarse : Coarse → Group → List Output × Coarse) (members : Group → List Input)
    (view : Coarse → State) (holds : Coarse → Prop)
    (splits : ∀ state group, holds state →
      (coarse state group).1 = (run step (view state) (members group)).1 ∧
      view (coarse state group).2 = (run step (view state) (members group)).2 ∧
      holds (coarse state group).2)
    (state : Coarse) (groups : List Group) (start : holds state) :
    (run coarse state groups).1 = (run step (view state) (groups.flatMap members)).1 ∧
      view (run coarse state groups).2 = (run step (view state) (groups.flatMap members)).2 ∧
      holds (run coarse state groups).2 := by
  induction groups generalizing state with
  | nil => exact ⟨rfl, rfl, start⟩
  | cons group rest ih =>
      obtain ⟨outputs, states, kept⟩ := splits state group start
      obtain ⟨laterOutputs, laterStates, laterKept⟩ := ih _ kept
      rw [run_cons, List.flatMap_cons, run_append, ← states, ← outputs, ← laterOutputs,
        ← laterStates]
      exact ⟨rfl, rfl, laterKept⟩

/-- Outputs nobody watches change nothing for the others. -/
theorem run_shown (step : State → Input → List Output × State) (shown : Output → Bool)
    (state : State) (inputs : List Input) :
    run (fun state input => ((step state input).1.filter shown, (step state input).2))
        state inputs =
      ((run step state inputs).1.filter shown, (run step state inputs).2) := by
  induction inputs generalizing state with
  | nil => rfl
  | cons input rest ih => rw [run_cons, run_cons, ih, List.filter_append]

/-- What one part of a machine puts out. `select` passes the inputs meant for the
part, `view` is what it has of the state, `shown` tells its outputs from those of the rest. -/
theorem run_part (part : State → Input → List Output × State)
    (whole : Coarse → Group → List Output × Coarse) (select : Group → Option Input)
    (shown : Output → Bool) (view : Coarse → State) (holds : Coarse → Prop)
    (splits : ∀ state group, holds state →
      (whole state group).1.filter shown = (run part (view state) (select group).toList).1 ∧
      view (whole state group).2 = (run part (view state) (select group).toList).2 ∧
      holds (whole state group).2)
    (state : Coarse) (groups : List Group) (start : holds state) :
    (run whole state groups).1.filter shown =
      (run part (view state) (groups.filterMap select)).1 := by
  have split := run_groups part
    (fun state group => ((whole state group).1.filter shown, (whole state group).2))
    (fun group => (select group).toList) view holds splits state groups start
  rw [run_shown, ← List.filterMap_eq_flatMap_toList] at split
  exact split.1

/-- What every step keeps, a whole run keeps. -/
theorem run_invariant (step : State → Input → List Output × State) (holds : State → Prop)
    (keeps : ∀ state input, holds state → holds (step state input).2)
    (state : State) (inputs : List Input) (initial : holds state) :
    holds (run step state inputs).2 := by
  induction inputs generalizing state with
  | nil => exact initial
  | cons input rest ih => exact ih _ (keeps state input initial)

def follow (advance : Phase → Output → Option Phase) (phase : Phase) (outputs : List Output) :
    Option Phase :=
  outputs.foldlM advance phase

@[simp]
theorem follow_nil (advance : Phase → Output → Option Phase) (phase : Phase) :
    follow advance phase [] = some phase := rfl

@[simp]
theorem follow_cons (advance : Phase → Output → Option Phase) (phase : Phase) (output : Output)
    (rest : List Output) :
    follow advance phase (output :: rest) =
      (advance phase output).bind fun next => follow advance next rest := by
  simp [follow]

theorem follow_append (advance : Phase → Output → Option Phase) (phase : Phase)
    (left right : List Output) :
    follow advance phase (left ++ right) =
      (follow advance phase left).bind fun next => follow advance next right := by
  simp [follow]

/-- Each step of the run is good in the state it starts from. -/
def AllGood (step : State → Input → List Output × State) (good : State → Input → Prop) :
    State → List Input → Prop
  | _, [] => True
  | state, input :: rest => good state input ∧ AllGood step good (step state input).2 rest

/-- The acceptor follows a run exactly when every step is good, provided it
follows good steps, keeps the relation along them and refuses all others. -/
theorem follow_run (step : State → Input → List Output × State) (good : State → Input → Prop)
    (advance : Phase → Output → Option Phase) (related : State → Phase → Prop)
    (accepts : ∀ state phase input, related state phase → good state input →
      ∃ next, follow advance phase (step state input).1 = some next ∧
        related (step state input).2 next)
    (refuses : ∀ state phase input, related state phase → ¬ good state input →
      follow advance phase (step state input).1 = none)
    (state : State) (phase : Phase) (inputs : List Input) (start : related state phase) :
    (AllGood step good state inputs ∧
      ∃ final, follow advance phase (run step state inputs).1 = some final ∧
        related (run step state inputs).2 final) ∨
    (¬ AllGood step good state inputs ∧ follow advance phase (run step state inputs).1 = none) := by
  induction inputs generalizing state phase with
  | nil => exact Or.inl ⟨trivial, phase, rfl, start⟩
  | cons input rest ih =>
      rw [run_cons, follow_append]
      by_cases right : good state input
      · obtain ⟨next, followed, kept⟩ := accepts state phase input start right
        rw [followed]
        simp only [AllGood, right, true_and, Option.bind_some]
        exact ih _ next kept
      · rw [refuses state phase input start right]
        exact Or.inr ⟨fun all => right all.1, rfl⟩

end Ccflare.Transducer
