import Mathlib.Data.List.Basic
import Mathlib.Tactic.Common

/-!
Vectors that are written by index, where an index outside has no result, and loops over the
indices from one on.
-/

namespace Ccflare.IndexedLoop

variable {Value State : Type}

def store (index : Nat) (value : Value) (cells : List Value) : Option (List Value) :=
  if index < cells.length then some (cells.set index value) else none

theorem store_some (index : Nat) (value : Value) (cells : List Value)
    (within : index < cells.length) : store index value cells = some (cells.set index value) :=
  if_pos within

/-- `for index in 1..=count`, which ends where the body has no result. -/
def fromOne (step : State → Nat → Option State) (count : Nat) (start : State) : Option State :=
  (List.range' 1 count).foldlM step start

theorem from_one_succ (step : State → Nat → Option State) (count : Nat) (start : State) :
    fromOne step (count + 1) start =
      (fromOne step count start).bind fun state => step state (count + 1) := by
  rw [fromOne, List.range'_1_concat, List.foldlM_append, Nat.add_comm 1 count]
  simp [fromOne]

/-- What holds at the beginning, and after a pass if it held before it, holds at the end. The
passes have a result each, and so has the loop. -/
theorem from_one_invariant (step : State → Nat → Option State) (holds : Nat → State → Prop)
    (count : Nat) (start : State) (initial : holds 0 start)
    (keeps : ∀ done < count, ∀ state, holds done state →
      ∃ next, step state (done + 1) = some next ∧ holds (done + 1) next) :
    ∃ final, fromOne step count start = some final ∧ holds count final := by
  induction count with
  | zero => exact ⟨start, rfl, initial⟩
  | succ count ih =>
      obtain ⟨state, reached, held⟩ := ih fun done before => keeps done (Nat.lt_succ_of_lt before)
      obtain ⟨next, stepped, kept⟩ := keeps count (Nat.lt_succ_self count) state held
      exact ⟨next, by rw [from_one_succ, reached, Option.bind_some, stepped], kept⟩

end Ccflare.IndexedLoop
