import Ccflare.Transition
import Mathlib.Algebra.BigOperators.Group.Multiset.Basic

/-!
A book kept over the runs of a transition system: what is held changes by what a step takes in
and what it gives away, so a whole run loses nothing and holds nothing twice. The amounts are
multisets of items, or sums.
-/

namespace Ccflare.Ledger

open Transition

variable {State Event Amount : Type} [AddCommMonoid Amount]

structure Book (State Event Amount : Type) where
  held : State → Amount
  taken : State × Event × State → Amount
  given : State × Event × State → Amount

def total (amount : State × Event × State → Amount) (trace : List (State × Event × State)) :
    Amount := (trace.map amount).sum

@[simp]
theorem total_nil (amount : State × Event × State → Amount) : total amount [] = 0 := rfl

@[simp]
theorem total_snoc (amount : State × Event × State → Amount)
    (trace : List (State × Event × State)) (last : State × Event × State) :
    total amount (trace ++ [last]) = total amount trace + amount last := by
  simp [total]

theorem total_add (one other : State × Event × State → Amount)
    (trace : List (State × Event × State)) :
    total (fun taken => one taken + other taken) trace = total one trace + total other trace :=
  List.sum_map_add

/-- A step changes what is held by what it takes in and what it gives away. -/
def Book.Entered (book : Book State Event Amount) (transition : State × Event × State) : Prop :=
  book.held transition.2.2 + book.given transition =
    book.held transition.1 + book.taken transition

def Book.Closed (book : Book State Event Amount) (start : State)
    (trace : List (State × Event × State)) (final : State) : Prop :=
  book.held final + total book.given trace = book.held start + total book.taken trace

theorem Book.closed_nil (book : Book State Event Amount) (start : State) :
    book.Closed start [] start := by
  simp [Book.Closed]

theorem Book.closed_snoc {book : Book State Event Amount} {start source target : State}
    {trace : List (State × Event × State)} {event : Event} (closed : book.Closed start trace source)
    (entered : book.Entered (source, event, target)) :
    book.Closed start (trace ++ [(source, event, target)]) target := by
  simp only [Book.Entered] at entered
  simp only [Book.Closed] at closed ⊢
  calc book.held target + total book.given (trace ++ [(source, event, target)])
      = book.held target + book.given (source, event, target) + total book.given trace := by
        rw [total_snoc, add_assoc, add_comm (book.given _)]
    _ = book.held source + total book.given trace + book.taken (source, event, target) := by
        rw [entered, add_right_comm]
    _ = book.held start + total book.taken (trace ++ [(source, event, target)]) := by
        rw [closed, total_snoc, add_assoc]

/-- Where every step is entered, the book is closed at the end of every run. -/
theorem Book.closed (book : Book State Event Amount) {step : State → Event → State → Prop}
    {start final : State} {trace : List (State × Event × State)}
    (entered : ∀ source event target, step source event target →
      book.Entered (source, event, target)) (run : Run step start trace final) :
    book.Closed start trace final :=
  run.history (book.Closed start) (book.closed_nil start) fun _ source event target closed taken =>
    Book.closed_snoc closed (entered source event target taken)

section Lists
variable {Item : Type}

theorem sum_erase (amount : Item → Amount) (items : List Item) (index : Nat) (item : Item)
    (here : items[index]? = some item) :
    ((items.eraseIdx index).map amount).sum + amount item = (items.map amount).sum := by
  induction items generalizing index with
  | nil => cases here
  | cons first rest ih =>
      cases index with
      | zero =>
          obtain rfl := Option.some.inj here
          exact add_comm _ _
      | succ index =>
          rw [List.eraseIdx_cons_succ, List.map_cons, List.map_cons, List.sum_cons, List.sum_cons,
            add_assoc, ih index here]

theorem sum_set (amount : Item → Amount) (items : List Item) (index : Nat) (item other : Item)
    (here : items[index]? = some item) :
    ((items.set index other).map amount).sum + amount item =
      (items.map amount).sum + amount other := by
  induction items generalizing index with
  | nil => cases here
  | cons first rest ih =>
      cases index with
      | zero =>
          obtain rfl := Option.some.inj here
          simp only [List.set_cons_zero, List.map_cons, List.sum_cons]
          rw [add_right_comm, add_comm (amount other), add_right_comm]
      | succ index =>
          rw [List.set_cons_succ, List.map_cons, List.map_cons, List.sum_cons, List.sum_cons,
            add_assoc, ih index here, add_assoc]

end Lists

end Ccflare.Ledger
