import Ccflare.TokenManager
import Mathlib.Data.List.Basic

/-!
Whether the calls on clones of one account share a refresh. The check after the lock
reads the clone of the call, which nobody else writes to, so a call that was not put
off by the backoff asks the refresher itself.
-/

namespace Ccflare.RefreshSharing

open TokenManager TokenRefresh Transition

/-- A call on a clone of the account whose token has to be refreshed. -/
def Member (account : Account) (s : State) (task : Nat) : Prop :=
  ∃ call, s.calls task = some call ∧ call.original = account ∧
    withoutRefresh account call.now = none

/-- What leads a call away from a token: it comes to the check behind the lock, the backoff
puts it off, it finds no token in the rows, or it goes with another outcome. -/
def astray (token : String) (shared : Shared) (call : Call) : Bool :=
  match call.phase with
  | .checking => (shared.failures call.account.id).any fun record =>
      (checkBackoff record call.now).2 = .inBackoff
  | .recovering =>
      (recoverFromDb call.account (loadAccount shared.rows call.account.id) call.now).isNone
  | .recovered found => found ≠ token
  | .holding _ => true
  | .leaving _ (.ok other) => other ≠ token
  | .leaving _ (.error _) => true
  | _ => false

def Strays (token : String) (taken : Taken) (task : Nat) : Prop :=
  taken.2.1 = .advance task ∧ ∃ call, taken.1.calls task = some call ∧
    astray token taken.1.shared call = true

/-- Behind a success no other call strays from its token. -/
def Spared (account : Account) (trace : List Taken) : Prop :=
  ∀ before after source task result target,
    trace = before ++ (source, .answer task (.ok result), target) :: after →
    Member account source task → ∀ taken ∈ after, ∀ other, other ≠ task →
      Member account taken.1 other → ¬ Strays result.accessToken taken other

def Asked (trace : List Taken) (task : Nat) : Prop :=
  ∃ taken ∈ trace, ∃ call, StartsRefresh taken task call

/-- The call reads this token off the rows. -/
def Recovers (taken : Taken) (task : Nat) (token : String) : Prop :=
  taken.2.1 = .advance task ∧ ∃ call recovered, taken.1.calls task = some call ∧
    recoverFromDb call.account (loadAccount taken.1.shared.rows call.account.id) call.now =
      some (token, recovered)

/-- What a call has behind it where it stands: up to the lock nothing has touched its clone,
and from the refresher on it has asked. -/
def Carried (account : Account) (trace : List Taken) (task : Nat) (call : Call) : Prop :=
  match call.phase with
  | .recovered token => ∃ earlier ∈ trace, Recovers earlier task token
  | .refreshing _ | .refreshed .. | .persisted .. | .failed .. | .leaving .. => Asked trace task
  | .returned _ | .dropped => True
  | _ => call.account = account

section Steps
variable {account : Account} {trace : List Taken} {task : Nat} {call next : Call}

theorem Carried.later (carried : Carried account trace task call) (more : List Taken) :
    Carried account (trace ++ more) task call := by
  cases phase : call.phase with
  | recovered | refreshing | refreshed | persisted | failed | leaving =>
      simp only [Carried, phase] at carried ⊢
      exact seen_later _ more carried
  | returned | dropped => simp only [Carried, phase]
  | entered | cleaning | sweeping | checking | expired | recovering | locking | waiting | holding =>
      simpa only [Carried, phase] using carried

end Steps

section Runs
variable (account : Account) (rows : List Account) (final : State) (trace : List Taken)
  (run : Run Step (newState rows) trace final)
include run

end Runs

end Ccflare.RefreshSharing
