import Ccflare.Ledger
import Ccflare.Providers

/-!
The cap on proxied requests. A handler takes a slot behind the check of the authentication and
gives it back when it returns or is dropped, whatever it answers. The body of a streamed answer
is relayed after its handler has returned, so no slot is held for it.
-/

namespace Ccflare.ConcurrencySlots

open Ledger MachineNumber Providers Transition

/-- `str::parse::<usize>`: a plus sign if any, digits, and a value in range. -/
def parseUsize (text : String) : Option Nat :=
  let digits := match text.toList with
    | '+' :: rest => rest
    | rest => rest
  if digits = [] ∨ ¬ digits.all Char.isDigit then none
  else if digitsValue digits < 2 ^ 64 then some (digitsValue digits) else none

def getMaxConcurrentRequests (env : Option String) (maxConcurrentRequests : Option Nat) :
    Option Nat :=
  match env.bind parseUsize with
  | some n => if 0 < n then some n else maxConcurrentRequests.filter (0 < ·)
  | none => maxConcurrentRequests.filter (0 < ·)

/-- What a request meets before its path is looked at. -/
inductive Entry where
  | unauthorized
  | tooManyRequests
  | entered
  deriving DecidableEq

/-- The free slots, if they are counted, the handlers at work and the bodies being relayed. -/
structure Server where
  slots : Option Nat
  handlers : List Nat
  relays : List Nat
  deriving DecidableEq

def start (limit : Option Nat) : Server := ⟨limit, [], []⟩

def entry (s : Server) (isAuthenticated : Bool) : Entry :=
  if !isAuthenticated then .unauthorized
  else if s.slots = some 0 then .tooManyRequests else .entered

inductive Event where
  | arrive (request : Nat) (isAuthenticated : Bool)
  | leave (handler : Nat) (streaming : Bool)
  | relayed (relay : Nat)

def perform (s : Server) : Event → Option Server
  | .arrive request isAuthenticated =>
      match entry s isAuthenticated with
      | .entered => some { s with slots := s.slots.map (· - 1), handlers := s.handlers ++ [request] }
      | .unauthorized | .tooManyRequests => some s
  | .leave handler streaming =>
      (s.handlers[handler]?).map fun request =>
        { s with
          slots := s.slots.map (· + 1)
          handlers := s.handlers.eraseIdx handler
          relays := if streaming then s.relays ++ [request] else s.relays }
  | .relayed relay =>
      (s.relays[relay]?).map fun _ => { s with relays := s.relays.eraseIdx relay }

abbrev Taken := Server × Event × Server

theorem limit_positive (env : Option String) (maxConcurrentRequests : Option Nat) (limit : Nat)
    (set : getMaxConcurrentRequests env maxConcurrentRequests = some limit) : 0 < limit := by
  unfold getMaxConcurrentRequests at set
  split at set
  · split at set
    · next positive =>
        obtain rfl := Option.some.inj set
        exact positive
    · exact of_decide_eq_true (Option.filter_eq_some_iff.mp set).2
  · exact of_decide_eq_true (Option.filter_eq_some_iff.mp set).2

/-- Each slot is free or with a handler, and without a limit none is counted. -/
def Slotted (limit : Option Nat) (s : Server) : Prop :=
  s.slots.map (· + s.handlers.length) = limit

/-- The request that gets a slot. -/
def entered (taken : Taken) : Multiset Nat :=
  match taken.2.1 with
  | .arrive request isAuthenticated =>
      if entry taken.1 isAuthenticated = .entered then {request} else 0
  | _ => 0

/-- The request that ends: its answer is complete or broken off, or its handler is dropped. -/
def ended (taken : Taken) : Multiset Nat :=
  match taken.2.1 with
  | .leave handler false => (taken.1.handlers[handler]?).elim 0 singleton
  | .relayed relay => (taken.1.relays[relay]?).elim 0 singleton
  | _ => 0

def inFlight (requests : List Nat) : Multiset Nat := (requests.map singleton).sum

def requests : Book Server Event (Multiset Nat) where
  held s := inFlight s.handlers + inFlight s.relays
  taken := entered
  given := ended

theorem in_flight_append (before : List Nat) (request : Nat) :
    inFlight (before ++ [request]) = inFlight before + {request} := by
  simp [inFlight]

theorem in_flight_erase (all : List Nat) (index request : Nat) (here : all[index]? = some request) :
    inFlight (all.eraseIdx index) + {request} = inFlight all :=
  sum_erase _ all index request here

theorem arrive_step {s target : Server} {request : Nat} {isAuthenticated : Bool}
    (moved : perform s (.arrive request isAuthenticated) = some target) :
    entry s isAuthenticated = .entered ∧ target =
        { s with slots := s.slots.map (· - 1), handlers := s.handlers ++ [request] } ∨
      entry s isAuthenticated ≠ .entered ∧ target = s := by
  simp only [perform] at moved
  cases met : entry s isAuthenticated with
  | entered =>
      rw [met] at moved
      exact .inl ⟨rfl, (Option.some.inj moved).symm⟩
  | unauthorized | tooManyRequests =>
      rw [met] at moved
      exact .inr ⟨nofun, (Option.some.inj moved).symm⟩

theorem requests_entered (source : Server) (event : Event) (target : Server)
    (moved : perform source event = some target) : requests.Entered (source, event, target) := by
  cases event with
  | arrive request isAuthenticated =>
      rcases arrive_step moved with ⟨met, rfl⟩ | ⟨met, rfl⟩
      · simp [Book.Entered, requests, entered, ended, met, in_flight_append, add_right_comm]
      · simp [Book.Entered, requests, entered, ended, met]
  | leave handler streaming =>
      obtain ⟨request, here, rfl⟩ := Option.map_eq_some_iff.mp moved
      have gone := in_flight_erase source.handlers handler request here
      cases streaming with
      | false =>
          simp only [Book.Entered, requests, entered, ended, here, Bool.false_eq_true, if_false,
            Option.elim, ← gone]
          rw [add_right_comm, add_zero]
      | true =>
          simp only [Book.Entered, requests, entered, ended, if_true, in_flight_append, ← gone]
          rw [add_zero, add_zero, add_right_comm, add_assoc]
  | relayed relay =>
      obtain ⟨request, here, rfl⟩ := Option.map_eq_some_iff.mp moved
      have gone := in_flight_erase source.relays relay request here
      simp [Book.Entered, requests, entered, ended, here, ← gone, add_assoc]

theorem entered_free {s : Server} {isAuthenticated : Bool}
    (met : entry s isAuthenticated = .entered) : s.slots ≠ some 0 := by
  intro none_left
  cases isAuthenticated <;> simp [entry, none_left] at met

theorem step_slotted {limit : Option Nat} (source : Server) (event : Event) (target : Server)
    (slotted : Slotted limit source) (moved : Does perform source event target) :
    Slotted limit target := by
  cases event with
  | arrive request isAuthenticated =>
      rcases arrive_step moved with ⟨met, rfl⟩ | ⟨met, rfl⟩
      · rw [← slotted]
        cases free : source.slots with
        | none => simp [Slotted]
        | some slots =>
            have : 0 < slots := Nat.pos_of_ne_zero fun none_left =>
              entered_free met (free.trans (congrArg some none_left))
            simp only [Slotted, Option.map_some, List.length_append, List.length_singleton,
              Option.some.injEq]
            omega
      · exact slotted
  | leave handler streaming =>
      obtain ⟨request, here, rfl⟩ := Option.map_eq_some_iff.mp moved
      obtain ⟨inside, -⟩ := List.getElem?_eq_some_iff.mp here
      rw [← slotted]
      cases free : source.slots with
      | none => simp [Slotted]
      | some slots =>
          simp only [Slotted, Option.map_some, List.length_eraseIdx_of_lt inside,
            Option.some.injEq]
          omega
  | relayed relay =>
      obtain ⟨request, here, rfl⟩ := Option.map_eq_some_iff.mp moved
      exact slotted

/-- With one slot and more, any number of streamed answers can be on their way at once. -/
theorem streams_pile_up (limit : Option Nat) (some_slot : limit ≠ some 0) (streams : Nat) :
    ∃ trace, Run (Does perform) (start limit) trace ⟨limit, [], List.range streams⟩ := by
  induction streams with
  | zero => exact ⟨[], .nil⟩
  | succ streams ih =>
      obtain ⟨trace, run⟩ := ih
      have enters : Does perform ⟨limit, [], List.range streams⟩ (.arrive streams true)
          ⟨limit.map (· - 1), [streams], List.range streams⟩ := by
        simp [Does, perform, entry, some_slot]
      have back : (limit.map (· - 1)).map (· + 1) = limit := by
        cases limit with
        | none => rfl
        | some slots =>
            have : 0 < slots := Nat.pos_of_ne_zero fun none_left => some_slot (congrArg some none_left)
            simp only [Option.map_some, Option.some.injEq]
            omega
      have leaves : Does perform ⟨limit.map (· - 1), [streams], List.range streams⟩ (.leave 0 true)
          ⟨limit, [], List.range (streams + 1)⟩ := by
        simp [Does, perform, back, List.range_succ]
      exact ⟨_, (run.snoc enters).snoc leaves⟩

/-- The cap is on handlers: their number never exceeds it, and a request is turned away only
when so many are at work; each request that entered is at work, being relayed or has ended. The
answers that are being relayed are not capped. -/
theorem cap_on_handlers (env : Option String) (maxConcurrentRequests : Option Nat) :
    (∀ trace final,
      Run (Does perform) (start (getMaxConcurrentRequests env maxConcurrentRequests)) trace final →
      Slotted (getMaxConcurrentRequests env maxConcurrentRequests) final ∧
      inFlight final.handlers + inFlight final.relays + total ended trace =
        total entered trace ∧
      ∀ taken ∈ trace, ∀ request isAuthenticated, taken.2.1 = .arrive request isAuthenticated →
        (entry taken.1 isAuthenticated = .tooManyRequests ↔
          isAuthenticated = true ∧ getMaxConcurrentRequests env maxConcurrentRequests =
            some taken.1.handlers.length)) ∧
      ∀ streams, ∃ trace final,
        Run (Does perform) (start (getMaxConcurrentRequests env maxConcurrentRequests)) trace
          final ∧ final.handlers = [] ∧ final.relays.length = streams := by
  have some_slot : getMaxConcurrentRequests env maxConcurrentRequests ≠ some 0 := fun none_left =>
    absurd (limit_positive env maxConcurrentRequests 0 none_left) (Nat.lt_irrefl 0)
  generalize getMaxConcurrentRequests env maxConcurrentRequests = limit at some_slot ⊢
  have initially : Slotted limit (start limit) := by
    cases limit <;> rfl
  refine ⟨fun trace final run => ⟨run.invariant _ initially step_slotted, ?_, ?_⟩, fun streams => ?_⟩
  · exact (requests.closed requests_entered run).trans (zero_add _)
  · rintro ⟨source, event, target⟩ member request isAuthenticated -
    have slotted := (run.transitions _ initially step_slotted _ member).1
    cases isAuthenticated with
    | false => simp [entry]
    | true =>
        rw [← slotted]
        cases free : source.slots with
        | none => simp [entry, free]
        | some slots => simp [entry, free]
  · obtain ⟨trace, run⟩ := streams_pile_up limit some_slot streams
    exact ⟨trace, _, run, rfl, List.length_range⟩

theorem three_streams_one_slot : ∃ trace final,
    Run (Does perform) (start (some 1)) trace final ∧ final.handlers = [] ∧
      final.relays.length = 3 :=
  (cap_on_handlers none (some 1)).2 3

end Ccflare.ConcurrencySlots
