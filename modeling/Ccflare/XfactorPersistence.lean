import Ccflare.Account
import Ccflare.References
import Ccflare.Transition

/-!
The X-factor states of accounts: a cache that the background task fills and updates,
and a table it saves the cache to, whose rows refer to the accounts with foreign keys
enforced. Accounts are created and deleted by requests meanwhile. What the estimator
computes is a parameter; what is saved of it is not.
-/

namespace Ccflare.XfactorPersistence

open MachineNumber References Transition

/-- The figures of an account that are saved, all in columns that hold no NULL. -/
structure Figures where
  mu : F64
  sigmaSq : F64
  nEff : F64
  emaProxyRate : F64
  cIHardLower : F64
  updatedAtMs : Int
  kfE : F64
  kfEDot : F64
  kfP00 : F64
  kfP01 : F64
  kfP10 : F64
  kfP11 : F64
  lagEstimateMs : Int
  deriving DecidableEq

/-- A NaN is bound as NULL, which the columns refuse. -/
def Figures.storable (figures : Figures) : Bool :=
  [figures.mu, figures.sigmaSq, figures.nEff, figures.emaProxyRate, figures.cIHardLower,
    figures.kfE, figures.kfEDot, figures.kfP00, figures.kfP01, figures.kfP10,
    figures.kfP11].all fun figure => decide (figure ≠ .nan)

structure XFactorDbState where
  accountId : String
  figures : Figures
  deriving DecidableEq

/-- `AccountCapacityState`; `window` is what is not saved. -/
structure AccountCapacityState (Window : Type) where
  accountId : String
  figures : Figures
  window : Window
  deriving DecidableEq

variable {Window : Type}

/-- The numerical part of the estimator. -/
structure Estimator (Window : Type) where
  prior : Account → Figures × Window
  rebuild : Account → Figures → Figures × Window
  onUsagePoll : Figures × Window → Int → F64 → Figures × Window

structure Service (Window : Type) where
  accounts : List Account
  rows : List XFactorDbState
  cache : List (AccountCapacityState Window)
  deriving DecidableEq

def stateReference : Reference Account XFactorDbState String where
  parentKey := Account.id
  childKey row := some row.accountId

variable (estimator : Estimator Window)

def newState (account : Account) : AccountCapacityState Window :=
  ⟨account.id, (estimator.prior account).1, (estimator.prior account).2⟩

def kfInitVariance : F64 := .ofInt 1000000000000

/-- The state of the filter is reset when the posterior is restored. -/
def restoreFromDb (db : Figures) : Figures :=
  { db with
    kfE := .ofInt 0
    kfEDot := .ofInt 0
    kfP00 := kfInitVariance
    kfP01 := .ofInt 0
    kfP10 := .ofInt 0
    kfP11 := kfInitVariance }

def initialState (rows : List XFactorDbState) (account : Account) :
    AccountCapacityState Window :=
  let restored := match rows.find? fun row => row.accountId = account.id with
    | some row => restoreFromDb row.figures
    | none => (estimator.prior account).1
  let rebuilt := estimator.rebuild account restored
  ⟨account.id, rebuilt.1, rebuilt.2⟩

def initializeCache (accounts : List Account) (rows : List XFactorDbState) : Service Window :=
  ⟨accounts, rows, accounts.map (initialState estimator rows)⟩

def cached (id : String) (cache : List (AccountCapacityState Window)) : Bool :=
  cache.any fun state => state.accountId = id

def addMissing (cache : List (AccountCapacityState Window)) (account : Account) :
    List (AccountCapacityState Window) :=
  if cached account.id cache then cache else cache ++ [newState estimator account]

def pollState (nowMs : Int) (usage : String → Option F64) (state : AccountCapacityState Window) :
    AccountCapacityState Window :=
  match usage state.accountId with
  | none => state
  | some utilPct =>
      let polled := estimator.onUsagePoll (state.figures, state.window) nowMs utilPct
      { state with figures := polled.1, window := polled.2 }

/-- `usage` is the five-hour utilisation the usage cache has for an account. -/
def updateFromUsageCache (s : Service Window) (nowMs : Int) (usage : String → Option F64) :
    Service Window :=
  { s with cache :=
      (s.accounts.foldl (addMissing estimator) s.cache).map (pollState estimator nowMs usage) }

def toDbState (state : AccountCapacityState Window) : XFactorDbState :=
  ⟨state.accountId, state.figures⟩

/-- `INSERT .. ON CONFLICT(account_id) DO UPDATE`; an update keeps its reference. -/
def saveState (accounts : List Account) (rows : List XFactorDbState) (state : XFactorDbState) :
    Option (List XFactorDbState) :=
  if !state.figures.storable then none
  else if rows.any fun row => row.accountId = state.accountId then
    some (rows.map fun row => if row.accountId = state.accountId then state else row)
  else stateReference.insertChildren accounts [state] rows

/-- One transaction: the first state that cannot be saved undoes the others. -/
def saveAllStates (accounts : List Account) (states rows : List XFactorDbState) :
    Option (List XFactorDbState) :=
  states.foldlM (saveState accounts) rows

def persistToDb (s : Service Window) : Option (List XFactorDbState) :=
  saveAllStates s.accounts (s.cache.map toDbState) s.rows

/-- `repositories::account::delete`. -/
def delete (s : Service Window) (id : String) : Option (List Account) :=
  stateReference.deleteParents s.rows (fun account => decide (account.id = id)) s.accounts

inductive Event where
  | create (account : Account)
  | deleteAccount (id : String)
  | updateFromUsageCache (nowMs : Int) (usage : String → Option F64)
  | persistToDb

/-- A statement or a transaction that fails is logged and leaves the rows as they are. -/
def perform (s : Service Window) : Event → Option (Service Window)
  | .create account =>
      if s.accounts.any fun old => old.id = account.id ∨ old.name = account.name then some s
      else some { s with accounts := s.accounts ++ [account] }
  | .deleteAccount id => some { s with accounts := (delete s id).getD s.accounts }
  | .updateFromUsageCache nowMs usage => some (updateFromUsageCache estimator s nowMs usage)
  | .persistToDb => some { s with rows := (persistToDb s).getD s.rows }

abbrev Taken (Window : Type) := Service Window × Event × Service Window

def stored (rows : List XFactorDbState) (id : String) : Option XFactorDbState :=
  rows.find? fun row => row.accountId = id

def exists_ (accounts : List Account) (id : String) : Bool :=
  accounts.any fun account => account.id = id

/-- What each transition of a run owes: a delete takes the account away and nothing
else, a save stores the current state of every account that still exists. -/
def Kept (taken : Taken Window) : Prop :=
  match taken.2.1 with
  | .deleteAccount id => exists_ taken.1.accounts id = true →
      taken.2.2.accounts = taken.1.accounts.filter fun account => !decide (account.id = id)
  | .persistToDb => ∀ state ∈ taken.1.cache, exists_ taken.1.accounts state.accountId = true →
      stored taken.2.2.rows state.accountId = some (toDbState state)
  | .create _ | .updateFromUsageCache _ _ => True

/-- Only an account that the cache does not know is deleted, and no NaN is saved. -/
def Respects (taken : Taken Window) : Prop :=
  match taken.2.1 with
  | .deleteAccount id => exists_ taken.1.accounts id = true → cached id taken.1.cache = false
  | .persistToDb => ∀ state ∈ taken.1.cache, state.figures.storable = true
  | .create _ | .updateFromUsageCache _ _ => True

/-- The cache knows accounts that exist, each once, and the rows are of its accounts. -/
structure Sound (s : Service Window) : Prop where
  known : ∀ state ∈ s.cache, exists_ s.accounts state.accountId = true
  saved : ∀ row ∈ s.rows, cached row.accountId s.cache = true
  distinct : (s.cache.map AccountCapacityState.accountId).Nodup

theorem exists_iff (accounts : List Account) (id : String) :
    exists_ accounts id = true ↔ ∃ account ∈ accounts, account.id = id := by
  simp [exists_]

theorem cached_iff (id : String) (cache : List (AccountCapacityState Window)) :
    cached id cache = true ↔ id ∈ cache.map AccountCapacityState.accountId := by
  simp [cached]

theorem initial_sound (accounts : List Account) (rows : List XFactorDbState)
    (keys : (accounts.map Account.id).Nodup) (intact : stateReference.Intact accounts rows) :
    Sound (initializeCache estimator accounts rows) := by
  have ids : (accounts.map (initialState estimator rows)).map AccountCapacityState.accountId =
      accounts.map Account.id := by
    rw [List.map_map]
    rfl
  refine ⟨?_, ?_, ?_⟩
  · intro state member
    obtain ⟨account, here, rfl⟩ := List.mem_map.mp member
    exact (exists_iff accounts _).mpr ⟨account, here, rfl⟩
  · intro row member
    obtain ⟨account, here, same⟩ := (anchored_iff stateReference accounts row).mp
      (intact row member) row.accountId rfl
    rw [cached_iff]
    change row.accountId ∈ (accounts.map (initialState estimator rows)).map _
    rw [ids]
    exact List.mem_map.mpr ⟨account, here, same⟩
  · change ((accounts.map (initialState estimator rows)).map _).Nodup
    rw [ids]
    exact keys

theorem stored_append (rows : List XFactorDbState) (state : XFactorDbState) (id : String)
    (absent : stored rows state.accountId = none) :
    stored (rows ++ [state]) id = if id = state.accountId then some state else stored rows id := by
  unfold stored at absent ⊢
  rw [List.find?_append]
  by_cases same : id = state.accountId
  · subst same
    simp [absent]
  · simp [same, Ne.symm same]

theorem stored_update (rows : List XFactorDbState) (state : XFactorDbState) (id : String)
    (present : rows.any fun row => row.accountId = state.accountId) :
    stored (rows.map fun row => if row.accountId = state.accountId then state else row) id =
      if id = state.accountId then some state else stored rows id := by
  have kept : ∀ row : XFactorDbState,
      (if row.accountId = state.accountId then state else row).accountId = row.accountId := by
    intro row
    split
    · rename_i same
      exact same.symm
    · rfl
  unfold stored
  rw [List.find?_map]
  simp only [Function.comp_def, kept]
  by_cases same : id = state.accountId
  · subst same
    simp only [List.any_eq_true, decide_eq_true_eq] at present
    cases found : rows.find? fun row => row.accountId = state.accountId with
    | none =>
        obtain ⟨row, member, here⟩ := present
        exact absurd here (by simpa using List.find?_eq_none.mp found row member)
    | some row =>
        have here : row.accountId = state.accountId := by simpa using List.find?_some found
        rw [Option.map_some, if_pos here, if_pos rfl]
  · rw [if_neg same]
    cases found : rows.find? fun row => row.accountId = id with
    | none => rfl
    | some row =>
        have here : row.accountId = id := by simpa using List.find?_some found
        rw [Option.map_some, if_neg (by rw [here]; exact same)]

/-- The rows a transaction leaves: the states it saved, and the other rows as they were. -/
structure Saved (states rows after : List XFactorDbState) : Prop where
  stored : ∀ state ∈ states, stored after state.accountId = some state
  others : ∀ id, id ∉ states.map XFactorDbState.accountId → Ccflare.XfactorPersistence.stored after id =
    Ccflare.XfactorPersistence.stored rows id
  ids : ∀ row ∈ after, row.accountId ∈ states.map XFactorDbState.accountId ∨
    ∃ old ∈ rows, old.accountId = row.accountId

theorem saved_update (rows : List XFactorDbState) (state : XFactorDbState)
    (present : rows.any fun row => row.accountId = state.accountId) :
    Saved [state] rows
      (rows.map fun row => if row.accountId = state.accountId then state else row) := by
  refine ⟨?_, ?_, ?_⟩
  · intro saved member
    obtain rfl := List.mem_singleton.mp member
    rw [stored_update rows saved _ present, if_pos rfl]
  · intro id apart
    rw [stored_update rows state id present, if_neg (by simpa using apart)]
  · intro row member
    obtain ⟨old, here, rfl⟩ := List.mem_map.mp member
    split
    · exact Or.inl (by simp)
    · exact Or.inr ⟨old, here, rfl⟩

theorem saved_insert (rows : List XFactorDbState) (state : XFactorDbState)
    (absent : stored rows state.accountId = none) : Saved [state] rows (rows ++ [state]) := by
  refine ⟨?_, ?_, ?_⟩
  · intro saved member
    obtain rfl := List.mem_singleton.mp member
    rw [stored_append rows saved _ absent, if_pos rfl]
  · intro id apart
    rw [stored_append rows state id absent, if_neg (by simpa using apart)]
  · intro row member
    rcases List.mem_append.mp member with old | new
    · exact Or.inr ⟨row, old, rfl⟩
    · obtain rfl := List.mem_singleton.mp new
      exact Or.inl (by simp)

theorem save_state_some (accounts : List Account) (rows : List XFactorDbState)
    (state : XFactorDbState) (storable : state.figures.storable = true)
    (known : exists_ accounts state.accountId = true) :
    ∃ after, saveState accounts rows state = some after ∧ Saved [state] rows after := by
  unfold saveState
  rw [storable]
  simp only [Bool.not_true, Bool.false_eq_true, if_false]
  by_cases present : (rows.any fun row => decide (row.accountId = state.accountId)) = true
  · rw [if_pos present]
    exact ⟨_, rfl, saved_update rows state present⟩
  · rw [if_neg present]
    have anchored : stateReference.Intact accounts [state] := by
      intro child member
      obtain rfl := List.mem_singleton.mp member
      rw [anchored_iff]
      intro key named
      obtain rfl := Option.some.inj named
      exact (exists_iff accounts child.accountId).mp known
    have given := (insert_children_some stateReference accounts [state] rows _).mpr
      ⟨anchored, rfl⟩
    have absent : stored rows state.accountId = none := by
      apply List.find?_eq_none.mpr
      simpa using present
    exact ⟨_, given, saved_insert rows state absent⟩

theorem save_all_states_some (accounts : List Account) (states rows : List XFactorDbState)
    (distinct : (states.map XFactorDbState.accountId).Nodup)
    (storable : ∀ state ∈ states, state.figures.storable = true)
    (known : ∀ state ∈ states, exists_ accounts state.accountId = true) :
    ∃ after, saveAllStates accounts states rows = some after ∧ Saved states rows after := by
  induction states generalizing rows with
  | nil => exact ⟨rows, rfl, by simp, fun _ _ => rfl, fun row member => Or.inr ⟨row, member, rfl⟩⟩
  | cons state rest ih =>
      obtain ⟨fresh, others⟩ := List.nodup_cons.mp distinct
      obtain ⟨middle, first, saved⟩ := save_state_some accounts rows state
        (storable state List.mem_cons_self) (known state List.mem_cons_self)
      obtain ⟨after, later, all⟩ := ih middle others
        (fun other member => storable other (List.mem_cons_of_mem _ member))
        (fun other member => known other (List.mem_cons_of_mem _ member))
      refine ⟨after, ?_, ?_, ?_, ?_⟩
      · unfold saveAllStates at later ⊢
        rw [List.foldlM_cons, first]
        exact later
      · intro other member
        rcases List.mem_cons.mp member with rfl | member
        · rw [all.others _ fresh]
          exact saved.stored other (List.mem_singleton_self other)
        · exact all.stored other member
      · intro id apart
        simp only [List.map_cons, List.mem_cons, not_or] at apart
        rw [all.others id apart.2]
        exact saved.others id (by simpa using apart.1)
      · intro row member
        rcases all.ids row member with here | ⟨old, inMiddle, same⟩
        · exact Or.inl (List.mem_cons_of_mem _ here)
        · rcases saved.ids old inMiddle with one | before
          · simp only [List.map_cons, List.map_nil, List.mem_singleton] at one
            exact Or.inl (by simp [← same, one])
          · obtain ⟨oldest, found, equal⟩ := before
            exact Or.inr ⟨oldest, found, equal.trans same⟩

theorem add_one_ids (cache : List (AccountCapacityState Window)) (account : Account)
    (distinct : (cache.map AccountCapacityState.accountId).Nodup) :
    ((addMissing estimator cache account).map AccountCapacityState.accountId).Nodup ∧
      (∀ id, cached id cache = true → cached id (addMissing estimator cache account) = true) ∧
      ∀ state ∈ addMissing estimator cache account,
        state ∈ cache ∨ state.accountId = account.id := by
  unfold addMissing
  split
  · exact ⟨distinct, fun _ known => known, fun _ member => Or.inl member⟩
  · rename_i fresh
    rw [cached_iff] at fresh
    refine ⟨?_, ?_, ?_⟩
    · rw [List.map_append]
      apply List.Nodup.append distinct (List.nodup_singleton _)
      simpa [newState, List.disjoint_singleton] using fresh
    · intro id known
      rw [cached_iff] at known ⊢
      rw [List.map_append]
      exact List.mem_append_left _ known
    · intro state member
      rcases List.mem_append.mp member with old | new
      · exact Or.inl old
      · obtain rfl := List.mem_singleton.mp new
        exact Or.inr rfl

theorem add_missing_ids (accounts : List Account) (cache : List (AccountCapacityState Window))
    (distinct : (cache.map AccountCapacityState.accountId).Nodup) :
    let after := accounts.foldl (addMissing estimator) cache
    (after.map AccountCapacityState.accountId).Nodup ∧
      (∀ id, cached id cache = true → cached id after = true) ∧
      ∀ state ∈ after, state ∈ cache ∨ exists_ accounts state.accountId = true := by
  induction accounts generalizing cache with
  | nil => exact ⟨distinct, fun _ known => known, fun _ member => Or.inl member⟩
  | cons account rest ih =>
      obtain ⟨nodup, kept, origin⟩ := add_one_ids estimator cache account distinct
      obtain ⟨laterNodup, laterKept, laterOrigin⟩ := ih _ nodup
      refine ⟨laterNodup, fun id known => laterKept id (kept id known), ?_⟩
      intro state member
      rcases laterOrigin state member with old | new
      · rcases origin state old with older | same
        · exact Or.inl older
        · exact Or.inr ((exists_iff _ _).mpr ⟨account, List.mem_cons_self, same.symm⟩)
      · obtain ⟨other, here, same⟩ := (exists_iff _ _).mp new
        exact Or.inr ((exists_iff _ _).mpr ⟨other, List.mem_cons_of_mem _ here, same⟩)

theorem poll_ids (nowMs : Int) (usage : String → Option F64)
    (cache : List (AccountCapacityState Window)) :
    (cache.map (pollState estimator nowMs usage)).map AccountCapacityState.accountId =
      cache.map AccountCapacityState.accountId := by
  rw [List.map_map]
  apply List.map_congr_left
  intro state _
  unfold Function.comp pollState
  split <;> rfl

section Steps

variable {estimator} {s t : Service Window}

theorem update_sound (sound : Sound s) (nowMs : Int) (usage : String → Option F64) :
    Sound (updateFromUsageCache estimator s nowMs usage) := by
  obtain ⟨nodup, kept, origin⟩ := add_missing_ids estimator s.accounts s.cache sound.distinct
  have ids := poll_ids estimator nowMs usage (s.accounts.foldl (addMissing estimator) s.cache)
  refine ⟨?_, ?_, ?_⟩
  · intro state member
    have here : state.accountId ∈
        (s.accounts.foldl (addMissing estimator) s.cache).map
          AccountCapacityState.accountId := by
      rw [← ids]
      exact List.mem_map_of_mem member
    obtain ⟨before, found, same⟩ := List.mem_map.mp here
    rw [← same]
    rcases origin before found with old | new
    · exact sound.known before old
    · exact new
  · intro row member
    have known := kept row.accountId (sound.saved row member)
    rw [cached_iff] at known ⊢
    exact ids ▸ known
  · exact ids ▸ nodup

theorem create_sound (sound : Sound s) (account : Account) :
    Sound { s with accounts := s.accounts ++ [account] } := by
  refine ⟨?_, sound.saved, sound.distinct⟩
  intro state member
  obtain ⟨old, here, same⟩ := (exists_iff _ _).mp (sound.known state member)
  exact (exists_iff _ _).mpr ⟨old, List.mem_append_left _ here, same⟩

-- A row of the account would be of a cached account.
theorem delete_uncached (sound : Sound s) (id : String) (unknown : cached id s.cache = false) :
    delete s id = some (s.accounts.filter fun account => !decide (account.id = id)) := by
  apply (delete_parents_some stateReference s.rows _ s.accounts _).mpr
  refine ⟨?_, rfl⟩
  intro account _ dies row member
  have same : account.id = id := by simpa using dies
  apply Bool.eq_false_iff.mpr
  intro refers
  have named : row.accountId = id := by
    have key := (refers_iff stateReference row account).mp refers
    exact (Option.some.inj key).trans same
  have known := sound.saved row member
  rw [named, unknown] at known
  cases known

theorem delete_sound (sound : Sound s) (id : String) (unknown : cached id s.cache = false) :
    Sound { s with accounts := s.accounts.filter fun account => !decide (account.id = id) } := by
  refine ⟨?_, sound.saved, sound.distinct⟩
  intro state member
  obtain ⟨account, here, same⟩ := (exists_iff _ _).mp (sound.known state member)
  refine (exists_iff _ _).mpr ⟨account, List.mem_filter.mpr ⟨here, ?_⟩, same⟩
  have other : account.id ≠ id := by
    rintro rfl
    have inCache : cached account.id s.cache = true := by
      rw [cached_iff, same]
      exact List.mem_map_of_mem member
    rw [unknown] at inCache
    cases inCache
  simpa using other

theorem persist_saved (sound : Sound s)
    (storable : ∀ state ∈ s.cache, state.figures.storable = true) :
    ∃ after, persistToDb s = some after ∧ Saved (s.cache.map toDbState) s.rows after := by
  apply save_all_states_some
  · rw [List.map_map]
    exact sound.distinct
  · intro row member
    obtain ⟨state, here, rfl⟩ := List.mem_map.mp member
    exact storable state here
  · intro row member
    obtain ⟨state, here, rfl⟩ := List.mem_map.mp member
    exact sound.known state here

theorem saved_sound (sound : Sound s) (after : List XFactorDbState)
    (saved : Saved (s.cache.map toDbState) s.rows after) : Sound { s with rows := after } := by
  refine ⟨sound.known, ?_, sound.distinct⟩
  intro row member
  rcases saved.ids row member with here | ⟨old, before, same⟩
  · rw [cached_iff]
    rw [List.map_map] at here
    exact here
  · rw [← same]
    exact sound.saved old before

theorem step_kept (event : Event) (sound : Sound s) (respects : Respects (s, event, t))
    (taken : Does (perform estimator) s event t) : Sound t ∧ Kept (s, event, t) := by
  change perform estimator s event = some t at taken
  cases event with
  | create account =>
      simp only [perform] at taken
      split at taken
      · cases taken
        exact ⟨sound, trivial⟩
      · cases taken
        exact ⟨create_sound sound account, trivial⟩
  | deleteAccount id =>
      cases taken
      cases there : exists_ s.accounts id with
      | true =>
          have unknown := respects there
          have given := delete_uncached sound id unknown
          simp only [given, Option.getD_some]
          exact ⟨delete_sound sound id unknown, fun _ => rfl⟩
      | false =>
          -- Nothing is deleted: no account has the id.
          have absent : ∀ account ∈ s.accounts, account.id ≠ id := by
            simpa [exists_] using there
          have given := (delete_parents_some stateReference s.rows
            (fun account => decide (account.id = id)) s.accounts _).mpr
              ⟨fun account member dies => absurd (by simpa using dies) (absent account member), rfl⟩
          have all : (s.accounts.filter fun account => !decide (account.id = id)) = s.accounts :=
            List.filter_eq_self.mpr fun account member => by simpa using absent account member
          simp only [delete, given, Option.getD_some, all]
          exact ⟨sound, fun found => by simp [there] at found⟩
  | updateFromUsageCache nowMs usage =>
      cases taken
      exact ⟨update_sound sound nowMs usage, trivial⟩
  | persistToDb =>
      cases taken
      obtain ⟨after, given, saved⟩ := persist_saved sound respects
      simp only [given, Option.getD_some]
      refine ⟨saved_sound sound after saved, ?_⟩
      intro state member _
      exact saved.stored (toDbState state) (List.mem_map_of_mem member)

end Steps

/-- Runs from a start of the service in which no account the cache knows is deleted. -/
theorem persistence_kept (accounts : List Account) (rows : List XFactorDbState)
    (keys : (accounts.map Account.id).Nodup) (intact : stateReference.Intact accounts rows)
    (trace : List (Taken Window)) (final : Service Window)
    (run : Run (Does (perform estimator)) (initializeCache estimator accounts rows) trace final)
    (respects : ∀ taken ∈ trace, Respects taken) : ∀ taken ∈ trace, Kept taken := by
  have start := initial_sound estimator accounts rows keys intact
  have held := run.guarded Sound Respects Kept start
    (fun _ event _ sound guard step => step_kept event sound guard step) respects
  exact held.2

/-- Figures of a cold start. -/
def coldFigures : Figures :=
  ⟨.ofInt 0, .ofInt 1, .ofInt 0, .ofInt 0, .ofInt 0, 0, .ofInt 0, .ofInt 0, kfInitVariance,
    .ofInt 0, .ofInt 0, kfInitVariance, 90000⟩

def coldEstimator : Estimator Unit where
  prior _ := (coldFigures, ())
  rebuild _ figures := (figures, ())
  onUsagePoll state _ _ := state

/-- An account that is gone again before the next cycle, and a save after it. -/
theorem short_lived_account_kept :
    ∃ trace final, Run (Does (perform coldEstimator))
        (initializeCache coldEstimator [makeAccount "a" "anthropic" 0] []) trace final ∧
      trace.map (fun taken => taken.2.2.accounts.length) = [2, 1, 1] ∧
      ∀ taken ∈ trace, Kept taken := by
  have start : Run (Does (perform coldEstimator)) (initializeCache coldEstimator
      [makeAccount "a" "anthropic" 0] []) [] _ := .nil
  have run := ((start.performs (.create (makeAccount "b" "anthropic" 0)) rfl).performs
    (.deleteAccount "b") rfl).performs .persistToDb rfl
  refine ⟨_, _, run, by decide +kernel, ?_⟩
  apply persistence_kept coldEstimator _ _ (by decide) (by intro row member; cases member) _ _ run
  intro taken member
  simp only [List.nil_append, List.cons_append, List.mem_cons, List.not_mem_nil, or_false] at member
  rcases member with rfl | rfl | rfl
  · exact trivial
  · intro _
    decide +kernel
  · intro state inside
    have all : (initializeCache coldEstimator [makeAccount "a" "anthropic" 0] []).cache.all
        fun state => state.figures.storable := by decide +kernel
    exact List.all_eq_true.mp all state inside

/-- Once the state of an account is saved, the account cannot be deleted. -/
theorem saved_account_stays :
    ¬ ∀ (trace : List (Taken Unit)) (final : Service Unit),
      Run (Does (perform coldEstimator))
        (initializeCache coldEstimator [makeAccount "a" "anthropic" 0] []) trace final →
      ∀ taken ∈ trace, Kept taken := by
  intro promised
  have start : Run (Does (perform coldEstimator)) (initializeCache coldEstimator
      [makeAccount "a" "anthropic" 0] []) [] _ := .nil
  have run := (start.performs .persistToDb rfl).performs (.deleteAccount "a") rfl
  have kept := promised _ _ run _ (List.mem_append_right _ (List.mem_singleton_self _))
  have gone := kept (by decide +kernel)
  revert gone
  decide +kernel

/-- And a cached account that is deleted before a save keeps every later save from
being stored. -/
theorem deleted_account_blocks_saves :
    ¬ ∀ (trace : List (Taken Unit)) (final : Service Unit),
      Run (Does (perform coldEstimator))
        (initializeCache coldEstimator
          [makeAccount "a" "anthropic" 0, makeAccount "b" "anthropic" 0] []) trace final →
      ∀ taken ∈ trace, Kept taken := by
  intro promised
  have start : Run (Does (perform coldEstimator)) (initializeCache coldEstimator
      [makeAccount "a" "anthropic" 0, makeAccount "b" "anthropic" 0] []) [] _ := .nil
  have run := (start.performs (.deleteAccount "b") rfl).performs .persistToDb rfl
  have kept := promised _ _ run _ (List.mem_append_right _ (List.mem_singleton_self _))
  have saved := kept _ List.mem_cons_self (by decide +kernel)
  revert saved
  decide +kernel

end Ccflare.XfactorPersistence
