import Ccflare.ApiKeyHashes
import Ccflare.AuthTasks

/-!
The life of an API key. The server hands keys out with a salted scrypt hash in the table, the CLI
with a bare SHA-256 hash; both are managed by their id or by their name, and whoever presents one
is checked against the rows that are active.
-/

namespace Ccflare.IssuedKeys

open ApiKeyHashes AuthTasks Transition
open Authentication hiding Taken Event perform

/-- How the hash in a row was made. -/
inductive Digest where
  | sha256
  | scrypt (salt : List UInt8)
  deriving DecidableEq

/-- A key as it is handed out, with its row and the part of it that is shown in lists. -/
structure Issue where
  plaintext : String
  digest : Digest
  row : ApiKey
  prefixLast8 : String
  deriving DecidableEq

/-- The keys that are issued have one byte a character. -/
def keySuffix (apiKey : String) : String :=
  if 8 ≤ Text.byteLength apiKey then String.ofList (apiKey.toList.drop (apiKey.length - 8))
  else apiKey

def scopeAsDb : KeyScope → String
  | .admin => "admin"
  | .proxy => "proxy"

inductive Event where
  | generateKey (name : Option String) (scope : KeyScope) (bytes salt : List UInt8) (id : String)
  | generateApiKey (name uuid id : String)
  | disableKey (id : String)
  | enableKey (id : String)
  | deleteKey (id : String)
  | disableApiKey (name : String)
  | enableApiKey (name : String)
  | deleteApiKey (name : String)

section Steps
variable {Params : Type} (crate : ScryptCrate Params) (sha256 : List UInt8 → List UInt8)

/-- `POST /api/keys`. -/
def generateKey (name : Option String) (scope : KeyScope) (bytes salt : List UInt8) (id : String) :
    Option Issue := do
  let name ← name.filter fun name => Text.trim name ≠ ""
  let plaintext := Hex.encode bytes
  let hashed ← (hashApiKeyWithSalt crate plaintext salt).toOption
  return ⟨plaintext, .scrypt salt, ⟨id, Text.trim name, hashed, true, some (scopeAsDb scope)⟩,
    keySuffix plaintext⟩

/-- `--generate-api-key`; only here a name must be new. -/
def generateApiKey (db : Database) (name uuid id : String) : Option Issue :=
  if db.keys.any fun row => row.name = name then none
  else
    let plaintext := "bccf_" ++ String.ofList (uuid.toList.filter fun c => c ≠ '-')
    some ⟨plaintext, .sha256, ⟨id, name, Hex.encode (sha256 (asBytes plaintext)), true,
      some (scopeAsDb .admin)⟩, "bccf_..." ++ keySuffix plaintext⟩

/-- What a call hands out, when the table takes its row. -/
def issued (db : Database) (event : Event) : Option Issue :=
  (match event with
    | .generateKey name scope bytes salt id => generateKey crate name scope bytes salt id
    | .generateApiKey name uuid id => generateApiKey sha256 db name uuid id
    | _ => none).filter fun issue => (createKey issue.row db).isSome

def findByName (db : Database) (name : String) : Option ApiKey :=
  db.keys.find? fun row => row.name = name

/-- A command on the first row of a name; one that has the state already is left alone. -/
def byName (db : Database) (name : String) (skip : ApiKey → Bool)
    (change : String → Database → Database) : Database :=
  match findByName db name with
  | none => db
  | some row => if skip row then db else change row.id db

def perform (db : Database) (event : Event) : Option Database :=
  some (match event with
    | .disableKey id => AuthTasks.disableKey id db
    | .enableKey id => AuthTasks.enableKey id db
    | .deleteKey id => AuthTasks.deleteKey id db
    | .disableApiKey name => byName db name (fun row => !row.isActive) AuthTasks.disableKey
    | .enableApiKey name => byName db name ApiKey.isActive AuthTasks.enableKey
    | .deleteApiKey name => byName db name (fun _ => false) AuthTasks.deleteKey
    | .generateKey .. | .generateApiKey .. =>
        (issued crate sha256 db event).elim db fun issue => (createKey issue.row db).getD db)

abbrev Taken := Database × Event × Database

def handedOut (trace : List Taken) : List Issue :=
  trace.filterMap fun taken => issued crate sha256 taken.1 taken.2.1

/-- The functions that the middleware calls; a key is good when the check returns `Ok(true)`. -/
def crypto (hashForCache : String → String) (decodeBase64 : String → Option String) : Crypto where
  verifyApiKey apiKey stored := decide (verifyApiKey crate sha256 apiKey stored = some (.ok true))
  hashForCache := hashForCache
  decodeBase64 := decodeBase64

def digestOf (digest : Digest) (apiKey : String) : Option (List UInt8) :=
  match digest with
  | .sha256 => some (sha256 (asBytes apiKey))
  | .scrypt salt => scryptOutput crate apiKey salt

end Steps

section Digests
variable {Params : Type} {crate : ScryptCrate Params} {sha256 : List UInt8 → List UInt8}

theorem encode_injective (left right : List UInt8) (same : Hex.encode left = Hex.encode right) :
    left = right := by
  have decoded := Hex.decode_encode left
  rw [same, Hex.decode_encode] at decoded
  exact (Except.ok.inj (Option.some.inj decoded)).symm

theorem sha_accepted (apiKey : String) (hash : List UInt8) :
    verifyApiKey crate sha256 apiKey (Hex.encode hash) = some (.ok true) ↔
      sha256 (asBytes apiKey) = hash := by
  have plain : Text.contains ":" (Hex.encode hash) = false := by
    by_contra marked
    obtain ⟨before, after, same⟩ := (Text.contains_iff _ _).mp (Bool.eq_true_of_not_eq_false marked)
    apply Hex.encode_plain hash
    rw [← same, String.toList_append, String.toList_append]
    simp
  rw [verifyApiKey, plain, if_neg Bool.false_ne_true, verifySha256Legacy]
  simp only [Option.some.injEq, Except.ok.injEq, decide_eq_true_eq]
  exact ⟨encode_injective _ _, congrArg Hex.encode⟩

theorem scrypt_accepted (documented : Documented crate) (apiKey other stored : String)
    (salt : List UInt8) (hashed : hashApiKeyWithSalt crate apiKey salt = .ok stored) :
    verifyApiKey crate sha256 other stored = some (.ok true) ↔
      scryptOutput crate other salt = scryptOutput crate apiKey salt := by
  obtain ⟨hash, found, long, computed⟩ := output_some documented apiKey salt
  obtain ⟨candidate, presented, -⟩ := output_some documented other salt
  have same : stored = Hex.encode salt ++ ":" ++ Hex.encode hash := by
    rw [hashApiKeyWithSalt, computed] at hashed
    exact (Except.ok.inj hashed).symm
  rw [same, verify_stored sha256 documented other salt hash candidate long presented, presented,
    found]
  simp

/-- A text is accepted for an issued key exactly when it has the digest of the key. -/
theorem issue_accepted (documented : Documented crate) (db : Database) (event : Event)
    (issue : Issue) (made : issued crate sha256 db event = some issue) (presented : String) :
    verifyApiKey crate sha256 presented issue.row.hashedKey = some (.ok true) ↔
      digestOf crate sha256 issue.digest presented =
        digestOf crate sha256 issue.digest issue.plaintext := by
  obtain ⟨made, -⟩ := Option.filter_eq_some_iff.mp made
  cases event with
  | generateKey name scope bytes salt id =>
      obtain ⟨name, -, made⟩ := Option.bind_eq_some_iff.mp made
      obtain ⟨hashed, done, made⟩ := Option.bind_eq_some_iff.mp made
      obtain rfl := Option.some.inj made
      have hashed_ : hashApiKeyWithSalt crate (Hex.encode bytes) salt = .ok hashed := by
        cases out : hashApiKeyWithSalt crate (Hex.encode bytes) salt with
        | error failure => rw [out] at done; cases done
        | ok stored => rw [out] at done; exact congrArg _ (Option.some.inj done)
      exact scrypt_accepted documented _ presented hashed salt hashed_
  | generateApiKey name uuid id =>
      simp only [generateApiKey] at made
      split at made
      · cases made
      · obtain rfl := Option.some.inj made
        simp only [sha_accepted, digestOf, Option.some.injEq]
  | _ => cases made

end Digests

section Runs
variable {Params : Type} {crate : ScryptCrate Params} {sha256 : List UInt8 → List UInt8}

/-- The row is that of the issue, whether it is active or not. -/
structure RowOf (issue : Issue) (row : ApiKey) : Prop where
  id : row.id = issue.row.id
  name : row.name = issue.row.name
  hashedKey : row.hashedKey = issue.row.hashedKey
  scope : row.scope = issue.row.scope

/-- Each row was handed out with a key. -/
def Sound (crate : ScryptCrate Params) (sha256 : List UInt8 → List UInt8) (trace : List Taken)
    (db : Database) : Prop :=
  ∀ row ∈ db.keys, ∃ issue ∈ handedOut crate sha256 trace, RowOf issue row

variable {trace : List Taken}

theorem handed_out_snoc (taken : Taken) : handedOut crate sha256 (trace ++ [taken]) =
    handedOut crate sha256 trace ++ (issued crate sha256 taken.1 taken.2.1).toList := by
  cases made : issued crate sha256 taken.1 taken.2.1 with
  | none => simp [handedOut, made]
  | some issue => simp [handedOut, made]

theorem Sound.longer {db : Database} (sound : Sound crate sha256 trace db) (taken : Taken) :
    Sound crate sha256 (trace ++ [taken]) db := by
  intro row member
  obtain ⟨issue, out, held⟩ := sound row member
  exact ⟨issue, handed_out_snoc taken ▸ List.mem_append_left _ out, held⟩

/-- Disabling and enabling leave a row to its issue. -/
theorem Sound.updated {db : Database} (sound : Sound crate sha256 trace db) (id : String)
    (active : Bool) :
    Sound crate sha256 trace (updateKeys (fun row => { row with isActive := active }) id db) := by
  intro row member
  obtain ⟨before, listed, rfl⟩ := List.mem_map.mp member
  obtain ⟨issue, out, held⟩ := sound before listed
  refine ⟨issue, out, ?_⟩
  split
  · exact ⟨held.id, held.name, held.hashedKey, held.scope⟩
  · exact held

theorem Sound.deleted {db : Database} (sound : Sound crate sha256 trace db) (id : String) :
    Sound crate sha256 trace (AuthTasks.deleteKey id db) :=
  fun row member => sound row (List.mem_of_mem_filter member)

theorem Sound.named {db : Database} (sound : Sound crate sha256 trace db) (name : String)
    (skip : ApiKey → Bool) (change : String → Database → Database)
    (kept : ∀ id, Sound crate sha256 trace (change id db)) :
    Sound crate sha256 trace (byName db name skip change) := by
  unfold byName
  split
  · exact sound
  · split
    · exact sound
    · exact kept _

theorem create_sound {db after : Database} (sound : Sound crate sha256 trace db) (event : Event)
    (issue : Issue) (made : issued crate sha256 db event = some issue)
    (created : createKey issue.row db = some after) :
    Sound crate sha256 (trace ++ [(db, event, after)]) after := by
  unfold createKey at created
  split at created
  · cases created
  · obtain rfl := Option.some.inj created
    intro row member
    rcases List.mem_append.mp member with before | last
    · exact sound.longer _ row before
    · obtain rfl := List.mem_singleton.mp last
      exact ⟨issue, by rw [handed_out_snoc, made]; simp, rfl, rfl, rfl, rfl⟩

theorem step_sound (before : List Taken) (source : Database) (event : Event) (target : Database)
    (sound : Sound crate sha256 before source)
    (moved : Does (perform crate sha256) source event target) :
    Sound crate sha256 (before ++ [(source, event, target)]) target := by
  obtain rfl := Option.some.inj moved
  cases event with
  | disableKey id | enableKey id => exact (sound.updated id _).longer _
  | deleteKey id => exact (sound.deleted id).longer _
  | disableApiKey name | enableApiKey name =>
      exact (sound.named name _ _ fun id => sound.updated id _).longer _
  | deleteApiKey name => exact (sound.named name _ _ fun id => sound.deleted id).longer _
  | generateKey _ _ _ _ _ | generateApiKey _ _ _ =>
      dsimp only
      generalize asked : issued crate sha256 source _ = made
      cases made with
      | none => exact sound.longer _
      | some issue =>
          obtain ⟨-, fits⟩ := Option.filter_eq_some_iff.mp asked
          obtain ⟨after, created⟩ := Option.isSome_iff_exists.mp fits
          simp only [Option.elim, created, Option.getD_some]
          exact create_sound sound _ issue asked created

theorem handed_out_made {issue : Issue} (out : issue ∈ handedOut crate sha256 trace) :
    ∃ db event, issued crate sha256 db event = some issue := by
  obtain ⟨taken, -, made⟩ := List.mem_filterMap.mp out
  exact ⟨_, _, made⟩

/-- A key that was handed out, by the server or by the CLI, is accepted as long as its row is in
the table and active; and a text that is accepted passes as an issued key whose digest it has,
with the scope that this key was given. -/
theorem issued_keys_open (documented : Documented crate) (start final : Database)
    (run : Run (Does (perform crate sha256)) start trace final) (empty : start.keys = [])
    (distinct : ((handedOut crate sha256 trace).map fun issue => issue.row.id).Nodup)
    (hashForCache : String → String) (decodeBase64 : String → Option String) :
    let check := verifyApiKeySync (crypto crate sha256 hashForCache decodeBase64) final
    (∀ issue ∈ handedOut crate sha256 trace, ∀ row ∈ final.keys, row.id = issue.row.id →
      row.isActive = true → final.verifyFails = false → (check issue.plaintext).isSome = true) ∧
      ∀ presented key, check presented = some key →
        ∃ issue ∈ handedOut crate sha256 trace, key = verifiedOf issue.row ∧
          digestOf crate sha256 issue.digest presented =
            digestOf crate sha256 issue.digest issue.plaintext := by
  intro check
  have sound : Sound crate sha256 trace final :=
    run.history (Sound crate sha256) (by rw [Sound, empty]; simp) step_sound
  refine ⟨fun issue out row member same active reads => ?_, fun presented key accepted => ?_⟩
  · obtain ⟨other, listed, held⟩ := sound row member
    obtain rfl := List.inj_on_of_nodup_map distinct listed out (held.id.symm.trans same)
    obtain ⟨db, event, made⟩ := handed_out_made out
    have good := (issue_accepted documented db event other made other.plaintext).mpr rfl
    rw [show check = verifyApiKeySync _ final from rfl, verifyApiKeySync, reads,
      if_neg Bool.false_ne_true, Option.isSome_map, List.find?_isSome]
    refine ⟨row, member, ?_⟩
    simp [verifyRow, active, crypto, held.hashedKey, good]
  · obtain ⟨row, member, -, good, rfl⟩ := verified_row _ final presented key accepted
    obtain ⟨issue, out, held⟩ := sound row member
    obtain ⟨db, event, made⟩ := handed_out_made out
    refine ⟨issue, out, ?_, (issue_accepted documented db event issue made presented).mp ?_⟩
    · rw [verifiedOf, verifiedOf, held.id, held.name, held.scope]
    · rw [← held.hashedKey]
      exact of_decide_eq_true good

def noKeys : Database := ⟨[], false, false⟩

def opsKey : Issue where
  plaintext := "bccf_01"
  digest := .sha256
  row := ⟨"k", "ops", Hex.encode (asBytes "bccf_01"), true, some "admin"⟩
  prefixLast8 := "bccf_...bccf_01"

def teamKey : Issue where
  plaintext := "01ab"
  digest := .scrypt [5]
  row := ⟨"s", "team",
    ((hashApiKeyWithSalt foldingCrate "01ab" [5]).toOption).getD "", true, some "proxy"⟩
  prefixLast8 := "01ab"

def after (db : Database) (event : Event) : Database :=
  (perform foldingCrate id db event).getD db

/-- The server's key is disabled and enabled again, the key of the CLI disabled. -/
def keyTrace : List Taken :=
  let made := after noKeys (.generateKey (some " team ") .proxy [1, 171] [5] "s")
  let both := after made (.generateApiKey "ops" "0-1" "k")
  let paused := after both (.disableKey "s")
  let back := after paused (.enableApiKey "team")
  [(noKeys, .generateKey (some " team ") .proxy [1, 171] [5] "s", made),
    (made, .generateApiKey "ops" "0-1" "k", both), (both, .disableKey "s", paused),
    (paused, .enableApiKey "team", back),
    (back, .disableApiKey "ops", after back (.disableApiKey "ops"))]

theorem ops_key_opens : ∃ final, Run (Does (perform foldingCrate id)) noKeys keyTrace final ∧
    (verifyApiKeySync (crypto foldingCrate id id some) final "01ab").isSome = true ∧
    verifyApiKeySync (crypto foldingCrate id id some) final "bccf_01" = none ∧
    verifyApiKeySync (crypto foldingCrate id id some) final "01ac" = none := by
  have documented : Documented foldingCrate :=
    ⟨⟨(), rfl⟩, fun _ _ _ _ => ⟨_, rfl, List.length_replicate⟩⟩
  obtain ⟨final, run, keys, reads⟩ : ∃ final,
      Run (Does (perform foldingCrate id)) noKeys keyTrace final ∧
        final.keys = [teamKey.row, { opsKey.row with isActive := false }] ∧
        final.verifyFails = false :=
    ⟨_, ((((Run.nil.snoc rfl).snoc rfl).snoc rfl).snoc rfl).snoc rfl, by decide +kernel, rfl⟩
  have out : handedOut foldingCrate id keyTrace = [teamKey, opsKey] := by decide +kernel
  have refused : ∀ presented,
      decide (verifyApiKey foldingCrate id presented teamKey.row.hashedKey = some (.ok true)) =
        false → verifyApiKeySync (crypto foldingCrate id id some) final presented = none := by
    intro presented other
    rw [verifyApiKeySync, reads, keys]
    simp [verifyRow, crypto, other]
  obtain ⟨opens, -⟩ := issued_keys_open documented noKeys final run rfl
    (by rw [out]; decide) id some
  rw [out] at opens
  refine ⟨final, run, ?_, refused _ (by decide +kernel), refused _ (by decide +kernel)⟩
  exact opens teamKey (by simp) teamKey.row (by simp [keys]) rfl rfl reads

end Runs

end Ccflare.IssuedKeys
