import Ccflare.OAuthSessions
import Ccflare.Utf8

/-!
Stored hashes of API keys, after `crypto.rs`: the salt and the output of scrypt in hex, with a
colon between them. The hash functions are those of other crates and stay parameters.
-/

namespace Ccflare.ApiKeyHashes

open OAuthSessions

def scryptLogN : Nat := 14

def scryptR : Nat := 8

def scryptP : Nat := 1

def scryptKeyLen : Nat := 64

inductive ScryptError where
  | invalidParams (message : String)
  | hashFailed (message : String)
  | invalidFormat (message : String)
  deriving DecidableEq

namespace Hex

def hexChars : List Char := "0123456789abcdef".toList

def hexChar (digit : UInt8) : Char := hexChars.getD digit.toNat '0'

def encode (bytes : List UInt8) : String :=
  String.ofList (bytes.flatMap fun (b : UInt8) => [hexChar (b >>> 4), hexChar (b &&& 0x0f)])

/-- `char::to_digit` in base sixteen. -/
def digitValue (c : Char) : Option Nat :=
  if '0' ≤ c ∧ c ≤ '9' then some (c.toNat - 48)
  else if 'a' ≤ c ∧ c ≤ 'f' then some (c.toNat - 87)
  else if 'A' ≤ c ∧ c ≤ 'F' then some (c.toNat - 55)
  else none

def addDigit (value : Nat) (c : Char) : Option Nat :=
  (digitValue c).bind fun digit => if value * 16 + digit < 256 then some (value * 16 + digit) else none

def withoutPlus : List Char → List Char
  | [] => []
  | c :: rest => if c = '+' then rest else c :: rest

/-- `u8::from_str_radix` in base sixteen, which takes a plus sign. -/
def fromStrRadix16 (text : List Char) : Option UInt8 :=
  let digits := withoutPlus text
  if digits = [] then none else (digits.foldlM addDigit 0).map UInt8.ofNat

/-- There is no result when a slice of two bytes would cut a character. -/
def decodePairs : Nat → List Char → Option (Except Unit (List UInt8))
  | 0, _ => some (.ok [])
  | count + 1, text =>
      match Text.splitAtBytes 2 text with
      | none => none
      | some (pair, rest) =>
          match fromStrRadix16 pair with
          | none => some (.error ())
          | some b => (decodePairs count rest).map fun decoded => decoded.map (b :: ·)

def decode (s : String) : Option (Except Unit (List UInt8)) :=
  if Text.byteLength s % 2 ≠ 0 then some (.error ())
  else decodePairs (Text.byteLength s / 2) s.toList

theorem hex_char_value (digit : UInt8) (small : digit.toNat < 16) :
    digitValue (hexChar digit) = some digit.toNat ∧ hexChar digit ≠ '+' ∧
      (hexChar digit).utf8Size = 1 ∧ hexChar digit ≠ ':' := by
  have all : ∀ n < 16, digitValue (hexChars.getD n '0') = some n ∧ hexChars.getD n '0' ≠ '+' ∧
      (hexChars.getD n '0').utf8Size = 1 ∧ hexChars.getD n '0' ≠ ':' := by decide
  exact all digit.toNat small

theorem halves (b : UInt8) :
    (b >>> 4).toNat = b.toNat / 16 ∧ (b &&& 0x0f).toNat = b.toNat % 16 := by
  constructor
  · simp [UInt8.toNat_shiftRight, Nat.shiftRight_eq_div_pow]
  · exact Nat.and_two_pow_sub_one_eq_mod b.toNat 4

theorem pair_value (b : UInt8) :
    fromStrRadix16 [hexChar (b >>> 4), hexChar (b &&& 0x0f)] = some b := by
  obtain ⟨high, low⟩ := halves b
  have small := b.toNat_lt
  obtain ⟨first, unsigned, _, _⟩ := hex_char_value (b >>> 4) (by omega)
  obtain ⟨second, _, _, _⟩ := hex_char_value (b &&& 0x0f) (by omega)
  have whole : b.toNat / 16 * 16 + b.toNat % 16 = b.toNat := by omega
  have fits : b.toNat / 16 < 256 := by omega
  rw [high] at first
  rw [low] at second
  simp [fromStrRadix16, withoutPlus, unsigned, addDigit, first, second, whole, fits, small]

def pair (b : UInt8) : List Char := [hexChar (b >>> 4), hexChar (b &&& 0x0f)]

theorem encode_cons (b : UInt8) (rest : List UInt8) :
    (encode (b :: rest)).toList = pair b ++ (encode rest).toList := by
  simp [encode, pair]

theorem pair_bytes (b : UInt8) : Text.bytes (pair b) = 2 ∧ ':' ∉ pair b := by
  obtain ⟨high, low⟩ := halves b
  have small := b.toNat_lt
  obtain ⟨_, _, firstNarrow, firstPlain⟩ := hex_char_value (b >>> 4) (by omega)
  obtain ⟨_, _, secondNarrow, secondPlain⟩ := hex_char_value (b &&& 0x0f) (by omega)
  constructor
  · simp [pair, firstNarrow, secondNarrow]
  · simp [pair, Ne.symm firstPlain, Ne.symm secondPlain]

theorem encode_length (bytes : List UInt8) : Text.byteLength (encode bytes) = bytes.length * 2 := by
  rw [Text.byte_length_eq]
  induction bytes with
  | nil => rfl
  | cons b rest ih =>
      rw [encode_cons, Text.bytes_append, (pair_bytes b).1, ih, List.length_cons]
      omega

theorem encode_plain (bytes : List UInt8) : ':' ∉ (encode bytes).toList := by
  induction bytes with
  | nil => decide
  | cons b rest ih =>
      rw [encode_cons, List.mem_append]
      exact not_or.mpr ⟨(pair_bytes b).2, ih⟩

theorem decode_pairs_encode (bytes : List UInt8) :
    decodePairs bytes.length (encode bytes).toList = some (.ok bytes) := by
  induction bytes with
  | nil => rfl
  | cons b rest ih =>
      have split : Text.splitAtBytes 2 (encode (b :: rest)).toList =
          some (pair b, (encode rest).toList) :=
        (Text.split_at_bytes_iff _ _ _ _).mpr ⟨encode_cons b rest, (pair_bytes b).1⟩
      have value : fromStrRadix16 (pair b) = some b := pair_value b
      rw [List.length_cons, decodePairs, split]
      simp only [value, ih]
      rfl

/-- Decoding inverts encoding. -/
theorem decode_encode (bytes : List UInt8) : decode (encode bytes) = some (.ok bytes) := by
  rw [decode, encode_length, if_neg (by omega), Nat.mul_div_cancel _ (by decide)]
  exact decode_pairs_encode bytes

end Hex

/-- What is used of the `scrypt` crate: its parameters, and the function that fills a buffer of
the given length. -/
structure ScryptCrate (Params : Type) where
  newParams : Nat → Nat → Nat → Nat → Option Params
  scrypt : List UInt8 → List UInt8 → Params → Nat → Option (List UInt8)

section Crate
variable {Params : Type} (crate : ScryptCrate Params) (sha256 : List UInt8 → List UInt8)

def asBytes (apiKey : String) : List UInt8 := Utf8.encode apiKey.toList

/-- The parameters are made anew for every hash. -/
def params : Except ScryptError Params :=
  match crate.newParams scryptLogN scryptR scryptP scryptKeyLen with
  | some params => .ok params
  | none => .error (.invalidParams "Failed to create scrypt params")

def output (message apiKey : String) (salt : List UInt8) : Except ScryptError (List UInt8) := do
  let params ← params crate
  match crate.scrypt (asBytes apiKey) salt params scryptKeyLen with
  | some output => .ok output
  | none => .error (.hashFailed message)

def hashApiKeyWithSalt (apiKey : String) (salt : List UInt8) : Except ScryptError String := do
  let output ← output crate "scrypt hash failed" apiKey salt
  return Hex.encode salt ++ ":" ++ Hex.encode output

def verifySha256Legacy (apiKey storedHash : String) : Bool :=
  decide (Hex.encode (sha256 (asBytes apiKey)) = storedHash)

/-- No result stands for a panic of the decoder. -/
def verifyApiKey (apiKey storedHash : String) : Option (Except ScryptError Bool) :=
  if Text.contains ":" storedHash then
    match splitOnce ':' storedHash with
    | none => some (.error (.invalidFormat "Missing ':' separator"))
    | some (saltHex, hashHex) =>
        match Hex.decode saltHex with
        | none => none
        | some (.error _) => some (.error (.invalidFormat "Invalid salt hex"))
        | some (.ok salt) =>
            match Hex.decode hashHex with
            | none => none
            | some (.error _) => some (.error (.invalidFormat "Invalid hash hex"))
            | some (.ok storedHashBytes) =>
                if storedHashBytes.length ≠ scryptKeyLen then some (.ok false)
                else some ((output crate "scrypt verification failed" apiKey salt).map
                  fun candidate => decide (candidate = storedHashBytes))
  else some (.ok (verifySha256Legacy sha256 apiKey storedHash))

/-- The crate takes the parameters of the proxy and fills a buffer of sixty-four bytes. -/
structure Documented (crate : ScryptCrate Params) : Prop where
  accepts : ∃ params, crate.newParams scryptLogN scryptR scryptP scryptKeyLen = some params
  fills : ∀ params password salt,
    crate.newParams scryptLogN scryptR scryptP scryptKeyLen = some params →
    ∃ output, crate.scrypt password salt params scryptKeyLen = some output ∧
      output.length = scryptKeyLen

/-- The output of scrypt for a key and a salt. -/
def scryptOutput (apiKey : String) (salt : List UInt8) : Option (List UInt8) :=
  (crate.newParams scryptLogN scryptR scryptP scryptKeyLen).bind fun params =>
    crate.scrypt (asBytes apiKey) salt params scryptKeyLen

variable {crate}

theorem output_some (documented : Documented crate) (apiKey : String) (salt : List UInt8) :
    ∃ hash, scryptOutput crate apiKey salt = some hash ∧ hash.length = scryptKeyLen ∧
      ∀ message, output crate message apiKey salt = .ok hash := by
  obtain ⟨made, accepted⟩ := documented.accepts
  obtain ⟨hash, filled, long⟩ := documented.fills made (asBytes apiKey) salt accepted
  refine ⟨hash, ?_, long, ?_⟩
  · rw [scryptOutput, accepted, Option.bind_some, filled]
  · intro message
    simp only [output, params, accepted, bind, Except.bind, filled]

/-- A stored text is taken apart where it was put together. -/
theorem stored_split (salt hash : List UInt8) :
    Text.contains ":" (Hex.encode salt ++ ":" ++ Hex.encode hash) = true ∧
      splitOnce ':' (Hex.encode salt ++ ":" ++ Hex.encode hash) =
        some (Hex.encode salt, Hex.encode hash) := by
  constructor
  · exact (Text.contains_iff _ _).mpr ⟨Hex.encode salt, Hex.encode hash, rfl⟩
  · have split := split_once_append ':' (Hex.encode salt).toList (Hex.encode hash).toList
      (Hex.encode_plain salt)
    rw [String.ofList_toList, String.ofList_toList] at split
    rw [← split]
    apply congrArg
    apply String.toList_inj.mp
    simp [String.toList_append]

theorem verify_stored (documented : Documented crate) (apiKey : String)
    (salt hash candidate : List UInt8) (long : hash.length = scryptKeyLen) (found : scryptOutput crate apiKey salt = some candidate) :
    verifyApiKey crate sha256 apiKey (Hex.encode salt ++ ":" ++ Hex.encode hash) =
      some (.ok (decide (candidate = hash))) := by
  obtain ⟨marked, split⟩ := stored_split salt hash
  obtain ⟨given, same, _, computed⟩ := output_some documented apiKey salt
  obtain rfl := Option.some.inj (same.symm.trans found)
  simp only [verifyApiKey, if_pos marked, split, Hex.decode_encode, computed, long, ne_eq,
    not_true_eq_false, if_false]
  rfl

/-- A stored hash verifies the key it was made of, and another one exactly if scrypt does not
tell them apart under its salt; the decoder gives back whatever bytes were encoded. -/
theorem stored_hash_verifies (documented : Documented crate) (apiKey : String) (salt : List UInt8) :
    (∃ stored, hashApiKeyWithSalt crate apiKey salt = .ok stored ∧
      verifyApiKey crate sha256 apiKey stored = some (.ok true) ∧
      ∀ other, verifyApiKey crate sha256 other stored = some (.ok true) ↔
        scryptOutput crate other salt = scryptOutput crate apiKey salt) ∧
    ∀ bytes, Hex.decode (Hex.encode bytes) = some (.ok bytes) := by
  obtain ⟨hash, found, long, computed⟩ := output_some documented apiKey salt
  refine ⟨⟨Hex.encode salt ++ ":" ++ Hex.encode hash, ?_, ?_, ?_⟩, Hex.decode_encode⟩
  · simp only [hashApiKeyWithSalt, computed, bind, Except.bind]
    rfl
  · rw [verify_stored sha256 documented apiKey salt hash hash long found, decide_eq_true rfl]
  · intro other
    obtain ⟨candidate, given, _, _⟩ := output_some documented other salt
    rw [verify_stored sha256 documented other salt hash candidate long given, found, given]
    simp

end Crate

/-- Another function of key and salt in the place of scrypt. -/
def foldingCrate : ScryptCrate Unit where
  newParams := fun _ _ _ _ => some ()
  scrypt := fun password salt _ length =>
    some (List.replicate length ((password ++ salt).foldl (fun sum b => sum * 31 + b) 7))

theorem folding_verifies :
    ∃ stored, hashApiKeyWithSalt foldingCrate "sk-key" [1, 2] = .ok stored ∧
      verifyApiKey foldingCrate id "sk-key" stored = some (.ok true) := by
  have documented : Documented foldingCrate :=
    ⟨⟨(), rfl⟩, fun _ _ _ _ => ⟨_, rfl, List.length_replicate⟩⟩
  obtain ⟨⟨stored, hashed, verified, _⟩, _⟩ := stored_hash_verifies id documented "sk-key" [1, 2]
  exact ⟨stored, hashed, verified⟩

end Ccflare.ApiKeyHashes
