import Mathlib.Data.Bool.AllAny
import Mathlib.Data.List.Basic
import Mathlib.Tactic.Common

/-!
Base64 with the alphabet for URLs and without padding. Three bytes make four characters; one or
two bytes at the end make two or three, whose spare bits are zero.
-/

namespace Ccflare.Base64

def symbols : List Char :=
  "ABCDEFGHIJKLMNOPQRSTUVWXYZabcdefghijklmnopqrstuvwxyz0123456789-_".toList

def symbol (value : Nat) : Char := symbols.getD value 'A'

def symbolValue (c : Char) : Option Nat :=
  if symbols.idxOf c < 64 then some (symbols.idxOf c) else none

/-- The groups of six bits that bytes are cut into. -/
def sextets : List Nat → List Nat
  | a :: b :: c :: rest =>
      a / 4 :: (a % 4 * 16 + b / 16) :: (b % 16 * 4 + c / 64) :: c % 64 :: sextets rest
  | [a, b] => [a / 4, a % 4 * 16 + b / 16, b % 16 * 4]
  | [a] => [a / 4, a % 4 * 16]
  | [] => []

def join : List Nat → Option (List Nat)
  | w :: x :: y :: z :: rest => (join rest).map fun bytes =>
      (w * 4 + x / 16) :: (x % 16 * 16 + y / 4) :: (y % 4 * 64 + z) :: bytes
  | [w, x, y] => if y % 4 = 0 then some [w * 4 + x / 16, x % 16 * 16 + y / 4] else none
  | [w, x] => if x % 16 = 0 then some [w * 4 + x / 16] else none
  | [_] => none
  | [] => some []

def encode (bytes : List UInt8) : String :=
  String.ofList ((sextets (bytes.map UInt8.toNat)).map symbol)

def decode (text : String) : Option (List UInt8) :=
  ((text.toList.mapM symbolValue).bind join).map fun bytes => bytes.map UInt8.ofNat

theorem symbol_listed : ∀ value < 64, symbol value ∈ symbols := by
  decide

theorem symbol_value : ∀ value < 64, symbolValue (symbol value) = some value := by
  decide

theorem sextets_small (bytes : List Nat) (small : ∀ byte ∈ bytes, byte < 256) :
    ∀ value ∈ sextets bytes, value < 64 := by
  fun_induction sextets bytes with
  | case1 a b c rest ih =>
      simp only [List.forall_mem_cons] at small ⊢
      obtain ⟨first, second, third, others⟩ := small
      exact ⟨by omega, by omega, by omega, by omega, ih others⟩
  | case2 a b =>
      simp only [List.forall_mem_cons] at small ⊢
      obtain ⟨first, second, -⟩ := small
      exact ⟨by omega, by omega, by omega, nofun⟩
  | case3 a =>
      simp only [List.forall_mem_cons] at small ⊢
      exact ⟨by omega, by omega, nofun⟩
  | case4 => exact nofun

theorem join_sextets (bytes : List Nat) (small : ∀ byte ∈ bytes, byte < 256) :
    join (sextets bytes) = some bytes := by
  fun_induction sextets bytes with
  | case1 a b c rest ih =>
      simp only [List.forall_mem_cons] at small
      obtain ⟨first, second, third, others⟩ := small
      rw [join, ih others, Option.map_some, Option.some.injEq]
      congr 1
      · omega
      · congr 1
        · omega
        · congr 1
          omega
  | case2 a b =>
      simp only [List.forall_mem_cons] at small
      obtain ⟨first, second, -⟩ := small
      rw [join, if_pos (by omega)]
      congr 2
      · omega
      · congr 1
        omega
  | case3 a =>
      simp only [List.forall_mem_cons] at small
      rw [join, if_pos (by omega)]
      congr 2
      omega
  | case4 => rfl

theorem mapM_symbols (values : List Nat) (small : ∀ value ∈ values, value < 64) :
    (values.map symbol).mapM symbolValue = some values := by
  induction values with
  | nil => rfl
  | cons value rest ih =>
      obtain ⟨first, others⟩ := List.forall_mem_cons.mp small
      rw [List.map_cons, List.mapM_cons, symbol_value value first, ih others]
      rfl

theorem bytes_small (bytes : List UInt8) : ∀ byte ∈ bytes.map UInt8.toNat, byte < 256 := by
  intro byte member
  obtain ⟨b, -, rfl⟩ := List.mem_map.mp member
  exact b.toNat_lt

theorem decode_encode (bytes : List UInt8) : decode (encode bytes) = some bytes := by
  have small := bytes_small bytes
  rw [decode, encode, String.toList_ofList, mapM_symbols _ (sextets_small _ small), Option.bind_some,
    join_sextets _ small, Option.map_some, List.map_map]
  have same : UInt8.ofNat ∘ UInt8.toNat = id := funext fun b => UInt8.ofNat_toNat
  rw [same, List.map_id]

theorem encode_blank (bytes : List UInt8) (blank : encode bytes = "") : bytes = [] := by
  have none_ := String.ofList_eq_empty_iff.mp blank
  match bytes with
  | [] => rfl
  | [_] | [_, _] | _ :: _ :: _ :: _ => simp [sextets] at none_

theorem encode_alphabet (bytes : List UInt8) :
    ∀ c ∈ (encode bytes).toList, c.isAlphanum = true ∨ c = '-' ∨ c = '_' := by
  have safe : ∀ c ∈ symbols, c.isAlphanum = true ∨ c = '-' ∨ c = '_' :=
    List.all_iff_forall_prop.mp (by decide)
  intro c member
  rw [encode, String.toList_ofList] at member
  obtain ⟨value, listed, rfl⟩ := List.mem_map.mp member
  exact safe _ (symbol_listed value (sextets_small _ (bytes_small bytes) value listed))

end Ccflare.Base64
