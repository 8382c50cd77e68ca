import HelloWebsocket.Wire.Utf8

/-!
# Hexadecimal digits of octets
-/

namespace HelloWebsocket.Hex

open Utf8

/-- A lowercase digit. -/
def digit (n : Nat) : Char := "0123456789abcdef".toList.getD n '0'

/-- Two digits, as the format `%02x` prints an octet. -/
def byte (b : UInt8) : String := String.ofList [digit (b.toNat / 16), digit (b.toNat % 16)]

example : byte 0x4A = "4a" := by decide

theorem length_byte (b : UInt8) : (utf8 (byte b)).length = 2 := by
  have hall : ∀ n : Fin 256, (utf8 (byte (UInt8.ofNat n.val))).length = 2 := by decide +kernel
  have hb := hall ⟨b.toNat, b.toNat_lt⟩
  rwa [UInt8.ofNat_toNat] at hb

/-- The digits of octets, two for each. -/
def digits (bs : Bytes) : List Char := bs.flatMap fun b => [digit (b.toNat / 16), digit (b.toNat % 16)]

/-- The first digits are those of the first octets. -/
theorem utf8_take_digits (bs : Bytes) (n : Nat) :
    utf8 (String.ofList ((digits bs).take (2 * n))) = (bs.take n).flatMap fun b => utf8 (byte b) := by
  induction n generalizing bs with
  | zero => rfl
  | succ n ih =>
      cases bs with
      | nil => rfl
      | cons b bs =>
          have hdigits : (digits (b :: bs)).take (2 * (n + 1)) =
              [digit (b.toNat / 16), digit (b.toNat % 16)] ++ (digits bs).take (2 * n) := rfl
          rw [hdigits, String.ofList_append, utf8_append, ih, List.take_succ_cons, List.flatMap_cons]
          rfl

/-- A signed number in hexadecimal digits without padding. -/
def signed (v : Int) : String :=
  let digits := String.ofList (Nat.toDigits 16 v.natAbs)
  if v < 0 then "-" ++ digits else digits

end HelloWebsocket.Hex
