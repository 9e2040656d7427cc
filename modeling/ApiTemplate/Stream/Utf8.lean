import Mathlib.Data.Nat.Notation
import Mathlib.Data.List.Basic

/-!
# Lossy UTF-8 decoding

Decoding that replaces every maximal ill-formed subsequence by U+FFFD.
-/

namespace Utf8

/-- The number of continuation bytes a leading byte announces, and the range of the first one. -/
def leader (b : UInt8) : Option (ℕ × UInt8 × UInt8) :=
  if 0xC2 ≤ b ∧ b ≤ 0xDF then some (1, 0x80, 0xBF)
  else if b = 0xE0 then some (2, 0xA0, 0xBF)
  else if b = 0xED then some (2, 0x80, 0x9F)
  else if 0xE1 ≤ b ∧ b ≤ 0xEF then some (2, 0x80, 0xBF)
  else if b = 0xF0 then some (3, 0x90, 0xBF)
  else if b = 0xF4 then some (3, 0x80, 0x8F)
  else if 0xF1 ≤ b ∧ b ≤ 0xF3 then some (3, 0x80, 0xBF)
  else none

/-- The payload of a leading byte followed by `n` continuation bytes. -/
def payload (b : UInt8) (n : ℕ) : ℕ := b.toNat &&& (0x3F >>> n)

/-- Consume continuation bytes as long as they are well formed. -/
def continuation : ℕ → ℕ → UInt8 → UInt8 → List UInt8 → Option ℕ × List UInt8
  | 0, code, _, _, bytes => (some code, bytes)
  | _ + 1, _, _, _, [] => (none, [])
  | n + 1, code, lo, hi, b :: bytes =>
    if lo ≤ b ∧ b ≤ hi then continuation n (code * 64 + b.toNat % 64) 0x80 0xBF bytes
    else (none, b :: bytes)

/-- `bytes.decode("utf-8", errors="replace")`, with fuel for every byte. -/
def decodeChars : ℕ → List UInt8 → List Char
  | 0, _ => []
  | _ + 1, [] => []
  | fuel + 1, b :: bytes =>
    if b < 0x80 then Char.ofNat b.toNat :: decodeChars fuel bytes
    else
      match leader b with
      | none => Char.ofNat 0xFFFD :: decodeChars fuel bytes
      | some (n, lo, hi) =>
        let (code, bytes) := continuation n (payload b n) lo hi bytes
        Char.ofNat (code.getD 0xFFFD) :: decodeChars fuel bytes

def decodeReplace (bytes : List UInt8) : String :=
  String.ofList (decodeChars bytes.length bytes)

end Utf8
