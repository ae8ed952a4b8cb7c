/-!
# Reading UTF-8 with faults

Bytes that are no UTF-8 are read with a replacement character for every longest
run that could have begun a character, and for every other byte that stands
nowhere.
-/

namespace Linewise

/-- What is still missing of a character: how many bytes, the bounds of the next one, and the value
of those read so far. -/
structure PartialChar where
  missing : Nat
  low : Nat
  high : Nat
  value : Nat
  deriving DecidableEq, Repr

/-- The character that stands for what cannot be read. -/
def replacementChar : Char := '\uFFFD'

/-- What a byte begins: the characters that are complete with it, and what is missing of another. -/
def beginChar (byte : Nat) : List Char × Option PartialChar :=
  if byte < 0x80 then ([Char.ofNat byte], none)
  else if byte < 0xC2 then ([replacementChar], none)
  else if byte < 0xE0 then ([], some ⟨1, 0x80, 0xBF, byte - 0xC0⟩)
  else if byte < 0xF0 then
    let low := if byte = 0xE0 then 0xA0 else 0x80
    let high := if byte = 0xED then 0x9F else 0xBF
    ([], some ⟨2, low, high, byte - 0xE0⟩)
  else if byte < 0xF5 then
    let low := if byte = 0xF0 then 0x90 else 0x80
    let high := if byte = 0xF4 then 0x8F else 0xBF
    ([], some ⟨3, low, high, byte - 0xF0⟩)
  else ([replacementChar], none)

/-- The characters that bytes write after the part of one that was read. -/
def decodeFrom : Option PartialChar → List UInt8 → List Char
  | none, [] => []
  | some _, [] => [replacementChar]
  | none, byte :: rest =>
    let (chars, open?) := beginChar byte.toNat
    chars ++ decodeFrom open? rest
  | some ⟨missing, low, high, value⟩, byte :: rest =>
    if low ≤ byte.toNat ∧ byte.toNat ≤ high then
      let value := 64 * value + (byte.toNat - 0x80)
      if missing = 1 then Char.ofNat value :: decodeFrom none rest
      else decodeFrom (some ⟨missing - 1, 0x80, 0xBF, value⟩) rest
    else
      let (chars, open?) := beginChar byte.toNat
      replacementChar :: (chars ++ decodeFrom open? rest)

/-- The text that bytes write. -/
def decodeLossy (bytes : ByteArray) : String := String.ofList (decodeFrom none bytes.toList)

end Linewise
