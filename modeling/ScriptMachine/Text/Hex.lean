/-!
# Bytes in hexadecimal

A sequence of bytes is written with two digits for each byte, in lower case, and nothing between.
-/

namespace ScriptMachine.Hex

/-- The value of a hexadecimal digit, of either case. -/
def digit? (c : Char) : Option Nat :=
  if '0' ≤ c && c ≤ '9' then some (c.toNat - '0'.toNat)
  else if 'a' ≤ c && c ≤ 'f' then some (c.toNat - 'a'.toNat + 10)
  else if 'A' ≤ c && c ≤ 'F' then some (c.toNat - 'A'.toNat + 10)
  else none

/-- Reads pairs of digits after the given bytes. -/
def decodeFrom (bytes : Array UInt8) : List Char → Option (Array UInt8)
  | [] => some bytes
  | high :: low :: rest =>
    match digit? high, digit? low with
    | some high, some low => decodeFrom (bytes.push (UInt8.ofNat (high * 16 + low))) rest
    | _, _ => none
  | _ => none

/-- The bytes that a text of digits writes. -/
def decode? (text : String) : Option (Array UInt8) := decodeFrom #[] text.toList

/-- The two digits of a byte. -/
def digits (byte : UInt8) : List Char :=
  [Nat.digitChar (byte.toNat / 16), Nat.digitChar (byte.toNat % 16)]

/-- The digits of some bytes. -/
def encode (bytes : List UInt8) : String := String.ofList (bytes.flatMap digits)

end ScriptMachine.Hex
