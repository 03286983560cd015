/-!
# Numerals of fixed width

Offsets are listed in decimal with leading zeros and bytes in hexadecimal with two digits.
-/

namespace ScriptMachine.Numeral

/-- A digit of a base up to sixteen, in capitals. -/
def digit (n : Nat) : Char :=
  if n < 10 then Char.ofNat ('0'.toNat + n) else Char.ofNat ('A'.toNat + (n - 10))

/-- A decimal numeral with zeros in front of it up to the given width. -/
def zeroPadded (width n : Nat) : String :=
  let digits := Nat.toDigits 10 n
  String.ofList (List.replicate (width - digits.length) '0' ++ digits)

/-- A byte as two hexadecimal digits after the mark of the base. -/
def hexByte (byte : UInt8) : String :=
  String.ofList ['0', 'x', digit (byte.toNat / 16), digit (byte.toNat % 16)]

/-- An integer that always shows its sign. -/
def signed (n : Int) : String :=
  if 0 ≤ n then "+" ++ toString n.toNat else "-" ++ toString n.natAbs

end ScriptMachine.Numeral
