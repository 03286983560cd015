/-!
# Lines and surrounding blanks

A text is cut into lines at line feeds. A carriage return right before a line feed belongs to the
end of the line; a line feed at the very end opens no further line. Blanks around a text are the
characters that the Unicode property White_Space holds of.
-/

namespace ScriptMachine.Text

/-- The characters with the Unicode property White_Space. -/
def isBlank (c : Char) : Bool :=
  let point := c.toNat
  (0x9 ≤ point && point ≤ 0xD) || point == 0x20 || point == 0x85 || point == 0xA0
    || point == 0x1680 || (0x2000 ≤ point && point ≤ 0x200A) || point == 0x2028
    || point == 0x2029 || point == 0x202F || point == 0x205F || point == 0x3000

/-- Drops the blanks at both ends. -/
def trim (text : List Char) : List Char :=
  ((text.dropWhile isBlank).reverse.dropWhile isBlank).reverse

/-- Drops one carriage return from the end of a line that is given in reverse. -/
def endLine : List Char → List Char
  | '\r' :: line => line.reverse
  | line => line.reverse

/-- The lines of a text after the part of a line that is given in reverse. -/
def linesFrom (line : List Char) : List Char → List (List Char)
  | [] => if line.isEmpty then [] else [line.reverse]
  | '\n' :: rest => endLine line :: linesFrom [] rest
  | c :: rest => linesFrom (c :: line) rest

/-- The lines of a text. -/
def lines (text : String) : List String := (linesFrom [] text.toList).map String.ofList

end ScriptMachine.Text
