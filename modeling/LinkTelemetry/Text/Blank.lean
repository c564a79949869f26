/-!
# Blank characters

The characters with the Unicode property `White_Space`, and cutting them off
the ends of a text. Every reader of program output and of kernel tables
starts here, so the functions work on lists of characters, which is what the
laws about those readers are stated on.
-/

namespace LinkTelemetry.Text

/-- The characters with the property `White_Space`. -/
def isBlank (c : Char) : Bool :=
  let n := c.toNat
  (0x09 ≤ n && n ≤ 0x0D) || n == 0x20 || n == 0x85 || n == 0xA0 || n == 0x1680 ||
    (0x2000 ≤ n && n ≤ 0x200A) || n == 0x2028 || n == 0x2029 || n == 0x202F ||
    n == 0x205F || n == 0x3000

/-- A text without the characters of one kind at its end. -/
def dropEndWhile (p : Char → Bool) (s : List Char) : List Char :=
  (s.reverse.dropWhile p).reverse

/-- A text without the characters of one kind at either end. -/
def stripWhile (p : Char → Bool) (s : List Char) : List Char :=
  dropEndWhile p (s.dropWhile p)

/-- A text without the blanks at either end. -/
def trim (s : List Char) : List Char := stripWhile isBlank s

/-- A text without the double quotes at either end, however many there are. -/
def unquote (s : List Char) : List Char := stripWhile (· == '"') s

end LinkTelemetry.Text
