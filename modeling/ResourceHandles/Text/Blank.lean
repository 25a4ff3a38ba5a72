/-!
# Blank characters

A character is blank when it has the Unicode property `White_Space`.  The
property holds the line ends, the ordinary and the wide spaces, and nothing
else: the zero-width characters and the four information separators are
outside it.  Trimming removes blanks on both ends of a text and leaves those
inside it alone.
-/

namespace ResourceHandles.Text

/-- The Unicode property `White_Space`. -/
def isBlank (c : Char) : Bool :=
  let n := c.toNat
  (0x09 ≤ n && n ≤ 0x0D) || n == 0x20 || n == 0x85 || n == 0xA0 || n == 0x1680 ||
    (0x2000 ≤ n && n ≤ 0x200A) || n == 0x2028 || n == 0x2029 || n == 0x202F ||
    n == 0x205F || n == 0x3000

/-- The text from its first character that is not blank. -/
def skipBlanks (cs : List Char) : List Char :=
  cs.dropWhile isBlank

/-- The text up to its last character that is not blank. -/
def dropTrailingBlanks (cs : List Char) : List Char :=
  (cs.reverse.dropWhile isBlank).reverse

def trim (cs : List Char) : List Char :=
  dropTrailingBlanks (skipBlanks cs)

/-- `trim` on strings. -/
def trimString (text : String) : String :=
  String.ofList (trim text.toList)

/-- At least one blank is there, and all of them are skipped. -/
def skipSomeBlanks? : List Char → Option (List Char)
  | [] => none
  | c :: rest => if isBlank c then some (skipBlanks rest) else none

theorem length_skipBlanks_le (cs : List Char) : (skipBlanks cs).length ≤ cs.length :=
  (List.dropWhile_sublist isBlank).length_le

end ResourceHandles.Text
