import Mathlib.Data.List.Basic

/-! # Text

The operations of `str` that the modelled functions use, on the characters of a `String`. -/

namespace Foundations

/-- The characters `str.strip` removes. -/
def isSpace (c : Char) : Bool :=
  let n := c.toNat
  (9 ≤ n && n ≤ 13) || (28 ≤ n && n ≤ 32) || n == 0x85 || n == 0xa0 || n == 0x1680 ||
    (0x2000 ≤ n && n ≤ 0x200a) || n == 0x2028 || n == 0x2029 || n == 0x202f || n == 0x205f ||
    n == 0x3000

/-- `str.strip`. -/
def strip (s : String) : String :=
  String.ofList ((s.toList.dropWhile isSpace).reverse.dropWhile isSpace).reverse

/-- `str.strip` of some characters. -/
def stripChars (chars : List Char) (s : String) : String :=
  String.ofList ((s.toList.dropWhile (· ∈ chars)).reverse.dropWhile (· ∈ chars)).reverse

/-- `str.split` at one character. -/
def split (separator : Char) (s : String) : List String :=
  (s.toList.splitOn separator).map String.ofList

/-- `str.partition` at one character: what stands before it, and what after it if it is there. -/
def partition (separator : Char) (s : String) : String × Option String :=
  let before := s.toList.takeWhile (· != separator)
  let rest := s.toList.drop before.length
  (String.ofList before, if rest.isEmpty then none else some (String.ofList rest.tail))

/-- The first part of a split. -/
def firstPart (separator : Char) (s : String) : String := (split separator s).headD ""

/-- `str.upper`, of the letters of ASCII. -/
def upper (s : String) : String := String.ofList (s.toList.map Char.toUpper)

/-- `str.lower`, of the letters of ASCII. -/
def lower (s : String) : String := String.ofList (s.toList.map Char.toLower)

end Foundations
