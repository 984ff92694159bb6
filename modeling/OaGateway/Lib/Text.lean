import Mathlib.Algebra.Group.Int.Defs

/-! Operations of Rust's `str` on character lists and strings. -/
namespace OaGateway.Lib

/-- Unicode `White_Space`, which `str::trim` removes. -/
def isWhitespace (c : Char) : Bool :=
  (0x9 ≤ c.toNat && c.toNat ≤ 0xD) || c.toNat == 0x20 || c.toNat == 0x85 || c.toNat == 0xA0 ||
    c.toNat == 0x1680 || (0x2000 ≤ c.toNat && c.toNat ≤ 0x200A) || c.toNat == 0x2028 ||
    c.toNat == 0x2029 || c.toNat == 0x202F || c.toNat == 0x205F || c.toNat == 0x3000

def trimStart (text : List Char) : List Char := text.dropWhile isWhitespace

def trim (text : List Char) : List Char := (trimStart (trimStart text).reverse).reverse

/-- `str::trim`. -/
def trimText (text : String) : String := .ofList (trim text.toList)

/-- The number ASCII digits stand for, if `text` is one or more of them. -/
def parseDigits (text : List Char) : Option Nat :=
  if text.isEmpty || !text.all Char.isDigit then none
  else some (text.foldl (fun number digit => 10 * number + (digit.toNat - '0'.toNat)) 0)

/-- `str::parse` for an integer type with these bounds. Only a signed type
takes a leading minus. -/
def parseInteger (min max : Int) (text : String) : Option Int :=
  let number : Option Int := match text.toList with
    | '+' :: rest => (parseDigits rest).map (fun n => (n : Int))
    | '-' :: rest => if min < 0 then (parseDigits rest).map (fun n => -(n : Int)) else none
    | digits => (parseDigits digits).map (fun n => (n : Int))
  number.filter fun value => decide (min ≤ value ∧ value ≤ max)

def parseI64 : String → Option Int := parseInteger (-2 ^ 63) (2 ^ 63 - 1)

def parseU64 : String → Option Int := parseInteger 0 (2 ^ 64 - 1)

def parseU32 : String → Option Int := parseInteger 0 (2 ^ 32 - 1)

def parseI128 : String → Option Int := parseInteger (-2 ^ 127) (2 ^ 127 - 1)

/-- The part after the last `separator`, or all of `text`. -/
def afterLast (separator : Char) (text : List Char) : List Char :=
  (text.reverse.takeWhile (· != separator)).reverse

/-- Replace every occurrence of one character. -/
def replaceChar (old : Char) (new : List Char) (text : List Char) : List Char :=
  text.flatMap fun c => if c = old then new else [c]

end OaGateway.Lib
