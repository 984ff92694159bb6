/-! Regular expressions over character classes, matched by derivatives. -/
namespace OaGateway.Lib

inductive Regex where
  | never
  | empty
  | one (accepts : Char → Bool)
  | seq (first second : Regex)
  | alt (first second : Regex)
  | star (inner : Regex)

namespace Regex

def nullable : Regex → Bool
  | never | one _ => false
  | empty | star _ => true
  | seq first second => first.nullable && second.nullable
  | alt first second => first.nullable || second.nullable

/-- What is left to match after `c`. -/
def deriv (c : Char) : Regex → Regex
  | never | empty => never
  | one accepts => if accepts c then empty else never
  | seq first second =>
    if first.nullable then alt (seq (first.deriv c) second) (second.deriv c)
    else seq (first.deriv c) second
  | alt first second => alt (first.deriv c) (second.deriv c)
  | star inner => seq (inner.deriv c) (star inner)

/-- Whether the whole of `text` matches. -/
def accepts (regex : Regex) (text : List Char) : Bool :=
  (text.foldl (fun left c => left.deriv c) regex).nullable

def char (c : Char) : Regex := one (· == c)

def among (set : List Char) : Regex := one set.contains

def range (first last : Char) : Regex := one fun c => first ≤ c && c ≤ last

def optional (inner : Regex) : Regex := alt inner empty

def plus (inner : Regex) : Regex := seq inner (star inner)

def times : Nat → Regex → Regex
  | 0, _ => empty
  | count + 1, inner => seq inner (times count inner)

def all (parts : List Regex) : Regex := parts.foldr seq empty

def text (literal : String) : Regex := all (literal.toList.map char)

/-- First code points of the runs of ten decimal digits in Unicode. -/
def digitRuns : List Nat :=
  [0x30, 0x660, 0x6F0, 0x7C0, 0x966, 0x9E6, 0xA66, 0xAE6, 0xB66, 0xBE6, 0xC66, 0xCE6, 0xD66, 0xDE6,
    0xE50, 0xED0, 0xF20, 0x1040, 0x1090, 0x17E0, 0x1810, 0x1946, 0x19D0, 0x1A80, 0x1A90, 0x1B50,
    0x1BB0, 0x1C40, 0x1C50, 0xA620, 0xA8D0, 0xA900, 0xA9D0, 0xA9F0, 0xAA50, 0xABF0, 0xFF10, 0x104A0,
    0x10D30, 0x10D40, 0x11066, 0x110F0, 0x11136, 0x111D0, 0x112F0, 0x11450, 0x114D0,
      0x11650, 0x116C0,
    0x116D0, 0x116DA, 0x11730, 0x118E0, 0x11950, 0x11BF0, 0x11C50, 0x11D50, 0x11DA0,
      0x11F50, 0x16130,
    0x16A60, 0x16AC0, 0x16B50, 0x16D70, 0x1CCF0, 0x1D7CE, 0x1D7D8, 0x1D7E2, 0x1D7EC,
      0x1D7F6, 0x1E140,
    0x1E2F0, 0x1E4F0, 0x1E5F1, 0x1E950, 0x1FBF0]

/-- `\d` of the regex crate: any Unicode decimal digit. -/
def digit : Regex := one fun c => digitRuns.any fun first => first ≤ c.toNat && c.toNat < first + 10

end Regex

end OaGateway.Lib
