import Mathlib.Computability.Language

/-! The syntax regular expression dialects share (alternation, sequence,
repetition and groups around leaves of their own), as text and as languages. -/
namespace OaGateway.Lib

/-- How often an atom is repeated. Counts are kept as they are written. -/
inductive Quantifier where
  | optional
  | star
  | plus
  | exactly (count : List Char)
  | atLeast (min : List Char)
  | between (min max : List Char)

namespace Quantifier

/-- The number a decimal numeral stands for. -/
def value (digits : List Char) : Nat :=
  digits.foldl (fun number digit => 10 * number + (digit.toNat - '0'.toNat)) 0

def render : Quantifier → List Char
  | optional => ['?']
  | star => ['*']
  | plus => ['+']
  | exactly count => '{' :: count ++ ['}']
  | atLeast min => '{' :: min ++ [',', '}']
  | between min max => '{' :: min ++ ',' :: max ++ ['}']

/-- The counts a quantifier allows. -/
def allows : Quantifier → Nat → Prop
  | optional, count => count ≤ 1
  | star, _ => True
  | plus, count => 1 ≤ count
  | exactly number, count => count = value number
  | atLeast min, count => value min ≤ count
  | between min max, count => value min ≤ count ∧ count ≤ value max

/-- Each count is a numeral. -/
def Formed : Quantifier → Prop
  | optional | star | plus => True
  | exactly count => count ≠ [] ∧ count.all Char.isDigit = true
  | atLeast min => min ≠ [] ∧ min.all Char.isDigit = true
  | between min max => (min ≠ [] ∧ min.all Char.isDigit = true) ∧ max ≠ [] ∧
    max.all Char.isDigit = true

def language (quantifier : Quantifier) (once : Language Char) : Language Char :=
  {word | ∃ count, quantifier.allows count ∧ word ∈ once ^ count}

end Quantifier

/-- The levels of the grammar. -/
inductive Level where
  | regExp
  | branch
  | piece
  | atom

/-- An expression over some leaves, built along the grammar, so that its text
needs no brackets of its own. -/
inductive Expr (Leaf : Type) : Level → Type where
  | one (branch : Expr Leaf .branch) : Expr Leaf .regExp
  | alt (first : Expr Leaf .branch) (others : Expr Leaf .regExp) : Expr Leaf .regExp
  | nil : Expr Leaf .branch
  | cons (piece : Expr Leaf .piece) (rest : Expr Leaf .branch) : Expr Leaf .branch
  | plain (atom : Expr Leaf .atom) : Expr Leaf .piece
  | times (atom : Expr Leaf .atom) (quantifier : Quantifier) : Expr Leaf .piece
  | leaf (mark : Leaf) : Expr Leaf .atom
  | group (inner : Expr Leaf .regExp) : Expr Leaf .atom

namespace Expr
variable {Leaf Other : Type}

def render (text : Leaf → List Char) : Expr Leaf level → List Char
  | one branch => branch.render text
  | alt first others => first.render text ++ '|' :: others.render text
  | nil => []
  | cons piece rest => piece.render text ++ rest.render text
  | plain atom => atom.render text
  | times atom quantifier => atom.render text ++ quantifier.render
  | leaf mark => text mark
  | group inner => '(' :: inner.render text ++ [')']

/-- The words of one character out of a set. -/
def letters (set : Set Char) : Language Char := {word | ∃ c ∈ set, word = [c]}

theorem mem_letters {set : Set Char} {word : List Char} : word ∈ letters set ↔
    ∃ c ∈ set, word = [c] := Iff.rfl

/-- The words an expression stands for, when each leaf stands for some characters. -/
def language (meaning : Leaf → Set Char) : Expr Leaf level → Language Char
  | one branch => branch.language meaning
  | alt first others => first.language meaning + others.language meaning
  | nil => 1
  | cons piece rest => piece.language meaning * rest.language meaning
  | plain atom => atom.language meaning
  | times atom quantifier => quantifier.language (atom.language meaning)
  | leaf mark => letters (meaning mark)
  | group inner => inner.language meaning

/-- The same expression over other leaves. -/
def map (change : Leaf → Other) : Expr Leaf level → Expr Other level
  | one branch => .one (branch.map change)
  | alt first others => .alt (first.map change) (others.map change)
  | nil => .nil
  | cons piece rest => .cons (piece.map change) (rest.map change)
  | plain atom => .plain (atom.map change)
  | times atom quantifier => .times (atom.map change) quantifier
  | leaf mark => .leaf (change mark)
  | group inner => .group (inner.map change)

def leaves : Expr Leaf level → List Leaf
  | one branch => branch.leaves
  | alt first others => first.leaves ++ others.leaves
  | nil => []
  | cons piece rest => piece.leaves ++ rest.leaves
  | plain atom => atom.leaves
  | times atom _ => atom.leaves
  | leaf mark => [mark]
  | group inner => inner.leaves

def quantifiers : Expr Leaf level → List Quantifier
  | one branch => branch.quantifiers
  | alt first others => first.quantifiers ++ others.quantifiers
  | nil => []
  | cons piece rest => piece.quantifiers ++ rest.quantifiers
  | plain atom => atom.quantifiers
  | times atom quantifier => quantifier :: atom.quantifiers
  | leaf _ => []
  | group inner => inner.quantifiers

/-- Leaves that stand for the same characters make the same words. -/
theorem language_map {meaning : Leaf → Set Char} {other : Other → Set Char} {change : Leaf → Other}
    (expr : Expr Leaf level) (same : ∀ mark ∈ expr.leaves, other (change mark) = meaning mark) :
    (expr.map change).language other = expr.language meaning := by
  induction expr with
  | one branch ih => exact ih same
  | alt first others ihFirst ihOthers =>
    obtain ⟨here, later⟩ := List.forall_mem_append.mp same
    rw [map, language, ihFirst here, ihOthers later, language]
  | nil => rfl
  | cons piece rest ihPiece ihRest =>
    obtain ⟨here, later⟩ := List.forall_mem_append.mp same
    rw [map, language, ihPiece here, ihRest later, language]
  | plain atom ih => exact ih same
  | times atom quantifier ih => rw [map, language, ih same, language]
  | leaf mark => rw [map, language, same mark (List.mem_singleton_self _), language]
  | group inner ih => exact ih same

end Expr

end OaGateway.Lib
