import Mathlib.Data.List.Infix
import OaGateway.Lib.Utf8

/-! A byte scanner that bounds element nesting without building a tree. The
constructs it steps over are a parameter. -/
namespace OaGateway.Lib.Xml

/-- A construct skipped as a whole: the bytes after `<` that open it and the
bytes that close it. -/
structure Construct where
  opening : Bytes
  closing : Bytes

def position (pattern : Bytes) : Bytes → Option Nat
  | [] => none
  | first :: rest =>
    if pattern.isPrefixOf (first :: rest) then some 0 else (position pattern rest).map (· + 1)

/-- Bytes consumed if `rest` opens with the construct, through its close. An
unterminated construct consumes the remainder. -/
def skipPast (rest : Bytes) (construct : Construct) : Option Nat :=
  if construct.opening.isPrefixOf rest then
    let body := rest.drop construct.opening.length
    let consumed := match position construct.closing body with
      | some found => found + construct.closing.length
      | none => body.length
    some (construct.opening.length + consumed)
  else none

def pastClose (rest : Bytes) : Nat :=
  match rest.findIdx? (· == byte '>') with
  | some found => found + 1
  | none => rest.length

/-- The loop of `scanStartTag`: bytes read, the open quote and the last byte. -/
def tagLoop (read : Nat) (quote : Option UInt8) (prev : UInt8) : Bytes → Nat × Bool
  | [] => (read, false)
  | c :: rest =>
    match quote with
    | some q => if c = q then tagLoop (read + 1) none c rest else tagLoop (read + 1) (some q) c rest
    | none =>
      if c = byte '"' ∨ c = byte '\'' then tagLoop (read + 1) (some c) c rest
      else if c = byte '>' then (read + 1, prev == byte '/')
      else tagLoop (read + 1) none c rest

/-- Bytes consumed by a start tag, and whether it closed itself. -/
def scanStartTag (rest : Bytes) : Nat × Bool := tagLoop 0 none 0 rest

section Loop
variable (constructs : List Construct) (limit : Nat)

/-- The scan over what is left of the text. Each round consumes a byte, so the
length of the text is fuel enough. -/
def nestingLoop : Nat → Bytes → Nat → Bool
  | 0, _, _ => false
  | _ + 1, [], _ => false
  | fuel + 1, c :: rest, depth =>
    if c ≠ byte '<' then nestingLoop fuel rest depth
    else match constructs.findSome? (skipPast rest) with
      | some consumed => nestingLoop fuel (rest.drop consumed) depth
      | none =>
        if rest.head? = some (byte '!') then nestingLoop fuel (rest.drop (pastClose rest)) depth
        else if rest.head? = some (byte '/') then
          nestingLoop fuel (rest.drop (pastClose rest)) (depth - 1)
        else if depth + 1 > limit then true
        else
          let tag := scanStartTag rest
          nestingLoop fuel (rest.drop tag.1) (if tag.2 then depth else depth + 1)

def exceeds (bytes : Bytes) (depth : Nat) : Bool :=
  nestingLoop constructs limit bytes.length bytes depth

variable {constructs limit}

theorem nestingLoop_fuel {fuel : Nat} {bytes : Bytes} (depth : Nat) (enough : bytes.length ≤ fuel) :
    nestingLoop constructs limit fuel bytes depth = exceeds constructs limit bytes depth := by
  unfold exceeds
  suffices same : ∀ more, nestingLoop constructs limit (bytes.length + more) bytes depth =
      nestingLoop constructs limit bytes.length bytes depth by
    rw [← same (fuel - bytes.length), Nat.add_sub_cancel' enough]
  induction length : bytes.length using Nat.strong_induction_on generalizing bytes depth fuel with
  | h size ih =>
    intro more
    cases bytes with
    | nil =>
      subst length
      cases more <;> rfl
    | cons c rest =>
      subst length
      have shorter (n : Nat) (depth : Nat) :
          nestingLoop constructs limit (rest.length + more) (rest.drop n) depth =
            nestingLoop constructs limit rest.length (rest.drop n) depth := by
        have small : (rest.drop n).length < (c :: rest).length := by
          simp only [List.length_drop, List.length_cons]
          omega
        have most : (rest.drop n).length ≤ rest.length := by simp
        have long := @ih _ small (rest.drop n).length (rest.drop n) depth (Nat.le_refl _) rfl
          (rest.length + more - (rest.drop n).length)
        have short := @ih _ small (rest.drop n).length (rest.drop n) depth (Nat.le_refl _) rfl
          (rest.length - (rest.drop n).length)
        rw [show (rest.drop n).length + (rest.length + more - (rest.drop n).length) =
          rest.length + more by omega] at long
        rw [show (rest.drop n).length + (rest.length - (rest.drop n).length) = rest.length by omega]
          at short
        exact long.trans short.symm
      rw [List.length_cons, show rest.length + 1 + more = (rest.length + more) + 1 by omega]
      have whole := shorter 0 depth
      simp only [List.drop_zero] at whole
      simp only [nestingLoop, shorter, whole]

@[simp] theorem exceeds_nil (depth : Nat) : exceeds constructs limit [] depth = false := rfl

theorem exceeds_cons (c : UInt8) (rest : Bytes) (depth : Nat) :
    exceeds constructs limit (c :: rest) depth =
      if c ≠ byte '<' then exceeds constructs limit rest depth
      else match constructs.findSome? (skipPast rest) with
        | some consumed => exceeds constructs limit (rest.drop consumed) depth
        | none =>
          if rest.head? = some (byte '!') then exceeds constructs limit
            (rest.drop (pastClose rest)) depth
          else if rest.head? = some (byte '/') then
            exceeds constructs limit (rest.drop (pastClose rest)) (depth - 1)
          else if depth + 1 > limit then true
          else exceeds constructs limit (rest.drop (scanStartTag rest).1)
            (if (scanStartTag rest).2 then depth else depth + 1) := by
  have drops (n depth : Nat) : nestingLoop constructs limit rest.length (rest.drop n) depth =
      exceeds constructs limit (rest.drop n) depth := nestingLoop_fuel depth (by simp)
  have whole := drops 0 depth
  simp only [List.drop_zero] at whole
  rw [exceeds, List.length_cons]
  simp only [nestingLoop, drops, whole]

end Loop

end OaGateway.Lib.Xml
