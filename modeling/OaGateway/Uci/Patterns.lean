import OaGateway.Lib.RegExp
import OaGateway.Uci.Schema

/-! The grammar of XSD patterns, and the text each is translated to. -/
namespace OaGateway.Uci.Patterns

open Lib

section Grammar

/-- A character, as itself or after a backslash. -/
inductive CharOrEsc where
  | raw (c : Char)
  | esc (c : Char)

def CharOrEsc.text : CharOrEsc → List Char
  | raw c => [c]
  | esc c => ['\\', c]

def CharOrEsc.char : CharOrEsc → Char
  | raw c => c
  | esc c => if c = 'n' then '\n' else if c = 'r' then '\r' else if c = 't' then '\t' else c

/-- `\s \S \i \I \c \C \d \D \w \W`. -/
inductive MultiEsc where
  | space
  | notSpace
  | initial
  | notInitial
  | name
  | notName
  | digit
  | notDigit
  | word
  | notWord
deriving DecidableEq

def MultiEsc.letter : MultiEsc → Char
  | space => 's'
  | notSpace => 'S'
  | initial => 'i'
  | notInitial => 'I'
  | name => 'c'
  | notName => 'C'
  | digit => 'd'
  | notDigit => 'D'
  | word => 'w'
  | notWord => 'W'

/-- An escape for many characters: a letter, a general category, or a block. -/
inductive ClassEsc where
  | multi (kind : MultiEsc)
  | category (inverted : Bool) (name : List Char)
  | block (inverted : Bool) (name : List Char)

def ClassEsc.text : ClassEsc → List Char
  | multi kind => ['\\', kind.letter]
  | category inverted name => ['\\', if inverted then 'P' else 'p', '{'] ++ name ++ ['}']
  | block inverted name => ['\\', if inverted then 'P' else 'p', '{', 'I', 's'] ++ name ++ ['}']

inductive Item where
  | single (c : CharOrEsc)
  | range (first last : CharOrEsc)
  | esc (escape : ClassEsc)

def Item.text : Item → List Char
  | single c => c.text
  | range first last => first.text ++ '-' :: last.text
  | esc escape => escape.text

/-- A class in brackets, and one that takes another class away. -/
inductive ClassExpr where
  | group (negated : Bool) (items : List Item)
  | minus (negated : Bool) (items : List Item) (less : ClassExpr)

def opening (negated : Bool) : List Char := if negated then ['[', '^'] else ['[']

def ClassExpr.text : ClassExpr → List Char
  | group negated items => opening negated ++ items.flatMap Item.text ++ [']']
  | minus negated items less => opening negated ++ items.flatMap Item.text ++ '-' ::
    less.text ++ [']']

inductive Leaf where
  | char (c : CharOrEsc)
  | esc (escape : ClassEsc)
  | dot
  | bracketed (expr : ClassExpr)

def Leaf.text : Leaf → List Char
  | char c => c.text
  | esc escape => escape.text
  | dot => ['.']
  | bracketed expr => expr.text

/-- A pattern as the grammar of XSD builds it. -/
abbrev Source := Expr Leaf .regExp

def Source.text (source : Source) : String := .ofList (source.render Leaf.text)

end Grammar

section Forms

/-- Characters that are no literals outside a class. -/
def metacharacters : List Char :=
  ['.', '\\', '?', '*', '+', '\x7b', '\x7d', '(', ')', '|', '[', ']']

/-- What a backslash may stand in front of. -/
def escapable : List Char :=
  ['n', 'r', 't', '\\', '|', '.', '?', '*', '+', '(', ')', '\x7b', '\x7d', '-', '[', ']', '^']

def CharOrEsc.Formed (excluded : List Char) : CharOrEsc → Prop
  | raw c => c ∉ excluded
  | esc c => c ∈ escapable

/-- The general categories XSD names. -/
def categories : List (List Char) :=
  ["L", "Lu", "Ll", "Lt", "Lm", "Lo", "M", "Mn", "Mc", "Me", "N", "Nd", "Nl", "No", "P", "Pc",
    "Pd", "Ps", "Pe", "Pi", "Pf", "Po", "Z", "Zs", "Zl", "Zp", "S", "Sm", "Sc", "Sk", "So", "C",
      "Cc", "Cf", "Co", "Cn"].map String.toList

def isNameChar (c : Char) : Bool := c.isAlphanum || c == '-'

def ClassEsc.Formed : ClassEsc → Prop
  | multi _ => True
  | category _ name => name ∈ categories
  | block _ name => name.all isNameChar = true

def Item.Formed : Item → Prop
  | single c => c.Formed ['\\', '[', ']']
  | range first last => first.Formed ['\\', '[', ']', '-'] ∧ last.Formed ['\\', '[', ']', '-']
  | esc escape => escape.Formed

/-- A dash that stands for itself. -/
def Item.IsDash (item : Item) : Prop := item = .single (.raw '-')

/-- Some items; a dash among them is the first or the last; no circumflex in
front that would negate the group. -/
structure ItemsFormed (negated : Bool) (items : List Item) : Prop where
  filled : items ≠ []
  each : ∀ item ∈ items, item.Formed
  dashes : ∀ front item back, items = front ++ item :: back → item.IsDash → front = [] ∨ back = []
  first : negated = false → ∀ item rest, items = item :: rest → item.text.head? ≠ some '^'

def ClassExpr.Formed : ClassExpr → Prop
  | group negated items => ItemsFormed negated items
  | minus negated items less => ItemsFormed negated items ∧ less.Formed

def Leaf.Formed : Leaf → Prop
  | char c => c.Formed metacharacters
  | esc escape => escape.Formed
  | dot => True
  | bracketed expr => expr.Formed

structure Source.Formed (source : Source) : Prop where
  leaves : ∀ leaf ∈ source.leaves, leaf.Formed
  quantifiers : ∀ quantifier ∈ source.quantifiers, quantifier.Formed

end Forms

section Rewriting

/-- A circumflex right after a bracket is kept; other circumflexes and dollars
get a backslash. -/
def CharOrEsc.rewrite (after : Bool) : CharOrEsc → CharOrEsc
  | raw c => if c = '$' ∨ c = '^' ∧ after = false then esc c else raw c
  | esc c => esc c

/-- Whether the text ends with an opening bracket. -/
def CharOrEsc.opens : CharOrEsc → Bool
  | raw c | esc c => c == '['

def Item.rewrite (after : Bool) : Item → Item
  | single c => .single (c.rewrite after)
  | range first last => .range (first.rewrite after) (last.rewrite false)
  | esc escape => .esc escape

def Item.opens : Item → Bool
  | single c | range _ c => c.opens
  | esc _ => false

def rewriteItems (after : Bool) : List Item → List Item
  | [] => []
  | item :: rest => item.rewrite after :: rewriteItems item.opens rest

def ClassExpr.rewrite : ClassExpr → ClassExpr
  | group negated items => .group negated (rewriteItems (!negated) items)
  | minus negated items less => .minus negated (rewriteItems (!negated) items) less.rewrite

def Leaf.rewrite : Leaf → Leaf
  | char c => .char (c.rewrite false)
  | esc escape => .esc escape
  | dot => .dot
  | bracketed expr => .bracketed expr.rewrite

/-- The expression a pattern is translated to. -/
def Source.rewrite (source : Source) : Source := source.map Leaf.rewrite

/-- The text of an expression that has to match a value as a whole. -/
def Source.anchored (source : Source) : String :=
  .ofList (['\\', 'A', '(', '?', ':'] ++ source.render Leaf.text ++ [')', '\\', 'z'])

end Rewriting

section Loop
open Pattern

theorem translateLoop_esc (out : List Char) (inClass : Bool) (c : Char) (rest : List Char) :
    translateLoop out inClass ('\\' :: c :: rest) =
      translateLoop (out ++ ['\\', c]) inClass rest := by
  rw [translateLoop]

theorem translateLoop_cons (out : List Char) (inClass : Bool) {c : Char} (rest : List Char)
    (plain : c ≠ '\\') :
    translateLoop out inClass (c :: rest) =
      if c = '[' ∧ !inClass then translateLoop (out ++ [c]) true rest
      else if c = ']' ∧ inClass then translateLoop (out ++ [c]) false rest
      else if c = '^' ∨ c = '$' then
        if c = '^' ∧ inClass ∧ out.getLast? = some '[' then translateLoop (out ++ [c]) inClass rest
        else translateLoop (out ++ ['\\', c]) inClass rest
      else translateLoop (out ++ [c]) inClass rest := by
  rw [translateLoop]
  · intro same
    exact absurd same plain
  · intro _ _ same
    exact absurd same plain

/-- The loop writes `emitted` for `text`, outside a class. -/
def Rewrites (text emitted : List Char) : Prop :=
  ∀ out rest, translateLoop out false (text ++ rest) = translateLoop (out ++ emitted) false rest

theorem Rewrites.append (first : Rewrites text emitted) (second : Rewrites more other) :
    Rewrites (text ++ more) (emitted ++ other) := by
  intro out rest
  rw [List.append_assoc, first, second, List.append_assoc]

theorem rewrites_nil : Rewrites [] [] := by
  intro out rest
  simp

/-- Characters the loop does not look at outside a class. -/
def ordinary (c : Char) : Bool := !(['\\', '[', '^', '$'].contains c)

theorem ordinary_iff : ordinary c = true ↔ c ≠ '\\' ∧ c ≠ '[' ∧ c ≠ '^' ∧ c ≠ '$' := by
  simp [ordinary]

theorem rewrites_ordinary {text : List Char} (plain : text.all ordinary = true) :
    Rewrites text text := by
  induction text with
  | nil => exact rewrites_nil
  | cons c text ih =>
    rw [List.all_cons, Bool.and_eq_true] at plain
    obtain ⟨here, later⟩ := plain
    obtain ⟨backslash, bracket, circumflex, dollar⟩ := ordinary_iff.mp here
    have first : Rewrites [c] [c] := by
      intro out rest
      rw [List.singleton_append, translateLoop_cons _ _ _ backslash]
      simp [bracket, circumflex, dollar]
    exact first.append (ih later)

theorem rewrites_esc (c : Char) : Rewrites ['\\', c] ['\\', c] :=
  fun out rest => translateLoop_esc out false c rest

theorem ordinary_of {test : Char → Bool}
    (none : ['\\', '[', '^', '$'].all (fun c => !test c) = true) (holds : test c = true) :
    ordinary c = true := by
  rw [ordinary, Bool.not_eq_true', ← Bool.not_eq_true, List.contains_iff_mem]
  intro member
  have here := List.all_eq_true.mp none c member
  simp [holds] at here

theorem rewrites_numeral {digits : List Char} (numeral : digits.all Char.isDigit = true) :
    Rewrites digits digits :=
  rewrites_ordinary (List.all_eq_true.mpr fun c member =>
    ordinary_of (by decide) (List.all_eq_true.mp numeral c member))

theorem rewrites_quantifier {quantifier : Quantifier} (formed : quantifier.Formed) :
    Rewrites quantifier.render quantifier.render := by
  have open_ : Rewrites ['\x7b'] ['\x7b'] := rewrites_ordinary (by decide)
  have close : Rewrites ['\x7d'] ['\x7d'] := rewrites_ordinary (by decide)
  have comma : Rewrites [','] [','] := rewrites_ordinary (by decide)
  cases quantifier with
  | optional => exact rewrites_ordinary (by decide)
  | star => exact rewrites_ordinary (by decide)
  | plus => exact rewrites_ordinary (by decide)
  | exactly count => exact (open_.append (rewrites_numeral formed.2)).append close
  | atLeast min => exact (open_.append (rewrites_numeral formed.2)).append (comma.append close)
  | between min max =>
    exact ((open_.append (rewrites_numeral formed.1.2)).append
      (comma.append (rewrites_numeral formed.2.2))).append close

/-- What holds of the leaves holds of the expression. -/
theorem rewrites_render {expr : Expr Leaf level}
    (leaves : ∀ leaf ∈ expr.leaves, Rewrites leaf.text leaf.rewrite.text)
    (counts : ∀ quantifier ∈ expr.quantifiers, quantifier.Formed) :
    Rewrites (expr.render Leaf.text) ((expr.map Leaf.rewrite).render Leaf.text) := by
  have bar : Rewrites ['|'] ['|'] := rewrites_ordinary (by decide)
  have left : Rewrites ['('] ['('] := rewrites_ordinary (by decide)
  have right : Rewrites [')'] [')'] := rewrites_ordinary (by decide)
  induction expr with
  | one branch ih => exact ih leaves counts
  | alt first others ihFirst ihOthers =>
    obtain ⟨here, later⟩ := List.forall_mem_append.mp leaves
    obtain ⟨few, more⟩ := List.forall_mem_append.mp counts
    exact (ihFirst here few).append (bar.append (ihOthers later more))
  | nil => exact rewrites_nil
  | cons piece rest ihPiece ihRest =>
    obtain ⟨here, later⟩ := List.forall_mem_append.mp leaves
    obtain ⟨few, more⟩ := List.forall_mem_append.mp counts
    exact (ihPiece here few).append (ihRest later more)
  | plain atom ih => exact ih leaves counts
  | times atom quantifier ih =>
    obtain ⟨own, inner⟩ := List.forall_mem_cons.mp counts
    exact (ih leaves inner).append (rewrites_quantifier own)
  | leaf mark => exact leaves mark (List.mem_singleton_self _)
  | group inner ih => exact (left.append (ih leaves counts)).append right

end Loop

section Classes
open Pattern

/-- Whether what is written so far ends with an opening bracket. -/
def endsOpen (out : List Char) : Bool := out.getLast? == some '['

theorem endsOpen_append (out : List Char) (c : Char) : endsOpen (out ++ [c]) = (c == '[') := by
  simp [endsOpen]

/-- One character inside a class. -/
theorem inside_char {excluded : List Char} {c : CharOrEsc} (formed : c.Formed excluded)
    (brackets : ['\\', '[', ']'] ⊆ excluded) (out rest : List Char) :
    translateLoop out true (c.text ++ rest) =
        translateLoop (out ++ (c.rewrite (endsOpen out)).text) true rest ∧
      endsOpen (out ++ (c.rewrite (endsOpen out)).text) = c.opens := by
  cases c with
  | esc c =>
    refine ⟨translateLoop_esc out true c rest, ?_⟩
    have parts : out ++ ['\\', c] = out ++ ['\\'] ++ [c] := by simp
    rw [CharOrEsc.rewrite, CharOrEsc.text, parts, endsOpen_append]
    rfl
  | raw c =>
    have backslash : c ≠ '\\' := fun same => formed (brackets (by simp [same]))
    have opening : c ≠ '[' := fun same => formed (brackets (by simp [same]))
    have closing : c ≠ ']' := fun same => formed (brackets (by simp [same]))
    have last : endsOpen (out ++ [c]) = (c == '[') := endsOpen_append out c
    have parts : out ++ ['\\', c] = out ++ ['\\'] ++ [c] := by simp
    have escaped : endsOpen (out ++ ['\\', c]) = (c == '[') := by rw [parts, endsOpen_append]
    rw [CharOrEsc.text, List.singleton_append, translateLoop_cons _ _ _ backslash, CharOrEsc.opens]
    by_cases dollar : c = '$'
    · subst dollar
      exact ⟨by simp [CharOrEsc.rewrite, CharOrEsc.text], by
        simpa [CharOrEsc.rewrite, CharOrEsc.text] using escaped⟩
    · by_cases circumflex : c = '^'
      · subst circumflex
        cases after : endsOpen out with
        | true =>
          have before : out.getLast? = some '[' := by simpa [endsOpen] using after
          exact ⟨by simp [CharOrEsc.rewrite, CharOrEsc.text, before], by
            simpa [CharOrEsc.rewrite, CharOrEsc.text] using last⟩
        | false =>
          have before : out.getLast? ≠ some '[' := by simpa [endsOpen] using after
          exact ⟨by simp [CharOrEsc.rewrite, CharOrEsc.text, before],
            by simpa [CharOrEsc.rewrite, CharOrEsc.text] using escaped⟩
      · exact ⟨by simp [CharOrEsc.rewrite, CharOrEsc.text, dollar, circumflex, opening, closing],
          by simpa [CharOrEsc.rewrite, CharOrEsc.text, dollar, circumflex] using last⟩

/-- Characters the loop does not look at inside a class. -/
def plainInside (c : Char) : Bool := ordinary c && c != ']'

theorem ordinary_of_plain {text : List Char} (plain : text.all plainInside = true) :
    text.all ordinary = true := by
  refine List.all_eq_true.mpr fun c member => ?_
  have here := List.all_eq_true.mp plain c member
  rw [plainInside, Bool.and_eq_true] at here
  exact here.1

theorem inside_plain {text : List Char} (plain : text.all plainInside = true)
    (out rest : List Char) :
    translateLoop out true (text ++ rest) = translateLoop (out ++ text) true rest := by
  induction text generalizing out with
  | nil => simp
  | cons c text ih =>
    rw [List.all_cons, Bool.and_eq_true, plainInside, Bool.and_eq_true, bne_iff_ne] at plain
    obtain ⟨⟨here, closing⟩, later⟩ := plain
    obtain ⟨backslash, bracket, circumflex, dollar⟩ := ordinary_iff.mp here
    rw [List.cons_append, translateLoop_cons _ _ _ backslash]
    simp only [bracket, closing, circumflex, dollar, false_and, or_self, if_false]
    rw [ih later, List.append_assoc, List.singleton_append]

/-- The text of an escape: a backslash, a character, and a name in braces. -/
theorem text_classEsc {escape : ClassEsc} (formed : escape.Formed) : ∃ letter name,
    escape.text = '\\' :: letter :: name ∧ name.all plainInside = true ∧
      (letter :: name).getLast? ≠ some '[' := by
  have braced {name : List Char} (front : List Char) (plain : front.all plainInside = true)
      (named : name.all isNameChar = true) :
          (front ++ name ++ ['\x7d']).all plainInside = true := by
    rw [List.all_append, List.all_append, plain, Bool.true_and, Bool.and_eq_true]
    refine ⟨List.all_eq_true.mpr fun c inside => ?_, by decide⟩
    have known := List.all_eq_true.mp named c inside
    have closing : c ≠ ']' := by
      rintro rfl
      exact absurd known (by decide)
    rw [plainInside, ordinary_of (by decide) known, Bool.true_and, bne_iff_ne]
    exact closing
  have closed (front : List Char) : (front ++ ['\x7d']).getLast? ≠ some '[' := by
    rw [List.getLast?_concat]
    decide
  cases escape with
  | multi kind =>
    refine ⟨kind.letter, [], rfl, by simp, ?_⟩
    cases kind <;> decide
  | category inverted name =>
    refine ⟨_, '\x7b' :: name ++ ['\x7d'], rfl, ?_, closed (_ :: '\x7b' :: name)⟩
    have known : categories.all (fun name => name.all isNameChar) = true := by decide
    exact braced ['\x7b'] (by decide) (List.all_eq_true.mp known name formed)
  | block inverted name =>
    refine ⟨_, '\x7b' :: 'I' :: 's' :: name ++ ['\x7d'], rfl, ?_,
      closed (_ :: '\x7b' :: 'I' :: 's' :: name)⟩
    exact braced ['\x7b', 'I', 's'] (by decide) formed

theorem inside_item {item : Item} (formed : item.Formed) (out rest : List Char) :
    translateLoop out true (item.text ++ rest) =
        translateLoop (out ++ (item.rewrite (endsOpen out)).text) true rest ∧
      endsOpen (out ++ (item.rewrite (endsOpen out)).text) = item.opens := by
  cases item with
  | single c => exact inside_char formed (by decide) out rest
  | range first last =>
    obtain ⟨start, -⟩ := inside_char formed.1 (by decide) out ('-' :: (last.text ++ rest))
    have dash : ['-'].all plainInside = true := by decide
    have between := inside_plain dash (out ++ (first.rewrite (endsOpen out)).text)
      (last.text ++ rest)
    have fresh : endsOpen (out ++ (first.rewrite (endsOpen out)).text ++ ['-']) = false :=
      endsOpen_append _ _
    have finish := inside_char formed.2 (by decide)
      (out ++ (first.rewrite (endsOpen out)).text ++ ['-']) rest
    rw [fresh] at finish
    simp only [Item.text, Item.rewrite, List.append_assoc, List.cons_append,
      List.nil_append, Item.opens] at *
    exact ⟨start.trans (between.trans finish.1), finish.2⟩
  | esc escape =>
    obtain ⟨letter, name, same, plain, last⟩ := text_classEsc formed
    rw [Item.rewrite, Item.text, same, Item.opens]
    refine ⟨?_, ?_⟩
    · rw [List.cons_append, List.cons_append, translateLoop_esc, inside_plain plain,
        List.append_assoc]
      rfl
    · have nonempty : ('\\' :: letter :: name).getLast? = (letter :: name).getLast? := by simp
      rw [endsOpen, List.getLast?_append, nonempty]
      cases shape : (letter :: name).getLast? with
      | none => simp at shape
      | some c =>
        rw [shape] at last
        simpa using last

theorem inside_items {items : List Item} (formed : ∀ item ∈ items, item.Formed)
    (out rest : List Char) :
    translateLoop out true (items.flatMap Item.text ++ rest) =
      translateLoop (out ++ (rewriteItems (endsOpen out) items).flatMap Item.text) true rest := by
  induction items generalizing out with
  | nil => simp [rewriteItems]
  | cons item items ih =>
    obtain ⟨here, later⟩ := List.forall_mem_cons.mp formed
    rw [List.flatMap_cons, List.append_assoc]
    obtain ⟨step, opens⟩ := inside_item here out (items.flatMap Item.text ++ rest)
    rw [step, ih later, opens, rewriteItems, List.flatMap_cons, List.append_assoc]

/-- The opening of a class is kept, negated or not, nested or not. -/
theorem inside_opening (negated inClass : Bool) (out rest : List Char) :
    translateLoop out inClass (opening negated ++ rest) =
      translateLoop (out ++ opening negated) true rest ∧
      endsOpen (out ++ opening negated) = !negated := by
  have bracket (rest : List Char) :
      translateLoop out inClass ('[' :: rest) = translateLoop (out ++ ['[']) true rest := by
    rw [translateLoop_cons _ _ _ (by decide)]
    cases inClass <;> simp
  cases negated with
  | false => exact ⟨bracket rest, endsOpen_append _ _⟩
  | true =>
    have parts : out ++ ['[', '^'] = out ++ ['['] ++ ['^'] := by simp
    refine ⟨?_, ?_⟩
    · rw [opening, if_pos rfl, List.cons_append, List.singleton_append, bracket,
        translateLoop_cons _ _ _ (by decide), parts]
      simp
    · rw [opening, if_pos rfl, parts, endsOpen_append]
      rfl

/-- A class is rewritten as a whole, and left behind with its last bracket. -/
theorem inside_class {expr : ClassExpr} (formed : expr.Formed) (inClass : Bool)
    (out rest : List Char) :
    translateLoop out inClass (expr.text ++ rest) =
      translateLoop (out ++ expr.rewrite.text) false rest := by
  induction expr generalizing inClass out rest with
  | group negated items =>
    have start := inside_opening negated inClass out (items.flatMap Item.text ++ ([']'] ++ rest))
    have body := inside_items formed.each (out ++ opening negated) ([']'] ++ rest)
    rw [start.2] at body
    simp only [ClassExpr.text, ClassExpr.rewrite, List.append_assoc] at *
    rw [start.1, body, List.singleton_append, translateLoop_cons _ _ _ (by decide)]
    simp
  | minus negated items less ih =>
    obtain ⟨listed, inner⟩ := formed
    have start := inside_opening negated inClass out
      (items.flatMap Item.text ++ ('-' :: (less.text ++ ([']'] ++ rest))))
    have body := inside_items listed.each (out ++ opening negated)
      ('-' :: (less.text ++ ([']'] ++ rest)))
    rw [start.2] at body
    have dash : ['-'].all plainInside = true := by decide
    have between := inside_plain dash
    have close (out : List Char) : translateLoop out false (']' :: rest) =
      translateLoop (out ++ [']']) false rest :=
      @rewrites_ordinary [']'] (by decide) out rest
    simp only [ClassExpr.text, ClassExpr.rewrite, List.append_assoc, List.cons_append,
      List.nil_append] at *
    rw [start.1, body, between, ih inner, close]
    simp

theorem rewrites_leaf {leaf : Leaf} (formed : leaf.Formed) :
    Rewrites leaf.text leaf.rewrite.text := by
  cases leaf with
  | char c =>
    cases c with
    | esc c => exact rewrites_esc c
    | raw c =>
      have backslash : c ≠ '\\' := by
        rintro rfl
        exact formed (by decide)
      have bracket : c ≠ '[' := by
        rintro rfl
        exact formed (by decide)
      intro out rest
      rw [Leaf.text, CharOrEsc.text, List.singleton_append, translateLoop_cons _ _ _ backslash]
      by_cases anchor : c = '^' ∨ c = '$'
      · have emitted : (Leaf.char (.raw c)).rewrite.text = ['\\', c] := by
          rcases anchor with rfl | rfl <;> rfl
        rw [if_neg (by simp [bracket]), if_neg (by simp), if_pos anchor, if_neg (by simp), emitted]
      · have emitted : (Leaf.char (.raw c)).rewrite.text = [c] := by
          rw [not_or] at anchor
          simp [Leaf.rewrite, CharOrEsc.rewrite, Leaf.text, CharOrEsc.text, anchor]
        rw [if_neg (by simp [bracket]), if_neg (by simp), if_neg anchor, emitted]
  | esc escape =>
    obtain ⟨letter, name, same, plain, -⟩ := text_classEsc formed
    rw [Leaf.rewrite, Leaf.text, same]
    exact (rewrites_esc letter).append (rewrites_ordinary (ordinary_of_plain plain))
  | dot => exact rewrites_ordinary (by decide)
  | bracketed expr => exact fun out rest => inside_class formed false out rest

/-- The translation of a pattern is the text of its rewritten expression, to be
matched as a whole. -/
theorem translate_text {source : Source} (formed : source.Formed) :
    Pattern.translate source.text = source.rewrite.anchored := by
  have whole := rewrites_render (fun leaf member => rewrites_leaf (formed.leaves leaf member))
    formed.quantifiers
  rw [Pattern.translate, Source.text, String.toList_ofList, Source.anchored]
  have run := whole ['\\', 'A', '(', '?', ':'] []
  rw [List.append_nil] at run
  rw [run, translateLoop]
  rfl

end Classes

end OaGateway.Uci.Patterns
