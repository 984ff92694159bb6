import OaGateway.Uci.Patterns
import Mathlib.Data.Multiset.Sort
import Mathlib.Data.Prod.Lex
import Mathlib.Data.String.Basic

/-! What a pattern means to XSD, and what its translation means to the regex
crate. -/
namespace OaGateway.Uci

open Lib

/-- Every pattern this build cannot check, with the type that declares it. -/
def Schema.uncheckedPatterns (schema : Schema) : List (String × String) :=
  let found : Multiset (String ×ₗ String) := schema.simpleTypes.entries.bind fun entry =>
    ((entry.2.facets.patterns.filter fun pattern => !pattern.isChecked).map fun pattern =>
      toLex (entry.1, pattern.source) : List (String ×ₗ String))
  found.sort.map ofLex

theorem mem_uncheckedPatterns {schema : Schema} {name : String} {simple : SimpleType}
    {pattern : Pattern} (declared : schema.simpleTypes.lookup name = some simple)
    (listed : pattern ∈ simple.facets.patterns) (unchecked : pattern.isChecked = false) :
    (name, pattern.source) ∈ schema.uncheckedPatterns := by
  rw [Schema.uncheckedPatterns, List.mem_map]
  refine ⟨toLex (name, pattern.source), ?_, rfl⟩
  rw [Multiset.mem_sort, Multiset.mem_bind]
  refine ⟨⟨name, simple⟩, Finmap.mem_lookup_iff.mp declared, ?_⟩
  rw [Multiset.mem_coe, List.mem_map]
  exact ⟨pattern, List.mem_filter.mpr ⟨listed, by simp [unchecked]⟩, rfl⟩

namespace Patterns

section Meanings

/-- The character tables both languages refer to. -/
structure Tables where
  /-- Unicode general categories. -/
  category : List Char → Set Char
  /-- Unicode blocks, as XSD names them. -/
  block : List Char → Set Char
  /-- Where an XML name may start, and how it may go on. -/
  initial : Set Char
  name : Set Char
  /-- `\s` and `\w` of the regex crate. -/
  whiteSpace : Set Char
  word : Set Char
  /-- The property the regex crate takes a name after `Is` for, if it has one. -/
  property : List Char → Option (Set Char)

variable (tables : Tables)

def inverting (inverted : Bool) (set : Set Char) : Set Char := if inverted then setᶜ else set

def MultiEsc.xsd : MultiEsc → Set Char
  | space => {' ', '\t', '\n', '\r'}
  | notSpace => {' ', '\t', '\n', '\r'}ᶜ
  | initial => tables.initial
  | notInitial => tables.initialᶜ
  | name => tables.name
  | notName => tables.nameᶜ
  | digit => tables.category ['N', 'd']
  | notDigit => (tables.category ['N', 'd'])ᶜ
  | word => (tables.category ['P'] ∪ tables.category ['Z'] ∪ tables.category ['C'])ᶜ
  | notWord => tables.category ['P'] ∪ tables.category ['Z'] ∪ tables.category ['C']

/-- The regex crate has no `\i` and no `\c`. -/
def MultiEsc.rust : MultiEsc → Set Char
  | space => tables.whiteSpace
  | notSpace => tables.whiteSpaceᶜ
  | initial | notInitial | name | notName => ∅
  | digit => tables.category ['N', 'd']
  | notDigit => (tables.category ['N', 'd'])ᶜ
  | word => tables.word
  | notWord => tables.wordᶜ

def ClassEsc.xsd : ClassEsc → Set Char
  | multi kind => kind.xsd tables
  | category inverted name => inverting inverted (tables.category name)
  | block inverted name => inverting inverted (tables.block name)

def ClassEsc.rust : ClassEsc → Set Char
  | multi kind => kind.rust tables
  | category inverted name => inverting inverted (tables.category name)
  | block inverted name => inverting inverted ((tables.property name).getD ∅)

def Item.meaning (escapes : ClassEsc → Set Char) : Item → Set Char
  | single c => {c.char}
  | range first last => {c | first.char ≤ c ∧ c ≤ last.char}
  | esc escape => escapes escape

def itemsMeaning (escapes : ClassEsc → Set Char) (items : List Item) : Set Char :=
  {c | ∃ item ∈ items, c ∈ item.meaning escapes}

/-- XSD takes the second class away from the first. -/
def ClassExpr.xsd : ClassExpr → Set Char
  | group negated items => inverting negated (itemsMeaning (ClassEsc.xsd tables) items)
  | minus negated items less =>
    inverting negated (itemsMeaning (ClassEsc.xsd tables) items) \ less.xsd

/-- A bracket inside a class opens a class of its own, and everything in the
outer one is joined. -/
def ClassExpr.rust : ClassExpr → Set Char
  | group negated items => inverting negated (itemsMeaning (ClassEsc.rust tables) items)
  | minus negated items less =>
    inverting negated (itemsMeaning (ClassEsc.rust tables) items ∪ {'-'} ∪ less.rust)

def Leaf.xsd : Leaf → Set Char
  | char c => {c.char}
  | esc escape => escape.xsd tables
  | dot => {'\n', '\r'}ᶜ
  | bracketed expr => expr.xsd tables

def Leaf.rust : Leaf → Set Char
  | char c => {c.char}
  | esc escape => escape.rust tables
  | dot => {'\n'}ᶜ
  | bracketed expr => expr.rust tables

end Meanings

section Sharing

variable (tables : Tables)

/-- Escapes that mean the same to both. -/
def ClassEsc.Shared : ClassEsc → Prop
  | multi kind => kind = .digit ∨ kind = .notDigit
  | category _ _ => True
  | block _ name => tables.property name = some (tables.block name)

def Item.Shared : Item → Prop
  | single _ | range _ _ => True
  | esc escape => escape.Shared tables

/-- Two ampersands or two tildes in a row are an operator of the regex crate. -/
def NoOperators (items : List Item) : Prop :=
  ∀ front mark next back, items = front ++ .single (.raw mark) :: next :: back →
  mark = '&' ∨ mark = '~' →
    next.text.head? ≠ some mark

def ClassExpr.Shared : ClassExpr → Prop
  | group _ items => (∀ item ∈ items, item.Shared tables) ∧ NoOperators items
  | minus _ _ _ => False

def Leaf.Shared : Leaf → Prop
  | char _ => True
  | esc escape => escape.Shared tables
  | dot => False
  | bracketed expr => expr.Shared tables

/-- Nothing in the pattern means something else to the regex crate. -/
def Source.Shared (source : Source) : Prop := ∀ leaf ∈ source.leaves, leaf.Shared tables

/-- Escapes the regex crate does not know: those for XML names, and blocks it
has no property for. -/
def ClassEsc.Unknown : ClassEsc → Prop
  | multi kind => kind = .initial ∨ kind = .notInitial ∨ kind = .name ∨ kind = .notName
  | category _ _ => False
  | block _ name => tables.property name = none

/-- The items of a class and of the classes inside it. -/
def ClassExpr.items : ClassExpr → List Item
  | group _ items => items
  | minus _ items less => items ++ less.items

def Leaf.Unknown : Leaf → Prop
  | esc escape => escape.Unknown tables
  | bracketed expr => ∃ escape, .esc escape ∈ expr.items ∧ escape.Unknown tables
  | _ => False

/-- The pattern has an escape that does not compile. -/
def Source.Unknown (source : Source) : Prop := ∃ leaf ∈ source.leaves, leaf.Unknown tables

variable {tables}

theorem char_rewrite (after : Bool) (c : CharOrEsc) : (c.rewrite after).char = c.char := by
  cases c with
  | esc c => rfl
  | raw c =>
    rw [CharOrEsc.rewrite]
    split
    · rename_i anchor
      rcases anchor with rfl | ⟨rfl, -⟩ <;> rfl
    · rfl

theorem rust_of_shared {escape : ClassEsc} (shared : escape.Shared tables) :
    escape.rust tables = escape.xsd tables := by
  cases escape with
  | multi kind => rcases shared with rfl | rfl <;> rfl
  | category inverted name => rfl
  | block inverted name =>
    have same : tables.property name = some (tables.block name) := shared
    simp [ClassEsc.rust, ClassEsc.xsd, same]

theorem meaning_rewrite {item : Item} (shared : item.Shared tables) (after : Bool) :
    (item.rewrite after).meaning (ClassEsc.rust tables) = item.meaning (ClassEsc.xsd tables) := by
  cases item with
  | single c => simp only [Item.rewrite, Item.meaning, char_rewrite]
  | range first last => simp only [Item.rewrite, Item.meaning, char_rewrite]
  | esc escape => exact rust_of_shared shared

theorem itemsMeaning_rewrite {items : List Item} (shared : ∀ item ∈ items, item.Shared tables)
    (after : Bool) :
    itemsMeaning (ClassEsc.rust tables) (rewriteItems after items) =
      itemsMeaning (ClassEsc.xsd tables) items := by
  have split (escapes : ClassEsc → Set Char) (item : Item) (rest : List Item) :
      itemsMeaning escapes (item :: rest) = item.meaning escapes ∪ itemsMeaning escapes rest := by
    ext c
    simp [itemsMeaning]
  induction items generalizing after with
  | nil => simp [rewriteItems, itemsMeaning]
  | cons item rest ih =>
    obtain ⟨here, later⟩ := List.forall_mem_cons.mp shared
    rw [rewriteItems, split, split, meaning_rewrite here, ih later]

theorem leaf_rewrite {leaf : Leaf} (shared : leaf.Shared tables) : leaf.rewrite.rust tables =
    leaf.xsd tables := by
  cases leaf with
  | char c =>
    rw [Leaf.rewrite, Leaf.rust, char_rewrite]
    rfl
  | esc escape => exact rust_of_shared shared
  | dot => cases shared
  | bracketed expr =>
    cases expr with
    | group negated items =>
      simp only [Leaf.rewrite, Leaf.rust, Leaf.xsd, ClassExpr.rewrite, ClassExpr.rust,
        ClassExpr.xsd, itemsMeaning_rewrite shared.1]
    | minus negated items less => cases shared

/-- A pattern both languages share is translated to one with the same words. -/
theorem language_rewrite {source : Source} (shared : source.Shared tables) :
    source.rewrite.language (Leaf.rust tables) = source.language (Leaf.xsd tables) :=
  source.language_map fun leaf member => leaf_rewrite (shared leaf member)

end Sharing

section Checked

/-- Where the regex crate compiles an expression, it matches its words. -/
def Documented (crates : Crates) (tables : Tables) (source : Source) : Prop :=
  ∀ accepts, crates.regex source.anchored = some accepts →
    ∀ value : String, accepts value = true ↔ value.toList ∈ source.language (Leaf.rust tables)

/-- A pattern is checked as XSD reads it, or listed as unchecked by every schema
that has it. -/
def CheckedExactly (crates : Crates) (tables : Tables) (source : Source) : Prop :=
  ((Pattern.new crates source.text).isChecked = true → ∀ value : String,
      ((Pattern.new crates source.text).accepts value = true ↔
        value.toList ∈ source.language (Leaf.xsd tables))) ∧
    ((Pattern.new crates source.text).isChecked = false → ∀ schema : Schema, ∀ name simple,
      schema.simpleTypes.lookup name = some simple →
      Pattern.new crates source.text ∈ simple.facets.patterns →
        (name, source.text) ∈ schema.uncheckedPatterns)

variable {crates : Crates} {tables : Tables}

theorem checkedExactly_of_shared {source : Source} (formed : source.Formed)
    (condition : source.Unknown tables ∨ source.Shared tables)
    (refused : source.Unknown tables → crates.regex source.rewrite.anchored = none)
    (documented : source.Shared tables → Documented crates tables source.rewrite) :
    CheckedExactly crates tables source := by
  refine ⟨fun checked value => ?_, fun unchecked schema name simple declared listed =>
    mem_uncheckedPatterns declared listed unchecked⟩
  rw [Pattern.isChecked, Pattern.new, translate_text formed] at checked
  rcases condition with unknown | shared
  · rw [refused unknown] at checked
    cases checked
  · obtain ⟨accepts, compiled⟩ := Option.isSome_iff_exists.mp checked
    rw [Pattern.accepts, Pattern.new, translate_text formed, compiled, Option.all_some,
      documented shared accepts compiled, language_rewrite shared]

end Checked

section Samples

/-- Tables for patterns that use none of them. -/
def noTables : Tables where
  category _ := ∅
  block _ := ∅
  initial := ∅
  name := ∅
  whiteSpace := ∅
  word := ∅
  property _ := none

def literal (c : Char) : Expr Leaf .piece := .plain (.leaf (.char (.raw c)))

/-- `a$` -/
def dollarSource : Source := .one (.cons (literal 'a') (.cons (literal '$') .nil))

/-- `[a-z-[aeiou]]` -/
def consonants : ClassExpr :=
  .minus false [.range (.raw 'a') (.raw 'z')]
    (.group false (['a', 'e', 'i', 'o', 'u'].map fun c => .single (.raw c)))

def consonantSource : Source := .one (.cons (.plain (.leaf (.bracketed consonants))) .nil)

/-- A class of the letters, the dash and the vowels. -/
def matchUnion (value : String) : Bool :=
  match value.toList with
  | [c] => 'a' ≤ c && c ≤ 'z' || c == '-'
  | _ => false

/-- The regex crate on the translations of the two. -/
def sampleCrates : Crates :=
  { bareCrates with
    regex := fun text =>
      if text = "\\A(?:a\\$)\\z" then some (· == "a$")
      else if text = "\\A(?:[a-z-[aeiou]])\\z" then some matchUnion
      else none }

theorem formed_of_noDash {items : List Item} (filled : items ≠ [])
    (each : ∀ item ∈ items, item.Formed) (plain : ∀ item ∈ items, ¬ item.IsDash)
    (first : ∀ item ∈ items, item.text.head? ≠ some '^') (negated : Bool) :
    ItemsFormed negated items where
  filled := filled
  each := each
  dashes := by
    rintro front item back rfl dash
    exact absurd dash (plain item (by simp))
  first := by
    rintro - item rest rfl
    exact first item List.mem_cons_self

theorem consonants_formed : consonants.Formed := by
  refine ⟨formed_of_noDash (by simp) ?_ ?_ ?_ false, formed_of_noDash (by simp) ?_ ?_ ?_ false⟩
  · simp [Item.Formed, CharOrEsc.Formed]
  · simp [Item.IsDash]
  · simp [Item.text, CharOrEsc.text]
  · simp [Item.Formed, CharOrEsc.Formed]
  · simp [Item.IsDash]
  · simp [Item.text, CharOrEsc.text]

/-- The words of a pattern that is one class. -/
theorem mem_language_single {leaf : Leaf} {meaning : Leaf → Set Char} {word : List Char} :
    word ∈ (Expr.one (.cons (.plain (.leaf leaf)) .nil) : Source).language meaning ↔
      ∃ c ∈ meaning leaf, word = [c] := by
  rw [Expr.language, Expr.language, Expr.language, Expr.language, Expr.language, mul_one]
  exact Expr.mem_letters

theorem checkedExactly_dollar : CheckedExactly sampleCrates noTables dollarSource := by
  have formed : dollarSource.Formed := by
    refine ⟨?_, by simp [dollarSource, literal, Expr.quantifiers]⟩
    simp [dollarSource, literal, Expr.leaves, Leaf.Formed, CharOrEsc.Formed, metacharacters]
  have shared : dollarSource.Shared noTables := by
    simp [Source.Shared, dollarSource, literal, Expr.leaves, Leaf.Shared]
  refine checkedExactly_of_shared formed (.inr shared) ?_ fun _ => ?_
  · rintro ⟨leaf, member, unknown⟩
    have each : ∀ leaf ∈ dollarSource.leaves, ¬ leaf.Unknown noTables := by
      simp [dollarSource, literal, Expr.leaves, Leaf.Unknown]
    exact absurd unknown (each leaf member)
  · intro accepts compiled value
    have known : sampleCrates.regex dollarSource.rewrite.anchored = some (· == "a$") := by rfl
    rw [known] at compiled
    cases compiled
    have words : dollarSource.rewrite.language (Leaf.rust noTables) =
        Expr.letters {'a'} * (Expr.letters {'$'} * 1) := rfl
    rw [words, mul_one, Language.mem_mul]
    simp only [Expr.mem_letters, Set.mem_singleton_iff, exists_eq_left, beq_iff_eq]
    rw [← String.toList_inj]
    exact eq_comm

theorem mem_consonants_rust {c : Char} :
    c ∈ (Leaf.bracketed consonants).rewrite.rust noTables ↔ ('a' ≤ c ∧ c ≤ 'z') ∨ c = '-' := by
  have vowels : ∀ vowel ∈ ['a', 'e', 'i', 'o', 'u'], 'a' ≤ vowel ∧ vowel ≤ 'z' := by simp
  have united : (Leaf.bracketed consonants).rewrite.rust noTables =
      {c | 'a' ≤ c ∧ c ≤ 'z'} ∪ {'-'} ∪ {c | c ∈ ['a', 'e', 'i', 'o', 'u']} := by
    ext c
    simp [Leaf.rewrite, Leaf.rust, consonants, ClassExpr.rewrite, ClassExpr.rust,
      rewriteItems, Item.rewrite, CharOrEsc.rewrite, inverting, itemsMeaning, Item.meaning,
        CharOrEsc.char]
  rw [united]
  constructor
  · rintro ((letter | dash) | vowel)
    · exact .inl letter
    · exact .inr dash
    · exact .inl (vowels c vowel)
  · rintro (letter | dash)
    · exact .inl (.inl letter)
    · exact .inl (.inr dash)

theorem matchUnion_iff {value : String} :
    matchUnion value = true ↔ ∃ c ∈ (Leaf.bracketed consonants).rewrite.rust noTables,
      value.toList = [c] := by
  simp only [mem_consonants_rust]
  rw [matchUnion]
  split
  · rename_i c same
    simp [same]
  · rename_i other
    simp only [Bool.false_eq_true, false_iff, not_exists, not_and]
    exact fun c _ same => other c same

/-- A class that takes another away compiles as the union of both: the pattern
counts as checked, and accepts a vowel. -/
theorem consonants_unread :
    consonantSource.text = "[a-z-[aeiou]]" ∧ consonantSource.Formed ∧
      Documented sampleCrates noTables consonantSource.rewrite ∧
      (Pattern.new sampleCrates consonantSource.text).isChecked = true ∧
      (Pattern.new sampleCrates consonantSource.text).accepts "a" = true ∧
      ¬ CheckedExactly sampleCrates noTables consonantSource := by
  have checked : (Pattern.new sampleCrates consonantSource.text).isChecked = true := by rfl
  have accepts : (Pattern.new sampleCrates consonantSource.text).accepts "a" = true := by rfl
  refine ⟨by rfl, ⟨?_, ?_⟩, ?_, checked, accepts, fun exact => ?_⟩
  · intro leaf member
    cases List.mem_singleton.mp member
    exact consonants_formed
  · simp [consonantSource, Expr.quantifiers]
  · intro matcher compiled value
    have known : sampleCrates.regex consonantSource.rewrite.anchored = some matchUnion := by rfl
    rw [known] at compiled
    cases compiled
    rw [consonantSource, Source.rewrite, Expr.map, Expr.map, Expr.map, Expr.map, Expr.map,
      mem_language_single]
    exact matchUnion_iff
  · obtain ⟨c, ⟨-, inside⟩, same⟩ := mem_language_single.mp ((exact.1 checked "a").mp accepts)
    obtain rfl : 'a' = c := (List.cons.inj same).1
    exact inside ⟨.single (.raw 'a'), by simp, rfl⟩

end Samples

end Patterns

end OaGateway.Uci
