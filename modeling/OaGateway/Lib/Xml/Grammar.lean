import Mathlib.Data.List.Infix

/-! XML 1.0 documents without a document type declaration: their concrete
syntax, the text they are written as and the checks that make them well formed. -/
namespace OaGateway.Lib.Xml

/-- Production `Char`. -/
def isChar (c : Char) : Bool :=
  c == '\t' || c == '\n' || c == '\r' || (0x20 ≤ c.toNat && c.toNat ≤ 0xD7FF) ||
    (0xE000 ≤ c.toNat && c.toNat ≤ 0xFFFD) || 0x10000 ≤ c.toNat

/-- Production `S`, one character of it. -/
def isSpace (c : Char) : Bool := c == ' ' || c == '\t' || c == '\r' || c == '\n'

def within (bounds : List (Nat × Nat)) (c : Char) : Bool :=
  bounds.any fun bound => bound.1 ≤ c.toNat && c.toNat ≤ bound.2

/-- Production `NameStartChar`. -/
def isNameStart (c : Char) : Bool :=
  within [(0x3A, 0x3A), (0x41, 0x5A), (0x5F, 0x5F), (0x61, 0x7A), (0xC0, 0xD6), (0xD8, 0xF6),
    (0xF8, 0x2FF), (0x370, 0x37D), (0x37F, 0x1FFF), (0x200C, 0x200D), (0x2070, 0x218F),
    (0x2C00, 0x2FEF), (0x3001, 0xD7FF), (0xF900, 0xFDCF), (0xFDF0, 0xFFFD), (0x10000, 0xEFFFF)] c

/-- Production `NameChar`. -/
def isNameChar (c : Char) : Bool :=
  isNameStart c ||
    within [(0x2D, 0x2E), (0x30, 0x39), (0xB7, 0xB7), (0x300, 0x36F), (0x203F, 0x2040)] c

def isName : List Char → Bool
  | [] => false
  | first :: rest => isNameStart first && rest.all isNameChar

/-- A name without a colon. -/
def isNcName (name : List Char) : Bool := isName name && !name.contains ':'

theorem isName_of_isNcName (named : isNcName name = true) : isName name = true := by
  simp only [isNcName, Bool.and_eq_true] at named
  exact named.1

/-- `pattern` occurs somewhere in `text`. -/
def occurs (pattern : List Char) : List Char → Bool
  | [] => pattern.isEmpty
  | first :: rest => pattern.isPrefixOf (first :: rest) || occurs pattern rest

theorem occurs_iff_infix {pattern text : List Char} : occurs pattern text = true ↔
    pattern <:+: text := by
  induction text with
  | nil => simp [occurs]
  | cons c text ih =>
    rw [occurs, Bool.or_eq_true, List.isPrefixOf_iff_prefix, ih, List.infix_cons_iff]

inductive Entity where
  | lt
  | gt
  | amp
  | apos
  | quot
deriving DecidableEq, Repr

namespace Entity

def name : Entity → List Char
  | lt => ['l', 't']
  | gt => ['g', 't']
  | amp => ['a', 'm', 'p']
  | apos => ['a', 'p', 'o', 's']
  | quot => ['q', 'u', 'o', 't']

def value : Entity → Char
  | lt => '<'
  | gt => '>'
  | amp => '&'
  | apos => '\''
  | quot => '"'

end Entity

def isHexDigit (c : Char) : Bool := c.isDigit || ('a' ≤ c && c ≤ 'f') || ('A' ≤ c && c ≤ 'F')

def digitValue (c : Char) : Nat :=
  if c.isDigit then c.toNat - '0'.toNat else 10 + c.toLower.toNat - 'a'.toNat

/-- The number some digits stand for. -/
def ofDigits (base : Nat) (digits : List Char) : Nat :=
  digits.foldl (fun number digit => base * number + digitValue digit) 0

/-- A reference in text. Without a document type declaration only the five
predefined entities exist. -/
inductive Reference where
  | entity (entity : Entity)
  | decimal (digits : List Char)
  | hex (digits : List Char)
deriving DecidableEq, Repr

namespace Reference

def render : Reference → List Char
  | entity name => '&' :: name.name ++ [';']
  | decimal digits => ['&', '#'] ++ digits ++ [';']
  | hex digits => ['&', '#', 'x'] ++ digits ++ [';']

def value : Reference → Char
  | entity name => name.value
  | decimal digits => Char.ofNat (ofDigits 10 digits)
  | hex digits => Char.ofNat (ofDigits 16 digits)

/-- The number of a character reference must be one a document may hold. -/
def validNumber (number : Nat) : Bool := decide number.isValidChar && isChar (Char.ofNat number)

def valid : Reference → Bool
  | entity _ => true
  | decimal digits => !digits.isEmpty && digits.all Char.isDigit && validNumber (ofDigits 10 digits)
  | hex digits => !digits.isEmpty && digits.all isHexDigit && validNumber (ofDigits 16 digits)

end Reference

/-- One unit of character data or of an attribute value. -/
inductive Piece where
  | char (c : Char)
  | ref (reference : Reference)
deriving DecidableEq, Repr

namespace Piece

def render : Piece → List Char
  | char c => [c]
  | ref reference => reference.render

/-- A literal stands for itself unless it starts markup or is excluded. -/
def valid (excluded : List Char) : Piece → Bool
  | char c => isChar c && c != '<' && c != '&' && !excluded.contains c
  | ref reference => reference.valid

end Piece

def renderPieces (pieces : List Piece) : List Char := pieces.flatMap Piece.render

inductive Quote where
  | single
  | double
deriving DecidableEq, Repr

def Quote.char : Quote → Char
  | single => '\''
  | double => '"'

/-- An attribute with the white space before it and around its equals sign. -/
structure Attribute where
  space : List Char
  name : List Char
  before : List Char
  after : List Char
  quote : Quote
  value : List Piece
deriving DecidableEq, Repr

namespace Attribute

def render (attr : Attribute) : List Char :=
  attr.space ++ attr.name ++ attr.before ++ '=' :: attr.after ++
    attr.quote.char :: renderPieces attr.value ++ [attr.quote.char]

def valid (attr : Attribute) : Bool :=
  !attr.space.isEmpty && attr.space.all isSpace && isName attr.name &&
    attr.before.all isSpace && attr.after.all isSpace &&
    attr.value.all (Piece.valid [attr.quote.char])

end Attribute

/-- The inside of a start tag or an empty-element tag. -/
structure Tag where
  name : List Char
  attributes : List Attribute
  space : List Char
deriving DecidableEq, Repr

namespace Tag

def render (tag : Tag) : List Char :=
  tag.name ++ tag.attributes.flatMap Attribute.render ++ tag.space

def valid (tag : Tag) : Bool :=
  isName tag.name && tag.attributes.all Attribute.valid &&
    decide (tag.attributes.map Attribute.name).Nodup && tag.space.all isSpace

theorem isName_of_valid {tag : Tag} (valid : tag.valid = true) : isName tag.name = true := by
  simp only [Tag.valid, Bool.and_eq_true] at valid
  exact valid.1.1.1

end Tag

/-- Element content, as the first item and the content after it. -/
inductive Content where
  | nil
  | text (pieces : List Piece) (next : Content)
  | comment (body : List Char) (next : Content)
  | pi (target body : List Char) (next : Content)
  | cdata (body : List Char) (next : Content)
  | empty (tag : Tag) (next : Content)
  | element (tag : Tag) (inner : Content) (endSpace : List Char) (next : Content)
deriving DecidableEq, Repr

namespace Content

def renderComment (body : List Char) : List Char := ['<', '!', '-', '-'] ++ body ++ ['-', '-', '>']

def renderPi (target body : List Char) : List Char := ['<', '?'] ++ target ++ body ++ ['?', '>']

def renderCdata (body : List Char) : List Char :=
  ['<', '!', '[', 'C', 'D', 'A', 'T', 'A', '['] ++ body ++ [']', ']', '>']

def renderEmpty (tag : Tag) : List Char := '<' :: tag.render ++ ['/', '>']

def renderStart (tag : Tag) : List Char := '<' :: tag.render ++ ['>']

def renderEnd (name endSpace : List Char) : List Char := ['<', '/'] ++ name ++ endSpace ++ ['>']

def render : Content → List Char
  | nil => []
  | text pieces next => renderPieces pieces ++ next.render
  | comment body next => renderComment body ++ next.render
  | pi target body next => renderPi target body ++ next.render
  | cdata body next => renderCdata body ++ next.render
  | empty tag next => renderEmpty tag ++ next.render
  | element tag inner endSpace next =>
    renderStart tag ++ inner.render ++ renderEnd tag.name endSpace ++ next.render

def startsWithText : Content → Bool
  | text .. => true
  | _ => false

def validComment (body : List Char) : Bool :=
  body.all isChar && !occurs ['-', '-'] body && body.getLast? != some '-'

def validPi (target body : List Char) : Bool :=
  isName target && target.map Char.toLower != ['x', 'm', 'l'] &&
    (body.isEmpty || body.head?.any isSpace) && body.all isChar && !occurs ['?', '>'] body

def validCdata (body : List Char) : Bool := body.all isChar && !occurs [']', ']', '>'] body

/-- Two runs of text never meet: between them stands markup. -/
def valid : Content → Bool
  | nil => true
  | text pieces next =>
    pieces.all (Piece.valid []) && !occurs [']', ']', '>'] (renderPieces pieces) &&
      !next.startsWithText && next.valid
  | comment body next => validComment body && next.valid
  | pi target body next => validPi target body && next.valid
  | cdata body next => validCdata body && next.valid
  | empty tag next => tag.valid && next.valid
  | element tag inner endSpace next =>
    tag.valid && inner.valid && endSpace.all isSpace && next.valid

/-- Depth of every element below an element at depth `outer`, in document order. -/
def depths (outer : Nat) : Content → List Nat
  | nil => []
  | text _ next | comment _ next | pi _ _ next | cdata _ next => next.depths outer
  | empty _ next => (outer + 1) :: next.depths outer
  | element _ inner _ next => (outer + 1) :: inner.depths (outer + 1) ++ next.depths outer

/-- How many elements are open after the first `read` characters: those whose
name has begun and whose last character is still to come. -/
def openAt (read : Nat) : Content → Nat
  | nil => 0
  | text pieces next => next.openAt (read - (renderPieces pieces).length)
  | comment body next => next.openAt (read - (renderComment body).length)
  | pi target body next => next.openAt (read - (renderPi target body).length)
  | cdata body next => next.openAt (read - (renderCdata body).length)
  | empty tag next =>
    (if 2 ≤ read ∧ read < (renderEmpty tag).length then 1 else 0) +
      next.openAt (read - (renderEmpty tag).length)
  | element tag inner endSpace next =>
    let whole := (renderStart tag ++ inner.render ++ renderEnd tag.name endSpace).length
    (if 2 ≤ read ∧ read < whole then 1 else 0) + inner.openAt (read - (renderStart tag).length) +
      next.openAt (read - whole)

/-- Comments, processing instructions and white space only. -/
def isMisc : Content → Bool
  | nil => true
  | text pieces next => pieces.all (fun | .char c => isSpace c | .ref _ => false) && next.isMisc
  | comment _ next | pi _ _ next => next.isMisc
  | _ => false

def isRoot : Content → Bool
  | empty _ nil | element _ _ _ nil => true
  | _ => false

end Content

/-- The XML declaration; its pseudo-attributes are written like attributes. -/
structure Declaration where
  version : Attribute
  encoding : Option Attribute
  standalone : Option Attribute
  space : List Char
deriving DecidableEq, Repr

namespace Declaration

def attributes (declaration : Declaration) : List Attribute :=
  declaration.version :: (declaration.encoding.toList ++ declaration.standalone.toList)

def render (declaration : Declaration) : List Char :=
  ['<', '?', 'x', 'm', 'l'] ++ declaration.attributes.flatMap Attribute.render ++
    declaration.space ++ ['?', '>']

def isVersion : List Char → Bool
  | '1' :: '.' :: digits => !digits.isEmpty && digits.all Char.isDigit
  | _ => false

def isEncoding : List Char → Bool
  | first :: rest => first.isAlpha && rest.all fun c => c.isAlphanum || c == '.' || c ==
    '_' || c == '-'
  | [] => false

def isStandalone (value : List Char) : Bool := value == ['y', 'e', 's'] || value == ['n', 'o']

def validAttribute (name : String) (accepts : List Char → Bool) (attr : Attribute) : Bool :=
  attr.valid && attr.name == name.toList &&
    attr.value.all (fun | .char _ => true | .ref _ => false) &&
    accepts (renderPieces attr.value)

def valid (declaration : Declaration) : Bool :=
  validAttribute "version" isVersion declaration.version &&
    declaration.encoding.all (validAttribute "encoding" isEncoding) &&
    declaration.standalone.all (validAttribute "standalone" isStandalone) &&
    declaration.space.all isSpace

end Declaration

structure Document where
  declaration : Option Declaration
  prolog : Content
  root : Content
  epilog : Content
deriving DecidableEq, Repr

namespace Document

def renderDeclaration (document : Document) : List Char :=
  match document.declaration with
  | some declaration => declaration.render
  | none => []

def render (document : Document) : List Char :=
  document.renderDeclaration ++ document.prolog.render ++ document.root.render ++
    document.epilog.render

/-- Well formed. -/
def valid (document : Document) : Bool :=
  document.declaration.all Declaration.valid && document.prolog.isMisc && document.prolog.valid &&
    document.root.isRoot && document.root.valid && document.epilog.isMisc && document.epilog.valid

/-- Nesting depth of every element, the root's being 1. -/
def depths (document : Document) : List Nat := document.root.depths 0

def openAt (document : Document) (read : Nat) : Nat :=
  document.root.openAt (read - (document.renderDeclaration ++ document.prolog.render).length)

end Document

end OaGateway.Lib.Xml
