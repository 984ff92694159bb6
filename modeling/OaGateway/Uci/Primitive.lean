import OaGateway.Lib.F64
import OaGateway.Lib.Regex
import OaGateway.Lib.Text

/-! What each `xs:` primitive accepts. -/
namespace OaGateway.Uci.Primitive

open Lib

inductive Kind where
  | boolean
  | integer (min max : Int)
  | number (exponent special : Bool)
  | dateTime
  | date
  | time
  | duration
  | hexBinary
  | text
deriving DecidableEq, Repr

def i128Min : Int := -2 ^ 127

def i128Max : Int := 2 ^ 127 - 1

/-- What `primitive` accepts; a name not listed is text. -/
def kind (primitive : String) : Kind :=
  match primitive with
  | "xs:boolean" => .boolean
  | "xs:byte" => .integer (-128) 127
  | "xs:short" => .integer (-32768) 32767
  | "xs:int" => .integer (-2147483648) 2147483647
  | "xs:long" => .integer (-2 ^ 63) (2 ^ 63 - 1)
  | "xs:unsignedByte" => .integer 0 255
  | "xs:unsignedShort" => .integer 0 65535
  | "xs:unsignedInt" => .integer 0 4294967295
  | "xs:unsignedLong" => .integer 0 (2 ^ 64 - 1)
  | "xs:nonNegativeInteger" => .integer 0 i128Max
  | "xs:positiveInteger" => .integer 1 i128Max
  | "xs:nonPositiveInteger" => .integer i128Min 0
  | "xs:negativeInteger" => .integer i128Min (-1)
  | "xs:integer" => .integer i128Min i128Max
  | "xs:decimal" => .number false false
  | "xs:double" | "xs:float" => .number true true
  | "xs:dateTime" => .dateTime
  | "xs:date" => .date
  | "xs:time" => .time
  | "xs:duration" => .duration
  | "xs:hexBinary" => .hexBinary
  | _ => .text

/-- Digits with an optional sign. -/
def integral (text : List Char) : Bool :=
  let digits := match text with
    | '+' :: rest | '-' :: rest => rest
    | rest => rest
  !digits.isEmpty && digits.all Char.isDigit

section Shapes
open Regex

def sign : Regex := optional (among ['+', '-'])

def asciiDigit : Regex := range '0' '9'

/-- `[+-]?([0-9]+(\.[0-9]*)?|\.[0-9]+)` -/
def decimalShape : Regex :=
  seq sign (alt (seq (plus asciiDigit) (optional (seq (char '.') (star asciiDigit))))
    (seq (char '.') (plus asciiDigit)))

/-- `decimalShape` with `([Ee][+-]?[0-9]+)?` -/
def exponentialShape : Regex :=
  seq decimalShape (optional (all [among ['E', 'e'], sign, plus asciiDigit]))

/-- `-?\d{4,}-\d{2}-\d{2}` -/
def dateShape : Regex :=
  all [optional (char '-'), times 4 digit, star digit, char '-', times 2 digit,
    char '-', times 2 digit]

/-- `\d{2}:\d{2}:\d{2}(\.\d+)?` -/
def timeShape : Regex :=
  all [times 2 digit, char ':', times 2 digit, char ':', times 2 digit,
    optional (seq (char '.') (plus digit))]

/-- `(Z|[+-]((0\d|1[0-3]):[0-5]\d|14:00))` -/
def zoneShape : Regex :=
  alt (char 'Z') (seq (among ['+', '-'])
    (alt (all [alt (seq (char '0') digit) (seq (char '1') (range '0' '3')), char ':',
      range '0' '5', digit])
      (Regex.text "14:00")))

/-- A number of digits and the letter of its unit. -/
def component (unit : Char) : Regex := optional (seq (plus digit) (char unit))

/-- `-?P((\d+Y)?(\d+M)?(\d+D)?(T(\d+H)?(\d+M)?(\d+(\.\d+)?S)?)?)` -/
def durationShape : Regex :=
  all [optional (char '-'), char 'P', component 'Y', component 'M', component 'D',
    optional (all [char 'T', component 'H', component 'M',
      optional (all [plus digit, optional (seq (char '.') (plus digit)), char 'S'])])]

end Shapes

/-- The text before and after the last dash. -/
def rsplitDash (text : List Char) : Option (List Char × List Char) :=
  if text.contains '-' then
    let after := afterLast '-' text
    some (text.take (text.length - after.length - 1), after)
  else none

def splitColon (text : List Char) : Option (List Char × List Char) :=
  if text.contains ':' then
    let before := text.takeWhile (· != ':')
    some (before, text.drop (before.length + 1))
  else none

def isLeap (year : Int) : Bool := year % 4 == 0 && (year % 100 != 0 || year % 400 == 0)

def lastDay (year month : Int) : Int :=
  if month ∈ [1, 3, 5, 7, 8, 10, 12] then 31
  else if month ∈ [4, 6, 9, 11] then 30
  else if isLeap year then 29
  else 28

/-- Whether the day exists, once the shape of a date is known to hold. -/
def calendar (date : List Char) : Bool :=
  match rsplitDash date with
  | none => false
  | some (rest, day) =>
    match rsplitDash rest with
    | none => false
    | some (year, month) =>
      match parseU32 (.ofList day), parseU32 (.ofList month),
        parseI64 (.ofList (year.dropWhile (· == '-'))) with
      | some day, some month, some year =>
        if year == 0 || !(1 ≤ month && month ≤ 12) || day == 0 then false
        else decide (day ≤ lastDay year month)
      | _, _, _ => false

/-- The double 60. -/
def sixty : F64 := ⟨0x404E000000000000⟩

def zero : F64 := ⟨0⟩

/-- Whether the parts of a time are in range; 24:00:00 is. -/
def clock (time : List Char) : Bool :=
  match splitColon time with
  | none => false
  | some (hour, rest) =>
    match splitColon rest with
    | none => false
    | some (minute, second) =>
      match parseU32 (.ofList hour), parseU32 (.ofList minute), F64.parse (.ofList second) with
      | some hour, some minute, some second =>
        if minute > 59 || F64.le sixty second then false
        else if hour ≤ 23 then true
        else if hour == 24 then minute == 0 && F64.beq second zero
        else false
      | _, _, _ => false

/-- Every way to cut `text` in two. -/
def cuts (text : List Char) : List (List Char × List Char) :=
  (List.range (text.length + 1)).map fun n => text.splitAt n

/-- The part `front` matches before an optional zone. The shapes have a fixed
layout up to their digits, so at most one cut fits. -/
def zoned (front : Regex) (text : List Char) : Option (List Char) :=
  ((cuts text).find? fun cut => front.accepts cut.1 && (Regex.optional zoneShape).accepts cut.2).map
    Prod.fst

def dateTimeOk (text : List Char) : Bool :=
  (cuts text).any fun cut =>
    match cut.2 with
    | 'T' :: rest =>
      dateShape.accepts cut.1 && calendar cut.1 && (zoned timeShape rest).any clock
    | _ => false

def isHexDigitByte (c : Char) : Bool :=
  c.isDigit || ('a' ≤ c && c ≤ 'f') || ('A' ≤ c && c ≤ 'F')

/-- Why `text` is not a value of this kind: what was expected. -/
def refuses (kind : Kind) (text : String) : Option String :=
  let chars := text.toList
  match kind with
  | .boolean =>
    if text ∈ ["true", "false", "1", "0"] then none else some "one of 'true', 'false', '1' or '0'"
  | .integer min max =>
    if !integral chars then some "a whole number, optionally signed"
    else if (parseI128 text).any fun value => min ≤ value && value ≤ max then none
    else if min == i128Min && max == i128Max then none
    else some ("between " ++ toString min ++ " and " ++ toString max)
  | .number exponent special =>
    if special && (text == "INF" || text == "-INF" || text == "NaN") then none
    else if exponent then
      if exponentialShape.accepts chars then none else some "a number, with an optional exponent"
    else if decimalShape.accepts chars then none else some "a number, without an exponent"
  | .dateTime =>
    if dateTimeOk chars then none
    else some "a date and time, as CCYY-MM-DDThh:mm:ss with an optional fraction and time zone"
  | .date =>
    if (zoned dateShape chars).any calendar then none else some "a date, as CCYY-MM-DD"
  | .time =>
    if (zoned timeShape chars).any clock then none
    else some "a time of day, as hh:mm:ss with an optional fraction and time zone"
  | .duration =>
    if durationShape.accepts chars && chars.getLast? != some 'P' &&
        chars.getLast? != some 'T' then none
    else some "a duration, as PnYnMnDTnHnMnS with at least one part"
  | .hexBinary =>
    -- The length is in bytes; a text that is not all hex digits fails either way.
    if chars.all isHexDigitByte && chars.length % 2 == 0 then none
    else some "an even number of hex digits"
  | .text => none

end OaGateway.Uci.Primitive
