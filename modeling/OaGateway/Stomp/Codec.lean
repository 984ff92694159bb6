import OaGateway.Lib.Collect
import OaGateway.Lib.Numeral
import OaGateway.Stomp.Adapter

/-! STOMP 1.2 frames on the wire: a command, headers, a blank line, body bytes
and a NUL. -/
namespace OaGateway.Stomp

open Lib

/-- Why bytes are not a frame. -/
inductive CodecError where
  | notUtf8
  | missingCommand
  | badHeader
  | badEscape
  | badContentLength
  | nulInHeaders
  | frameTooLarge (max : UInt64)
  | missingNull
deriving DecidableEq

def contentLength : String := "content-length"

def escapeChar (c : Char) : List Char :=
  if c = '\\' then ['\\', '\\'] else if c = ':' then ['\\', 'c'] else if c = '\n' then ['\\', 'n']
  else if c = '\r' then ['\\', 'r'] else [c]

def escapeHeader (text : String) : List Char := text.toList.flatMap escapeChar

def unescapeChars : List Char → Except CodecError (List Char)
  | [] => .ok []
  | '\\' :: '\\' :: rest => (unescapeChars rest).map ('\\' :: ·)
  | '\\' :: 'c' :: rest => (unescapeChars rest).map (':' :: ·)
  | '\\' :: 'n' :: rest => (unescapeChars rest).map ('\n' :: ·)
  | '\\' :: 'r' :: rest => (unescapeChars rest).map ('\r' :: ·)
  | '\\' :: _ => .error .badEscape
  | c :: rest => (unescapeChars rest).map (c :: ·)

def unescapeHeader (text : List Char) : Except CodecError String := (unescapeChars text).map .ofList

def encodeHeader (header : String × String) : Bytes :=
  encode (escapeHeader header.1) ++ [byte ':'] ++ encode (escapeHeader header.2) ++ [byte '\n']

/-- `content-length` is added where the headers do not name it. -/
def Frame.encode (frame : Frame) : Bytes :=
  utf8 frame.command ++ [byte '\n'] ++ frame.headers.flatMap encodeHeader ++
    (if frame.headers.any fun header => header.1 == contentLength then []
      else utf8 "content-length:" ++ utf8 (toString frame.body.length) ++ [byte '\n']) ++
    [byte '\n'] ++ frame.body ++ [0]

/-- Offset after the blank line that ends the headers. -/
def findHeaderEnd : Bytes → Option Nat
  | [] => none
  | b :: rest =>
    if b = byte '\n' ∧ rest.head? = some (byte '\n') then some 2
    else if b = byte '\r' ∧ rest.take 3 = [byte '\n', byte '\r', byte '\n'] then some 4
    else (findHeaderEnd rest).map (· + 1)

/-- `trim_end_matches('\r')`. -/
def trimCarriage (line : List Char) : List Char := (line.reverse.dropWhile (· == '\r')).reverse

/-- `str::split_once`. -/
def splitOnce (separator : Char) (text : List Char) : Option (List Char × List Char) :=
  match text.dropWhile (· != separator) with
  | [] => none
  | _ :: rest => some (text.takeWhile (· != separator), rest)

/-- `str::parse::<usize>`. -/
def parseUsize (text : String) : Option Nat := (parseU64 text).map Int.toNat

/-- The header lines one by one, with the last `content-length` among them. -/
def readHeaders : List (List Char) → List (String × String) → Option Nat →
    Except CodecError (List (String × String) × Option Nat)
  | [], headers, length => .ok (headers, length)
  | line :: rest, headers, length =>
    if line = [] then readHeaders rest headers length
    else match splitOnce ':' line with
      | none => .error .badHeader
      | some (rawName, rawValue) =>
        match unescapeHeader rawName with
        | .error error => .error error
        | .ok name =>
          match unescapeHeader rawValue with
          | .error error => .error error
          | .ok value =>
            if name = contentLength then
              match parseUsize value with
              | none => .error .badContentLength
              | some length => readHeaders rest (headers ++ [(name, value)]) (some length)
            else readHeaders rest (headers ++ [(name, value)]) length

/-- `usize::checked_add`. -/
def checkedAdd (first second : Nat) : Option Nat :=
  if first + second < 2 ^ 64 then some (first + second) else none

/-- Pull one frame from a buffer: the result, and what is left in the buffer.
Heartbeats before a frame are discarded. -/
def decodeOneWithLimit (limit : UInt64) (buffer : Bytes) :
    Except CodecError (Option Frame) × Bytes :=
  let buffer := buffer.dropWhile fun b => b == byte '\n' || b == byte '\r' || b == 0
  if buffer = [] then (.ok none, [])
  else match findHeaderEnd buffer with
  | none => (if buffer.length > limit.toNat then .error (.frameTooLarge limit)
    else .ok none, buffer)
  | some headerEnd =>
    if headerEnd > limit.toNat then (.error (.frameTooLarge limit), buffer)
    else if (buffer.take headerEnd).contains 0 then (.error .nulInHeaders, buffer)
    else match fromUtf8 (buffer.take headerEnd) with
    | none => (.error .notUtf8, buffer)
    | some text =>
      match (text.toList.splitOn '\n').map trimCarriage with
      | [] => (.error .missingCommand, buffer)
      | command :: lines =>
        if command = [] then (.error .missingCommand, buffer)
        else match readHeaders lines [] none with
        | .error error => (.error error, buffer)
        | .ok (headers, some length) =>
          if length > limit.toNat then (.error (.frameTooLarge limit), buffer)
          else match checkedAdd headerEnd length with
          | none => (.error (.frameTooLarge limit), buffer)
          | some bodyEnd =>
            if buffer.length ≤ bodyEnd then (.ok none, buffer)
            else if buffer[bodyEnd]? ≠ some 0 then (.error .missingNull, buffer)
            else
              (.ok (some ⟨.ofList command, headers, (buffer.take bodyEnd).drop headerEnd⟩),
                buffer.drop (bodyEnd + 1))
        | .ok (headers, none) =>
          match (buffer.drop headerEnd).findIdx? (· == 0) with
          | some length =>
            (.ok (some ⟨.ofList command, headers, (buffer.drop headerEnd).take length⟩),
              buffer.drop (headerEnd + length + 1))
          | none => (if buffer.length > limit.toNat then .error (.frameTooLarge limit)
            else .ok none, buffer)

section Escapes

theorem unescapeChars_cons {c : Char} (plain : c ≠ '\\') (rest : List Char) :
    unescapeChars (c :: rest) = (unescapeChars rest).map (c :: ·) := by
  rw [unescapeChars.eq_def]
  split <;> simp_all

theorem unescapeChars_escape (text : List Char) : unescapeChars (text.flatMap escapeChar) =
    .ok text := by
  induction text with
  | nil => rfl
  | cons c text ih =>
    rw [List.flatMap_cons, escapeChar]
    split_ifs with slash colon newline carriage
    · simp [unescapeChars, ih, slash, Except.map]
    · simp [unescapeChars, ih, colon, Except.map]
    · simp [unescapeChars, ih, newline, Except.map]
    · simp [unescapeChars, ih, carriage, Except.map]
    · rw [List.singleton_append, unescapeChars_cons slash, ih]
      rfl

/-- `unescape_header` undoes `escape_header`. -/
theorem unescapeHeader_escapeHeader (text : String) : unescapeHeader (escapeHeader text) =
    .ok text := by
  rw [unescapeHeader, escapeHeader, unescapeChars_escape]
  simp [Except.map]

/-- An escaped character is itself, or one the escapes are spelled with. -/
theorem mem_escapeChar {c source : Char} (inside : c ∈ escapeChar source) :
    (c = source ∧ c ≠ ':' ∧ c ≠ '\n' ∧ c ≠ '\r') ∨ c ∈ ['\\', 'c', 'n', 'r'] := by
  rw [escapeChar] at inside
  split_ifs at inside with slash colon newline carriage
  · simp_all
  · rcases List.mem_pair.mp inside with rfl | rfl <;> exact .inr (by decide)
  · rcases List.mem_pair.mp inside with rfl | rfl <;> exact .inr (by decide)
  · rcases List.mem_pair.mp inside with rfl | rfl <;> exact .inr (by decide)
  · cases List.mem_singleton.mp inside
    exact .inl ⟨rfl, colon, newline, carriage⟩

/-- What is escaped stands on one line, and on one side of the colon. -/
theorem escapeHeader_clean {text : String} {c : Char} (member : c ∈ escapeHeader text) :
    c ≠ ':' ∧ c ≠ '\n' ∧ c ≠ '\r' := by
  obtain ⟨source, -, inside⟩ := List.mem_flatMap.mp member
  rcases mem_escapeChar inside with ⟨-, clean⟩ | spelled
  · exact clean
  · have known : ['\\', 'c', 'n', 'r'].all fun c => c ≠ ':' ∧ c ≠ '\n' ∧ c ≠ '\r' := by decide
    simpa using List.all_eq_true.mp known c spelled

theorem nul_mem_escapeHeader (text : String) : '\x00' ∈ escapeHeader text ↔
    '\x00' ∈ text.toList := by
  rw [escapeHeader, List.mem_flatMap]
  constructor
  · rintro ⟨source, member, inside⟩
    rcases mem_escapeChar inside with ⟨rfl, -⟩ | spelled
    · exact member
    · exact absurd spelled (by decide)
  · exact fun member => ⟨_, member, by decide⟩

/-- Text without the four characters is written as it is. -/
theorem escapeHeader_eq_self {text : String}
    (plain : ∀ c ∈ text.toList, c ≠ '\\' ∧ c ≠ ':' ∧ c ≠ '\n' ∧ c ≠ '\r') :
    escapeHeader text = text.toList := by
  rw [escapeHeader]
  conv => rhs; rw [← List.flatMap_singleton' text.toList]
  refine List.flatMap_congr fun c member => ?_
  obtain ⟨slash, colon, newline, carriage⟩ := plain c member
  simp [escapeChar, slash, colon, newline, carriage]

end Escapes

section Lines

theorem trimCarriage_eq_self {line : List Char} (clean : '\r' ∉ line) :
    trimCarriage line = line := by
  rw [trimCarriage]
  have kept : line.reverse.dropWhile (· == '\r') = line.reverse := by
    cases turned : line.reverse with
    | nil => rfl
    | cons c rest =>
      have other : c ≠ '\r' := by
        rintro rfl
        exact clean (List.mem_reverse.mp (by simp [turned]))
      simp [other]
  rw [kept, List.reverse_reverse]

theorem splitOnce_append {front rest : List Char} {separator : Char} (absent : separator ∉ front) :
    splitOnce separator (front ++ separator :: rest) = some (front, rest) := by
  have other : ∀ c ∈ front, (c != separator) = true := by
    intro c member
    simpa using fun same : c = separator => absent (same ▸ member)
  rw [splitOnce, List.dropWhile_append_of_pos other, List.takeWhile_append_of_pos other]
  simp

/-- A header as it stands on its line. -/
def headerLine (header : String × String) : List Char :=
  escapeHeader header.1 ++ ':' :: escapeHeader header.2

theorem headerLine_clean (header : String × String) : '\n' ∉ headerLine header ∧
    '\r' ∉ headerLine header := by
  have name := @escapeHeader_clean header.1
  have value := @escapeHeader_clean header.2
  constructor
  · intro member
    rcases List.mem_append.mp member with before | after
    · exact (name before).2.1 rfl
    · exact (value (List.mem_of_ne_of_mem (by decide) after)).2.1 rfl
  · intro member
    rcases List.mem_append.mp member with before | after
    · exact (name before).2.2 rfl
    · exact (value (List.mem_of_ne_of_mem (by decide) after)).2.2 rfl

theorem nul_mem_headerLine (header : String × String) :
    '\x00' ∈ headerLine header ↔ '\x00' ∈ header.1.toList ∨ '\x00' ∈ header.2.toList := by
  simp [headerLine, nul_mem_escapeHeader]

theorem encodeHeader_eq (header : String × String) :
    encodeHeader header = encode (headerLine header ++ ['\n']) := by
  have colon : encode (':' :: escapeHeader header.2) = byte ':' ::
    encode (escapeHeader header.2) := rfl
  rw [encodeHeader, headerLine, encode_append, encode_append, colon,
    List.append_assoc (encode _) [byte ':']]
  rfl

theorem splitOn_lines {lines : List (List Char)} (clean : ∀ line ∈ lines, '\n' ∉ line) :
    (lines.flatMap (· ++ ['\n']) ++ ['\n']).splitOn '\n' = lines ++ [[], []] := by
  induction lines with
  | nil => rfl
  | cons line rest ih =>
    obtain ⟨here, later⟩ := List.forall_mem_cons.mp clean
    rw [List.flatMap_cons, List.append_assoc, List.append_assoc, List.singleton_append,
      List.splitOn_append_cons_self_of_not_mem here, ih later]
    rfl

/-- Bytes of a line are passed over. -/
theorem findHeaderEnd_line {line : Bytes} (clean : ∀ b ∈ line, b ≠ byte '\n' ∧ b ≠ byte '\r')
    (rest : Bytes) :
    findHeaderEnd (line ++ rest) = (findHeaderEnd rest).map (· + line.length) := by
  induction line with
  | nil => simp
  | cons b line ih =>
    obtain ⟨⟨newline, carriage⟩, later⟩ := List.forall_mem_cons.mp clean
    rw [List.cons_append, findHeaderEnd, if_neg (fun both => newline both.1),
      if_neg (fun both => carriage both.1), ih later, Option.map_map]
    rfl

/-- The blank line found is the first one. -/
theorem findHeaderEnd_lines {lines : List Bytes} (some_line : lines ≠ [])
    (clean : ∀ line ∈ lines, line ≠ [] ∧ ∀ b ∈ line, b ≠ byte '\n' ∧ b ≠ byte '\r') (rest : Bytes) :
    findHeaderEnd (lines.flatMap (· ++ [byte '\n']) ++ byte '\n' :: rest) =
      some ((lines.flatMap (· ++ [byte '\n'])).length + 1) := by
  induction lines with
  | nil => exact absurd rfl some_line
  | cons line more ih =>
    obtain ⟨⟨-, here⟩, later⟩ := List.forall_mem_cons.mp clean
    rw [List.flatMap_cons, List.append_assoc, List.append_assoc, findHeaderEnd_line here]
    cases more with
    | nil =>
      simp only [List.flatMap_nil, List.nil_append, List.singleton_append, List.length_append,
        List.length_nil, List.length_singleton]
      rw [findHeaderEnd, if_pos ⟨rfl, rfl⟩, Option.map_some]
      congr 1
      omega
    | cons next more =>
      obtain ⟨⟨nonempty, plain⟩, -⟩ := List.forall_mem_cons.mp later
      obtain ⟨b, line', rfl⟩ := List.exists_cons_of_ne_nil nonempty
      have other : b ≠ byte '\n' := (plain b (by simp)).1
      have step := ih (by simp) later
      rw [List.singleton_append, findHeaderEnd, if_neg (by simp [other]),
        if_neg (by simp [byte]), step]
      simp only [Option.map_some, List.length_append, List.length_cons, List.length_nil]
      congr 1
      omega

/-- Header lines are read back as they were written. -/
theorem readHeaders_lines {headers : List (String × String)} {size : Nat}
    (right : ∀ header ∈ headers, header.1 = contentLength → parseUsize header.2 = some size)
    (before : List (String × String)) (length : Option Nat) :
    readHeaders (headers.map headerLine ++ [[], []]) before length =
      .ok (before ++ headers, if headers.any fun header => header.1 == contentLength then some size
          else length) := by
  induction headers generalizing before length with
  | nil => simp [readHeaders]
  | cons header rest ih =>
    obtain ⟨name, value⟩ := header
    obtain ⟨here, later⟩ := List.forall_mem_cons.mp right
    have absent : ':' ∉ escapeHeader name := fun member => (escapeHeader_clean member).1 rfl
    have parted : splitOnce ':' (headerLine (name, value)) =
      some (escapeHeader name, escapeHeader value) :=
      splitOnce_append absent
    have line : headerLine (name, value) ≠ [] := by simp [headerLine]
    rw [List.map_cons, List.cons_append, readHeaders, if_neg line]
    simp only [parted, unescapeHeader_escapeHeader]
    by_cases counts : name = contentLength
    · have found : (name == contentLength) = true := beq_iff_eq.mpr counts
      rw [if_pos counts]
      simp only [here counts]
      rw [ih later, List.append_assoc, List.any_cons, found]
      simp
    · have other : (name == contentLength) = false := beq_eq_false_iff_ne.mpr counts
      rw [if_neg counts, ih later, List.append_assoc, List.any_cons, other]
      rfl

end Lines

/-- The headers of a frame as its reader finds them. -/
def Frame.wireHeaders (frame : Frame) : List (String × String) :=
  if frame.headers.any fun header => header.1 == contentLength then frame.headers
  else frame.headers ++ [(contentLength, toString frame.body.length)]

/-- A frame with a command on one line, and no length that is not its body's. -/
structure Frame.Writable (frame : Frame) : Prop where
  named : frame.command ≠ ""
  single : ∀ c ∈ frame.command.toList, c ≠ '\n' ∧ c ≠ '\r' ∧ c ≠ '\x00'
  lengths : ∀ header ∈ frame.headers, header.1 = contentLength →
    parseUsize header.2 = some frame.body.length

theorem Frame.single_of_all {frame : Frame}
    (plain : (frame.command.toList.all fun c => c != '\n' && c != '\r' && c != '\x00') = true) :
    ∀ c ∈ frame.command.toList, c ≠ '\n' ∧ c ≠ '\r' ∧ c ≠ '\x00' := by
  simpa [and_assoc] using plain

/-- No header holds a NUL, which the format has no escape for. -/
def Frame.NulFree (frame : Frame) : Prop :=
  ∀ header ∈ frame.headers, '\x00' ∉ header.1.toList ∧ '\x00' ∉ header.2.toList

section Decoding
variable {frame : Frame} {limit : UInt64}

/-- The lines before the blank one. -/
def Frame.lines (frame : Frame) : List (List Char) :=
  frame.command.toList :: frame.wireHeaders.map headerLine

/-- Everything before the body. -/
def Frame.head (frame : Frame) : List Char := frame.lines.flatMap (· ++ ['\n']) ++ ['\n']

theorem encodeHeader_length (size : Nat) :
    encodeHeader (contentLength, toString size) = utf8 "content-length:" ++ utf8 (toString size) ++
      [byte '\n'] := by
  have name : escapeHeader contentLength = contentLength.toList := by decide
  have digits : escapeHeader (toString size) = (toString size).toList := by
    refine escapeHeader_eq_self fun c member => ?_
    have written : (toString size).toList = Nat.toDigits 10 size := Nat.toList_repr
    rw [written] at member
    have digit := Nat.isDigit_of_mem_toDigits (by decide) (by decide) member
    refine ⟨?_, ?_, ?_, ?_⟩
    all_goals
      rintro rfl
      exact absurd digit (by decide)
  rw [encodeHeader, name, digits]
  rfl

theorem flatMap_encodeHeader (headers : List (String × String)) :
    headers.flatMap encodeHeader = Lib.encode ((headers.map headerLine).flatMap (· ++ ['\n'])) := by
  induction headers with
  | nil => rfl
  | cons header rest ih =>
    rw [List.flatMap_cons, ih, encodeHeader_eq, List.map_cons, List.flatMap_cons]
    simp only [encode_append]

theorem Frame.flatMap_wireHeaders (frame : Frame) :
    frame.wireHeaders.flatMap encodeHeader = frame.headers.flatMap encodeHeader ++
      if frame.headers.any fun header => header.1 == contentLength then []
      else utf8 "content-length:" ++ utf8 (toString frame.body.length) ++ [byte '\n'] := by
  rw [Frame.wireHeaders]
  split
  · rw [List.append_nil]
  · rw [List.flatMap_append, List.flatMap_singleton, encodeHeader_length]

theorem Frame.encode_eq (frame : Frame) : frame.encode = Lib.encode frame.head ++
    (frame.body ++ [0]) := by
  have newline : Lib.encode ['\n'] = [byte '\n'] := rfl
  rw [Frame.encode, Frame.head, Frame.lines, List.flatMap_cons, List.append_assoc (utf8 _ ++ _),
    ← Frame.flatMap_wireHeaders, flatMap_encodeHeader, encode_append, encode_append,
      encode_append, newline]
  simp only [utf8, List.append_assoc]

theorem Frame.Writable.lines (writable : frame.Writable) :
    ∀ line ∈ frame.lines, line ≠ [] ∧ '\n' ∉ line ∧ '\r' ∉ line := by
  intro line member
  rcases List.mem_cons.mp member with rfl | inside
  · refine ⟨fun empty => writable.named ?_, fun found => (writable.single _ found).1 rfl,
      fun found => (writable.single _ found).2.1 rfl⟩
    exact String.toList_injective empty
  · obtain ⟨header, -, rfl⟩ := List.mem_map.mp inside
    exact ⟨by simp [headerLine], headerLine_clean header⟩

theorem Frame.Writable.findHeaderEnd (writable : frame.Writable) (rest : Bytes) :
    Stomp.findHeaderEnd (Lib.encode frame.head ++ rest) = some (Lib.encode frame.head).length := by
  have spread (lines : List (List Char)) :
      Lib.encode (lines.flatMap (· ++ ['\n'])) =
          (lines.map Lib.encode).flatMap (· ++ [byte '\n']) := by
    induction lines with
    | nil => rfl
    | cons line more ih =>
      rw [List.flatMap_cons, encode_append, encode_append, ih]
      rfl
  have newline : Lib.encode ['\n'] = [byte '\n'] := rfl
  rw [Frame.head, encode_append, newline, spread, List.append_assoc, List.singleton_append]
  rw [findHeaderEnd_lines (by simp [Frame.lines]) ?_ rest]
  · simp
  · intro line member
    obtain ⟨source, inside, rfl⟩ := List.mem_map.mp member
    obtain ⟨nonempty, newline, carriage⟩ := writable.lines source inside
    refine ⟨encode_ne_nil nonempty, fun b found => ⟨?_, ?_⟩⟩
    · rintro rfl
      exact newline ((byte_mem_encode (by decide) source).mp found)
    · rintro rfl
      exact carriage ((byte_mem_encode (by decide) source).mp found)

/-- No heartbeat stands before a frame that was just written. -/
theorem Frame.Writable.no_heartbeat (writable : frame.Writable) (rest : Bytes) :
    ((Lib.encode frame.head ++ rest).dropWhile fun b => b == byte '\n' || b ==
      byte '\r' || b == 0) =
        Lib.encode frame.head ++ rest ∧
      Lib.encode frame.head ++ rest ≠ [] := by
  have nonempty : frame.command.toList ≠ [] := fun empty =>
    writable.named (String.toList_injective empty)
  obtain ⟨b, tail, spelled⟩ := List.exists_cons_of_ne_nil (encode_ne_nil nonempty)
  have first : b ∈ Lib.encode frame.command.toList := by simp [spelled]
  have newline : b ≠ byte '\n' := by
    rintro rfl
    exact (writable.single _ ((byte_mem_encode (by decide) _).mp first)).1 rfl
  have carriage : b ≠ byte '\r' := by
    rintro rfl
    exact (writable.single _ ((byte_mem_encode (by decide) _).mp first)).2.1 rfl
  have nul : b ≠ 0 := by
    rintro rfl
    exact (writable.single '\x00' ((byte_mem_encode (by decide) _).mp first)).2.2 rfl
  have start : ∃ more, Lib.encode frame.head ++ rest = b :: more := by
    simp only [Frame.head, Frame.lines, List.flatMap_cons, encode_append, spelled, List.cons_append]
    exact ⟨_, rfl⟩
  obtain ⟨more, start⟩ := start
  rw [start]
  simp [newline, carriage, nul]

theorem parseUsize_toString {size : Nat} (small : size < 2 ^ 64) : parseUsize (toString size) =
    some size := by
  have written : parseU64 (toString (size : Int)) = some (size : Int) :=
    parseInteger_toString (by omega) (by omega)
  have same : toString (size : Int) = toString size := rfl
  rw [parseUsize, ← same, written]
  rfl

theorem Frame.Writable.wire_lengths (writable : frame.Writable)
    (small : frame.body.length < 2 ^ 64) :
    (∀ header ∈ frame.wireHeaders, header.1 = contentLength →
      parseUsize header.2 = some frame.body.length) ∧
      (frame.wireHeaders.any fun header => header.1 == contentLength) = true := by
  rw [Frame.wireHeaders]
  split
  · rename_i found
    exact ⟨writable.lengths, found⟩
  · refine ⟨fun header member named => ?_, by simp⟩
    rcases List.mem_append.mp member with own | added
    · exact writable.lengths header own named
    · cases List.mem_singleton.mp added
      exact parseUsize_toString small

theorem Frame.body_lt (fits : frame.encode.length ≤ limit.toNat) : frame.body.length < 2 ^ 64 := by
  have bound : limit.toNat < 2 ^ 64 := limit.toNat_lt
  rw [Frame.encode_eq] at fits
  simp only [List.length_append, List.length_singleton] at fits
  omega

/-- What is written is read back: one frame, and nothing of what follows it,
unless a NUL stands in the headers. -/
theorem Frame.Writable.decode_within (writable : frame.Writable)
    (block : (Lib.encode frame.head).length ≤ limit.toNat) (body : frame.body.length ≤ limit.toNat)
    (addressed : (Lib.encode frame.head).length + frame.body.length < 2 ^ 64) (rest : Bytes) :
    decodeOneWithLimit limit (frame.encode ++ rest) =
      if (Lib.encode frame.head).contains 0 then (.error .nulInHeaders, frame.encode ++ rest)
      else (.ok (some { frame with headers := frame.wireHeaders }), rest) := by
  have whole : frame.encode ++ rest = Lib.encode frame.head ++ (frame.body ++ 0 :: rest) := by
    rw [Frame.encode_eq]
    simp
  obtain ⟨kept, nonempty⟩ := writable.no_heartbeat (frame.body ++ 0 :: rest)
  have found := writable.findHeaderEnd (frame.body ++ 0 :: rest)
  have front : (Lib.encode frame.head ++ (frame.body ++ 0 :: rest)).take
    (Lib.encode frame.head).length =
      Lib.encode frame.head := List.take_left
  have text : fromUtf8 (Lib.encode frame.head) = some (.ofList frame.head) := by
    have := fromUtf8_utf8 (.ofList frame.head)
    rwa [utf8, String.toList_ofList] at this
  have split : (frame.head.splitOn '\n').map trimCarriage =
      frame.command.toList :: (frame.wireHeaders.map headerLine ++ [[], []]) := by
    rw [Frame.head, splitOn_lines fun line member => (writable.lines line member).2.1]
    have trimmed : ∀ line ∈ frame.lines ++ [[], []], trimCarriage line = line := by
      intro line member
      rcases List.mem_append.mp member with own | blank
      · exact trimCarriage_eq_self (writable.lines line own).2.2
      · obtain rfl : line = [] := by simpa using blank
        rfl
    rw [List.map_congr_left trimmed, List.map_id']
    rfl
  have named : frame.command.toList ≠ [] := fun empty =>
    writable.named (String.toList_injective empty)
  obtain ⟨right, counted⟩ := writable.wire_lengths (by omega)
  have headers := readHeaders_lines right [] none
  rw [counted, if_pos rfl, List.nil_append] at headers
  rw [whole, decodeOneWithLimit]
  simp only [kept, if_neg nonempty, found, front]
  rw [if_neg (by omega)]
  split
  · rfl
  · simp only [text, String.toList_ofList, split, if_neg named, headers]
    have sum : checkedAdd (Lib.encode frame.head).length frame.body.length =
        some ((Lib.encode frame.head).length + frame.body.length) := if_pos addressed
    have stop : (Lib.encode frame.head).length + frame.body.length =
        (Lib.encode frame.head ++ frame.body).length := by simp
    have joined : Lib.encode frame.head ++ (frame.body ++ 0 :: rest) =
        (Lib.encode frame.head ++ frame.body) ++ 0 :: rest := by simp
    simp only [if_neg (show ¬ frame.body.length > limit.toNat by omega), sum]
    rw [stop, joined, if_neg (by simp), if_neg (by simp), List.take_left, List.drop_left,
      ← List.drop_drop, List.drop_left]
    simp

theorem Frame.Writable.decode (writable : frame.Writable) (fits : frame.encode.length ≤ limit.toNat)
    (rest : Bytes) :
    decodeOneWithLimit limit (frame.encode ++ rest) =
      if (Lib.encode frame.head).contains 0 then (.error .nulInHeaders, frame.encode ++ rest)
      else (.ok (some { frame with headers := frame.wireHeaders }), rest) := by
  have size : frame.encode.length = (Lib.encode frame.head).length + frame.body.length + 1 := by
    rw [Frame.encode_eq]
    simp
    omega
  have bound : limit.toNat < 2 ^ 64 := limit.toNat_lt
  exact writable.decode_within (by omega) (by omega) (by omega) rest

theorem nul_not_mem_toString (size : Nat) : '\x00' ∉ (toString size).toList := by
  intro member
  have written : (toString size).toList = Nat.toDigits 10 size := Nat.toList_repr
  rw [written] at member
  exact absurd (Nat.isDigit_of_mem_toDigits (by decide) (by decide) member) (by decide)

theorem Frame.nulFree_wireHeaders (frame : Frame) :
    ({ frame with headers := frame.wireHeaders } : Frame).NulFree ↔ frame.NulFree := by
  simp only [Frame.NulFree, Frame.wireHeaders]
  split
  · rfl
  · rw [List.forall_mem_append, List.forall_mem_singleton]
    exact and_iff_left ⟨(by decide : '\x00' ∉ contentLength.toList), nul_not_mem_toString _⟩

theorem Frame.Writable.nul_mem_head (writable : frame.Writable) :
    (Lib.encode frame.head).contains 0 = true ↔ ¬ frame.NulFree := by
  have nul : (0 : UInt8) = byte '\x00' := rfl
  have command : '\x00' ∉ frame.command.toList := fun member => (writable.single _ member).2.2 rfl
  rw [List.contains_iff_mem, nul, byte_mem_encode (by decide), ← Frame.nulFree_wireHeaders]
  simp [Frame.head, Frame.lines, Frame.NulFree, command, nul_mem_headerLine, or_iff_not_imp_left]

/-- A written frame is read back exactly when its headers are free of NUL. -/
theorem Frame.Writable.decode_iff (writable : frame.Writable)
    (fits : frame.encode.length ≤ limit.toNat) (rest : Bytes) :
    decodeOneWithLimit limit (frame.encode ++ rest) =
        (.ok (some { frame with headers := frame.wireHeaders }), rest) ↔
      frame.NulFree := by
  rw [writable.decode fits]
  split
  · rename_i holds
    simp [writable.nul_mem_head.mp holds]
  · rename_i free
    simpa using not_not.mp (mt writable.nul_mem_head.mpr free)

/-- `isize::MAX`, which a `Vec` of bytes never exceeds. -/
def isizeMax : Nat := 2 ^ 63 - 1

/-- A frame with arbitrary headers and any body is read back with its length
appended, and what follows it stays in the buffer. -/
theorem Frame.decode_encode (named : frame.command ≠ "")
    (single : ∀ c ∈ frame.command.toList, c ≠ '\n' ∧ c ≠ '\r' ∧ c ≠ '\x00')
    (clean : ∀ header ∈ frame.headers, '\x00' ∉ header.1.toList ∧ '\x00' ∉ header.2.toList)
    (uncounted : ∀ header ∈ frame.headers, header.1 ≠ contentLength)
    (block : (Lib.encode frame.head).length ≤ limit.toNat) (body : frame.body.length ≤ limit.toNat)
    (rest : Bytes) (held : (frame.encode ++ rest).length ≤ isizeMax) :
    decodeOneWithLimit limit (frame.encode ++ rest) =
      (.ok (some { frame with
          headers := frame.headers ++ [(contentLength, toString frame.body.length)] }), rest) := by
  have writable : frame.Writable :=
    ⟨named, single, fun header member same => absurd same (uncounted header member)⟩
  have counted : frame.wireHeaders = frame.headers ++
      [(contentLength, toString frame.body.length)] := by
    refine if_neg ?_
    simpa using fun value member => uncounted (contentLength, value) member rfl
  have addressed : (Lib.encode frame.head).length + frame.body.length < 2 ^ 64 := by
    rw [Frame.encode_eq] at held
    simp only [List.length_append, isizeMax] at held
    omega
  have free : ¬ (Lib.encode frame.head).contains 0 = true :=
    fun nul => writable.nul_mem_head.mp nul clean
  rw [writable.decode_within block body addressed, if_neg free, counted]

/-- A header of every awkward kind, and a body with a NUL and a blank line. -/
def awkward : Frame := ⟨"SEND", [("", ""), ("a:b", "c\\d\ne\rf"), ("a:b", "")], [0, 10, 10]⟩

theorem decode_encode_awkward :
    decodeOneWithLimit 64 (awkward.encode ++ [10, 65]) =
      (.ok (some { awkward with headers := awkward.headers ++ [(contentLength, toString 3)] }),
        [10, 65]) :=
  Frame.decode_encode (by decide) (Frame.single_of_all (by decide)) (by decide) (by decide)
    (by decide +kernel)
    (by decide) [10, 65] (by decide +kernel)

end Decoding

end OaGateway.Stomp
