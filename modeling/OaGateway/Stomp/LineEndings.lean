import OaGateway.Stomp.Layout

/-! Frames whose lines end in CRLF instead of LF, some of them or all. -/
namespace OaGateway.Stomp

open Lib

/-- The end of a line, with a carriage return or without. -/
def lineEnd (carriage : Bool) : List Char := if carriage then ['\r', '\n'] else ['\n']

/-- The lines of a header block, each with its ending, and the blank line. -/
def headText (lines : List (List Char × Bool)) (blank : Bool) : List Char :=
  lines.flatMap (fun line => line.1 ++ lineEnd line.2) ++ lineEnd blank

/-- The same lines ended by LF. -/
def plain (lines : List (List Char × Bool)) : List (List Char × Bool) :=
  lines.map fun line => (line.1, false)

/-- A command line and header lines, without their endings. -/
structure FrameLines (lines : List (List Char × Bool)) : Prop where
  command : lines ≠ []
  each : ∀ line ∈ lines, line.1 ≠ [] ∧ '\n' ∉ line.1 ∧ line.1.getLast? ≠ some '\r'
  begun : ∀ line ∈ lines.head?, ∀ c ∈ line.1.head?, c ≠ '\r' ∧ c ≠ '\x00'

/-- The ending of the last line before the blank one. -/
def lastEnding (lines : List (List Char × Bool)) : Bool := lines.getLast?.any Prod.snd

section Search

/-- The bytes of a line are passed over, whatever carriage returns it holds. -/
theorem findHeaderEnd_text {line : Bytes} (clean : byte '\n' ∉ line)
    (last : line.getLast? ≠ some (byte '\r')) (rest : Bytes) : findHeaderEnd (line ++ rest) =
      (findHeaderEnd rest).map (· + line.length) := by
  induction line with
  | nil => simp
  | cons b line ih =>
    have newline : b ≠ byte '\n' := fun same => clean (by simp [same])
    have later : byte '\n' ∉ line := fun member => clean (List.mem_cons_of_mem _ member)
    have carriage : ¬ (b = byte '\r' ∧ (line ++ rest).take 3 =
        [byte '\n', byte '\r', byte '\n']) := by
      rintro ⟨rfl, next⟩
      cases line with
      | nil => exact last rfl
      | cons c more =>
        obtain ⟨rfl, -⟩ : c = byte '\n' ∧ _ := by simpa using next
        exact later (by simp)
    have ended : line.getLast? ≠ some (byte '\r') := by
      cases line with
      | nil => simp
      | cons c more => simpa using last
    rw [List.cons_append, findHeaderEnd, if_neg (fun both => newline both.1), if_neg carriage,
      ih later ended, Option.map_map]
    rfl

theorem encode_lineEnd (carriage : Bool) :
    encode (lineEnd carriage) = if carriage then [byte '\r', byte '\n'] else [byte '\n'] := by
  cases carriage <;> rfl

/-- An ending is passed over where another line follows. -/
theorem findHeaderEnd_ending {line : Bytes} (nonempty : line ≠ []) (clean : byte '\n' ∉ line)
    (last : line.getLast? ≠ some (byte '\r')) (carriage : Bool) (rest : Bytes) :
    findHeaderEnd (encode (lineEnd carriage) ++ (line ++ rest)) =
      (findHeaderEnd (line ++ rest)).map (· + (encode (lineEnd carriage)).length) := by
  obtain ⟨b, more, rfl⟩ := List.exists_cons_of_ne_nil nonempty
  have newline : b ≠ byte '\n' := fun same => clean (by simp [same])
  have later : byte '\n' ∉ more := fun member => clean (List.mem_cons_of_mem _ member)
  have feed (tail : Bytes) : findHeaderEnd (byte '\n' :: b :: tail) =
      (findHeaderEnd (b :: tail)).map (· + 1) := by
    rw [findHeaderEnd, if_neg (by simp [newline]), if_neg (by simp [byte])]
  rw [encode_lineEnd]
  cases carriage with
  | false => exact feed (more ++ rest)
  | true =>
    have inside : ¬ (byte '\r' = byte '\r' ∧
        (byte '\n' :: b :: (more ++ rest)).take 3 = [byte '\n', byte '\r', byte '\n']) := by
      rintro ⟨-, next⟩
      cases more with
      | nil =>
        obtain ⟨rfl, -⟩ : b = byte '\r' ∧ _ := by simpa using next
        exact last rfl
      | cons c more =>
        obtain ⟨-, rfl⟩ : b = byte '\r' ∧ c = byte '\n' := by simpa using next
        exact later (by simp)
    simp only [↓reduceIte, List.cons_append, List.nil_append, List.length_cons,
      List.length_nil, Nat.zero_add]
    rw [findHeaderEnd, if_neg (by simp [byte]), if_neg inside, feed, Option.map_map]
    rfl

theorem encode_line {line : List Char} (clean : '\n' ∉ line) (last : line.getLast? ≠ some '\r') :
    byte '\n' ∉ encode line ∧ (encode line).getLast? ≠ some (byte '\r') := by
  refine ⟨fun member => clean ((byte_mem_encode (by decide) line).mp member), fun ended => ?_⟩
  rcases List.eq_nil_or_concat line with rfl | ⟨front, c, rfl⟩
  · cases ended
  · have code : encode [c] = String.utf8EncodeChar c := by simp [encode]
    have some_byte : String.utf8EncodeChar c ≠ [] := by
      rw [← code]
      exact encode_ne_nil (by simp)
    rw [List.concat_eq_append, encode_append, code,
      List.getLast?_append_of_ne_nil _ some_byte] at ended
    have inside := List.mem_of_getLast? ended
    rw [byte_mem_utf8EncodeChar (by decide)] at inside
    simp [← inside] at last

/-- The blank line is found, unless it ends in CRLF and the line before it in LF. -/
theorem findHeaderEnd_head {lines : List (List Char × Bool)} (some_line : lines ≠ [])
    (each : ∀ line ∈ lines, line.1 ≠ [] ∧ '\n' ∉ line.1 ∧ line.1.getLast? ≠ some '\r')
    (blank : Bool) :
    findHeaderEnd (encode (headText lines blank)) =
      if blank && !lastEnding lines then none else some (encode (headText lines blank)).length := by
  induction lines with
  | nil => exact absurd rfl some_line
  | cons line more ih =>
    obtain ⟨⟨-, newline, carriage⟩, later⟩ := List.forall_mem_cons.mp each
    obtain ⟨clean, last⟩ := encode_line newline carriage
    have split : encode (headText (line :: more) blank) =
        encode line.1 ++ (encode (lineEnd line.2) ++ encode (headText more blank)) := by
      simp [headText]
    rw [split, findHeaderEnd_text clean last]
    cases more with
    | nil =>
      have single : lastEnding [line] = line.2 := rfl
      have head : headText [] blank = lineEnd blank := rfl
      rw [single, head, encode_lineEnd, encode_lineEnd]
      cases line.2 <;> cases blank <;> simp [findHeaderEnd, byte] <;> omega
    | cons next more =>
      obtain ⟨⟨nonempty, newline, carriage⟩, -⟩ := List.forall_mem_cons.mp later
      obtain ⟨clean, last⟩ := encode_line newline carriage
      have front : encode (headText (next :: more) blank) =
          encode next.1 ++ (encode (lineEnd next.2) ++ encode (headText more blank)) := by
        simp [headText]
      have same : lastEnding (line :: next :: more) = lastEnding (next :: more) := by
        simp [lastEnding]
      rw [front, findHeaderEnd_ending (encode_ne_nil nonempty) clean last, ← front,
        ih (by simp) later, same]
      split
      · rfl
      · simp
        omega

end Search

section Reading
variable {lines : List (List Char × Bool)}

theorem trimCarriage_lineEnd {line : List Char} (last : line.getLast? ≠ some '\r')
    (carriage : Bool) :
    trimCarriage (line ++ if carriage then ['\r'] else []) = line := by
  have kept : line.reverse.dropWhile (· == '\r') = line.reverse := by
    cases turned : line.reverse with
    | nil => rfl
    | cons c rest =>
      have other : c ≠ '\r' := by
        rintro rfl
        rw [← List.head?_reverse, turned] at last
        exact last rfl
      simp [other]
  have same : (line ++ if carriage then ['\r'] else []).reverse.dropWhile (· == '\r') =
      line.reverse := by
    cases carriage with
    | false => simpa using kept
    | true => simpa using kept
  rw [trimCarriage, same, List.reverse_reverse]

/-- The lines that are read do not depend on their endings. -/
theorem lines_headText
    (each : ∀ line ∈ lines, line.1 ≠ [] ∧ '\n' ∉ line.1 ∧ line.1.getLast? ≠ some '\r')
    (blank : Bool) : ((headText lines blank).splitOn '\n').map trimCarriage = lines.map Prod.fst ++
      [[], []] := by
  have cut {line : List Char} (newline : '\n' ∉ line) (carriage : Bool) (rest : List Char) :
      (line ++ lineEnd carriage ++ rest).splitOn '\n' =
        (line ++ if carriage then ['\r'] else []) :: rest.splitOn '\n' := by
    have clean : '\n' ∉ line ++ if carriage then ['\r'] else [] := by
      cases carriage <;> simp [newline]
    have split : line ++ lineEnd carriage ++ rest = (line ++ if carriage then ['\r'] else []) ++
        '\n' :: rest := by
      cases carriage <;> simp [lineEnd]
    rw [split, List.splitOn_append_cons_self_of_not_mem clean]
  induction lines with
  | nil => cases blank <;> rfl
  | cons line more ih =>
    obtain ⟨⟨-, newline, last⟩, later⟩ := List.forall_mem_cons.mp each
    have split : headText (line :: more) blank = line.1 ++ lineEnd line.2 ++
        headText more blank := by
      simp [headText]
    rw [split, cut newline, List.map_cons, trimCarriage_lineEnd last, ih later]
    rfl

theorem nul_headText (blank : Bool) :
    (encode (headText lines blank)).contains 0 = lines.any fun line => line.1.contains '\x00' := by
  have nul : (0 : UInt8) = byte '\x00' := rfl
  have ends (carriage : Bool) : '\x00' ∉ lineEnd carriage := by cases carriage <;> decide
  rw [Bool.eq_iff_iff, List.contains_iff_mem, nul, byte_mem_encode (by decide)]
  simp [headText, ends]

theorem fromUtf8_encode (text : List Char) : fromUtf8 (encode text) = some (.ofList text) := by
  have := fromUtf8_utf8 (.ofList text)
  rwa [utf8, String.toList_ofList] at this

theorem parseHead_headText
    (each : ∀ line ∈ lines, line.1 ≠ [] ∧ '\n' ∉ line.1 ∧ line.1.getLast? ≠ some '\r')
    (blank : Bool) :
    parseHead (encode (headText lines blank)) =
      parseHead (encode (headText (plain lines) false)) := by
  have plainly : ∀ line ∈ plain lines, line.1 ≠ [] ∧ '\n' ∉ line.1 ∧
      line.1.getLast? ≠ some '\r' := by
    intro line member
    obtain ⟨source, inside, rfl⟩ := List.mem_map.mp member
    exact each source inside
  have texts : (plain lines).map Prod.fst = lines.map Prod.fst := by simp [plain]
  have nuls : ((plain lines).any fun line => line.1.contains '\x00') = lines.any fun line =>
      line.1.contains '\x00' := by
    simp [plain, Function.comp_def]
  simp only [parseHead, nul_headText, nuls, fromUtf8_encode, String.toList_ofList,
    lines_headText each, lines_headText plainly, texts]

end Reading

section Endings
variable {limit : UInt64} {pad tail left : Bytes} {frame : Frame} {lines : List (List Char × Bool)}
  {blank : Bool}

/-- A header block starts with its command. -/
theorem FrameLines.start (text : FrameLines lines) (beats : ∀ b ∈ pad, heartbeat b = true) :
    (∀ b ∈ (encode (headText lines blank)).head?, heartbeat b = false) ∧
      (pad ++ (encode (headText lines blank) ++ tail)).dropWhile heartbeat =
        encode (headText lines blank) ++ tail := by
  obtain ⟨line, more, rfl⟩ := List.exists_cons_of_ne_nil text.command
  obtain ⟨⟨nonempty, newline, -⟩, -⟩ := List.forall_mem_cons.mp text.each
  obtain ⟨c, rest, spelled⟩ := List.exists_cons_of_ne_nil nonempty
  obtain ⟨carriage, nul⟩ := text.begun line rfl c (by simp [spelled])
  have other : c ≠ '\n' := by
    rintro rfl
    exact newline (by simp [spelled])
  obtain ⟨b, codes, coded⟩ := List.exists_cons_of_ne_nil (encode_ne_nil (show [c] ≠ [] by simp))
  have first : b ∈ String.utf8EncodeChar c := by
    have whole : encode [c] = String.utf8EncodeChar c := by simp [encode]
    rw [← whole, coded]
    simp
  have quiet : heartbeat b = false := by
    have nulByte : (0 : UInt8) = byte '\x00' := rfl
    simp only [heartbeat, Bool.or_eq_false_iff, beq_eq_false_iff_ne, nulByte]
    refine ⟨⟨?_, ?_⟩, ?_⟩
    all_goals
      rintro rfl
      rw [byte_mem_utf8EncodeChar (by decide)] at first
    · exact other first.symm
    · exact carriage first.symm
    · exact nul first.symm
  have begins : ∃ after, encode (headText (line :: more) blank) = b :: after := by
    have split : headText (line :: more) blank = [c] ++
        (rest ++ lineEnd line.2 ++ headText more blank) := by
      simp [headText, spelled]
    rw [split, encode_append, coded]
    exact ⟨_, rfl⟩
  obtain ⟨after, begins⟩ := begins
  rw [begins]
  have begun : ∀ other ∈ (b :: after).head?, heartbeat other = false := by
    intro other same
    obtain rfl : b = other := by simpa using same
    exact quiet
  exact ⟨begun, dropWhile_heartbeats beats begun⟩

theorem FrameLines.plain (text : FrameLines lines) : FrameLines (plain lines) := by
  refine ⟨by simpa [Stomp.plain] using text.command, fun line member => ?_, fun line first => ?_⟩
  · obtain ⟨source, inside, rfl⟩ := List.mem_map.mp member
    exact text.each source inside
  · rw [Stomp.plain, List.head?_map] at first
    obtain ⟨source, inside, rfl⟩ := Option.map_eq_some_iff.mp first
    exact text.begun source inside

/-- Other endings leave the frame as it is, and what follows it, exactly where the
blank line ends in LF or the line before it in CRLF as well. -/
theorem endings_kept_iff (text : FrameLines lines) (beats : ∀ b ∈ pad, heartbeat b = true)
    (decoded : decodeOneWithLimit limit (pad ++ (encode (headText (plain lines) false) ++ tail)) =
      (.ok (some frame), left))
    (fits : (encode (headText lines blank)).length + frame.body.length ≤ limit.toNat) :
    decodeOneWithLimit limit (pad ++ (encode (headText lines blank) ++ tail)) =
      (.ok (some frame), left) ↔
      (blank = true → lastEnding lines = true) := by
  obtain ⟨pad', block, body, head, layout, rfl⟩ := decode_eq_some.mp decoded
  have same : encode (headText (plain lines) false) ++ tail = block ++ (body ++ 0 :: left) :=
    (text.plain.start beats).2.symm.trans layout.start
  have ended := findHeaderEnd_head text.plain.command text.plain.each false
  rw [Bool.false_and, if_neg Bool.false_ne_true] at ended
  have length : (encode (headText (plain lines) false)).length = block.length := by
    have found := layout.headerEnd
    rw [(text.plain.start beats).2, (findHeaderEnd_append ended tail).1] at found
    exact Option.some.inj found
  obtain ⟨rfl, rfl⟩ := List.append_inj same length
  constructor
  · intro again carriage
    obtain ⟨pad'', block', body', head', layout', frames⟩ := decode_eq_some.mp again
    obtain rfl : body = body' := congrArg Frame.body frames
    have front : encode (headText lines blank) = block' :=
      List.append_cancel_right ((text.start beats).2.symm.trans layout'.start)
    have found := layout'.blank
    rw [← front, findHeaderEnd_head text.command text.each, carriage] at found
    by_contra fed
    simp [fed] at found
  · intro carriage
    have good : (blank && !lastEnding lines) = false := by
      cases blank with
      | false => rfl
      | true => simp [carriage rfl]
    have bound : limit.toNat < 2 ^ 64 := limit.toNat_lt
    refine decode_eq_some.mpr ⟨pad, encode (headText lines blank), body, head, ?_, rfl⟩
    refine ⟨rfl, beats, (@FrameLines.start pad [] lines blank text beats).1, ?_, ?_, ?_,
      ⟨?_, layout.cut.first⟩⟩
    · rw [findHeaderEnd_head text.command text.each, good]
      rfl
    · exact (Nat.le_add_right _ _).trans fits
    · rw [parseHead_headText text.each]
      exact layout.parsed
    · intro count known
      obtain ⟨rfl, small, -⟩ := layout.cut.counts count known
      exact ⟨rfl, small, Nat.lt_of_le_of_lt fits bound⟩

/-- A command line and a header. -/
def sendLines : List (List Char × Bool) := [(['S', 'E', 'N', 'D'], true), (['a', ':', 'b'], true)]

theorem frameLines_send : FrameLines sendLines := by
  refine ⟨by decide, by decide, fun line first c here => ?_⟩
  obtain rfl : (['S', 'E', 'N', 'D'], true) = line := by simpa [sendLines] using first
  obtain rfl : 'S' = c := by simpa using here
  decide

theorem endings_kept_send :
    decodeOneWithLimit 64 (utf8 "SEND\r\na:b\r\n\r\nhi\x00x") =
      (.ok (some ⟨"SEND", [("a", "b")], utf8 "hi"⟩), utf8 "x") :=
  (@endings_kept_iff 64 [] (utf8 "hi\x00x") (utf8 "x") ⟨"SEND", [("a", "b")], utf8 "hi"⟩
    sendLines true
    frameLines_send nofun rfl (by decide)).mpr fun _ => rfl

/-- A command line that ends in LF and a blank line that ends in CRLF: the
decoder waits for another blank line. -/
theorem endings_mixed :
    decodeOneWithLimit 64 (utf8 "SEND\n\nhi\x00") = (.ok (some ⟨"SEND", [], utf8 "hi"⟩), []) ∧
      decodeOneWithLimit 64 (utf8 "SEND\n\r\nhi\x00") = (.ok none, utf8 "SEND\n\r\nhi\x00") :=
  ⟨rfl, rfl⟩

end Endings

end OaGateway.Stomp
