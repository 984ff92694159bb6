import OaGateway.Lib.Framing
import OaGateway.Stomp.Codec

/-! Frames read from a socket: a buffer that grows by whatever a read gives, and
from which whole frames are taken. -/
namespace OaGateway.Stomp

open Lib Lib.Framing

/-- `FrameReader`: the buffer of a socket, what the socket still holds, and the
size that a frame may have. -/
structure FrameReader where
  reader : Reader UInt8
  maxFrameSize : UInt64

/-- The next frame, or nothing at the end of the stream. -/
def FrameReader.recv (reader : FrameReader) : Except CodecError (Option Frame) × FrameReader :=
  let (result, after) := reader.reader.recv (decodeOneWithLimit reader.maxFrameSize)
  (result, { reader with reader := after })

def FrameReader.recvMany : Nat → FrameReader → List (Except CodecError (Option Frame)) × FrameReader
  | 0, reader => ([], reader)
  | count + 1, reader =>
    let (result, after) := reader.recv
    let (results, last) := after.recvMany count
    (result :: results, last)

/-- Bytes that stand between frames and are not read. -/
def heartbeat (b : UInt8) : Bool := b == byte '\n' || b == byte '\r' || b == 0

section Head

/-- What the bytes of a header block say. -/
def parseHead (head : Bytes) :
    Except CodecError (List Char × List (String × String) × Option Nat) :=
  if head.contains 0 then .error .nulInHeaders
  else match fromUtf8 head with
  | none => .error .notUtf8
  | some text =>
    match (text.toList.splitOn '\n').map trimCarriage with
    | [] => .error .missingCommand
    | command :: lines =>
      if command = [] then .error .missingCommand
      else (readHeaders lines [] none).map fun found => (command, found.1, found.2)

/-- The body behind a header block, counted or up to a NUL. -/
def cutBody (limit : UInt64) (buffer : Bytes) (headerEnd : Nat) :
    List Char × List (String × String) × Option Nat → Except CodecError (Option Frame) × Bytes
  | (command, headers, some length) =>
    if length > limit.toNat then (.error (.frameTooLarge limit), buffer)
    else match checkedAdd headerEnd length with
    | none => (.error (.frameTooLarge limit), buffer)
    | some bodyEnd =>
      if buffer.length ≤ bodyEnd then (.ok none, buffer)
      else if buffer[bodyEnd]? ≠ some 0 then (.error .missingNull, buffer)
      else
        (.ok (some ⟨.ofList command, headers, (buffer.take bodyEnd).drop headerEnd⟩),
          buffer.drop (bodyEnd + 1))
  | (command, headers, none) =>
    match (buffer.drop headerEnd).findIdx? (· == 0) with
    | some length =>
      (.ok (some ⟨.ofList command, headers, (buffer.drop headerEnd).take length⟩),
        buffer.drop (headerEnd + length + 1))
    | none => (if buffer.length > limit.toNat then .error (.frameTooLarge limit)
      else .ok none, buffer)

variable {limit : UInt64}

private theorem dropWhile_heartbeat (buffer : Bytes) :
    (buffer.dropWhile fun b => b == byte '\n' || b == byte '\r' || b == 0) =
      buffer.dropWhile heartbeat := rfl

/-- Heartbeats in front change nothing. -/
theorem decodeOneWithLimit_pad {pad : Bytes} (clean : ∀ b ∈ pad, heartbeat b) (rest : Bytes) :
    decodeOneWithLimit limit (pad ++ rest) = decodeOneWithLimit limit rest := by
  rw [decodeOneWithLimit, dropWhile_heartbeat, List.dropWhile_append_of_pos clean]
  rfl

theorem decodeOneWithLimit_heartbeats {pad : Bytes} (clean : ∀ b ∈ pad, heartbeat b) :
    decodeOneWithLimit limit pad = (.ok none, []) := by
  have gone := @decodeOneWithLimit_pad limit pad clean []
  rw [List.append_nil] at gone
  rw [gone]
  rfl

/-- A buffer that starts with a frame, found by its blank line. -/
theorem decodeOneWithLimit_started {b : UInt8} {tail : Bytes} (first : heartbeat b = false) :
    decodeOneWithLimit limit (b :: tail) =
      match findHeaderEnd (b :: tail) with
      | none => (if (b :: tail).length > limit.toNat then .error (.frameTooLarge limit)
        else .ok none, b :: tail)
      | some headerEnd =>
        if headerEnd > limit.toNat then (.error (.frameTooLarge limit), b :: tail)
        else match parseHead ((b :: tail).take headerEnd) with
        | .error error => (.error error, b :: tail)
        | .ok head => cutBody limit (b :: tail) headerEnd head := by
  have kept : (b :: tail).dropWhile heartbeat = b :: tail := by rw [List.dropWhile_cons, first]; rfl
  simp only [decodeOneWithLimit, dropWhile_heartbeat, kept, reduceCtorEq, if_false]
  generalize b :: tail = buffer
  cases findHeaderEnd buffer with
  | none => rfl
  | some headerEnd =>
    simp only [parseHead]
    generalize buffer.take headerEnd = head
    split
    · rfl
    · split
      · rfl
      · cases fromUtf8 head with
        | none => rfl
        | some text =>
          dsimp only
          cases (text.toList.splitOn '\n').map trimCarriage with
          | nil => rfl
          | cons command lines =>
            by_cases empty : command = []
            · simp only [if_pos empty]
            · simp only [if_neg empty]
              cases readHeaders lines [] none with
              | error error => rfl
              | ok found =>
                obtain ⟨headers, _ | length⟩ := found <;> rfl

/-- A blank line that has arrived is found again when more arrives. -/
theorem findHeaderEnd_append {buffer : Bytes} {stop : Nat}
    (found : findHeaderEnd buffer = some stop) (rest : Bytes) :
    findHeaderEnd (buffer ++ rest) = some stop ∧ stop ≤ buffer.length := by
  induction buffer generalizing stop with
  | nil => cases found
  | cons b tail ih =>
    rw [findHeaderEnd] at found
    rw [List.cons_append, findHeaderEnd]
    by_cases plain : b = byte '\n' ∧ tail.head? = some (byte '\n')
    · rw [if_pos plain] at found
      obtain ⟨next, more, rfl⟩ : ∃ next more, tail = next :: more := by
        cases tail with
        | nil => cases plain.2
        | cons next more => exact ⟨next, more, rfl⟩
      cases found
      exact ⟨if_pos plain, by simp⟩
    · rw [if_neg plain] at found
      by_cases carriage : b = byte '\r' ∧ tail.take 3 = [byte '\n', byte '\r', byte '\n']
      · rw [if_pos carriage] at found
        cases found
        have long : 3 ≤ tail.length := by
          have := congrArg List.length carriage.2
          simp only [List.length_take, List.length_cons, List.length_nil] at this
          omega
        have newline : ¬ (b = byte '\n' ∧ (tail ++ rest).head? = some (byte '\n')) := by
          rw [carriage.1]
          simp [byte]
        rw [if_neg newline,
          if_pos ⟨carriage.1, by rw [List.take_append_of_le_length long]; exact carriage.2⟩]
        exact ⟨rfl, by simp; omega⟩
      · rw [if_neg carriage] at found
        obtain ⟨before, earlier, rfl⟩ := Option.map_eq_some_iff.mp found
        obtain ⟨again, bound⟩ := ih earlier
        -- a blank line further on leaves no room for a cut one here
        have long : 2 ≤ tail.length := by
          rcases tail with _ | ⟨next, _ | ⟨after, more⟩⟩
          · simp [findHeaderEnd] at earlier
          · simp [findHeaderEnd] at earlier
          · simp
        obtain ⟨next, after, more, rfl⟩ : ∃ next after more, tail = next :: after :: more := by
          rcases tail with _ | ⟨next, _ | ⟨after, more⟩⟩
          · simp at long
          · simp at long
          · exact ⟨next, after, more, rfl⟩
        rw [if_neg (by simpa using plain), if_neg, again]
        · exact ⟨rfl, by simpa using bound⟩
        · rintro ⟨rfl, cut⟩
          cases more with
          | cons last more => exact carriage ⟨rfl, by simpa using cut⟩
          | nil =>
            obtain ⟨rfl, rfl, -⟩ : next = byte '\n' ∧ after = byte '\r' ∧
                rest.take 1 = [byte '\n'] := by
              simpa using cut
            simp [findHeaderEnd, byte] at earlier

variable {unit : Bytes} {headerEnd : Nat} {frame : Frame}
  {head : List Char × List (String × String) × Option Nat}

/-- A body of some length, counted by the headers or ended by the first NUL. -/
structure Cut (limit : UInt64) (unit : Bytes) (headerEnd length : Nat)
    (counted : Option Nat) : Prop where
  size : unit.length = headerEnd + length + 1
  ended : unit[headerEnd + length]? = some 0
  counts : ∀ announced, counted = some announced → announced = length ∧ length ≤ limit.toNat ∧
    headerEnd + length < 2 ^ 64
  first : counted = none → (unit.drop headerEnd).findIdx? (· == 0) = some length

/-- A frame that takes up all of the bytes ends with its NUL. -/
theorem cutBody_whole (cut : cutBody limit unit headerEnd head = (.ok (some frame), [])) :
    ∃ length, Cut limit unit headerEnd length head.2.2 ∧
      frame = ⟨.ofList head.1, head.2.1, (unit.drop headerEnd).take length⟩ := by
  obtain ⟨command, headers, _ | announced⟩ := head
  · rw [cutBody] at cut
    split at cut
    · rename_i length found
      simp only [Prod.mk.injEq, Except.ok.injEq, Option.some.injEq, List.drop_eq_nil_iff] at cut
      obtain ⟨rfl, reach⟩ := cut
      have inside := List.findIdx?_eq_some_iff_getElem.mp found
      obtain ⟨room, nul, -⟩ := inside
      rw [List.length_drop] at room
      rw [List.getElem_drop, beq_iff_eq] at nul
      refine ⟨length, ⟨by omega, ?_, nofun, fun _ => found⟩, rfl⟩
      rw [List.getElem?_eq_getElem (by omega), nul]
    · split at cut <;> cases cut
  · rw [cutBody] at cut
    split at cut
    · cases cut
    · rename_i small
      split at cut
      · cases cut
      · rename_i bodyEnd sum
        rw [checkedAdd] at sum
        split at sum
        · rename_i bounded
          cases sum
          split at cut
          · cases cut
          · rename_i long
            split at cut
            · cases cut
            · rename_i nul
              simp only [Prod.mk.injEq, Except.ok.injEq, Option.some.injEq,
                List.drop_eq_nil_iff] at cut
              obtain ⟨rfl, reach⟩ := cut
              refine ⟨announced, ⟨by omega, not_not.mp nul, ?_, nofun⟩, ?_⟩
              · rintro _ ⟨⟩
                exact ⟨rfl, by omega, bounded⟩
              · rw [List.drop_take, Nat.add_sub_cancel_left]
        · cases sum

/-- What follows a frame is left in the buffer. -/
theorem Cut.append (cut : Cut limit unit headerEnd length head.2.2) (rest : Bytes) :
    cutBody limit (unit ++ rest) headerEnd head =
      (.ok (some ⟨.ofList head.1, head.2.1, (unit.drop headerEnd).take length⟩), rest) := by
  have long := cut.size
  have body : ((unit ++ rest).drop headerEnd).take length = (unit.drop headerEnd).take length := by
    rw [List.drop_append_of_le_length (by omega),
      List.take_append_of_le_length (by rw [List.length_drop]; omega)]
  have left : (unit ++ rest).drop (headerEnd + length + 1) = rest := by rw [← long, List.drop_left]
  obtain ⟨command, headers, _ | announced⟩ := head
  · have found : ((unit ++ rest).drop headerEnd).findIdx? (· == 0) = some length := by
      rw [List.drop_append_of_le_length (by omega), List.findIdx?_append, cut.first rfl]
      rfl
    rw [cutBody]
    simp only [found, body, left]
  · obtain ⟨rfl, small, bounded⟩ := cut.counts announced rfl
    have nul : (unit ++ rest)[headerEnd + announced]? = some 0 := by
      rw [List.getElem?_append_left (by omega)]
      exact cut.ended
    have sum : checkedAdd headerEnd announced = some (headerEnd + announced) := if_pos bounded
    rw [cutBody, if_neg (by omega)]
    simp only [sum]
    rw [if_neg (by rw [List.length_append]; omega), if_neg (not_not.mpr nul), left, List.drop_take,
      Nat.add_sub_cancel_left, body]

/-- A body that has not arrived is waited for. -/
theorem Cut.part {front back : Bytes} (cut : Cut limit (front ++ back) headerEnd length head.2.2)
    (fits : (front ++ back).length ≤ limit.toNat) (reached : headerEnd ≤ front.length)
    (more : back ≠ []) :
    cutBody limit front headerEnd head = (.ok none, front) := by
  have long := cut.size
  have missing := List.length_pos_iff.mpr more
  rw [List.length_append] at long fits
  obtain ⟨command, headers, _ | announced⟩ := head
  · have absent : (front.drop headerEnd).findIdx? (· == 0) = none := by
      have found := cut.first rfl
      rw [List.drop_append_of_le_length reached, List.findIdx?_append] at found
      cases early : (front.drop headerEnd).findIdx? (· == 0) with
      | none => rfl
      | some index =>
        rw [early] at found
        cases found
        have room := (List.findIdx?_eq_some_iff_getElem.mp early).1
        rw [List.length_drop] at room
        omega
    rw [cutBody]
    simp only [absent]
    rw [if_neg (by omega)]
  · obtain ⟨rfl, small, bounded⟩ := cut.counts announced rfl
    have sum : checkedAdd headerEnd announced = some (headerEnd + announced) := if_pos bounded
    rw [cutBody, if_neg (by omega)]
    simp only [sum]
    rw [if_pos (by omega)]

end Head

section Stream
variable {limit : UInt64} {unit : Bytes} {frame : Frame}

/-- Bytes of a frame that the decoder accepts whole. -/
structure Accepted (limit : UInt64) (unit : Bytes) (frame : Frame) : Prop where
  fits : unit.length ≤ limit.toNat
  whole : decodeOneWithLimit limit unit = (.ok (some frame), [])

/-- An accepted frame without the heartbeats in front of it. -/
def Begins (limit : UInt64) (unit : Bytes) (frame : Frame) : Prop :=
  Accepted limit unit frame ∧ ∃ b tail, unit = b :: tail ∧ heartbeat b = false

theorem Begins.head (begins : Begins limit unit frame) :
    ∃ headerEnd head length, findHeaderEnd unit = some headerEnd ∧ headerEnd ≤ limit.toNat ∧
      parseHead (unit.take headerEnd) = .ok head ∧ Cut limit unit headerEnd length head.2.2 ∧
      frame = ⟨.ofList head.1, head.2.1, (unit.drop headerEnd).take length⟩ := by
  obtain ⟨accepted, b, tail, rfl, first⟩ := begins
  have whole := accepted.whole
  rw [decodeOneWithLimit_started first] at whole
  split at whole
  · split at whole <;> cases whole
  · rename_i headerEnd found
    split at whole
    · cases whole
    · rename_i small
      split at whole
      · cases whole
      · rename_i head parsed
        obtain ⟨length, cut, rfl⟩ := cutBody_whole whole
        exact ⟨headerEnd, head, length, found, Nat.not_lt.mp small, parsed, cut, rfl⟩

theorem Begins.append (begins : Begins limit unit frame) (rest : Bytes) :
    decodeOneWithLimit limit (unit ++ rest) = (.ok (some frame), rest) := by
  obtain ⟨headerEnd, head, length, found, small, parsed, cut, rfl⟩ := begins.head
  obtain ⟨-, b, tail, rfl, first⟩ := begins
  obtain ⟨again, bound⟩ := findHeaderEnd_append found rest
  rw [List.cons_append, decodeOneWithLimit_started first, ← List.cons_append]
  simp only [again]
  rw [if_neg (Nat.not_lt.mpr small), List.take_append_of_le_length bound]
  simp only [parsed]
  exact cut.append rest

theorem Begins.part {front back : Bytes} (begins : Begins limit (front ++ back) frame)
    (more : back ≠ []) :
    decodeOneWithLimit limit front = (.ok none, front) := by
  obtain ⟨headerEnd, head, length, found, small, parsed, cut, -⟩ := begins.head
  obtain ⟨accepted, b, tail, split, first⟩ := begins
  have fits := accepted.fits
  have short : front.length ≤ limit.toNat := by
    rw [List.length_append] at fits
    omega
  cases front with
  | nil => rfl
  | cons c rest =>
    obtain ⟨rfl, rfl⟩ := List.cons.inj split
    rw [decodeOneWithLimit_started first]
    cases early : findHeaderEnd (c :: rest) with
    | none =>
      dsimp only
      rw [if_neg (Nat.not_lt.mpr short)]
    | some stop =>
      obtain ⟨again, bound⟩ := findHeaderEnd_append early back
      obtain rfl : stop = headerEnd := Option.some.inj (again.symm.trans found)
      rw [List.take_append_of_le_length bound] at parsed
      simp only [if_neg (Nat.not_lt.mpr small), parsed]
      exact cut.part fits bound more

theorem decodes_frames (limit : UInt64) :
    Decodes (decodeOneWithLimit limit) (fun b => heartbeat b = true) (Begins limit) where
  padding pad clean := ⟨[], nofun, decodeOneWithLimit_heartbeats clean⟩
  whole pad unit frame rest clean begins := by rw [decodeOneWithLimit_pad clean, begins.append]
  part pad front back frame clean begins more := by
    exact ⟨[], nofun, by rw [decodeOneWithLimit_pad clean, begins.part more, List.nil_append]⟩

/-- Heartbeats that lead an accepted frame can be counted to what is before it. -/
theorem Accepted.begins (accepted : Accepted limit unit frame) :
    ∃ pad begun, unit = pad ++ begun ∧ (∀ b ∈ pad, heartbeat b = true) ∧
      Begins limit begun frame := by
  have clean : ∀ b ∈ unit.takeWhile heartbeat, heartbeat b = true := fun b member =>
    List.mem_takeWhile_imp member
  have whole := accepted.whole
  rw [← List.takeWhile_append_dropWhile (p := heartbeat) (l := unit),
    decodeOneWithLimit_pad clean] at whole
  refine ⟨unit.takeWhile heartbeat, unit.dropWhile heartbeat,
    List.takeWhile_append_dropWhile.symm, clean, ⟨?_, whole⟩, ?_⟩
  · exact ((List.dropWhile_sublist _).length_le).trans accepted.fits
  · cases left : unit.dropWhile heartbeat with
    | nil =>
      rw [left] at whole
      cases whole
    | cons b tail =>
      refine ⟨b, tail, rfl, ?_⟩
      have stopped := List.head?_dropWhile_not heartbeat unit
      rw [left] at stopped
      simpa using stopped

theorem begun_stream {frames : List Frame} {stream : Bytes}
    (sent : Framed (fun b => heartbeat b = true) (Accepted limit) frames stream) :
    Framed (fun b => heartbeat b = true) (Begins limit) frames stream := by
  induction sent with
  | done pad => exact .done pad
  | next pad accepted later ih =>
    obtain ⟨lead, begun, rfl, clean, begins⟩ := accepted.begins
    rw [List.append_assoc, ← List.append_assoc]
    refine .next ?_ begins ih
    intro b member
    exact (List.mem_append.mp member).elim (pad b) (clean b)

theorem FrameReader.recvMany_eq (reader : FrameReader) (count : Nat) :
    reader.recvMany count =
      ((reader.reader.recvMany (decodeOneWithLimit reader.maxFrameSize) count).1,
        { reader with
            reader :=
            (reader.reader.recvMany (decodeOneWithLimit reader.maxFrameSize) count).2 }) := by
  induction count generalizing reader with
  | zero => rfl
  | succ count ih =>
    have onward := ih reader.recv.2
    rw [FrameReader.recvMany, Reader.recvMany]
    simp only [onward]
    rfl

/-- However the bytes arrive, the frames of a stream are read in order, each
once, and nothing but heartbeats is left. -/
theorem recvMany_chunks {frames : List Frame} {stream : Bytes}
    (sent : Framed (fun b => heartbeat b = true) (Accepted limit) frames stream)
    {reader : FrameReader} (size : reader.maxFrameSize = limit)
    (reads : ∀ chunk ∈ reader.reader.chunks, chunk ≠ []) (split : reader.reader.stream = stream)
    (ended : Nat) :
    ∃ after : FrameReader, reader.recvMany (frames.length + ended) =
        (frames.map (.ok ∘ some) ++ List.replicate ended (.ok none), after) ∧
      (∀ b ∈ after.reader.stream, heartbeat b = true) ∧ (0 < ended → after.reader.chunks = []) := by
  subst size
  obtain ⟨after, results, padding, closed⟩ :=
    (decodes_frames reader.maxFrameSize).recvMany (begun_stream sent) reads split ended
  exact ⟨{ reader with reader := after }, by rw [FrameReader.recvMany_eq, results], padding, closed⟩

/-- What is written is accepted, with its length among the headers. -/
theorem Frame.Writable.accepted (writable : frame.Writable)
    (fits : frame.encode.length ≤ limit.toNat) (clean : frame.NulFree) : Accepted limit frame.encode
    { frame with headers := frame.wireHeaders } := by
  have read := (writable.decode_iff fits []).mpr clean
  rw [List.append_nil] at read
  exact ⟨fits, read⟩

/-- A frame with a colon in a header and a NUL in its body. -/
def greeting : Frame := ⟨"SEND", [("to", "a:b")], [0, 10]⟩

theorem recvMany_greeting :
    ∃ after : FrameReader,
      FrameReader.recvMany 2
          ⟨⟨[10], [greeting.encode.take 7, greeting.encode.drop 7 ++ [13]]⟩, 64⟩ =
        ([.ok (some { greeting with headers := greeting.wireHeaders }), .ok none], after) ∧
      (∀ b ∈ after.reader.stream, heartbeat b = true) ∧ after.reader.chunks = [] := by
  have size : greeting.encode.length = 34 := by decide +kernel
  have writable : greeting.Writable := ⟨by decide, Frame.single_of_all (by decide), by decide⟩
  have clean : greeting.NulFree := by unfold Frame.NulFree; decide
  have accepted : Accepted 64 greeting.encode _ := writable.accepted (by rw [size]; decide) clean
  have sent : Framed (fun b => heartbeat b = true) (Accepted 64) _
    ([10] ++ (greeting.encode ++ [13])) :=
    .next (by decide +kernel) accepted (.done (by decide +kernel))
  obtain ⟨after, results, left, closed⟩ := @recvMany_chunks 64 _ _ sent
    ⟨⟨[10], [greeting.encode.take 7, greeting.encode.drop 7 ++ [13]]⟩, 64⟩ rfl
    (List.forall_mem_cons.mpr ⟨List.ne_nil_of_length_pos (by simp [size]), by simp⟩)
    (by simp [Reader.stream, ← List.append_assoc]) 1
  exact ⟨after, results, left, closed Nat.one_pos⟩

end Stream

end OaGateway.Stomp
