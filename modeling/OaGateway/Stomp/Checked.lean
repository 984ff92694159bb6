import OaGateway.Stomp.Layout

/-! The decoder with every index, slice and addition of its own spelled out.
Where the code would panic or overflow, the value here is `none`. -/
namespace OaGateway.Stomp

open Lib

/-- `&buf[..stop]`. -/
def sliceTo (buffer : Bytes) (stop : Nat) : Option Bytes :=
  if stop ≤ buffer.length then some (buffer.take stop) else none

/-- `&buf[start..]`. -/
def sliceFrom (buffer : Bytes) (start : Nat) : Option Bytes :=
  if start ≤ buffer.length then some (buffer.drop start) else none

/-- `&buf[start..stop]`. -/
def slice (buffer : Bytes) (start stop : Nat) : Option Bytes :=
  if start ≤ stop ∧ stop ≤ buffer.length then some ((buffer.take stop).drop start) else none

/-- What `buf.drain(..stop)` leaves. -/
def drainTo (buffer : Bytes) (stop : Nat) : Option Bytes :=
  if stop ≤ buffer.length then some (buffer.drop stop) else none

/-- `buf[i] == .. && buf[i + 1] == .. && ..`, from some offset on. -/
def matchesAt (buffer : Bytes) (i : Nat) : Nat → Bytes → Option Bool
  | _, [] => some true
  | offset, b :: rest => do
    let place ← checkedAdd i offset
    let here ← buffer[place]?
    if here = b then matchesAt buffer i (offset + 1) rest else return false

/-- The loop of `find_header_end`, with as many rounds as it is given. -/
def findHeaderEndLoop (buffer : Bytes) : Nat → Nat → Option (Option Nat)
  | 0, _ => none
  | rounds + 1, i => do
    let next ← checkedAdd i 1
    if next < buffer.length then
      if ← matchesAt buffer i 0 [byte '\n', byte '\n'] then
        return some (← checkedAdd i 2)
      let third ← checkedAdd i 3
      if third < buffer.length then
        if ← matchesAt buffer i 0 [byte '\r', byte '\n', byte '\r', byte '\n'] then
          return some (← checkedAdd i 4)
      findHeaderEndLoop buffer rounds next
    else return none

/-- The end of `decode_one_with_limit`: the body is copied and the frame drained. -/
def takeFrame (buffer : Bytes) (command : List Char) (headers : List (String × String))
    (bodyStart bodyEnd frameEnd : Nat) : Option (Except CodecError (Option Frame) × Bytes) := do
  let body ← slice buffer bodyStart bodyEnd
  let left ← drainTo buffer frameEnd
  return (.ok (some ⟨.ofList command, headers, body⟩), left)

/-- Where the body ends, once the headers are known. -/
def checkedBody (limit : UInt64) (buffer : Bytes) (headerEnd : Nat) :
    List Char × List (String × String) × Option Nat →
      Option (Except CodecError (Option Frame) × Bytes)
  | (command, headers, some length) =>
    if length > limit.toNat then some (.error (.frameTooLarge limit), buffer)
    else match checkedAdd headerEnd length with
    | none => some (.error (.frameTooLarge limit), buffer)
    | some bodyEnd =>
      if buffer.length ≤ bodyEnd then some (.ok none, buffer)
      else do
        let last ← buffer[bodyEnd]?
        if last ≠ 0 then return (.error .missingNull, buffer)
        takeFrame buffer command headers headerEnd bodyEnd (← checkedAdd bodyEnd 1)
  | (command, headers, none) => do
    let rest ← sliceFrom buffer headerEnd
    match rest.findIdx? (· == 0) with
    | some length =>
      let bodyEnd ← checkedAdd headerEnd length
      takeFrame buffer command headers headerEnd bodyEnd (← checkedAdd bodyEnd 1)
    | none => return (if buffer.length > limit.toNat then .error (.frameTooLarge limit)
      else .ok none, buffer)

/-- `decode_one_with_limit`, step by step. -/
def checkedDecode (limit : UInt64) (buffer : Bytes) :
    Option (Except CodecError (Option Frame) × Bytes) :=
  match buffer.findIdx? fun b => b != byte '\n' && b != byte '\r' && b != 0 with
  | none => some (.ok none, [])
  | some start => do
    let buffer ← drainTo buffer start
    match ← findHeaderEndLoop buffer (buffer.length + 1) 0 with
    | none => return (if buffer.length > limit.toNat then .error (.frameTooLarge limit)
      else .ok none, buffer)
    | some headerEnd =>
      if headerEnd > limit.toNat then return (.error (.frameTooLarge limit), buffer)
      let headerBytes ← sliceTo buffer headerEnd
      match parseHead headerBytes with
      | .error error => return (.error error, buffer)
      | .ok head => checkedBody limit buffer headerEnd head

section Indices
variable {buffer : Bytes}

theorem checkedAdd_eq {first second : Nat} (small : first + second < 2 ^ 64) :
    checkedAdd first second = some (first + second) := if_pos small

theorem matchesAt_eq (held : buffer.length ≤ isizeMax) {i offset : Nat} {expected : Bytes}
    (room : i + offset + expected.length ≤ buffer.length) :
    matchesAt buffer i offset expected =
      some (decide ((buffer.drop (i + offset)).take expected.length = expected)) := by
  induction expected generalizing offset with
  | nil => simp [matchesAt]
  | cons b rest ih =>
    simp only [List.length_cons] at room
    have bound : i + offset < 2 ^ 64 := by
      simp only [isizeMax] at held
      omega
    have inside : i + offset < buffer.length := by omega
    have later := @ih (offset + 1) (by omega)
    simp only [matchesAt, checkedAdd_eq bound, List.getElem?_eq_getElem inside, Option.bind_eq_bind,
      Option.bind_some, later]
    rw [List.drop_eq_getElem_cons inside, List.length_cons, List.take_succ_cons, Nat.add_assoc]
    by_cases same : buffer[i + offset] = b
    · simp [same]
    · simp [same]

theorem findHeaderEnd_cons (b : UInt8) (rest : Bytes) :
    findHeaderEnd (b :: rest) =
      if (b :: rest).take 2 = [byte '\n', byte '\n'] then some 2
      else if (b :: rest).take 4 = [byte '\r', byte '\n', byte '\r', byte '\n'] then some 4
      else (findHeaderEnd rest).map (· + 1) := by
  have plain : (b = byte '\n' ∧ rest.head? = some (byte '\n')) ↔
      (b :: rest).take 2 = [byte '\n', byte '\n'] := by
    cases rest <;> simp
  have carriage : (b = byte '\r' ∧ rest.take 3 = [byte '\n', byte '\r', byte '\n']) ↔
      (b :: rest).take 4 = [byte '\r', byte '\n', byte '\r', byte '\n'] := by simp
  rw [findHeaderEnd]
  simp only [plain, carriage]

/-- The loop finds what is left to find from its index on. -/
theorem findHeaderEndLoop_eq (held : buffer.length ≤ isizeMax) {rounds i : Nat}
    (enough : buffer.length < i + rounds) (inside : i ≤ buffer.length) :
    findHeaderEndLoop buffer rounds i = some ((findHeaderEnd (buffer.drop i)).map (· + i)) := by
  induction rounds generalizing i with
  | zero => omega
  | succ rounds ih =>
    have bound : buffer.length < 2 ^ 63 := by
      simp only [isizeMax] at held
      omega
    have sum {step : Nat} (small : step ≤ 4) : checkedAdd i step = some (i + step) :=
      checkedAdd_eq (by omega)
    simp only [findHeaderEndLoop, sum (show 1 ≤ 4 by decide), sum (show 2 ≤ 4 by decide),
      sum (show 3 ≤ 4 by decide), sum (show 4 ≤ 4 by decide), Option.bind_eq_bind, Option.bind_some,
        Option.pure_def]
    by_cases more : i + 1 < buffer.length
    · have split : buffer.drop i = buffer[i] :: buffer.drop (i + 1) :=
        List.drop_eq_getElem_cons (by omega)
      have two := @matchesAt_eq buffer held i 0 [byte '\n', byte '\n'] (by simp; omega)
      simp only [Nat.add_zero, List.length_cons, List.length_nil,
        Nat.zero_add, Nat.reduceAdd] at two
      have later := ih (by omega) (show i + 1 ≤ buffer.length by omega)
      rw [if_pos more, two, split, findHeaderEnd_cons, ← split]
      simp only [Option.bind_some, decide_eq_true_eq]
      by_cases plain : (buffer.drop i).take 2 = [byte '\n', byte '\n']
      · simp [plain, Nat.add_comm]
      · rw [if_neg plain, if_neg plain, later]
        have onward : (findHeaderEnd (buffer.drop (i + 1))).map (· + (i + 1)) =
            ((findHeaderEnd (buffer.drop (i + 1))).map (· + 1)).map (· + i) := by
          rw [Option.map_map]
          congr 1
          funext stop
          simp only [Function.comp_apply]
          omega
        by_cases far : i + 3 < buffer.length
        · have four := @matchesAt_eq buffer held i 0 [byte '\r', byte '\n', byte '\r', byte '\n']
            (by simp; omega)
          simp only [Nat.add_zero, List.length_cons, List.length_nil,
            Nat.zero_add, Nat.reduceAdd] at four
          rw [if_pos far, four]
          simp only [Option.bind_some, decide_eq_true_eq]
          by_cases carriage : (buffer.drop i).take 4 = [byte '\r', byte '\n', byte '\r', byte '\n']
          · simp [carriage, Nat.add_comm]
          · rw [if_neg carriage, if_neg carriage, onward]
        · have short : (buffer.drop i).take 4 ≠ [byte '\r', byte '\n', byte '\r', byte '\n'] := by
            intro same
            have long := congrArg List.length same
            simp only [List.length_take, List.length_drop, List.length_cons,
              List.length_nil] at long
            omega
          rw [if_neg far, if_neg short, onward]
    · have last : (buffer.drop i).length ≤ 1 := by
        rw [List.length_drop]
        omega
      have nothing : findHeaderEnd (buffer.drop i) = none := by
        cases here : buffer.drop i with
        | nil => rfl
        | cons b tail =>
          rw [here, List.length_cons] at last
          obtain rfl := List.length_eq_zero_iff.mp (Nat.le_zero.mp (Nat.le_of_succ_le_succ last))
          simp [findHeaderEnd]
      rw [if_neg more, nothing]
      rfl

end Indices

section Safety
variable {limit : UInt64} {buffer : Bytes}

theorem takeFrame_eq {command : List Char} {headers : List (String × String)}
    {bodyStart bodyEnd : Nat} (ordered : bodyStart ≤ bodyEnd) (room : bodyEnd < buffer.length) :
    takeFrame buffer command headers bodyStart bodyEnd (bodyEnd + 1) =
      some (.ok (some ⟨.ofList command, headers, (buffer.take bodyEnd).drop bodyStart⟩),
          buffer.drop (bodyEnd + 1)) := by
  have body : slice buffer bodyStart bodyEnd = some ((buffer.take bodyEnd).drop bodyStart) :=
    if_pos ⟨ordered, Nat.le_of_lt room⟩
  have left : drainTo buffer (bodyEnd + 1) = some (buffer.drop (bodyEnd + 1)) := if_pos room
  simp only [takeFrame, body, left]
  rfl

theorem checkedBody_eq (held : buffer.length ≤ isizeMax) {headerEnd : Nat}
    (reached : headerEnd ≤ buffer.length) (head : List Char × List (String × String) × Option Nat) :
    checkedBody limit buffer headerEnd head = some (cutBody limit buffer headerEnd head) := by
  have bound : buffer.length < 2 ^ 63 := by
    simp only [isizeMax] at held
    omega
  obtain ⟨command, headers, _ | length⟩ := head
  · have rest : sliceFrom buffer headerEnd = some (buffer.drop headerEnd) := if_pos reached
    simp only [checkedBody, cutBody, rest, Option.bind_eq_bind, Option.bind_some]
    cases found : (buffer.drop headerEnd).findIdx? (· == 0) with
    | none => rfl
    | some length =>
      have room := (List.findIdx?_eq_some_iff_getElem.mp found).1
      rw [List.length_drop] at room
      have stop : checkedAdd headerEnd length = some (headerEnd + length) :=
        checkedAdd_eq (by omega)
      have ended : checkedAdd (headerEnd + length) 1 = some (headerEnd + length + 1) :=
        checkedAdd_eq (by omega)
      simp only [stop, ended, Option.bind_some]
      rw [takeFrame_eq (by omega) (by omega), List.drop_take, Nat.add_sub_cancel_left]
  · rw [checkedBody, cutBody]
    split
    · rfl
    · cases sum : checkedAdd headerEnd length with
      | none => rfl
      | some bodyEnd =>
        obtain rfl : headerEnd + length = bodyEnd := by
          rw [checkedAdd] at sum
          split at sum
          · exact Option.some.inj sum
          · cases sum
        dsimp only
        split
        · rfl
        · rename_i long
          have inside : headerEnd + length < buffer.length := Nat.not_le.mp long
          have ended : checkedAdd (headerEnd + length) 1 = some (headerEnd + length + 1) :=
            checkedAdd_eq (by omega)
          simp only [List.getElem?_eq_getElem inside, ended, Option.bind_eq_bind,
            Option.bind_some, ne_eq, Option.some.injEq]
          split
          · rfl
          · exact takeFrame_eq (by omega) inside

theorem not_heartbeat (b : UInt8) : (b != byte '\n' && b != byte '\r' && b != 0) =
    !heartbeat b := by
  simp [heartbeat, bne, Bool.and_assoc]

/-- No index is out of range and no sum overflows. -/
theorem checkedDecode_eq (held : buffer.length ≤ isizeMax) :
    checkedDecode limit buffer = some (decodeOneWithLimit limit buffer) := by
  simp only [checkedDecode, not_heartbeat]
  cases found : buffer.findIdx? fun b => !heartbeat b with
  | none =>
    have beats : ∀ b ∈ buffer, heartbeat b = true := by simpa using found
    rw [decodeOneWithLimit_heartbeats beats]
  | some start =>
    obtain ⟨room, first, before⟩ := List.findIdx?_eq_some_iff_getElem.mp found
    have beats : ∀ b ∈ buffer.take start, heartbeat b = true := by
      intro b member
      obtain ⟨index, small, rfl⟩ := List.getElem_of_mem member
      rw [List.length_take_of_le (by omega)] at small
      simpa using before index small
    have split : buffer.drop start = buffer[start] :: buffer.drop (start + 1) :=
      List.drop_eq_getElem_cons room
    have drained : drainTo buffer start = some (buffer.drop start) := if_pos (by omega)
    have shorter : (buffer.drop start).length ≤ isizeMax := by
      rw [List.length_drop]
      omega
    have loop := @findHeaderEndLoop_eq (buffer.drop start) shorter
      ((buffer.drop start).length + 1) 0 (by omega)
      (by omega)
    have same : decodeOneWithLimit limit buffer = decodeOneWithLimit limit (buffer.drop start) := by
      conv => lhs; rw [← List.take_append_drop start buffer]
      exact decodeOneWithLimit_pad beats _
    have begun : heartbeat buffer[start] = false := by simpa using first
    rw [same, split, decodeOneWithLimit_started begun, ← split]
    simp only [drained, Option.bind_eq_bind, Option.bind_some, loop, List.drop_zero, Nat.add_zero,
      Option.map_id']
    cases blank : findHeaderEnd (buffer.drop start) with
    | none => rfl
    | some headerEnd =>
      have reached := (findHeaderEnd_take blank).1
      have block : sliceTo (buffer.drop start) headerEnd =
        some ((buffer.drop start).take headerEnd) := if_pos reached
      simp only [block, Option.bind_some]
      split
      · rfl
      · cases parseHead ((buffer.drop start).take headerEnd) with
        | error error => rfl
        | ok head => exact checkedBody_eq shorter reached head

/-- What is not a frame leaves the buffer behind a header block as it is. -/
theorem cutBody_kept {headerEnd : Nat} {head : List Char × List (String × String) × Option Nat}
    {result : Except CodecError (Option Frame)} {left : Bytes}
    (cut : cutBody limit buffer headerEnd head = (result, left))
    (none : ∀ frame, result ≠ .ok (some frame)) :
    left = buffer := by
  obtain ⟨command, headers, _ | length⟩ := head
  · rw [cutBody] at cut
    split at cut
    · exact absurd (congrArg Prod.fst cut).symm (none _)
    · exact (congrArg Prod.snd cut).symm
  · rw [cutBody] at cut
    split at cut
    · exact (congrArg Prod.snd cut).symm
    · split at cut
      · exact (congrArg Prod.snd cut).symm
      · split at cut
        · exact (congrArg Prod.snd cut).symm
        · split at cut
          · exact (congrArg Prod.snd cut).symm
          · exact absurd (congrArg Prod.fst cut).symm (none _)

/-- Without a frame only the heartbeats in front are gone. -/
theorem decode_kept {result : Except CodecError (Option Frame)} {left : Bytes}
    (decoded : decodeOneWithLimit limit buffer = (result, left))
    (none : ∀ frame, result ≠ .ok (some frame)) :
    left = buffer.dropWhile heartbeat := by
  have beats : ∀ b ∈ buffer.takeWhile heartbeat, heartbeat b = true :=
    fun b => List.mem_takeWhile_imp
  rw [← @List.takeWhile_append_dropWhile _ heartbeat buffer,
    decodeOneWithLimit_pad beats] at decoded
  cases start : buffer.dropWhile heartbeat with
  | nil =>
    rw [start] at decoded
    exact (congrArg Prod.snd decoded).symm
  | cons b tail =>
    have first : heartbeat b = false := by
      have := List.head?_dropWhile_not heartbeat buffer
      rw [start] at this
      simpa using this
    rw [start, decodeOneWithLimit_started first] at decoded
    split at decoded
    · exact (congrArg Prod.snd decoded).symm
    · split at decoded
      · exact (congrArg Prod.snd decoded).symm
      · split at decoded
        · exact (congrArg Prod.snd decoded).symm
        · exact cutBody_kept decoded none

/-- Decoding is safe on any bytes, and makes progress. A frame that is taken is
cut off the front with the heartbeats before it and the NUL behind it; otherwise
only heartbeats go. -/
theorem decode_safe (held : buffer.length ≤ isizeMax) :
    checkedDecode limit buffer = some (decodeOneWithLimit limit buffer) ∧
      (∀ frame left, decodeOneWithLimit limit buffer = (.ok (some frame), left) →
        left <:+ buffer ∧ left.length < buffer.length ∧
          ∃ pad block body head, Layout limit buffer pad block body left head ∧
            frame = ⟨.ofList head.1, head.2.1, body⟩) ∧
      ∀ result left, decodeOneWithLimit limit buffer = (result, left) →
        (result = .ok none ∨ ∃ error, result = .error error) →
            left = buffer.dropWhile heartbeat := by
  refine ⟨checkedDecode_eq held, fun frame left decoded => ?_, fun result left decoded failed => ?_⟩
  · obtain ⟨pad, block, body, head, layout, rfl⟩ := decode_eq_some.mp decoded
    refine ⟨⟨pad ++ (block ++ (body ++ [0])), ?_⟩, ?_, pad, block, body, head, layout, rfl⟩
    · rw [layout.split]
      simp
    · rw [layout.split]
      simp only [List.length_append, List.length_cons]
      omega
  · refine decode_kept decoded fun frame taken => ?_
    rcases failed with waits | ⟨error, refused⟩
    · cases waits.symm.trans taken
    · cases refused.symm.trans taken

theorem decode_safe_twoLengths :
    checkedDecode 64 twoLengths =
      some (.ok (some ⟨"SEND", [(contentLength, "1"), (contentLength, "2")], utf8 "ab"⟩), []) :=
  (@decode_safe 64 twoLengths (by decide +kernel)).1

end Safety

end OaGateway.Stomp
