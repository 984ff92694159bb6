import OaGateway.Stomp.Chunks

/-! How a buffer is laid out that a frame is taken from: heartbeats, a header
block through its blank line, a body and a NUL. -/
namespace OaGateway.Stomp

open Lib

/-- A body that the headers count, or that is ended by the first NUL. -/
structure Counted (limit : UInt64) (block body : Bytes) (count : Option Nat) : Prop where
  counts : ∀ length, count = some length →
    length = body.length ∧ length ≤ limit.toNat ∧ block.length + length < 2 ^ 64
  first : count = none → (0 : UInt8) ∉ body

/-- A buffer with a frame at its front, and what its header block says. -/
structure Layout (limit : UInt64) (buffer : Bytes) (pad block body left : Bytes)
    (head : List Char × List (String × String) × Option Nat) : Prop where
  split : buffer = pad ++ (block ++ (body ++ 0 :: left))
  beats : ∀ b ∈ pad, heartbeat b = true
  begun : ∀ b ∈ block.head?, heartbeat b = false
  blank : findHeaderEnd block = some block.length
  small : block.length ≤ limit.toNat
  parsed : parseHead block = .ok head
  cut : Counted limit block body head.2.2

section
variable {limit : UInt64} {buffer block tail left : Bytes} {frame : Frame}
  {head : List Char × List (String × String) × Option Nat}

/-- The blank line that is found ends the bytes up to it. -/
theorem findHeaderEnd_take {stop : Nat} (found : findHeaderEnd buffer = some stop) :
    stop ≤ buffer.length ∧ findHeaderEnd (buffer.take stop) = some stop := by
  induction buffer generalizing stop with
  | nil => cases found
  | cons b tail ih =>
    rw [findHeaderEnd] at found
    split at found
    · rename_i plain
      cases found
      obtain ⟨more, rfl⟩ := List.head?_eq_some_iff.mp plain.2
      refine ⟨by simp, ?_⟩
      simp [findHeaderEnd, plain.1]
    · rename_i other
      split at found
      · rename_i carriage
        cases found
        have long := congrArg List.length carriage.2
        simp only [List.length_take, List.length_cons, List.length_nil] at long
        refine ⟨by simp only [List.length_cons]; omega, ?_⟩
        rw [List.take_succ_cons, carriage.2, carriage.1]
        decide
      · rename_i second
        obtain ⟨before, earlier, rfl⟩ := Option.map_eq_some_iff.mp found
        obtain ⟨bound, again⟩ := ih earlier
        refine ⟨by simpa using bound, ?_⟩
        rw [List.take_succ_cons, findHeaderEnd, again, if_neg, if_neg]
        · rfl
        · rintro ⟨rfl, more⟩
          refine second ⟨rfl, ?_⟩
          have long := congrArg List.length more
          simp only [List.length_take, List.length_cons, List.length_nil] at long
          rwa [List.take_take, min_eq_left (by omega)] at more
        · rintro ⟨rfl, more⟩
          refine other ⟨rfl, ?_⟩
          rw [List.head?_take] at more
          split at more
          · cases more
          · exact more

theorem findIdx?_nul {length : Nat} :
    tail.findIdx? (· == 0) = some length ↔
      ∃ body rest, tail = body ++ 0 :: rest ∧ body.length = length ∧ (0 : UInt8) ∉ body := by
  constructor
  · intro found
    obtain ⟨room, nul, before⟩ := List.findIdx?_eq_some_iff_getElem.mp found
    refine ⟨tail.take length, tail.drop (length + 1), ?_, List.length_take_of_le (by omega),
      fun member => ?_⟩
    · rw [← beq_iff_eq.mp nul, List.getElem_cons_drop, List.take_append_drop]
    · obtain ⟨index, small, same⟩ := List.getElem_of_mem member
      rw [List.length_take_of_le (by omega)] at small
      rw [List.getElem_take] at same
      exact before index small (beq_iff_eq.mpr same)
  · rintro ⟨body, rest, rfl, rfl, absent⟩
    have none : body.findIdx? (· == 0) = none := by
      rw [List.findIdx?_eq_none_iff]
      intro b member
      rw [beq_eq_false_iff_ne]
      rintro rfl
      exact absent member
    rw [List.findIdx?_append, none]
    simp [List.findIdx?_cons]

/-- A body is cut off behind a header block when it is counted and a NUL ends it. -/
theorem cutBody_eq_some :
    cutBody limit (block ++ tail) block.length head = (.ok (some frame), left) ↔
      ∃ body, tail = body ++ 0 :: left ∧ Counted limit block body head.2.2 ∧
        frame = ⟨.ofList head.1, head.2.1, body⟩ := by
  have rest (body : Bytes) : (block ++ (body ++ 0 :: left)).drop (block.length + body.length + 1) =
      left := by
    rw [← List.append_assoc, ← List.length_append, ← List.drop_drop, List.drop_left]
    rfl
  obtain ⟨command, headers, _ | length⟩ := head
  · rw [cutBody, List.drop_left]
    constructor
    · intro cut
      split at cut
      · rename_i length found
        simp only [Prod.mk.injEq, Except.ok.injEq, Option.some.injEq] at cut
        obtain ⟨rfl, rfl⟩ := cut
        obtain ⟨body, more, rfl, rfl, absent⟩ := findIdx?_nul.mp found
        refine ⟨body, ?_, ⟨by simp, fun _ => absent⟩, by simp⟩
        rw [← List.append_assoc, ← List.length_append, ← List.drop_drop, List.drop_left]
        rfl
      · split at cut <;> cases cut
    · rintro ⟨body, rfl, counted, rfl⟩
      rw [findIdx?_nul.mpr ⟨body, left, rfl, rfl, counted.first rfl⟩]
      simp only [rest body, List.take_left]
  · have here (body : Bytes) : (block ++ (body ++ 0 :: left))[block.length + body.length]?
        = some 0 := by
      rw [← List.append_assoc, ← List.length_append]
      simp
    rw [cutBody]
    constructor
    · intro cut
      split at cut
      · cases cut
      rename_i small
      split at cut
      · cases cut
      rename_i bodyEnd sum
      rw [checkedAdd] at sum
      split at sum
      · rename_i bounded
        cases sum
        split at cut
        · cases cut
        rename_i long
        split at cut
        · cases cut
        rename_i nul
        simp only [Prod.mk.injEq, Except.ok.injEq, Option.some.injEq] at cut
        obtain ⟨rfl, rfl⟩ := cut
        have ended := not_not.mp nul
        rw [List.getElem?_append_right (by omega), Nat.add_sub_cancel_left] at ended
        obtain ⟨room, last⟩ := List.getElem?_eq_some_iff.mp ended
        refine ⟨tail.take length, ?_, ⟨?_, by simp⟩, ?_⟩
        · rw [Nat.add_assoc, ← List.drop_drop, List.drop_left, ← last, List.getElem_cons_drop,
            List.take_append_drop]
        · rintro _ ⟨⟩
          exact ⟨(List.length_take_of_le (by omega)).symm, Nat.not_lt.mp small, bounded⟩
        · rw [List.drop_take, List.drop_left, Nat.add_sub_cancel_left]
      · cases sum
    · rintro ⟨body, rfl, counted, rfl⟩
      obtain ⟨rfl, small, bounded⟩ := counted.counts length rfl
      have sum : checkedAdd block.length body.length = some (block.length + body.length) :=
        if_pos bounded
      rw [if_neg (Nat.not_lt.mpr small)]
      simp only [sum]
      rw [if_neg (by simp), if_neg (not_not.mpr (here body)), rest body, List.drop_take,
        List.drop_left, Nat.add_sub_cancel_left, List.take_left]

/-- A frame is taken from a buffer exactly when the buffer is laid out with one
at its front. -/
theorem decode_eq_some :
    decodeOneWithLimit limit buffer = (.ok (some frame), left) ↔
      ∃ pad block body head, Layout limit buffer pad block body left head ∧
        frame = ⟨.ofList head.1, head.2.1, body⟩ := by
  constructor
  · intro decoded
    have parted : buffer = buffer.takeWhile heartbeat ++ buffer.dropWhile heartbeat :=
      (List.takeWhile_append_dropWhile ..).symm
    have beats : ∀ b ∈ buffer.takeWhile heartbeat, heartbeat b = true :=
      fun b => List.mem_takeWhile_imp
    rw [parted, decodeOneWithLimit_pad beats] at decoded
    cases start : buffer.dropWhile heartbeat with
    | nil =>
      rw [start] at decoded
      cases decoded
    | cons b tail =>
      have first : heartbeat b = false := by
        have := List.head?_dropWhile_not heartbeat buffer
        rw [start] at this
        simpa using this
      rw [start, decodeOneWithLimit_started first] at decoded
      split at decoded
      · split at decoded <;> cases decoded
      rename_i stop found
      split at decoded
      · cases decoded
      rename_i small
      split at decoded
      · cases decoded
      rename_i head parsed
      obtain ⟨bound, blank⟩ := findHeaderEnd_take found
      have length : ((b :: tail).take stop).length = stop := List.length_take_of_le bound
      have cut : cutBody limit ((b :: tail).take stop ++ (b :: tail).drop stop)
        ((b :: tail).take stop).length head =
          (.ok (some frame), left) := by rwa [List.take_append_drop, length]
      obtain ⟨body, behind, counted, rfl⟩ := cutBody_eq_some.mp cut
      refine ⟨_, (b :: tail).take stop, body, head, ⟨?_, beats, ?_, ?_, ?_, parsed, counted⟩, rfl⟩
      · rw [← behind, List.take_append_drop, ← start]
        exact parted
      · intro c member
        rw [List.head?_take] at member
        split at member
        · cases member
        · obtain rfl : b = c := by simpa using member
          exact first
      · rw [length]
        exact blank
      · rw [length]
        exact Nat.not_lt.mp small
  · rintro ⟨pad, block, body, head, layout, rfl⟩
    obtain ⟨rfl, beats, begun, blank, small, parsed, cut⟩ := layout
    cases block with
    | nil => cases blank
    | cons b more =>
      have again := findHeaderEnd_append blank (body ++ 0 :: left)
      rw [decodeOneWithLimit_pad beats, List.cons_append, decodeOneWithLimit_started (begun b rfl),
        ← List.cons_append]
      simp only [again.1]
      rw [if_neg (Nat.not_lt.mpr small), List.take_left]
      simp only [parsed]
      exact cutBody_eq_some.mpr ⟨body, rfl, cut, rfl⟩

end

section Limit
variable {limit : UInt64} {buffer pad block body left : Bytes}
  {head : List Char × List (String × String) × Option Nat}

theorem dropWhile_heartbeats {start : Bytes} (beats : ∀ b ∈ pad, heartbeat b = true)
    (begun : ∀ b ∈ start.head?, heartbeat b = false) :
    (pad ++ start).dropWhile heartbeat = start := by
  rw [List.dropWhile_append_of_pos beats]
  cases start with
  | nil => rfl
  | cons b more => exact List.dropWhile_cons_of_neg (by simp [begun b rfl])

theorem Layout.start (layout : Layout limit buffer pad block body left head) :
    buffer.dropWhile heartbeat = block ++ (body ++ 0 :: left) := by
  obtain ⟨rfl, beats, begun, blank, -, -, -⟩ := layout
  refine dropWhile_heartbeats beats ?_
  cases block with
  | nil => cases blank
  | cons b more => exact begun

theorem Layout.headerEnd (layout : Layout limit buffer pad block body left head) :
    findHeaderEnd (buffer.dropWhile heartbeat) = some block.length := by
  rw [layout.start]
  exact (findHeaderEnd_append layout.blank _).1

/-- A frame that is taken has its header block and its body within the limit. -/
def Bounded (limit : UInt64) (buffer : Bytes) : Prop :=
  ∀ frame left stop, decodeOneWithLimit limit buffer = (.ok (some frame), left) →
    findHeaderEnd (buffer.dropWhile heartbeat) = some stop → stop + frame.body.length ≤ limit.toNat

/-- A header block within the limit, with a body that takes both past it: one
that is counted and within the limit by itself, or one that is ended by a NUL. -/
def Straddles (limit : UInt64) (buffer : Bytes) : Prop :=
  ∃ pad block body rest head, buffer = pad ++ (block ++ (body ++ 0 :: rest)) ∧
    (∀ b ∈ pad, heartbeat b = true) ∧ (∀ b ∈ block.head?, heartbeat b = false) ∧
    findHeaderEnd block = some block.length ∧ parseHead block = .ok head ∧
    block.length ≤ limit.toNat ∧ limit.toNat < block.length + body.length ∧
    (head.2.2 = some body.length ∧ body.length ≤ limit.toNat ∧ block.length + body.length < 2 ^ 64 ∨
      head.2.2 = none ∧ (0 : UInt8) ∉ body)

theorem bounded_iff : Bounded limit buffer ↔ ¬ Straddles limit buffer := by
  constructor
  · rintro bounded ⟨pad, block, body, rest, head, split, beats, begun, blank, parsed,
      small, excess, cut⟩
    have counted : Counted limit block body head.2.2 := by
      rcases cut with ⟨count, within, addressed⟩ | ⟨count, absent⟩
      · refine ⟨fun length known => ?_, fun none => ?_⟩
        · cases count.symm.trans known
          exact ⟨rfl, within, addressed⟩
        · cases count.symm.trans none
      · refine ⟨fun length known => ?_, fun _ => absent⟩
        cases count.symm.trans known
    have layout : Layout limit buffer pad block body rest head :=
      ⟨split, beats, begun, blank, small, parsed, counted⟩
    have fits := bounded _ rest block.length (decode_eq_some.mpr ⟨_, _, _, _, layout, rfl⟩)
      layout.headerEnd
    exact absurd fits (Nat.not_le.mpr excess)
  · intro whole frame left stop decoded found
    obtain ⟨pad, block, body, head, layout, rfl⟩ := decode_eq_some.mp decoded
    cases layout.headerEnd.symm.trans found
    by_contra excess
    refine whole ⟨pad, block, body, left, head, layout.split, layout.beats,
      layout.begun, layout.blank, layout.parsed, layout.small, Nat.not_le.mp excess, ?_⟩
    cases count : head.2.2 with
    | none => exact .inr ⟨rfl, layout.cut.first count⟩
    | some length =>
      obtain ⟨rfl, within, addressed⟩ := layout.cut.counts length count
      exact .inl ⟨rfl, within, addressed⟩

/-- `SEND`, a blank line, ten bytes and a NUL, where ten bytes are the limit. -/
def longBuffer : Bytes := utf8 "SEND\n\n0123456789\x00"

/-- The body was there before the limit was looked at. -/
theorem longBuffer_taken :
    decodeOneWithLimit 10 longBuffer = (.ok (some ⟨"SEND", [], utf8 "0123456789"⟩), []) ∧
      ¬ Bounded 10 longBuffer := by
  have decoded : decodeOneWithLimit 10 longBuffer =
    (.ok (some ⟨"SEND", [], utf8 "0123456789"⟩), []) := by rfl
  refine ⟨decoded, fun bounded => ?_⟩
  exact absurd (bounded _ _ 6 decoded rfl) (by decide)

end Limit

section Lengths
variable {limit : UInt64} {buffer pad block body left : Bytes}
  {head : List Char × List (String × String) × Option Nat}

def lengthHeaders (headers : List (String × String)) : List (String × String) :=
  headers.filter fun header => header.1 == contentLength

def countOf (header : String × String) : Option Nat := parseUsize header.2

/-- Headers are added as they are read, and the last length among them counts. -/
theorem readHeaders_spec {lines : List (List Char)} {before headers : List (String × String)}
    {length count : Option Nat} (read : readHeaders lines before length = .ok (headers, count)) :
    ∃ added, headers = before ++ added ∧
      (∀ header ∈ lengthHeaders added, (countOf header).isSome = true) ∧
          count = ((lengthHeaders added).getLast?.elim length countOf) := by
  induction lines generalizing before length with
  | nil =>
    cases read
    exact ⟨[], by simp, by simp [lengthHeaders], rfl⟩
  | cons line rest ih =>
    rw [readHeaders] at read
    split at read
    · exact ih read
    · split at read
      · cases read
      split at read
      · cases read
      rename_i name _
      split at read
      · cases read
      rename_i value _
      split at read
      · rename_i counts
        split at read
        · cases read
        rename_i number parsed
        obtain ⟨added, rfl, each, rfl⟩ := ih read
        refine ⟨(name, value) :: added, by simp, ?_, ?_⟩
        · simpa [lengthHeaders, counts, countOf, parsed] using each
        · have here : lengthHeaders ((name, value) :: added) = (name, value) ::
              lengthHeaders added := by
            simp [lengthHeaders, counts]
          rw [here, List.getLast?_cons]
          cases (lengthHeaders added).getLast? with
          | none => exact parsed.symm
          | some last => rfl
      · rename_i other
        obtain ⟨added, rfl, each, rfl⟩ := ih read
        have same : lengthHeaders ((name, value) :: added) =
          lengthHeaders added := by simp [lengthHeaders, other]
        exact ⟨(name, value) :: added, by simp, by rwa [same], by rw [same]⟩

theorem parseHead_counts (parsed : parseHead block = .ok head) :
    (∀ header ∈ lengthHeaders head.2.1, (countOf header).isSome = true) ∧
      head.2.2 = (lengthHeaders head.2.1).getLast?.bind countOf := by
  rw [parseHead] at parsed
  split at parsed
  · cases parsed
  split at parsed
  · cases parsed
  split at parsed
  · cases parsed
  split at parsed
  · cases parsed
  obtain ⟨⟨headers, count⟩, read, rfl⟩ := map_eq_ok.mp parsed
  obtain ⟨added, rfl, each, rfl⟩ := readHeaders_spec read
  refine ⟨each, ?_⟩
  dsimp only
  cases (lengthHeaders _).getLast? <;> rfl

theorem header_contentLength (frame : Frame) :
    frame.header contentLength = (lengthHeaders frame.headers).head?.map Prod.snd := by
  rw [Frame.header, lengthHeaders, List.head?_filter]

/-- A frame that is taken has the length that a look at its headers says. -/
def CountsAgree (limit : UInt64) (buffer : Bytes) : Prop :=
  ∀ frame left value, decodeOneWithLimit limit buffer = (.ok (some frame), left) →
    frame.header contentLength = some value → parseUsize value = some frame.body.length

/-- The first of the lengths and the last are the same number. -/
def FirstIsLast (headers : List (String × String)) : Prop :=
  (lengthHeaders headers).head?.bind countOf = (lengthHeaders headers).getLast?.bind countOf

/-- The length by which a frame was cut is the one its headers are looked up for,
exactly where the first of several is the last one. -/
theorem countsAgree_iff :
    CountsAgree limit buffer ↔
      ∀ pad block body rest head, Layout limit buffer pad block body rest head →
          FirstIsLast head.2.1 := by
  constructor
  · intro agree pad block body rest head layout
    obtain ⟨each, count⟩ := parseHead_counts layout.parsed
    rw [FirstIsLast, ← count]
    cases first : (lengthHeaders head.2.1).head? with
    | none =>
      rw [List.head?_eq_none_iff] at first
      rw [count, first]
      rfl
    | some header =>
      have listed : lengthHeaders head.2.1 ≠ [] := List.ne_nil_of_mem (List.mem_of_mem_head? first)
      rw [List.getLast?_eq_some_getLast listed, Option.bind_some] at count
      obtain ⟨length, known⟩ := Option.isSome_iff_exists.mp (each _ (List.getLast_mem listed))
      rw [known] at count
      rw [count, (layout.cut.counts length count).1]
      refine agree _ _ header.2 (decode_eq_some.mpr ⟨pad, block, body, head, layout, rfl⟩) ?_
      rw [header_contentLength, first]
      rfl
  · intro alike frame left value decoded found
    obtain ⟨pad, block, body, head, layout, rfl⟩ := decode_eq_some.mp decoded
    obtain ⟨each, count⟩ := parseHead_counts layout.parsed
    have same := alike pad block body left head layout
    rw [header_contentLength] at found
    obtain ⟨header, first, rfl⟩ := Option.map_eq_some_iff.mp found
    rw [FirstIsLast, ← count, first] at same
    obtain ⟨length, parsed⟩ := Option.isSome_iff_exists.mp
      (each header (List.mem_of_mem_head? first))
    have known : head.2.2 = some length := same.symm.trans parsed
    rw [← (layout.cut.counts length known).1]
    exact parsed

/-- Two lengths, the second of which is the body's. -/
def twoLengths : Bytes := utf8 "SEND\ncontent-length:1\ncontent-length:2\n\nab\x00"

theorem twoLengths_disagree :
    decodeOneWithLimit 64 twoLengths =
        (.ok (some ⟨"SEND", [(contentLength, "1"), (contentLength, "2")], utf8 "ab"⟩), []) ∧
      ¬ CountsAgree 64 twoLengths := by
  have decoded : decodeOneWithLimit 64 twoLengths =
      (.ok (some ⟨"SEND", [(contentLength, "1"), (contentLength, "2")], utf8 "ab"⟩), []) := by rfl
  refine ⟨decoded, fun agree => ?_⟩
  exact absurd (agree _ _ "1" decoded rfl) (by decide)

end Lengths

end OaGateway.Stomp
