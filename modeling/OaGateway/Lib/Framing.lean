import Mathlib.Data.List.Basic

/-! Units cut from a stream that arrives in pieces. A decoder sees only what has
arrived; where it waits on every part of a unit and ignores the padding around
units, the pieces do not matter. -/
namespace OaGateway.Lib.Framing

variable {α ε φ : Type}

/-- What a decoder makes of a buffer, and what it leaves there. -/
abbrev Decoder (α ε φ : Type) := List α → Except ε (Option φ) × List α

/-- A buffer, and the pieces that have not been read yet. -/
structure Reader (α : Type) where
  buffer : List α
  chunks : List (List α)
deriving DecidableEq

def Reader.stream (reader : Reader α) : List α := reader.buffer ++ reader.chunks.flatten

/-- Decode, and read on as long as there is no whole unit. A read of nothing is
the end of the stream. -/
def recvLoop (decode : Decoder α ε φ) (buffer : List α) : List (List α) →
    Except ε (Option φ) × Reader α
  | [] => ((decode buffer).1, ⟨(decode buffer).2, []⟩)
  | chunk :: chunks =>
    match decode buffer with
    | (.ok none, kept) => if chunk = [] then (.ok none, ⟨kept, chunks⟩)
      else recvLoop decode (kept ++ chunk) chunks
    | (result, kept) => (result, ⟨kept, chunk :: chunks⟩)

def Reader.recv (decode : Decoder α ε φ) (reader : Reader α) : Except ε (Option φ) × Reader α :=
  recvLoop decode reader.buffer reader.chunks

def Reader.recvMany (decode : Decoder α ε φ) : Nat → Reader α →
    List (Except ε (Option φ)) × Reader α
  | 0, reader => ([], reader)
  | count + 1, reader =>
    let (result, after) := reader.recv decode
    let (results, last) := after.recvMany decode count
    (result :: results, last)

/-- A decoder that gives a unit once it is whole, and waits before. -/
structure Decodes (decode : Decoder α ε φ) (Padding : α → Prop)
    (Whole : List α → φ → Prop) : Prop where
  padding : ∀ pad, (∀ a ∈ pad, Padding a) → ∃ kept, (∀ a ∈ kept, Padding a) ∧
    decode pad = (.ok none, kept)
  whole : ∀ pad unit value rest, (∀ a ∈ pad, Padding a) → Whole unit value →
    decode (pad ++ (unit ++ rest)) = (.ok (some value), rest)
  part : ∀ pad front back value, (∀ a ∈ pad, Padding a) → Whole (front ++ back) value → back ≠ [] →
    ∃ kept, (∀ a ∈ kept, Padding a) ∧ decode (pad ++ front) = (.ok none, kept ++ front)

/-- A stream of units with padding around them. -/
inductive Framed (Padding : α → Prop) (Whole : List α → φ → Prop) : List φ → List α → Prop where
  | done (pad : ∀ a ∈ items, Padding a) : Framed Padding Whole [] items
  | next (pad : ∀ a ∈ front, Padding a) (unit : Whole items value)
      (later : Framed Padding Whole values rest) :
      Framed Padding Whole (value :: values) (front ++ (items ++ rest))

section Reading
variable {decode : Decoder α ε φ} {Padding : α → Prop} {Whole : List α → φ → Prop}

theorem recvLoop_waits {buffer kept chunk : List α} (decoded : decode buffer = (.ok none, kept))
    (more : chunk ≠ []) (chunks : List (List α)) : recvLoop decode buffer
    (chunk :: chunks) = recvLoop decode (kept ++ chunk) chunks := by
  rw [recvLoop, decoded]
  exact if_neg more

theorem recvLoop_gives {buffer kept : List α} {value : φ}
    (decoded : decode buffer = (.ok (some value), kept)) (chunks : List (List α)) :
    recvLoop decode buffer chunks = (.ok (some value), ⟨kept, chunks⟩) := by
  cases chunks with
  | nil => rw [recvLoop, decoded]
  | cons => rw [recvLoop, decoded]

theorem Decodes.recv_done (decodes : Decodes decode Padding Whole) {reader : Reader α}
    (alive : ∀ chunk ∈ reader.chunks, chunk ≠ []) (pad : ∀ a ∈ reader.stream, Padding a) :
    ∃ kept, reader.recv decode = (.ok none, ⟨kept, []⟩) ∧ ∀ a ∈ kept, Padding a := by
  obtain ⟨buffer, chunks⟩ := reader
  simp only [Reader.recv]
  induction chunks generalizing buffer with
  | nil =>
    obtain ⟨kept, clean, decoded⟩ := decodes.padding buffer fun a member =>
      pad a (List.mem_append_left _ member)
    exact ⟨kept, by rw [recvLoop, decoded], clean⟩
  | cons chunk chunks ih =>
    obtain ⟨here, later⟩ := List.forall_mem_cons.mp alive
    obtain ⟨kept, clean, decoded⟩ := decodes.padding buffer fun a member =>
      pad a (List.mem_append_left _ member)
    rw [recvLoop_waits decoded here]
    refine ih _ later ?_
    intro a member
    rw [Reader.stream, List.append_assoc] at member
    rcases List.mem_append.mp member with early | late
    · exact clean a early
    · exact pad a (List.mem_append_right _ (by simpa using late))

/-- A buffer in front of a unit holds all of it, or waits for the rest. -/
theorem Decodes.arrived (decodes : Decodes decode Padding Whole)
    {pad items rest buffer later : List α} {value : φ} (clean : ∀ a ∈ pad, Padding a)
    (unit : Whole items value) (split : buffer ++ later = pad ++ (items ++ rest)) :
    (∃ kept, decode buffer = (.ok (some value), kept) ∧ kept ++ later = rest) ∨
      ∃ kept pad', decode buffer = (.ok none, kept) ∧ (∀ a ∈ pad', Padding a) ∧
        kept ++ later = pad' ++ (items ++ rest) ∧ later ≠ [] := by
  rcases List.append_eq_append_iff.mp split with ⟨missing, rfl, rfl⟩ | ⟨front, rfl, remaining⟩
  · -- nothing of the unit has arrived
    obtain ⟨kept, padding, decoded⟩ :=
      decodes.padding buffer fun a member => clean a (List.mem_append_left _ member)
    refine .inr ⟨kept, kept ++ missing, decoded, ?_, by simp, fun empty => ?_⟩
    · intro a member
      rcases List.mem_append.mp member with early | late
      · exact padding a early
      · exact clean a (List.mem_append_right _ late)
    · obtain ⟨rfl, bare⟩ := List.append_eq_nil_iff.mp empty
      obtain ⟨rfl, rfl⟩ := List.append_eq_nil_iff.mp bare
      have found := decodes.whole buffer [] value [] (by simpa using clean) unit
      rw [List.append_nil, List.append_nil, decoded] at found
      cases found
  · rcases List.append_eq_append_iff.mp remaining with ⟨back, rfl, rfl⟩ | ⟨more, rfl, rfl⟩
    · exact .inl ⟨back, decodes.whole pad items value back clean unit, rfl⟩
    · by_cases complete : more = []
      · subst complete
        have found := decodes.whole pad front value [] clean (by simpa using unit)
        exact .inl ⟨[], by simpa using found, by simp⟩
      · obtain ⟨kept, padding, decoded⟩ := decodes.part pad front more value clean unit complete
        exact .inr ⟨kept ++ front, kept, decoded, padding, by simp, by simp [complete]⟩

/-- The next read gives the next unit, however it arrives. -/
theorem Decodes.recv_next (decodes : Decodes decode Padding Whole)
    {pad items rest : List α} {value : φ} (clean : ∀ a ∈ pad, Padding a) (unit : Whole items value)
    {reader : Reader α} (alive : ∀ chunk ∈ reader.chunks, chunk ≠ [])
    (stream : reader.stream = pad ++ (items ++ rest)) :
    ∃ after : Reader α, reader.recv decode = (.ok (some value), after) ∧
      (∀ chunk ∈ after.chunks, chunk ≠ []) ∧ after.stream = rest := by
  obtain ⟨buffer, chunks⟩ := reader
  simp only [Reader.recv]
  induction chunks generalizing buffer pad with
  | nil =>
    rcases decodes.arrived clean unit stream with ⟨kept, decoded, left⟩ | ⟨_, _, _, _, _, more⟩
    · exact ⟨⟨kept, []⟩, recvLoop_gives decoded [], alive, left⟩
    · exact absurd rfl more
  | cons chunk chunks ih =>
    rcases decodes.arrived clean unit stream with ⟨kept, decoded, left⟩ | ⟨kept, pad', decoded,
      padding, left, _⟩
    · exact ⟨⟨kept, chunk :: chunks⟩, recvLoop_gives decoded _, alive, left⟩
    · obtain ⟨here, later⟩ := List.forall_mem_cons.mp alive
      rw [recvLoop_waits decoded here]
      refine ih padding _ later ?_
      rw [← left, Reader.stream]
      simp

theorem Decodes.recvMany_done (decodes : Decodes decode Padding Whole) {reader : Reader α}
    (alive : ∀ chunk ∈ reader.chunks, chunk ≠ []) (pad : ∀ a ∈ reader.stream, Padding a)
    (ended : Nat) :
    ∃ after : Reader α, reader.recvMany decode ended = (List.replicate ended (.ok none), after) ∧
      (∀ a ∈ after.stream, Padding a) ∧ (0 < ended ∨ reader.chunks = [] → after.chunks = []) := by
  induction ended generalizing reader with
  | zero => exact ⟨reader, rfl, pad, fun closed => closed.resolve_left (Nat.lt_irrefl 0)⟩
  | succ ended ih =>
    obtain ⟨kept, received, clean⟩ := decodes.recv_done alive pad
    obtain ⟨last, results, padding, closed⟩ :=
      @ih ⟨kept, []⟩ nofun (by simpa [Reader.stream] using clean)
    refine ⟨last, ?_, padding, fun _ => closed (.inr rfl)⟩
    rw [Reader.recvMany, received]
    simp only [results]
    rfl

/-- Every chunking gives the units of the stream in order, and then its end. -/
theorem Decodes.recvMany (decodes : Decodes decode Padding Whole) {values : List φ} {items : List α}
    (stream : Framed Padding Whole values items) {reader : Reader α}
    (alive : ∀ chunk ∈ reader.chunks, chunk ≠ []) (same : reader.stream = items) (ended : Nat) :
    ∃ after : Reader α, reader.recvMany decode (values.length + ended) =
        (values.map (.ok ∘ some) ++ List.replicate ended (.ok none), after) ∧
      (∀ a ∈ after.stream, Padding a) ∧ (0 < ended → after.chunks = []) := by
  induction stream generalizing reader with
  | done pad =>
    subst same
    obtain ⟨after, results, padding, closed⟩ := decodes.recvMany_done alive pad ended
    exact ⟨after, by simpa using results, padding, fun some_read => closed (.inl some_read)⟩
  | @next front items value values rest pad unit later ih =>
    obtain ⟨after, received, still, left⟩ := decodes.recv_next pad unit alive same
    obtain ⟨last, results, padding⟩ := ih still left
    refine ⟨last, ?_, padding⟩
    rw [List.length_cons, Nat.add_right_comm, Reader.recvMany, received]
    simp only [results]
    rfl

/-- A decoder on what has arrived of a stream gives its next unit, or waits for
more as long as there is one. -/
theorem Decodes.advance (decodes : Decodes decode Padding Whole) {values : List φ}
    {buffer later : List α} (stream : Framed Padding Whole values (buffer ++ later)) :
    (∃ value rest kept, values = value :: rest ∧ decode buffer = (.ok (some value), kept) ∧
        Framed Padding Whole rest (kept ++ later)) ∨
      ∃ kept, decode buffer = (.ok none, kept) ∧ Framed Padding Whole values (kept ++ later) ∧
        (later = [] → values = []) := by
  generalize items : buffer ++ later = arrived at stream
  cases stream with
  | done pad =>
    subst items
    obtain ⟨kept, clean, decoded⟩ := decodes.padding buffer fun a member =>
      pad a (List.mem_append_left _ member)
    refine .inr ⟨kept, decoded, .done fun a member => ?_, fun _ => rfl⟩
    rcases List.mem_append.mp member with early | late
    · exact clean a early
    · exact pad a (List.mem_append_right _ late)
  | next pad unit rest =>
    rcases decodes.arrived pad unit items with ⟨kept, decoded, left⟩ | ⟨kept, pad', decoded,
      clean, left, more⟩
    · exact .inl ⟨_, _, kept, rfl, decoded, left ▸ rest⟩
    · exact .inr ⟨kept, decoded, left ▸ .next clean unit rest, fun none => absurd none more⟩

end Reading

end OaGateway.Lib.Framing
