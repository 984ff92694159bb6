import Mathlib.Data.List.Basic

/-! Bounded queues with one reader, whose senders wait in line for a place. A
place that comes free belongs at once to the sender that has waited longest,
which fills it when it next runs. -/
namespace OaGateway.Lib
universe u v

/-- The messages in the queue, those whose sender holds a place for them, and
those whose sender waits. Nobody waits while a place is free. -/
structure Mailbox (capacity : Nat) (Sender : Type u) (Message : Type v) where
  queue : List Message
  granted : List (Sender × Message)
  waiting : List (Sender × Message)
  bounded : queue.length + granted.length ≤ capacity
  busy : waiting ≠ [] → queue.length + granted.length = capacity

namespace Mailbox
variable {capacity : Nat} {Sender : Type u} {Message : Type v}

def empty : Mailbox capacity Sender Message :=
  ⟨[], [], [], Nat.zero_le capacity, fun waits => absurd rfl waits⟩

def occupied (box : Mailbox capacity Sender Message) : Nat := box.queue.length + box.granted.length

/-- Queue a message, or wait in line for a place. -/
def send (box : Mailbox capacity Sender Message) (sender : Sender) (message : Message) :
    Mailbox capacity Sender Message :=
  if room : box.occupied < capacity then
    { box with
      queue := box.queue ++ [message]
      bounded := by
        rw [occupied] at room
        rw [List.length_append, List.length_singleton]
        omega
      busy := fun waits => absurd (box.busy waits) (Nat.ne_of_lt room) }
  else
    { box with
      waiting := box.waiting ++ [(sender, message)]
      busy := fun _ => Nat.le_antisymm box.bounded (Nat.le_of_not_lt room) }

/-- What is left once a place has come free: the first in line takes it. -/
private def release (queue : List Message) (granted waiting : List (Sender × Message))
    (bounded : queue.length + granted.length < capacity)
    (busy : waiting ≠ [] → queue.length + granted.length + 1 = capacity) :
    Mailbox capacity Sender Message :=
  match waiting with
  | [] => ⟨queue, granted, [], Nat.le_of_lt bounded, fun waits => absurd rfl waits⟩
  | first :: rest =>
    have full : queue.length + (granted ++ [first]).length = capacity := by
      rw [List.length_append, List.length_singleton]
      exact busy (by simp)
    ⟨queue, granted ++ [first], rest, Nat.le_of_eq full, fun _ => full⟩

/-- The reader takes the oldest message. -/
def receive (box : Mailbox capacity Sender Message) :
    Option (Message × Mailbox capacity Sender Message) :=
  match same : box.queue with
  | [] => none
  | message :: rest =>
    have length : box.queue.length = rest.length + 1 := by rw [same, List.length_cons]
    some (message, release rest box.granted box.waiting
      (by have := box.bounded; omega) (fun waits => by have := box.busy waits; omega))

variable [DecidableEq Sender]

private theorem length_erase_granted {granted : List (Sender × Message)} {sender : Sender}
    {entry : Sender × Message} (held : (granted.find? fun entry => entry.1 = sender) = some entry) :
    (granted.eraseP fun entry => entry.1 = sender).length + 1 = granted.length := by
  have present := List.mem_of_find?_eq_some held
  have matched : decide (entry.1 = sender) = true := by simpa using List.find?_some held
  rw [List.length_eraseP_of_mem present matched]
  have := List.length_pos_of_mem present
  omega

/-- A sender that holds a place fills it. -/
def settle (box : Mailbox capacity Sender Message) (sender : Sender) :
    Option (Mailbox capacity Sender Message) :=
  match held : box.granted.find? fun entry => entry.1 = sender with
  | none => none
  | some entry =>
    have shorter := length_erase_granted held
    have length : (box.queue ++ [entry.2]).length +
        (box.granted.eraseP fun entry => entry.1 = sender).length =
          box.queue.length + box.granted.length := by
      rw [List.length_append, List.length_singleton]
      omega
    some
      { box with
        queue := box.queue ++ [entry.2]
        granted := box.granted.eraseP fun entry => entry.1 = sender
        bounded := Nat.le_trans (Nat.le_of_eq length) box.bounded
        busy := fun waits => length.trans (box.busy waits) }

/-- A sender gives up: it leaves the line, or the place it holds. -/
def cancel (box : Mailbox capacity Sender Message) (sender : Sender) :
    Mailbox capacity Sender Message :=
  let kept := box.granted.eraseP fun entry => entry.1 = sender
  let line := box.waiting.eraseP fun entry => entry.1 = sender
  have inLine : line ≠ [] → box.waiting ≠ [] := by
    intro waits same
    exact waits (by simp [line, same])
  have held : box.granted.length - 1 ≤ kept.length := List.le_length_eraseP
  if free : kept.length < box.granted.length then
    release box.queue kept line
      (by have := box.bounded; omega)
      (fun waits => by have := box.busy (inLine waits); omega)
  else { box with waiting := line, busy := fun waits => box.busy (inLine waits) }

end Mailbox

namespace Mailbox
variable {capacity : Nat} {Sender : Type u} {Message : Type v}
  {box after : Mailbox capacity Sender Message}
  {sender : Sender} {message : Message}

theorem occupied_le (box : Mailbox capacity Sender Message) : box.occupied ≤ capacity := box.bounded

theorem occupied_eq_of_mem (member : entry ∈ box.waiting) : box.occupied = capacity :=
  box.busy (List.ne_nil_of_mem member)

theorem queue_send (room : box.occupied < capacity) :
    (box.send sender message).queue = box.queue ++ [message] := by
  rw [send, dif_pos room]

theorem granted_send : (box.send sender message).granted = box.granted := by
  rw [send]
  split <;> rfl

theorem occupied_send (room : box.occupied < capacity) :
    (box.send sender message).occupied = box.occupied + 1 := by
  rw [occupied, queue_send room, granted_send, List.length_append, List.length_singleton, occupied]
  omega

theorem occupied_le_send : box.occupied ≤ (box.send sender message).occupied := by
  by_cases room : box.occupied < capacity
  · rw [occupied_send room]
    exact Nat.le_succ _
  · rw [send, dif_neg room]
    exact Nat.le_refl _

theorem mem_waiting_send (full : ¬ box.occupied < capacity) :
    (sender, message) ∈ (box.send sender message).waiting := by
  rw [send, dif_neg full]
  simp

/-- Every message in the queue or on its way there. -/
def contents (box : Mailbox capacity Sender Message) : List Message :=
  box.queue ++ (box.granted ++ box.waiting).map Prod.snd

theorem mem_contents_send {other : Message} (member : other ∈ (box.send sender message).contents) :
    other = message ∨ other ∈ box.contents := by
  rw [send] at member
  split at member
  · simp only [contents, List.mem_append, List.mem_singleton] at member ⊢
    tauto
  · simp only [contents, List.mem_append, List.map_append, List.map_cons, List.map_nil,
      List.mem_singleton] at member ⊢
    tauto

private theorem mem_contents_release {queue : List Message}
    {granted waiting : List (Sender × Message)} {bounded : queue.length + granted.length < capacity}
    {busy : waiting ≠ [] → queue.length + granted.length + 1 = capacity} {other : Message}
    (member : other ∈ (release queue granted waiting bounded busy).contents) :
    other ∈ queue ++ (granted ++ waiting).map Prod.snd := by
  cases waiting with
  | nil => exact member
  | cons first rest => simpa [release, contents] using member

theorem mem_contents_receive (taken : box.receive = some (message, after)) :
    message ∈ box.queue ∧ ∀ other ∈ after.contents, other ∈ box.contents := by
  rw [receive] at taken
  split at taken
  · cases taken
  · rename_i first rest same
    simp only [Option.some.injEq, Prod.mk.injEq] at taken
    obtain ⟨rfl, rfl⟩ := taken
    refine ⟨by simp [same], fun other member => ?_⟩
    have kept := mem_contents_release member
    rw [contents, same]
    exact List.mem_cons_of_mem _ kept

private theorem line_release {queue : List Message} {granted waiting : List (Sender × Message)}
    (bounded : queue.length + granted.length < capacity)
    (busy : waiting ≠ [] → queue.length + granted.length + 1 = capacity) :
    (release queue granted waiting bounded busy).queue = queue ∧
      (release queue granted waiting bounded busy).granted ++
        (release queue granted waiting bounded busy).waiting =
        granted ++ waiting := by
  cases waiting with
  | nil => exact ⟨rfl, rfl⟩
  | cons first rest => exact ⟨rfl, List.append_assoc granted [first] rest⟩

/-- The reader takes the head of the queue, and the line keeps its order. -/
theorem line_receive (taken : box.receive = some (message, after)) :
    box.queue = message :: after.queue ∧ after.granted ++ after.waiting = box.granted ++
      box.waiting := by
  rw [receive] at taken
  split at taken
  · cases taken
  · rename_i first rest same
    simp only [Option.some.injEq, Prod.mk.injEq] at taken
    obtain ⟨rfl, rfl⟩ := taken
    exact ⟨same.trans (congrArg (first :: ·) (line_release _ _).1.symm), (line_release _ _).2⟩

private theorem occupied_release {queue : List Message} {granted waiting : List (Sender × Message)}
    (bounded : queue.length + granted.length < capacity)
    (busy : waiting ≠ [] → queue.length + granted.length + 1 = capacity) :
    (release queue granted waiting bounded busy).occupied ≤ queue.length + granted.length + 1 := by
  cases waiting with
  | nil => exact Nat.le_succ _
  | cons first rest => simp [release, occupied, Nat.add_assoc]

variable [DecidableEq Sender]

theorem occupied_settle (settled : box.settle sender = some after) :
    after.occupied = box.occupied := by
  rw [settle] at settled
  split at settled
  · cases settled
  · rename_i entry held
    have shorter := length_erase_granted held
    simp only [Option.some.injEq] at settled
    subst settled
    simp only [occupied, List.length_append, List.length_singleton]
    omega

theorem mem_contents_settle (settled : box.settle sender = some after) {other : Message}
    (member : other ∈ after.contents) : other ∈ box.contents := by
  rw [settle] at settled
  split at settled
  · cases settled
  · rename_i entry held
    simp only [Option.some.injEq] at settled
    subst settled
    simp only [contents, List.map_append, List.mem_append, List.mem_singleton,
      List.mem_map] at member ⊢
    rcases member with (early | rfl) | (⟨kept, inside, rfl⟩ | late)
    · exact .inl early
    · exact .inr (.inl ⟨entry, List.mem_of_find?_eq_some held, rfl⟩)
    · exact .inr (.inl ⟨kept, List.mem_of_mem_eraseP inside, rfl⟩)
    · exact .inr (.inr late)

theorem mem_contents_cancel {other : Message} (member : other ∈ (box.cancel sender).contents) :
    other ∈ box.contents := by
  have erased {entries : List (Sender × Message)}
    (inside : other ∈ (entries.eraseP fun entry => entry.1 = sender).map Prod.snd) :
      other ∈ entries.map Prod.snd := by
    obtain ⟨entry, kept, rfl⟩ := List.mem_map.mp inside
    exact List.mem_map_of_mem (List.mem_of_mem_eraseP kept)
  have kept : other ∈ box.queue ++ ((box.granted.eraseP fun entry => entry.1 = sender) ++
      box.waiting.eraseP fun entry => entry.1 = sender).map Prod.snd ∨
      other ∈ box.queue ++ (box.granted ++ box.waiting.eraseP fun entry => entry.1 = sender).map
          Prod.snd := by
    simp only [cancel] at member
    split at member
    · exact .inl (mem_contents_release member)
    · exact .inr member
  simp only [contents, List.map_append, List.mem_append] at kept ⊢
  rcases kept with (queued | granted | waiting) | (queued | granted | waiting)
  · exact .inl queued
  · exact .inr (.inl (erased granted))
  · exact .inr (.inr (erased waiting))
  · exact .inl queued
  · exact .inr (.inl granted)
  · exact .inr (.inr (erased waiting))

/-- What was granted goes to the end of the queue. -/
theorem line_settle (settled : box.settle sender = some after) :
    ∃ granted, box.granted.find? (fun entry => entry.1 = sender) = some (sender, granted) ∧
      after.queue = box.queue ++ [granted] ∧
      after.granted = box.granted.eraseP (fun entry => entry.1 = sender) ∧
          after.waiting = box.waiting := by
  rw [settle] at settled
  split at settled
  · cases settled
  · rename_i entry held
    simp only [Option.some.injEq] at settled
    subst settled
    have named : entry.1 = sender := by simpa using List.find?_some held
    exact ⟨entry.2, by rw [held, ← named], rfl, rfl, rfl⟩

/-- Who gives up is in line no more, and nothing else moves. -/
theorem line_cancel : (box.cancel sender).queue = box.queue ∧
    (box.cancel sender).granted ++ (box.cancel sender).waiting =
      box.granted.eraseP (fun entry => entry.1 = sender) ++ box.waiting.eraseP fun entry =>
          entry.1 = sender := by
  simp only [cancel]
  split
  · exact line_release _ _
  · rename_i kept
    have absent : ∀ entry ∈ box.granted, ¬ decide (entry.1 = sender) = true := by
      intro entry member present
      exact kept
        (by rw [List.length_eraseP_of_mem member present]; have :=
        List.length_pos_of_mem member; omega)
    exact ⟨rfl, by rw [List.eraseP_of_forall_not absent]⟩

theorem occupied_cancel : (box.cancel sender).occupied ≤ box.occupied := by
  simp only [cancel]
  split
  · rename_i free
    refine Nat.le_trans (occupied_release _ _) ?_
    rw [occupied]
    omega
  · exact Nat.le_refl _

end Mailbox

end OaGateway.Lib
