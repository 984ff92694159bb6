/-! Bounded message queues with one reader: a send either finds room or is
turned away, and a reader that went away closes the queue for good. -/
namespace OaGateway.Lib
universe u

structure Channel (Message : Type u) where
  capacity : Nat
  queue : List Message
  closed : Bool

inductive TrySendError where
  | full
  | closed
deriving DecidableEq, Repr

namespace Channel
variable {Message : Type u}

/-- A send that never waits. -/
def trySend (channel : Channel Message) (message : Message) :
    Except TrySendError (Channel Message) :=
  if channel.closed then .error .closed
  else if channel.queue.length < channel.capacity then
    .ok { channel with queue := channel.queue ++ [message] }
  else .error .full

def receive (channel : Channel Message) : Channel Message :=
  { channel with queue := channel.queue.tail }

/-- The reader goes away: what was queued is lost, and later sends fail. -/
def close (channel : Channel Message) : Channel Message :=
  { channel with queue := [], closed := true }

/-- The reader is there and has room. -/
def Room (channel : Channel Message) : Prop :=
  channel.closed = false ∧ channel.queue.length < channel.capacity

theorem trySend_of_room {channel : Channel Message} (room : channel.Room) (message : Message) :
    channel.trySend message = .ok { channel with queue := channel.queue ++ [message] } := by
  simp [trySend, room.1, room.2]

theorem trySend_of_not_room {channel : Channel Message} (room : ¬ channel.Room)
    (message : Message) :
    ∃ reason, channel.trySend message = .error reason := by
  rw [trySend]
  split
  · exact ⟨_, rfl⟩
  · rename_i present
    split
    · rename_i free
      exact absurd ⟨by simpa using present, free⟩ room
    · exact ⟨_, rfl⟩

theorem queue_trySend {channel after : Channel Message} {message : Message}
    (sent : channel.trySend message = .ok after) : after.queue = channel.queue ++ [message] := by
  rw [trySend] at sent
  split at sent
  · cases sent
  · split at sent
    · cases sent
      rfl
    · cases sent

end Channel

end OaGateway.Lib
