import Mathlib.Algebra.BigOperators.Group.Finset.Basic
import Mathlib.Algebra.BigOperators.Group.Finset.Piecewise
import OaGateway.Lib.Channel

/-! Messages offered one after another to a family of bounded queues. Each
queue takes what it has room for, whatever the others do. -/
namespace OaGateway.Lib
universe u v

namespace Channel
variable {Message : Type u}

/-- How many more messages the channel takes. -/
def free (channel : Channel Message) : Nat :=
  if channel.closed then 0 else channel.capacity - channel.queue.length

/-- The channel after some messages were offered in turn. -/
def offered (channel : Channel Message) (messages : List Message) : Channel Message :=
  { channel with queue := channel.queue ++ messages.take channel.free }

@[simp] theorem offered_nil (channel : Channel Message) : channel.offered [] = channel := by
  simp [offered]

theorem free_pos_iff {channel : Channel Message} : 0 < channel.free ↔ channel.Room := by
  rw [free, Room]
  cases channel.closed with
  | true => simp
  | false =>
    simp only [Bool.false_eq_true, ↓reduceIte, true_and]
    omega

theorem offered_of_not_room {channel : Channel Message} (room : ¬ channel.Room)
    (messages : List Message) :
    channel.offered messages = channel := by
  have full : channel.free = 0 := Nat.eq_zero_of_not_pos fun positive =>
    room (free_pos_iff.mp positive)
  simp [offered, full]

/-- A message that finds room leaves one place less for those after it. -/
theorem offered_cons {channel after : Channel Message} {message : Message}
    (sent : channel.trySend message = .ok after) (later : List Message) :
    channel.offered (message :: later) = after.offered later := by
  have room : channel.Room := by
    by_contra full
    obtain ⟨reason, failed⟩ := trySend_of_not_room full message
    rw [failed] at sent
    cases sent
  rw [trySend_of_room room] at sent
  cases sent
  have places : channel.capacity - channel.queue.length =
      channel.capacity - (channel.queue.length + 1) + 1 := by
    have := room.2
    omega
  simp [offered, free, room.1, places]

theorem length_offered (channel : Channel Message) (messages : List Message) :
    (channel.offered messages).queue.length =
      channel.queue.length + min channel.free messages.length := by
  simp [offered]

end Channel

variable {Key : Type u} {Message : Type v} [DecidableEq Key]

/-- The channels, and how many offers were taken and turned away so far. -/
structure Offers (Key : Type u) (Message : Type v) where
  channels : Key → Channel Message
  delivered : Nat
  dropped : Nat

namespace Offers

def offer (offers : Offers Key Message) (item : Key × Message) : Offers Key Message :=
  match (offers.channels item.1).trySend item.2 with
  | .ok channel =>
    { offers with
      channels := Function.update offers.channels item.1 channel
      delivered := offers.delivered + 1 }
  | .error _ => { offers with dropped := offers.dropped + 1 }

end Offers

/-- Offer each item to its channel, in order. -/
def fanOut (channels : Key → Channel Message) (items : List (Key × Message)) : Offers Key Message :=
  items.foldl Offers.offer ⟨channels, 0, 0⟩

/-- What is meant for one channel, in order. -/
def messagesFor (items : List (Key × Message)) (key : Key) : List Message :=
  (items.filter fun item => item.1 = key).map Prod.snd

section Fold
variable {channels : Key → Channel Message} {items : List (Key × Message)}

private theorem channels_foldl (start : Offers Key Message) (items : List (Key × Message))
    (key : Key) : (items.foldl Offers.offer start).channels key =
      (start.channels key).offered (messagesFor items key) := by
  induction items generalizing start with
  | nil => simp [messagesFor]
  | cons item rest ih =>
    obtain ⟨target, message⟩ := item
    rw [List.foldl_cons, ih, Offers.offer]
    by_cases here : target = key
    · subst here
      have mine : messagesFor ((target, message) :: rest) target = message ::
          messagesFor rest target := by
        simp [messagesFor]
      rw [mine]
      cases sent : (start.channels target).trySend message with
      | ok channel => simp [Channel.offered_cons sent]
      | error reason =>
        have full : ¬ (start.channels target).Room := fun room => by
          simp [Channel.trySend_of_room room] at sent
        simp [Channel.offered_of_not_room full]
    · have other : messagesFor ((target, message) :: rest) key = messagesFor rest key := by
        simp [messagesFor, here]
      rw [other]
      cases (start.channels target).trySend message with
      | ok channel => simp [Function.update_of_ne (Ne.symm here)]
      | error reason => rfl

/-- A channel ends up as if only its own messages had been offered. -/
theorem channels_fanOut (channels : Key → Channel Message) (items : List (Key × Message))
    (key : Key) : (fanOut channels items).channels key =
      (channels key).offered (messagesFor items key) :=
  channels_foldl _ items key

private theorem balanced_foldl (start : Offers Key Message) (items : List (Key × Message)) :
    (items.foldl Offers.offer start).delivered + (items.foldl Offers.offer start).dropped =
      start.delivered + start.dropped + items.length := by
  induction items generalizing start with
  | nil => simp
  | cons item rest ih =>
    rw [List.foldl_cons, ih, List.length_cons, Offers.offer]
    cases (start.channels item.1).trySend item.2 with
    | ok channel => simp only; omega
    | error reason => simp only; omega

theorem delivered_add_dropped (channels : Key → Channel Message) (items : List (Key × Message)) :
    (fanOut channels items).delivered + (fanOut channels items).dropped = items.length := by
  have balance := balanced_foldl ⟨channels, 0, 0⟩ items
  simpa [fanOut] using balance

/-- What is queued in a set of channels. -/
def backlog (keys : Finset Key) (channels : Key → Channel Message) : Nat :=
  ∑ key ∈ keys, (channels key).queue.length

theorem backlog_update {keys : Finset Key} {key : Key} {channel : Channel Message}
    {message : Message} (member : key ∈ keys)
    (sent : (channels key).trySend message = .ok channel) :
    backlog keys (Function.update channels key channel) = backlog keys channels + 1 := by
  have grown : (channel.queue).length = (channels key).queue.length + 1 := by
    simp [Channel.queue_trySend sent]
  have lengths : (fun other => (Function.update channels key channel other).queue.length) =
      Function.update (fun other => (channels other).queue.length) key channel.queue.length := by
    funext other
    by_cases same : other = key
    · subst same
      simp
    · simp [same]
  rw [backlog, backlog, lengths, Finset.sum_update_of_mem member, grown,
    ← Finset.add_sum_erase keys (fun other => (channels other).queue.length) member,
      Finset.sdiff_singleton_eq_erase]
  omega

private theorem backlog_foldl (start : Offers Key Message) {keys : Finset Key}
    (inside : ∀ item ∈ items, item.1 ∈ keys) :
    backlog keys (items.foldl Offers.offer start).channels + start.delivered =
      backlog keys start.channels + (items.foldl Offers.offer start).delivered := by
  induction items generalizing start with
  | nil => rfl
  | cons item rest ih =>
    have later := ih (start.offer item) fun other member => inside other (by simp [member])
    rw [List.foldl_cons]
    cases sent : (start.channels item.1).trySend item.2 with
    | ok channel =>
      have placed := backlog_update (inside item (by simp)) sent
      simp only [Offers.offer, sent] at later ⊢
      omega
    | error reason =>
      simp only [Offers.offer, sent] at later ⊢
      omega

/-- What was taken is what the channels grew by. -/
theorem backlog_fanOut {keys : Finset Key} (inside : ∀ item ∈ items, item.1 ∈ keys) :
    backlog keys (fanOut channels items).channels = backlog keys channels +
      (fanOut channels items).delivered := by
  have grown := backlog_foldl ⟨channels, 0, 0⟩ inside
  simpa [fanOut] using grown

end Fold

end OaGateway.Lib
