import OaGateway.Lib.FanOut
import OaGateway.Lib.Mailbox

/-! What passes through a mailbox. The reader gets the messages of each sender
in the order they were sent, none twice, and none is missing once nobody waits. -/
namespace OaGateway.Lib
universe u v

section Messages
variable {Key : Type u} {Message : Type v} [DecidableEq Key] {items more : List (Key × Message)}
  {key other : Key}

theorem messagesFor_append : messagesFor (items ++ more) key = messagesFor items key ++
    messagesFor more key := by
  rw [messagesFor, List.filter_append, List.map_append, messagesFor, messagesFor]

theorem mem_messagesFor {message : Message} : message ∈ messagesFor items key ↔
    (key, message) ∈ items := by
  simp [messagesFor]

theorem messagesFor_single (message : Message) :
    messagesFor [(other, message)] key = if other = key then [message] else [] := by
  by_cases same : other = key
  · simp [messagesFor, same]
  · simp [messagesFor, same]

theorem messagesFor_eraseP_ne (apart : other ≠ key) :
    messagesFor (items.eraseP fun item => item.1 = other) key = messagesFor items key := by
  induction items with
  | nil => rfl
  | cons item rest ih =>
    by_cases here : item.1 = other
    · rw [List.eraseP_cons_of_pos (by simpa using here)]
      have elsewhere : item.1 ≠ key := fun same => apart (here.symm.trans same)
      simp [messagesFor, elsewhere]
    · rw [List.eraseP_cons_of_neg (by simpa using here)]
      simp only [messagesFor, List.filter_cons] at ih ⊢
      split
      · simp [ih]
      · exact ih

theorem messagesFor_eraseP : messagesFor (items.eraseP fun item => item.1 = key) key =
    (messagesFor items key).tail := by
  induction items with
  | nil => rfl
  | cons item rest ih =>
    by_cases here : item.1 = key
    · rw [List.eraseP_cons_of_pos (by simpa using here)]
      simp [messagesFor, here]
    · rw [List.eraseP_cons_of_neg (by simpa using here)]
      simpa [messagesFor, here] using ih

theorem messagesFor_find (found : items.find? (fun item => item.1 = key) = some (key, message)) :
    messagesFor items key = message :: (messagesFor items key).tail := by
  induction items with
  | nil => cases found
  | cons item rest ih =>
    by_cases here : item.1 = key
    · rw [List.find?_cons_of_pos (by simpa using here)] at found
      cases found
      simp [messagesFor]
    · rw [List.find?_cons_of_neg (by simpa using here)] at found
      have skipped : messagesFor (item :: rest) key =
        messagesFor rest key := by simp [messagesFor, here]
      rw [skipped]
      exact ih found

end Messages

namespace Mailbox
variable {capacity : Nat} {Sender : Type u} {Message : Type v} [DecidableEq Sender]
  {box after : Mailbox capacity Sender Message} {sender other : Sender} {message : Message}

/-- What a sender waits with, or holds a place for. -/
def inLine (box : Mailbox capacity Sender Message) (sender : Sender) : List Message :=
  messagesFor (box.granted ++ box.waiting) sender

/-- What enters the queue when a sender sends. -/
def entersOnSend (box : Mailbox capacity Sender Message) (sender : Sender) (message : Message) :
    List (Sender × Message) :=
  if box.occupied < capacity then [(sender, message)] else []

/-- What enters the queue when a sender fills its place. -/
def entersOnSettle (box : Mailbox capacity Sender Message) (sender : Sender) :
    List (Sender × Message) :=
  (box.granted.find? fun entry => entry.1 = sender).toList

omit [DecidableEq Sender] in
theorem queue_send_eq : (box.send sender message).queue = box.queue ++
    (box.entersOnSend sender message).map Prod.snd := by
  rw [send, entersOnSend]
  split <;> simp

theorem inLine_send : (box.send sender message).inLine other =
    box.inLine other ++ if box.occupied < capacity then []
      else messagesFor [(sender, message)] other := by
  rw [send]
  split
  · rw [List.append_nil, inLine, inLine]
  · rw [inLine, inLine, ← messagesFor_append, List.append_assoc]

theorem inLine_send_ne (apart : sender ≠ other) : (box.send sender message).inLine other =
    box.inLine other := by
  rw [inLine_send, messagesFor_single, if_neg apart, ite_self, List.append_nil]

theorem inLine_receive (taken : box.receive = some (message, after)) :
    after.inLine other = box.inLine other := by
  rw [inLine, (line_receive taken).2, inLine]

theorem queue_settle (settled : box.settle sender = some after) :
    after.queue = box.queue ++ (box.entersOnSettle sender).map Prod.snd := by
  obtain ⟨granted, held, queue, -, -⟩ := line_settle settled
  rw [entersOnSettle, held]
  exact queue

theorem inLine_settle (settled : box.settle sender = some after) :
    box.inLine other = messagesFor (box.entersOnSettle sender) other ++ after.inLine other := by
  obtain ⟨granted, held, -, left, waiting⟩ := line_settle settled
  rw [entersOnSettle, held, Option.toList_some, messagesFor_single, inLine, inLine, left, waiting,
    messagesFor_append, messagesFor_append]
  split
  · rename_i same
    subst same
    rw [messagesFor_eraseP, ← List.append_assoc, List.singleton_append, ← messagesFor_find held]
  · rename_i apart
    rw [messagesFor_eraseP_ne apart, List.nil_append]

theorem inLine_settle_ne (settled : box.settle sender = some after) (apart : sender ≠ other) :
    after.inLine other = box.inLine other := by
  obtain ⟨granted, held, -, -, -⟩ := line_settle settled
  rw [inLine_settle settled, entersOnSettle, held, Option.toList_some, messagesFor_single,
    if_neg apart, List.nil_append]

/-- A sender that fills its place was in line, and is no more. -/
theorem inLine_settled (settled : box.settle sender = some after)
    (single : (box.inLine sender).length ≤ 1) :
    box.inLine sender ≠ [] ∧ after.inLine sender = [] := by
  obtain ⟨granted, held, -, -, -⟩ := line_settle settled
  have moved := @inLine_settle _ _ _ _ box after sender sender settled
  rw [entersOnSettle, held, Option.toList_some, messagesFor_single, if_pos rfl] at moved
  rw [moved, List.length_append, List.length_singleton] at single
  refine ⟨by simp [moved], List.eq_nil_of_length_eq_zero ?_⟩
  omega

theorem inLine_cancel_ne (apart : sender ≠ other) : (box.cancel sender).inLine other =
    box.inLine other := by
  rw [inLine, line_cancel.2, messagesFor_append, messagesFor_eraseP_ne apart,
    messagesFor_eraseP_ne apart, ← messagesFor_append, inLine]

theorem inLine_cancel (single : (box.inLine sender).length ≤ 1) :
    (box.cancel sender).inLine sender = [] := by
  rw [inLine, line_cancel.2, messagesFor_append, messagesFor_eraseP, messagesFor_eraseP]
  rw [inLine, messagesFor_append, List.length_append] at single
  apply List.eq_nil_of_length_eq_zero
  rw [List.length_append, List.length_tail, List.length_tail]
  omega

end Mailbox

/-- An account of a mailbox: what was sent, what has entered the queue and what
was received, up to the senders that gave up. A sender waits with one message at
a time. -/
structure Ledger {capacity : Nat} {Sender : Type u} {Message : Type v} [DecidableEq Sender]
    (box : Mailbox capacity Sender Message) (sent entered : List (Sender × Message))
    (received : List Message) (gone : Sender → Prop) : Prop where
  fifo : received ++ box.queue = entered.map Prod.snd
  kept : ∀ sender, ¬ gone sender → messagesFor entered sender ++ box.inLine sender =
    messagesFor sent sender
  cut : ∀ sender, gone sender → messagesFor entered sender <+: messagesFor sent sender
  left : ∀ sender, gone sender → box.inLine sender = []
  single : ∀ sender, (box.inLine sender).length ≤ 1

namespace Ledger
variable {capacity : Nat} {Sender : Type u} {Message : Type v} [DecidableEq Sender]
  {box after : Mailbox capacity Sender Message} {sent entered : List (Sender × Message)}
  {received : List Message}
  {gone : Sender → Prop} {sender : Sender} {message : Message}

theorem empty : Ledger (.empty : Mailbox capacity Sender Message) [] [] [] fun _ => False where
  fifo := rfl
  kept _ _ := rfl
  cut _ _ := List.prefix_rfl
  left _ _ := rfl
  single _ := Nat.zero_le 1

theorem send (ledger : Ledger box sent entered received gone) (stays : ¬ gone sender)
    (idle : box.inLine sender = []) (message : Message) :
    Ledger (box.send sender message) (sent ++ [(sender, message)])
      (entered ++ box.entersOnSend sender message)
      received gone where
  fifo := by rw [Mailbox.queue_send_eq, ← List.append_assoc, ledger.fifo, List.map_append]
  kept other remains := by
    rw [messagesFor_append, messagesFor_append, ← ledger.kept other remains, Mailbox.inLine_send,
      Mailbox.entersOnSend]
    by_cases here : sender = other
    · subst here
      rw [idle]
      split <;> simp [messagesFor]
    · split <;> simp [messagesFor, here]
  cut other left := by
    have apart : sender ≠ other := fun same => stays (same ▸ left)
    have nothing : messagesFor (box.entersOnSend sender message) other = [] := by
      rw [Mailbox.entersOnSend]
      split <;> simp [messagesFor, apart]
    rw [messagesFor_append, nothing, List.append_nil, messagesFor_append]
    exact (ledger.cut other left).trans (List.prefix_append _ _)
  left other left := by
    have apart : sender ≠ other := fun same => stays (same ▸ left)
    rw [Mailbox.inLine_send, ledger.left other left]
    split <;> simp [messagesFor, apart]
  single other := by
    rw [Mailbox.inLine_send]
    by_cases here : sender = other
    · subst here
      rw [idle]
      split <;> simp [messagesFor]
    · have before := ledger.single other
      split <;> simpa [messagesFor, here] using before

theorem receive (ledger : Ledger box sent entered received gone)
    (taken : box.receive = some (message, after)) :
    Ledger after sent entered (received ++ [message]) gone where
  fifo := by
    rw [List.append_assoc, List.singleton_append, ← (Mailbox.line_receive taken).1]
    exact ledger.fifo
  kept other remains := by
    rw [Mailbox.inLine_receive taken]
    exact ledger.kept other remains
  cut := ledger.cut
  left other left := by
    rw [Mailbox.inLine_receive taken]
    exact ledger.left other left
  single other := by
    rw [Mailbox.inLine_receive taken]
    exact ledger.single other

theorem settle (ledger : Ledger box sent entered received gone)
    (settled : box.settle sender = some after) :
    Ledger after sent (entered ++ box.entersOnSettle sender) received gone := by
  have moved (other : Sender) := @Mailbox.inLine_settle _ _ _ _ box after sender other settled
  refine ⟨?fifo, ?kept, ?cut, ?left, ?single⟩
  case fifo => rw [Mailbox.queue_settle settled, ← List.append_assoc, ledger.fifo, List.map_append]
  case kept =>
    intro other remains
    rw [messagesFor_append, List.append_assoc, ← moved]
    exact ledger.kept other remains
  case cut =>
    intro other left
    have nothing := (moved other).symm.trans (ledger.left other left)
    rw [messagesFor_append, (List.append_eq_nil_iff.mp nothing).1, List.append_nil]
    exact ledger.cut other left
  case left =>
    intro other left
    exact (List.append_eq_nil_iff.mp ((moved other).symm.trans (ledger.left other left))).2
  case single =>
    intro other
    have before := ledger.single other
    rw [moved, List.length_append] at before
    omega

theorem cancel (ledger : Ledger box sent entered received gone) (sender : Sender) :
    Ledger (box.cancel sender) sent entered received fun other => other = sender ∨ gone other where
  fifo := by
    rw [Mailbox.line_cancel.1]
    exact ledger.fifo
  kept other remains := by
    rw [not_or] at remains
    rw [Mailbox.inLine_cancel_ne (Ne.symm remains.1)]
    exact ledger.kept other remains.2
  cut other left := by
    by_cases early : gone other
    · exact ledger.cut other early
    · rw [← ledger.kept other early]
      exact List.prefix_append _ _
  left other left := by
    by_cases here : sender = other
    · subst here
      exact Mailbox.inLine_cancel (ledger.single _)
    · rw [Mailbox.inLine_cancel_ne here]
      exact ledger.left other (left.resolve_left (Ne.symm here))
  single other := by
    by_cases here : sender = other
    · subst here
      rw [Mailbox.inLine_cancel (ledger.single _)]
      exact Nat.zero_le 1
    · rw [Mailbox.inLine_cancel_ne here]
      exact ledger.single other

/-- A sender with nothing in line stops sending. -/
theorem retire (ledger : Ledger box sent entered received gone) (idle : box.inLine sender = []) :
    Ledger box sent entered received fun other => other = sender ∨ gone other where
  fifo := ledger.fifo
  kept other remains := ledger.kept other fun early => remains (.inr early)
  cut other left := by
    by_cases early : gone other
    · exact ledger.cut other early
    · rw [← ledger.kept other early]
      exact List.prefix_append _ _
  left other left := by
    rcases left with rfl | early
    · exact idle
    · exact ledger.left other early
  single := ledger.single

theorem congr {left : Sender → Prop} (ledger : Ledger box sent entered received gone)
    (same : ∀ sender, left sender ↔ gone sender) : Ledger box sent entered received left := by
  obtain rfl : left = gone := funext fun sender => propext (same sender)
  exact ledger

/-- What has entered of a sender's messages is the first of what it sent. -/
theorem ordered (ledger : Ledger box sent entered received gone) (sender : Sender) :
    messagesFor entered sender <+: messagesFor sent sender := by
  by_cases left : gone sender
  · exact ledger.cut sender left
  · rw [← ledger.kept sender left]
    exact List.prefix_append _ _

end Ledger

end OaGateway.Lib
