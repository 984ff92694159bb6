import OaGateway.Core.Envelope
import OaGateway.Lib.Supervisor

/-! The retry loop the network adapters run their sessions in: what is made of a
session that ended, failed or panicked. -/
namespace OaGateway

open Lib OaGateway.Core

/-- Fatal failure of one adapter. -/
inductive AdapterError where
  | failed (adapter message : String)
  | io (error : String)
deriving DecidableEq, Repr

/-- `AdapterError::failed`. -/
def AdapterError.failedBy (id : AdapterId) (message : String) : AdapterError :=
  .failed id.value message

def AdapterError.display : AdapterError → String
  | failed adapter message => "adapter " ++ adapter ++ " failed: " ++ message
  | io error => error

/-- What an adapter does when its session task panics. -/
inductive OnPanic where
  | abort
  /-- Treat the panic as a failed session. -/
  | reconnect
deriving DecidableEq, Repr

namespace OnPanic

def display : OnPanic → String
  | abort => "abort"
  | reconnect => "reconnect"

def fromStr (text : String) : Except String OnPanic :=
  if text = "abort" then .ok abort
  else if text = "reconnect" then .ok reconnect
  else .error ("unknown on_panic '" ++ text ++ "'; expected abort or reconnect")

theorem fromStr_eq_ok {text : String} {choice : OnPanic} : fromStr text = .ok choice ↔
    text = choice.display := by
  rw [fromStr]
  split
  · rename_i same
    subst same
    cases choice <;> simp [display]
  · split
    · rename_i same
      subst same
      cases choice <;> simp [display]
    · rename_i first second
      cases choice with
      | abort => simpa [display] using first
      | reconnect => simpa [display] using second

end OnPanic

/-- Why a spawned task has no result. -/
inductive JoinError where
  | panic
  | cancelled

/-- What a session retry loop does after one session task ends. -/
inductive AfterSession where
  | returnOk
  | returnErr (error : AdapterError)
  /-- Sleep, then start another session. -/
  | retry (message : String)

/-- When an adapter tries again. -/
structure RetryPolicy where
  adapter : AdapterId
  reconnect : Bool
  onPanic : OnPanic

namespace RetryPolicy

def panicked (policy : RetryPolicy) : AdapterError := .failedBy policy.adapter "session panicked"

/-- Maps a joined session result onto abort, return, or retry. -/
def afterJoin (policy : RetryPolicy) : Except JoinError (Except AdapterError Unit) → AfterSession
  | .ok (.ok ()) => if policy.reconnect then .retry "session ended, reconnecting" else .returnOk
  | .ok (.error error) =>
    if policy.reconnect then .retry ("session failed, retrying: " ++ error.display)
      else .returnErr error
  | .error .panic =>
    match policy.onPanic, policy.reconnect with
    | .abort, _ | .reconnect, false => .returnErr policy.panicked
    | .reconnect, true => .retry "session panicked, retrying"
  | .error .cancelled => .returnOk

/-- A session task as it is joined. Nobody aborts one. -/
def joined : Ended (Except AdapterError Unit) → Except JoinError (Except AdapterError Unit)
  | .finished result => .ok result
  | .crashed => .error .panic

def verdict (policy : RetryPolicy) (ended : Ended (Except AdapterError Unit)) :
    Verdict (Except AdapterError Unit) :=
  match policy.afterJoin (joined ended) with
  | .returnOk => .answer (.ok ())
  | .returnErr error => .answer (.error error)
  | .retry _ => .again

/-- The loop of `run` around one session after another. -/
def supervision (policy : RetryPolicy) {World Stage Label Aside : Type}
    (start : World → Stage → Prop) (work : Bool → World → Stage → Label → World → Stage → Prop)
    (result : Stage → Option (Except AdapterError Unit)) (aside : World → Aside → World → Prop) :
    Supervision World Stage Label Aside (Except AdapterError Unit) (Except AdapterError Unit) where
  start
  work
  result
  aside
  verdict := policy.verdict
  stopped := .ok ()

section
variable {policy : RetryPolicy}

theorem verdict_ok {ended : Ended (Except AdapterError Unit)}
    (answers : policy.verdict ended = .answer (.ok ())) :
    policy.reconnect = false ∧ ended = .finished (.ok ()) := by
  cases ended with
  | finished result =>
    cases result with
    | ok done => cases reconnect :
      policy.reconnect <;> simp [verdict, joined, afterJoin, reconnect] at answers ⊢
    | error error => cases reconnect :
      policy.reconnect <;> simp [verdict, joined, afterJoin, reconnect] at answers
  | crashed =>
    cases reconnect : policy.reconnect <;> cases choice : policy.onPanic <;>
      simp [verdict, joined, afterJoin, reconnect, choice] at answers

theorem verdict_error {ended : Ended (Except AdapterError Unit)} {error : AdapterError}
    (answers : policy.verdict ended = .answer (.error error)) :
    policy.reconnect = false ∧ ended = .finished (.error error) ∨
      (policy.onPanic = .abort ∨ policy.reconnect = false) ∧ ended = .crashed ∧
          error = policy.panicked := by
  cases ended with
  | finished result =>
    cases result with
    | ok done => cases reconnect :
      policy.reconnect <;> simp [verdict, joined, afterJoin, reconnect] at answers
    | error other => cases reconnect : policy.reconnect <;> simp_all [verdict, joined, afterJoin]
  | crashed =>
    cases reconnect : policy.reconnect <;> cases choice : policy.onPanic <;>
      simp_all [verdict, joined, afterJoin]

end

end RetryPolicy

end OaGateway
