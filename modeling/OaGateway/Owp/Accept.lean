import Mathlib.Data.List.Nodup
import OaGateway.Owp.Publish
import OaGateway.Supervise

/-! The WebSocket server around the sessions: the listener, the accept loop with
its limit, and the retry loop that binds again. -/
namespace OaGateway.Owp

open Lib OaGateway.Core

/-- What the accept loop logs when it starts to refuse, and when it stops. -/
inductive Saturation where
  | refusing
  | accepting
deriving DecidableEq, Repr

/-- What the adapter keeps for as long as it runs, over every listener it binds. -/
structure Server where
  connSeq : UInt64
  /-- Places left on the connection semaphore. -/
  permits : Nat
  atCapacity : Bool
  /-- The connections that hold a permit. -/
  live : List UInt64
  /-- Every connection id given out so far. -/
  issued : List UInt64
  logged : List Saturation

namespace Server

def new (maxConnections : Nat) : Server := ⟨1, maxConnections, false, [], [], []⟩

def accept (server : Server) : Server :=
  if server.permits = 0 then
    { server with
      atCapacity := true
      logged := if server.atCapacity then server.logged else server.logged ++ [.refusing] }
  else
    { connSeq := server.connSeq + 1
      permits := server.permits - 1
      atCapacity := false
      live := server.live ++ [server.connSeq]
      issued := server.issued ++ [server.connSeq]
      logged := if server.atCapacity then server.logged ++ [.accepting] else server.logged }

/-- A connection's task ends, after a failed handshake, a session or a panic. -/
def release (server : Server) (connId : UInt64) : Server :=
  { server with live := server.live.erase connId, permits := server.permits + 1 }

end Server

inductive ServeStage where
  | binding
  | listening
  | ended (result : Except AdapterError Unit)

inductive ServeLabel where
  | bindFailed (error : String)
  | bound
  | shutdown
  | acceptFailed (error : String)
  | accepted

/-- One step of `bind_and_serve`. Binding fails also where the local address
cannot be read. -/
inductive ServeStep (cancelled : Bool) (server : Server) :
    ServeStage → ServeLabel → Server → ServeStage → Prop where
  | bindFailed : ServeStep cancelled server .binding (.bindFailed error) server
    (.ended (.error (.io error)))
  | bound : ServeStep cancelled server .binding .bound server .listening
  | shutdown (stop : cancelled = true) : ServeStep cancelled server .listening .shutdown server
    (.ended (.ok ()))
  -- a failed `accept` is logged
  | acceptFailed : ServeStep cancelled server .listening (.acceptFailed error) server .listening
  | accepted : ServeStep cancelled server .listening .accepted server.accept .listening

def ServeStage.result : ServeStage → Option (Except AdapterError Unit)
  | ended result => some result
  | _ => none

/-- `run`: a bound listener after another, with connections ending at any time. -/
def serverSupervision (policy : RetryPolicy) :
    Supervision Server ServeStage ServeLabel UInt64 (Except AdapterError Unit)
      (Except AdapterError Unit) :=
  policy.supervision (fun _ stage => stage = .binding) ServeStep ServeStage.result
    (fun server connId after => connId ∈ server.live ∧ after = server.release connId)

def serverSystem (policy : RetryPolicy) (maxConnections : Nat) :=
  (serverSupervision policy).system fun server => server = .new maxConnections

/-- So many log lines, by turns, a refusal first. -/
def Saturation.turns (count : Nat) : List Saturation :=
  (List.range count).map fun turn => if turn % 2 = 0 then .refusing else .accepting

/-- What the adapter keeps adds up. -/
structure Server.Counted (maxConnections : Nat) (server : Server) : Prop where
  permits : server.live.length + server.permits = maxConnections
  issued : server.issued = (List.range server.issued.length).map fun count =>
    UInt64.ofNat (count + 1)
  next : server.connSeq = UInt64.ofNat (server.issued.length + 1)
  live : ∀ connId, server.live.count connId ≤ server.issued.count connId
  turns : server.logged = Saturation.turns server.logged.length
  saturated : server.atCapacity = (server.logged.length % 2 == 1)

section Counting
variable {policy : RetryPolicy} {maxConnections : Nat} {server : Server}

theorem Saturation.turns_succ (count : Nat) :
    turns (count + 1) = turns count ++ [if count % 2 = 0 then .refusing else .accepting] := by
  rw [turns, List.range_succ, List.map_append, turns, List.map_singleton]

namespace Server.Counted

theorem new : (Server.new maxConnections).Counted maxConnections :=
  ⟨Nat.zero_add _, rfl, rfl, fun _ => Nat.le_refl 0, rfl, rfl⟩

/-- The next line is logged where the loop changes its mind. -/
theorem log (counted : server.Counted maxConnections) (refuses : Bool) (line : Saturation)
    (changes : line = if refuses then .refusing else .accepting) :
    let logged := if server.atCapacity = refuses then server.logged else server.logged ++ [line]
    logged = Saturation.turns logged.length ∧ refuses = (logged.length % 2 == 1) := by
  have turns := counted.turns
  have saturated := counted.saturated
  by_cases same : server.atCapacity = refuses
  · simp only [if_pos same]
    exact ⟨turns, same ▸ saturated⟩
  · simp only [if_neg same, List.length_append, List.length_singleton,
      Saturation.turns_succ, ← turns]
    rw [saturated] at same
    rcases Nat.mod_two_eq_zero_or_one server.logged.length with even | odd
    · cases refuses with
      | false => simp [even] at same
      | true => exact ⟨by simp [changes, even], by simp; omega⟩
    · cases refuses with
      | false => exact ⟨by simp [changes, odd], by simp; omega⟩
      | true => simp [odd] at same

theorem accept (counted : server.Counted maxConnections) :
    server.accept.Counted maxConnections := by
  rw [Server.accept]
  split
  · obtain ⟨turns, saturated⟩ := counted.log true .refusing rfl
    exact ⟨counted.permits, counted.issued, counted.next, counted.live, turns, saturated⟩
  · rename_i free
    have permits := counted.permits
    refine ⟨?permits, ?issued, ?next, ?live, ?turns, ?saturated⟩
    case permits =>
      simp only [List.length_append, List.length_singleton]
      omega
    case issued =>
      rw [List.length_append, List.length_singleton, List.range_succ, List.map_append,
        ← counted.issued]
      simp [counted.next]
    case next =>
      simp only [List.length_append, List.length_singleton, counted.next]
      rw [UInt64.ofNat_add (server.issued.length + 1) 1]
      rfl
    case live =>
      intro connId
      rw [List.count_append, List.count_append]
      exact Nat.add_le_add_right (counted.live connId) _
    all_goals
      have log := counted.log false .accepting rfl
      cases at_capacity : server.atCapacity <;> simp only [at_capacity] at log ⊢
    case turns.false => exact log.1
    case turns.true => exact log.1
    case saturated.false => exact log.2
    case saturated.true => exact log.2

theorem release (counted : server.Counted maxConnections) {connId : UInt64}
    (present : connId ∈ server.live) : (server.release connId).Counted maxConnections := by
  refine ⟨?permits, counted.issued, counted.next, ?live, counted.turns, counted.saturated⟩
  case permits =>
    have permits := counted.permits
    have positive := List.length_pos_of_mem present
    rw [Server.release, List.length_erase_of_mem present]
    simp only
    omega
  case live =>
    intro other
    exact Nat.le_trans (List.erase_sublist.count_le other) (counted.live other)

/-- Short of the wrap of the counter, no two connections have one id. -/
theorem distinct (counted : server.Counted maxConnections) (early : server.issued.length < 2 ^ 64) :
    server.issued.Nodup ∧ server.live.Nodup := by
  have apart : server.issued.Nodup := by
    rw [counted.issued]
    refine List.Nodup.map_on ?_ List.nodup_range
    intro first inside second beside same
    rw [List.mem_range] at inside beside
    have numbers := congrArg UInt64.toNat same
    rw [UInt64.toNat_ofNat', UInt64.toNat_ofNat', Nat.mod_eq_of_lt (by omega),
      Nat.mod_eq_of_lt (by omega)] at numbers
    exact Nat.succ.inj numbers
  refine ⟨apart, List.nodup_iff_count_le_one.mpr fun connId => ?_⟩
  exact Nat.le_trans (counted.live connId) (List.nodup_iff_count_le_one.mp apart connId)

end Server.Counted

theorem Server.accept_issued : server.accept.issued = server.issued ↔ server.permits = 0 := by
  rw [Server.accept]
  split
  · rename_i full
    simp [full]
  · rename_i free
    simp [free]

end Counting

section Runs
variable {policy : RetryPolicy} {maxConnections : Nat}

/-- How an attempt may have ended. -/
def ServedPast (cancelled : Bool) : Ended (Except AdapterError Unit) → Prop
  | .finished (.ok ()) => cancelled = true
  | .finished (.error error) => ∃ text, error = .io text
  | .crashed => True

theorem server_sound : (serverSupervision policy).Sound (fun server => server = .new maxConnections)
    (fun _ server => server.Counted maxConnections)
    (fun _ cancelled server stage => server.Counted maxConnections ∧
      ∀ result ∈ stage.result, ServedPast cancelled (.finished result)) ServedPast where
  initially := by
    rintro _ rfl
    exact .new
  starts := by
    rintro _ server _ counted rfl
    exact ⟨counted, fun _ none => by cases none⟩
  works := by
    rintro _ cancelled server stage label after later ⟨counted, known⟩ moved
    cases moved with
    | bindFailed =>
      refine ⟨counted, fun result ended => ?_⟩
      cases ended
      exact ⟨_, rfl⟩
    | bound => exact ⟨counted, fun _ none => by cases none⟩
    | shutdown stop =>
      refine ⟨counted, fun result ended => ?_⟩
      cases ended
      exact stop
    | acceptFailed => exact ⟨counted, known⟩
    | accepted => exact ⟨counted.accept, known⟩
  finishes := by
    intro _ cancelled server stage result busy done
    exact ⟨busy.1, busy.2 result done⟩
  crashes := by
    intro _ cancelled server stage busy unfinished
    exact ⟨busy.1, trivial⟩
  asideIdle := by
    rintro crashed server connId _ counted ⟨present, rfl⟩
    exact counted.release present
  asideBusy := by
    rintro _ cancelled server stage connId _ ⟨counted, known⟩ ⟨present, rfl⟩
    exact ⟨counted.release present, known⟩
  lateBusy := by
    rintro _ cancelled server stage ⟨counted, known⟩
    refine ⟨counted, fun result ended => ?_⟩
    have past := known result ended
    cases result with
    | ok done => rfl
    | error error => exact past
  latePast := by
    intro cancelled ended past
    cases ended with
    | finished result =>
      cases result with
      | ok done => rfl
      | error error => exact past
    | crashed => trivial

theorem server_counted
    {run : Supervised Server ServeStage (Except AdapterError Unit) (Except AdapterError Unit)}
    (reached : (serverSystem policy maxConnections).Reachable run) :
    run.world.Counted maxConnections := by
  have stands := server_sound.stands reached
  cases watch : run.watch with
  | trying stage => exact (stands.trying stage watch).1
  | _ => exact stands.idle (by simp [watch])

end Runs

/-- However often the listener fails and is bound again, and whenever connections
end: no more are served than the limit allows and a stream is refused only at the
limit; connection ids are given out once; and the warnings about the limit take
turns. -/
theorem server_within_limits (policy : RetryPolicy) (maxConnections : Nat)
    (run : Supervised Server ServeStage (Except AdapterError Unit) (Except AdapterError Unit))
    (reached : (serverSystem policy maxConnections).Reachable run) :
    run.world.live.length ≤ maxConnections ∧
      (run.world.accept.issued = run.world.issued ↔ run.world.live.length = maxConnections) ∧
      (run.world.issued.length < 2 ^ 64 → run.world.issued.Nodup ∧ run.world.live.Nodup ∧
        ∀ connId ∈ run.world.live, connId ∈ run.world.issued) ∧
      run.world.logged = Saturation.turns run.world.logged.length ∧
      run.world.atCapacity = (run.world.logged.length % 2 == 1) := by
  have counted := server_counted reached
  have permits := counted.permits
  refine ⟨by omega, ?_, fun early => ?_, counted.turns, counted.saturated⟩
  · rw [Server.accept_issued]
    omega
  · obtain ⟨issued, live⟩ := counted.distinct early
    refine ⟨issued, live, fun connId present => ?_⟩
    have positive := List.count_pos_iff.mpr present
    exact List.count_pos_iff.mp (Nat.lt_of_lt_of_le positive (counted.live connId))

def retrying : RetryPolicy := ⟨⟨"owp"⟩, true, .reconnect⟩

/-- One place, two clients: the second is refused, and let in once the first is gone. -/
theorem server_refuses_one : ∃ run, (serverSystem retrying 1).Reachable run ∧
    run.world.live = [2] ∧ run.world.logged = [.refusing, .accepting] ∧
      run.world.live.length ≤ 1 := by
  have run : (serverSystem retrying 1).Run ⟨.new 1, .checking, false, false⟩
      [.start, .work .bound, .work .accepted, .work .accepted, .aside 1, .work .accepted]
      ⟨⟨3, 0, false, [2], [1, 2], [.refusing, .accepting]⟩, .trying .listening, false, false⟩ :=
    .cons (.start rfl rfl rfl)
      (.cons (.work rfl .bound) (.cons (.work rfl .accepted) (.cons (.work rfl .accepted)
      (.cons (.aside ⟨by decide, rfl⟩) (.cons (.work rfl .accepted) (.nil _))))))
  have reached : (serverSystem retrying 1).Reachable _ := ⟨_, _, ⟨rfl, rfl, rfl⟩, run⟩
  exact ⟨_, reached, rfl, rfl, (server_within_limits retrying 1 _ reached).1⟩

/-- The server gives up only where it is told to: with `reconnect` on and panics
to be retried it runs until a shutdown, and it never ends well without one. -/
theorem server_run_answers (policy : RetryPolicy) (maxConnections : Nat)
    (run : Supervised Server ServeStage (Except AdapterError Unit) (Except AdapterError Unit))
    (reached : (serverSystem policy maxConnections).Reachable run) :
    (run.watch = .answered (.ok ()) → run.cancelled = true) ∧
      ∀ error, run.watch = .answered (.error error) →
        policy.reconnect = false ∧ (∃ text, error = .io text) ∨
          (policy.onPanic = .abort ∨ policy.reconnect = false) ∧ error = policy.panicked := by
  have stands := server_sound.stands reached
  constructor
  · intro here
    rcases stands.answered _ here with ⟨-, cancelled⟩ | ⟨ended, verdict, past⟩
    · exact cancelled
    · obtain ⟨-, rfl⟩ := RetryPolicy.verdict_ok verdict
      exact past
  · intro error here
    rcases stands.answered _ here with ⟨same, -⟩ | ⟨ended, verdict, past⟩
    · cases same
    · rcases RetryPolicy.verdict_error verdict with ⟨off, rfl⟩ | ⟨gives, rfl, same⟩
      · exact .inl ⟨off, past⟩
      · exact .inr ⟨gives, same⟩

/-- A shutdown while the server listens. -/
theorem server_shuts_down : ∃ run, (serverSystem retrying 1).Reachable run ∧
    run.watch = .answered (.ok ()) ∧ run.cancelled = true := by
  have run : (serverSystem retrying 1).Run ⟨.new 1, .checking, false, false⟩
      [.start, .work .bound, .cancel, .work .shutdown, .finish, .judge]
      ⟨.new 1, .answered (.ok ()), true, false⟩ :=
    .cons (.start rfl rfl rfl)
      (.cons (.work rfl .bound) (.cons .cancel (.cons (.work rfl (.shutdown rfl))
      (.cons (.finish rfl rfl) (.single (.again rfl rfl))))))
  have reached : (serverSystem retrying 1).Reachable _ := ⟨_, _, ⟨rfl, rfl, rfl⟩, run⟩
  exact ⟨_, reached, rfl, (server_run_answers retrying 1 _ reached).1 rfl⟩

end OaGateway.Owp
