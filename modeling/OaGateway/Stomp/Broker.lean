import OaGateway.Stomp.Adapter

/-! The in-process broker the bridge is tested against: fan-out by exact
destination, the sender's own subscriptions included. -/
namespace OaGateway.Stomp

open Lib

/-- One `SUBSCRIBE`: which connection and which `id`. -/
structure Sub where
  connId : Nat
  id : String
deriving DecidableEq, Repr

/-- Subscribers by destination, and the next `message-id`. -/
structure BrokerState where
  subs : List (String × Sub)
  nextMsg : Nat

namespace BrokerState

def targets (state : BrokerState) (dest : String) : List Sub :=
  (state.subs.filter fun entry => entry.1 == dest).map Prod.snd

/-- The `MESSAGE` one subscriber gets for a `SEND`. -/
def messageFor (frame : Frame) (dest : String) (mid : Nat) (sub : Sub) : Frame where
  command := "MESSAGE"
  headers := [("destination", dest), ("subscription", sub.id), ("message-id", toString mid)] ++
    frame.headers.filter fun header => header.1 != "destination"
  body := frame.body

/-- Handle one client frame: the frames it makes the broker write, with the
connection each goes to. A frame without a header it needs is dropped. -/
def dispatch (state : BrokerState) (connId : Nat) (frame : Frame) :
    Option (BrokerState × List (Nat × Frame)) :=
  if frame.command = "CONNECT" ∨ frame.command = "STOMP" then
    let reply := (((Frame.new "CONNECTED").withHeader "version" "1.2").withHeader "server"
      "oa-gateway-mini-stomp/0.1").withHeader "heart-beat" "0,0"
    some (state, [(connId, reply)])
  else if frame.command = "SUBSCRIBE" then
    (frame.header "destination").map fun dest =>
      let sub : Sub := ⟨connId, (frame.header "id").getD "0"⟩
      ({ state with subs := state.subs ++ [(dest, sub)] }, [])
  else if frame.command = "UNSUBSCRIBE" then
    (frame.header "id").map fun id =>
      ({ state with subs := state.subs.filter fun entry => entry.2 ≠ ⟨connId, id⟩ }, [])
  else if frame.command = "SEND" then
    (frame.header "destination").map fun dest =>
      ({ state with nextMsg := state.nextMsg + 1 },
        (state.targets dest).map fun sub => (sub.connId, messageFor frame dest state.nextMsg sub))
  else if frame.command = "DISCONNECT" then
    some (state, [(connId, (Frame.new "RECEIPT").withHeader "receipt-id" "disconnect")])
  else some (state,
    [(connId, (Frame.new "ERROR").withHeader "message" ("unknown " ++ frame.command))])

/-- The state one frame of a connection leaves behind. -/
def heed (state : BrokerState) (connId : Nat) (frame : Frame) : BrokerState :=
  match state.dispatch connId frame with
  | some (after, _) => after
  | none => state

theorem heed_subscribeFrame (state : BrokerState) (connId : Nat) (id dest : String) :
    state.heed connId (subscribeFrame id dest) =
      { state with subs := state.subs ++ [(dest, ⟨connId, id⟩)] } := rfl

end BrokerState

end OaGateway.Stomp
