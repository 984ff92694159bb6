import OaGateway.Core.Envelope
import OaGateway.Lib.Index

/-! The routing engine: four redundant indexes over the registered
subscriptions and the calls that keep them. -/
namespace OaGateway.Core

open Lib

structure SubscriberKey where
  adapterId : AdapterId
  subId : SubId
deriving DecidableEq, Repr

def defaultChannelCapacity : Nat := 64

/-- The sending half of a delivery channel, named by its channel. -/
structure Sender where
  channel : Nat
deriving DecidableEq, Repr

structure Delivery where
  subId : SubId
  envelope : Envelope

inductive EngineError where
  | duplicateSub (subId : SubId)
  | unknownSub (subId : SubId)
deriving DecidableEq, Repr

def EngineError.display : EngineError → String
  | duplicateSub subId => "duplicate subscription " ++ subId.value
  | unknownSub subId => "unknown subscription " ++ subId.value

structure Subscription where
  route : RouteKey
  tx : Sender
deriving DecidableEq, Repr

/-- The indexes behind the engine's lock. -/
structure State where
  byKey : Table SubscriberKey Subscription
  byAdapter : Index AdapterId SubId
  /-- Exact `(topic, type_hint)` to subscribers. -/
  exact : Index2 String String SubscriberKey
  /-- Topic to the subscribers without a type hint. -/
  wildcards : Index String SubscriberKey

namespace State

def default : State := ⟨∅, ∅, ∅, ∅⟩

def insertIndex (state : State) (key : SubscriberKey) (route : RouteKey) : State :=
  match route.typeHint with
  | some hint => { state with exact := state.exact.add route.topic hint key }
  | none => { state with wildcards := state.wildcards.add route.topic key }

def removeIndex (state : State) (key : SubscriberKey) (route : RouteKey) : State :=
  match route.typeHint with
  | some hint => { state with exact := state.exact.remove route.topic hint key }
  | none => { state with wildcards := state.wildcards.remove route.topic key }

/-- Drop `key` from every index; `none` is the source's `Err(())`. -/
def removeSubscription (state : State) (key : SubscriberKey) : Option State :=
  match state.byKey.lookup key with
  | none => none
  | some sub =>
    let state := { state with byKey := state.byKey.erase key }
    let state := { state with byAdapter := state.byAdapter.remove key.adapterId key.subId }
    some (state.removeIndex key sub.route)

def subscribe (state : State) (adapterId : AdapterId) (subId : SubId) (route : RouteKey)
    (tx : Sender) : Except EngineError SubscriberKey × State :=
  let key : SubscriberKey := ⟨adapterId, subId⟩
  if (state.byKey.lookup key).isSome then (.error (.duplicateSub subId), state)
  else
    let state := state.insertIndex key route
    let state := { state with byAdapter := state.byAdapter.add adapterId subId }
    (.ok key, { state with byKey := state.byKey.insert key ⟨route, tx⟩ })

def unsubscribe (state : State) (adapterId : AdapterId) (subId : SubId) :
    Except EngineError Unit × State :=
  match state.removeSubscription ⟨adapterId, subId⟩ with
  | some state => (.ok (), state)
  | none => (.error (.unknownSub subId), state)

def dropOne (adapterId : AdapterId) (progress : Nat × State) (subId : SubId) : Nat × State :=
  match progress.2.removeSubscription ⟨adapterId, subId⟩ with
  | some state => (progress.1 + 1, state)
  | none => progress

/-- The adapter's entry goes first, then each of its subscriptions in whatever
order the removed set iterates. -/
def dropAdapter (order : IterOrder SubId) (state : State) (adapterId : AdapterId) : Nat × State :=
  match state.byAdapter.lookup adapterId with
  | none => (0, state)
  | some sids =>
    let state := { state with byAdapter := state.byAdapter.erase adapterId }
    (order.toList sids).foldl (dropOne adapterId) (0, state)

/-- The keys `collect_targets` gathers: wildcards on the topic, and exact
matches when the publish carries a hint. -/
def candidateKeys (state : State) (route : RouteKey) : Finset SubscriberKey :=
  state.wildcards.members route.topic ∪
    match route.typeHint with
    | some hint => state.exact.members route.topic hint
    | none => ∅

/-- Subscribers that should see a publish on `route`, in iteration order. A
key the indexes hold and `by_key` does not is skipped. -/
def collectTargets (order : IterOrder SubscriberKey) (state : State) (route : RouteKey) :
    List (Sender × SubId) :=
  (order.toList (state.candidateKeys route)).filterMap fun key =>
    (state.byKey.lookup key).map fun sub => (sub.tx, key.subId)

end State

end OaGateway.Core
