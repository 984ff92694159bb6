import OaGateway.Dds.Poll
import OaGateway.Stomp.Inbound

/-! An engine with one bridging adapter at work: frames or samples come in,
deliveries go out, and anyone else publishes, subscribes and reads meanwhile. -/
namespace OaGateway

open Lib OaGateway.Core

/-- An adapter that carries traffic both ways. -/
inductive Edge where
  | stomp (adapter : Stomp.StompAdapter)
  | dds (bridge : Dds.DdsBridge)

/-- What an adapter's task wakes up to from outside. -/
inductive Input where
  | frame (ids : MessageId × MessageId) (frame : Stomp.Frame)
  | poll (readers : List (String × List Dds.Taken))

/-- What the task tries to write outside. -/
inductive Write where
  | send (frame : Stomp.Frame)
  | sample (topic : String) (sample : Dds.DdsSample)

namespace Edge

def id : Edge → AdapterId
  | stomp adapter => adapter.id
  | dds bridge => bridge.id

def topics : Edge → List String
  | stomp adapter => adapter.config.topics
  | dds bridge => bridge.topics

def suppressEcho : Edge → Bool
  | stomp adapter => adapter.config.suppressEcho
  | dds bridge => bridge.suppressEcho

/-- A `SEND` that cannot be written ends the session; a sample is dropped. -/
def endsOnFailure : Edge → Bool
  | stomp _ => true
  | dds _ => false

/-- The write a delivery leads to. The ids are those an unwrap would draw. -/
def forward (crates : Crates) (ids : MessageId × MessageId) (envelope : Envelope) :
    Edge → Option Write
  | stomp adapter => (Stomp.forwardOutbound adapter envelope).map .send
  | dds bridge =>
    match Dds.forwardOutbound crates bridge ids envelope with
    | .ok (some (topic, sample)) => some (.sample topic sample)
    | _ => none

/-- A `SEND` can be built from any envelope; a sample only from one that is no
wrapper, or unwraps. -/
def Constructs (crates : Crates) (envelope : Envelope) : Edge → Prop
  | stomp _ => True
  | dds _ => ∃ ids sample, Dds.sampleFromEnvelope crates ids envelope = .ok sample

/-- What an input makes the task publish, and whether the session then goes on.
A frame that cannot be read is logged. -/
inductive Reads (crates : Crates) : Edge → Input → List Envelope → Bool → Prop where
  | frame (handled : Stomp.handleFrame crates adapter ids frame = .ok envelopes) :
      Reads crates (.stomp adapter) (.frame ids frame) envelopes true
  | skipped (failed : Stomp.handleFrame crates adapter ids frame = .error message) :
      Reads crates (.stomp adapter) (.frame ids frame) [] true
  | poll (polled : Dds.pollInbound crates bridge.toDdsAdapter readers = (envelopes, result)) :
      Reads crates (.dds bridge) (.poll readers) envelopes result.isOk

end Edge

/-- A delivery the task took, with the ids drawn while it was forwarded. -/
structure Receipt where
  delivery : Delivery
  ids : MessageId × MessageId

structure Traffic where
  world : World
  /-- The channel of the session that is up. -/
  reading : Option Nat
  /-- The session has failed. -/
  ending : Bool
  /-- What the task has still to publish for the input it handles. -/
  pending : List Envelope
  /-- The publish the task is in. -/
  publishing : Option Nat
  /-- Everything the inbound path has published. -/
  published : List Envelope
  /-- Every delivery the task has taken. -/
  received : List Receipt
  /-- Every attempt to write, with the number of the delivery it was for. -/
  attempts : List (Nat × Write)

/-- The task is back in `select!`. -/
def Traffic.Idle (traffic : Traffic) : Prop := traffic.pending = [] ∧ traffic.publishing = none

inductive TrafficEvent where
  | engine (event : Event)
  | start (channel : Nat)
  | stop
  | read (input : Input)
  | publish
  | resume
  | forward (ids : MessageId × MessageId) (written : Bool)

/-- One step of the adapter or of anyone else. -/
inductive TrafficStep (crates : Crates) (edge : Edge) (traffic : Traffic) :
    TrafficEvent → Traffic → Prop where
  | engine (event : Event) (world : World)
      (others : ∀ channel, traffic.reading = some channel → event ≠ .receive channel ∧
        event ≠ .close channel)
      (step : Step traffic.world event world) :
      TrafficStep crates edge traffic (.engine event) { traffic with world }
  | start (channel : Nat) (down : traffic.reading = none) :
      TrafficStep crates edge traffic (.start channel)
        { traffic with reading := some channel, ending := false }
  | stop (channel : Nat) (world : World) (up : traffic.reading = some channel)
      (step : Step traffic.world (.close channel) world) :
      TrafficStep crates edge traffic .stop
        { traffic with world, reading := none, pending := [], publishing := none }
  | read (input : Input) (envelopes : List Envelope) (goes : Bool) (up : traffic.reading.isSome)
      (live : traffic.ending = false) (idle : traffic.Idle)
        (reads : edge.Reads crates input envelopes goes) :
      TrafficStep crates edge traffic (.read input)
        { traffic with pending := envelopes, ending := !goes }
  | publish (envelope : Envelope) (rest : List Envelope) (world : World)
      (next : traffic.pending = envelope :: rest) (free : traffic.publishing = none)
      (step : Step traffic.world (.begin envelope) world) :
      TrafficStep crates edge traffic .publish
        { traffic with
          world
          pending := rest
          publishing := some traffic.world.publishes.length
          published := traffic.published ++ [envelope] }
  | resume (id : Nat) (envelope : Envelope) (outcome : PublishOutcome)
      (busy : traffic.publishing = some id)
      (done : traffic.world.publishes[id]? = some ⟨envelope, .done outcome⟩) :
      TrafficStep crates edge traffic .resume { traffic with publishing := none }
  | forward (ids : MessageId × MessageId) (written : Bool) (channel : Nat) (delivery : Delivery)
      (rest : List Delivery) (up : traffic.reading = some channel) (live : traffic.ending = false)
      (idle : traffic.Idle) (queued : (traffic.world.channels channel).queue = delivery :: rest) :
      TrafficStep crates edge traffic (.forward ids written)
        { traffic with
          world := Stomp.drained traffic.world channel
          ending := (edge.forward crates ids delivery.envelope).isSome && !written &&
            edge.endsOnFailure
          received := traffic.received ++ [⟨delivery, ids⟩]
          attempts := traffic.attempts ++
            ((edge.forward crates ids delivery.envelope).map (traffic.received.length, ·)).toList }

/-- A new engine and an adapter that has not started yet. -/
def trafficSystem (crates : Crates) (edge : Edge) : System Traffic TrafficEvent where
  initial traffic := concurrent.initial traffic.world ∧ traffic.reading = none ∧ traffic.Idle ∧
    traffic.published = [] ∧ traffic.received = [] ∧ traffic.attempts = []
  step := TrafficStep crates edge

section Origins
variable {crates : Crates}

theorem Dds.echo_of_inboundPublish {adapter : DdsAdapter} {ids : MessageId × MessageId}
    {topic : String} {sample : DdsSample} {envelopes : List Envelope}
    (run : inboundPublish crates adapter ids topic sample = .ok envelopes) :
    ∀ envelope ∈ envelopes, envelope.isEchoOf adapter.id = true := by
  have checked {source envelope : Envelope}
      (passed : envelope ∈ (publishChecked crates adapter (source.withOrigin adapter.id)).toList) :
      envelope.isEchoOf adapter.id = true := by
    rw [publishChecked] at passed
    split at passed
    · simp at passed
    · rw [Option.toList_some, List.mem_singleton] at passed
      simp [passed]
  rw [inboundPublish] at run
  split at run
  · cases run
    simp
  split at run
  · split at run
    · cases run
    · cases run
      intro envelope member
      exact (List.mem_append.mp member).elim checked checked
  · cases run
    exact fun envelope member => checked member

theorem Dds.echo_of_publishArrivals {adapter : DdsAdapter} (arrivals : List Arrival) :
    ∀ envelope ∈ (publishArrivals crates adapter arrivals).1,
      envelope.isEchoOf adapter.id = true := by
  induction arrivals with
  | nil => simp [publishArrivals]
  | cons arrival rest ih =>
    rw [publishArrivals]
    split
    · simp
    · rename_i envelopes run
      intro envelope member
      rcases List.mem_append.mp member with here | later
      · exact Dds.echo_of_inboundPublish run envelope here
      · exact ih envelope later

theorem Stomp.echo_of_handleFrame {adapter : StompAdapter} {ids : MessageId × MessageId}
    {frame : Frame} {envelopes : List Envelope}
    (run : handleFrame crates adapter ids frame = .ok envelopes) :
    ∀ envelope ∈ envelopes, envelope.isEchoOf adapter.id = true := by
  rw [handleFrame] at run
  split at run
  · obtain ⟨dest, topic, -, -, ⟨-, peeled, -, rfl⟩ | ⟨-, rfl⟩⟩ := inboundPublish_inv run
    · simp [(stampInbound_spec _ _ _).2.2]
    · simp [(stampInbound_spec _ _ _).2.2]
  · split at run
    · cases run
    · cases run
      simp

/-- Both halves included, the inbound path publishes echoes of its own adapter only. -/
theorem Edge.Reads.echo {edge : Edge} {input : Input} {envelopes : List Envelope} {goes : Bool}
    (reads : edge.Reads crates input envelopes goes) :
    ∀ envelope ∈ envelopes, envelope.isEchoOf edge.id = true := by
  cases reads with
  | frame handled => exact Stomp.echo_of_handleFrame handled
  | skipped => simp
  | poll polled =>
    rw [Dds.pollInbound] at polled
    split at polled
    · cases polled
      simp
    · rename_i bridge _ arrivals _
      have echoes := @Dds.echo_of_publishArrivals crates bridge.toDdsAdapter arrivals
      rw [polled] at echoes
      exact echoes

end Origins

section Forwarding
variable {crates : Crates} {envelope : Envelope} {edge : Edge}

/-- Whether a sample can be made does not depend on the ids that are drawn. -/
theorem Agra.unwrap_ids {ids others : MessageId × MessageId} {topic : String} {payload : Bytes}
    {peeled : Unwrapped} (run : unwrap crates ids topic payload = .ok peeled) :
    ∃ again, unwrap crates others topic payload = .ok again := by
  rw [unwrap] at run ⊢
  split at run
  · cases run
  · rename_i text decoded
    simp only at run ⊢
    split at run
    · rename_i json
      obtain ⟨name, body, kind, data, messageType, hex, bytes, found⟩ := unwrapJson_eq_ok.mp run
      rw [if_pos json]
      exact ⟨_, unwrapJson_eq_ok.mpr ⟨name, body, kind, data, messageType, hex, bytes,
        found.1, found.2.1, found.2.2.1, found.2.2.2.1, found.2.2.2.2.1, found.2.2.2.2.2.1, rfl⟩⟩
    · rename_i json
      rw [if_neg json]
      split at run
      · rename_i xml
        obtain ⟨root, kind, messageType, hex, bytes, found⟩ := unwrapXml_eq_ok.mp run
        rw [if_pos xml]
        exact ⟨_, unwrapXml_eq_ok.mpr ⟨root, kind, messageType, hex, bytes, found.1, found.2.1,
          found.2.2.1, found.2.2.2.1, found.2.2.2.2.1, rfl⟩⟩
      · cases run

theorem Dds.sampleFromEnvelope_ids {ids others : MessageId × MessageId} {sample : DdsSample}
    (made : sampleFromEnvelope crates ids envelope = .ok sample) :
    ∃ again, sampleFromEnvelope crates others envelope = .ok again := by
  rw [sampleFromEnvelope] at made ⊢
  split at made
  · rename_i wrapped
    rw [if_pos wrapped]
    split at made
    · cases made
    · rename_i peeled run
      obtain ⟨again, rerun⟩ := @Agra.unwrap_ids crates ids others _ _ peeled run
      rw [rerun]
      exact ⟨_, rfl⟩
  · rename_i plain
    rw [if_neg plain]
    exact ⟨_, rfl⟩

/-- An echo is never written. -/
theorem Edge.forward_echo (suppress : edge.suppressEcho = true)
    (echo : envelope.isEchoOf edge.id = true) (ids : MessageId × MessageId) :
    edge.forward crates ids envelope = none := by
  cases edge with
  | stomp adapter =>
    have skipped : (adapter.config.suppressEcho && envelope.isEchoOf adapter.id) = true :=
      Bool.and_eq_true _ _ ▸ ⟨suppress, echo⟩
    rw [Edge.forward, Stomp.forwardOutbound, if_pos skipped]
    rfl
  | dds bridge =>
    have skipped : (bridge.suppressEcho && envelope.isEchoOf bridge.id) = true :=
      Bool.and_eq_true _ _ ▸ ⟨suppress, echo⟩
    rw [Edge.forward, Dds.forwardOutbound, if_pos skipped]

/-- Anything else on a bridged topic is, where it can be. -/
theorem Edge.forward_isSome_iff (other : envelope.isEchoOf edge.id = false)
    (listed : envelope.route.topic ∈ edge.topics) (ids : MessageId × MessageId) :
    (edge.forward crates ids envelope).isSome = true ↔ edge.Constructs crates envelope := by
  cases edge with
  | stomp adapter =>
    have taken : ¬ (adapter.config.suppressEcho && envelope.isEchoOf adapter.id) = true := by
      simp [show envelope.isEchoOf adapter.id = false from other]
    rw [Edge.forward, Stomp.forwardOutbound, if_neg taken]
    simp [Edge.Constructs]
  | dds bridge =>
    have taken : ¬ (bridge.suppressEcho && envelope.isEchoOf bridge.id) = true := by
      simp [show envelope.isEchoOf bridge.id = false from other]
    have bridged : ¬ (!bridge.topics.contains envelope.route.topic) = true := by
      have inside : envelope.route.topic ∈ bridge.topics := listed
      simpa using inside
    rw [Edge.forward, Dds.forwardOutbound, if_neg taken, if_neg bridged, Edge.Constructs]
    cases made : Dds.sampleFromEnvelope crates ids envelope with
    | ok sample => simpa using ⟨ids.1, ids.2, sample, made⟩
    | error message =>
      simp only [Option.isSome_none, Bool.false_eq_true, false_iff]
      rintro ⟨others, sample, made'⟩
      obtain ⟨again, fails⟩ := @Dds.sampleFromEnvelope_ids crates envelope others ids sample made'
      rw [made] at fails
      cases fails

end Forwarding

/-- The attempts the log of deliveries accounts for. -/
def Edge.attemptsFor (crates : Crates) (edge : Edge) (received : List Receipt) :
    List (Nat × Write) :=
  received.zipIdx.flatMap fun entry =>
    ((edge.forward crates entry.1.ids entry.1.delivery.envelope).map (entry.2, ·)).toList

/-- What holds at any time of the two logs and of what is still to be published. -/
structure Kept (crates : Crates) (edge : Edge) (traffic : Traffic) : Prop where
  pending : ∀ envelope ∈ traffic.pending, envelope.isEchoOf edge.id = true
  published : ∀ envelope ∈ traffic.published, envelope.isEchoOf edge.id = true
  attempts : traffic.attempts = edge.attemptsFor crates traffic.received

section Runs
variable {crates : Crates} {edge : Edge} {traffic after : Traffic}

theorem Kept.step (kept : Kept crates edge traffic)
    (step : TrafficStep crates edge traffic event after) :
    Kept crates edge after := by
  obtain ⟨pending, published, attempts⟩ := kept
  cases step with
  | engine | start | resume => exact ⟨pending, published, attempts⟩
  | stop => exact ⟨by simp, published, attempts⟩
  | read input envelopes goes up live idle reads => exact ⟨reads.echo, published, attempts⟩
  | publish envelope rest world next free step =>
    rw [next] at pending
    obtain ⟨here, later⟩ := List.forall_mem_cons.mp pending
    refine ⟨later, fun other member => ?_, attempts⟩
    rcases List.mem_append.mp member with before | last
    · exact published other before
    · rw [List.mem_singleton.mp last]
      exact here
  | forward ids written channel delivery rest up live idle queued =>
    refine ⟨pending, published, ?_⟩
    simp [Edge.attemptsFor, List.zipIdx_append, attempts]

theorem Kept.of_reachable (reached : (trafficSystem crates edge).Reachable traffic) :
    Kept crates edge traffic := by
  refine reached.invariant ?_ fun _ _ _ step kept => kept.step step
  rintro start ⟨-, -, ⟨pending, -⟩, published, received, attempts⟩
  refine ⟨by simp [pending], by simp [published], ?_⟩
  rw [attempts, received]
  rfl

/-- The attempts made for one delivery. -/
def Traffic.attemptsAt (traffic : Traffic) (index : Nat) : List (Nat × Write) :=
  traffic.attempts.filter fun attempt => attempt.1 == index

theorem Kept.attemptsAt (kept : Kept crates edge traffic) {index : Nat} {receipt : Receipt}
    (taken : traffic.received[index]? = some receipt) :
    traffic.attemptsAt index =
      ((edge.forward crates receipt.ids receipt.delivery.envelope).map (index, ·)).toList := by
  have numbered := filter_zipIdx_flatMap
    (fun receipt : Receipt => edge.forward crates receipt.ids receipt.delivery.envelope)
      traffic.received 0 index
  rw [Traffic.attemptsAt, kept.attempts, Edge.attemptsFor]
  simpa [taken] using numbered

theorem Kept.attempted (kept : Kept crates edge traffic) {attempt : Nat × Write}
    (member : attempt ∈ traffic.attempts) :
    ∃ receipt, traffic.received[attempt.1]? = some receipt ∧
      edge.forward crates receipt.ids receipt.delivery.envelope = some attempt.2 := by
  rw [kept.attempts, Edge.attemptsFor] at member
  obtain ⟨entry, inside, made⟩ := List.mem_flatMap.mp member
  obtain ⟨write, written, rfl⟩ := by simpa using made
  exact ⟨entry.1, List.mem_zipIdx_iff_getElem?.mp inside, written⟩

/-- In every run of an adapter that suppresses echoes, nothing its inbound path
published is written back, and any other delivery on a bridged topic is written
exactly once, unless no sample can be made of it. -/
theorem forwards_others_once (suppress : edge.suppressEcho = true)
    (reached : (trafficSystem crates edge).Reachable traffic) :
    (∀ attempt ∈ traffic.attempts, ∃ receipt, traffic.received[attempt.1]? = some receipt ∧
      receipt.delivery.envelope ∉ traffic.published) ∧
    ∀ index receipt, traffic.received[index]? = some receipt →
      receipt.delivery.envelope.origin ≠ some edge.id.value →
      receipt.delivery.envelope.route.topic ∈ edge.topics →
      (edge.Constructs crates receipt.delivery.envelope → (traffic.attemptsAt index).length = 1) ∧
        (¬ edge.Constructs crates receipt.delivery.envelope → traffic.attemptsAt index = []) := by
  have kept := Kept.of_reachable reached
  constructor
  · intro attempt member
    obtain ⟨receipt, taken, written⟩ := kept.attempted member
    refine ⟨receipt, taken, fun own => ?_⟩
    rw [Edge.forward_echo suppress (kept.published _ own)] at written
    cases written
  · intro index receipt taken foreign listed
    have other : receipt.delivery.envelope.isEchoOf edge.id = false := by
      simpa [Envelope.isEchoOf] using foreign
    have written := @Edge.forward_isSome_iff crates _ _ other listed receipt.ids
    rw [kept.attemptsAt taken]
    constructor
    · intro constructs
      obtain ⟨write, made⟩ := Option.isSome_iff_exists.mp (written.mpr constructs)
      rw [made]
      rfl
    · intro fails
      rw [Option.not_isSome_iff_eq_none.mp (mt written.mp fails)]
      rfl

end Runs

section Samples

def demoEdge : Edge := .stomp ⟨⟨"stomp"⟩, ⟨"/topic/", ["demo"], true, true⟩⟩

def demoKey : SubscriberKey := ⟨⟨"stomp"⟩, ⟨"stomp-out-0"⟩⟩

def demoMessage : Stomp.Frame :=
  ⟨"MESSAGE", [("destination", "/topic/demo"), ("oag.type_hint", "Ping")], []⟩

/-- What the frame is published as. -/
def demoEcho : Envelope :=
  Stomp.stampInbound ⟨⟨"stomp"⟩, ⟨"/topic/", ["demo"], true, true⟩⟩ demoMessage "/topic/demo"
    (Stomp.plainEnvelope Uci.bareCrates ⟨"1"⟩ "demo" demoMessage)

/-- What somebody else publishes. -/
def demoForeign : Envelope := .new ⟨"3"⟩ (.typed "demo" "Ping") []

def demoSubscribed : State :=
  (State.default.subscribe demoKey.adapterId demoKey.subId (.wildcard "demo") ⟨0⟩).2

theorem targets_demo (order : IterOrder SubscriberKey) :
    demoSubscribed.collectTargets order (.typed "demo" "Ping") = [(⟨0⟩, demoKey.subId)] := by
  have single : demoSubscribed.candidateKeys (.typed "demo" "Ping") = {demoKey} := by decide
  rw [State.collectTargets, single, IterOrder.toList_singleton]
  rfl

/-- A publish that finds the adapter's channel empty goes through. -/
theorem goes_through {traffic : Traffic} {id : Nat} {envelope : Envelope}
    (reached : (trafficSystem Uci.bareCrates demoEdge).Reachable traffic)
    (subscribed : traffic.world.engine.state = demoSubscribed)
    (begun : traffic.world.publishes[id]? = some ⟨envelope, .counted⟩)
    (typed : envelope.route = .typed "demo" "Ping")
    (empty : traffic.world.channels 0 = ⟨4, [], false⟩) :
    ∃ world outcome, (trafficSystem Uci.bareCrates demoEdge).Reachable { traffic with world } ∧
      world.engine.state = demoSubscribed ∧ world.publishes[id]? = some ⟨envelope, .done outcome⟩ ∧
      world.publishes.length = traffic.world.publishes.length ∧
      world.channels 0 = ⟨4, [⟨demoKey.subId, envelope⟩], false⟩ := by
  have inside : id < traffic.world.publishes.length := (List.getElem?_eq_some_iff.mp begun).1
  have read := reached.step (.engine (.snapshot id .unspecified) _ (fun _ _ => by simp)
    (.snapshot id .unspecified envelope begun))
  rw [subscribed, typed, targets_demo] at read
  have room : (traffic.world.channels 0).trySend ⟨demoKey.subId, envelope⟩ =
      .ok ⟨4, [⟨demoKey.subId, envelope⟩], false⟩ := by
    rw [empty]
    rfl
  have sent := read.step (.engine (.offer id) _ (fun _ _ => by simp)
    (.accepted id envelope ⟨0⟩ demoKey.subId [] _ _ (List.getElem?_set_self inside) room))
  have counted := sent.step (.engine (.countDelivered id) _ (fun _ _ => by simp)
    (.countDelivered id envelope _
      (List.getElem?_set_self (by simpa [World.setPublish] using inside))))
  have done := counted.step (.engine (.countDropped id) _ (fun _ _ => by simp)
    (.countDropped id envelope _
      (List.getElem?_set_self (by simpa [World.setPublish] using inside))))
  refine ⟨_, _, done, subscribed, List.getElem?_set_self ?_, ?_, ?_⟩
  · simpa [World.setPublish] using inside
  · simp [World.setPublish]
  · simp [World.setPublish]

def demoTraffic : Traffic where
  world := ⟨.new, fun _ => ⟨4, [], false⟩, [], []⟩
  reading := none
  ending := false
  pending := []
  publishing := none
  published := []
  received := []
  attempts := []

/-- A frame comes in and its envelope is delivered back; then somebody else's is delivered. -/
theorem run_demo :
    ∃ traffic, (trafficSystem Uci.bareCrates demoEdge).Reachable traffic ∧
      traffic.published = [demoEcho] ∧ traffic.received =
          [⟨⟨demoKey.subId, demoEcho⟩, ⟨"4"⟩, ⟨"5"⟩⟩,
          ⟨⟨demoKey.subId, demoForeign⟩, ⟨"6"⟩, ⟨"7"⟩⟩] := by
  have fresh : (trafficSystem Uci.bareCrates demoEdge).Reachable demoTraffic :=
    ⟨demoTraffic, [], ⟨⟨rfl, rfl, rfl⟩, rfl, ⟨rfl, rfl⟩, rfl, rfl, rfl⟩, .nil _⟩
  have subscribed :=
    fresh.step (.engine (.call (.subscribe demoKey.adapterId demoKey.subId (.wildcard "demo") ⟨0⟩))
    _ (fun _ _ => by simp) (.call _))
  have up := subscribed.step (.start 0 rfl)
  have read := up.step (.read (.frame (⟨"1"⟩, ⟨"2"⟩) demoMessage) [demoEcho] true rfl rfl
    ⟨rfl, rfl⟩ (.frame rfl))
  have begun := read.step (.publish demoEcho [] _ rfl rfl (.begin demoEcho))
  obtain ⟨world, outcome, through, engine, finished, count, queue⟩ :=
    @goes_through _ 0 demoEcho begun rfl rfl rfl rfl
  have idle := through.step (.resume 0 demoEcho outcome rfl finished)
  have echoed :=
    idle.step (.forward (⟨"4"⟩, ⟨"5"⟩) true 0 ⟨demoKey.subId, demoEcho⟩ [] rfl rfl ⟨rfl, rfl⟩
    (by rw [queue]))
  have foreign :=
    echoed.step (.engine (.begin demoForeign) _ (fun _ _ => by simp) (.begin demoForeign))
  have place : world.publishes.length = 1 := count
  obtain ⟨later, outcome, through, -, -, -, queue⟩ := @goes_through _ 1 demoForeign foreign engine
    (by simp [Stomp.drained, place]) rfl (by simp [Stomp.drained, queue, Channel.receive])
  exact ⟨_, through.step (.forward (⟨"6"⟩, ⟨"7"⟩) true 0 ⟨demoKey.subId, demoForeign⟩ [] rfl
    rfl ⟨rfl, rfl⟩
    (by rw [queue])), rfl, rfl⟩

theorem forwards_others_once_demo :
    ∃ traffic : Traffic, traffic.published = [demoEcho] ∧ traffic.received.length = 2 ∧
      (∀ attempt ∈ traffic.attempts, attempt.1 ≠ 0) ∧ (traffic.attemptsAt 1).length = 1 := by
  obtain ⟨traffic, reached, published, received⟩ := run_demo
  obtain ⟨silent, once⟩ := @forwards_others_once Uci.bareCrates demoEdge traffic rfl reached
  refine ⟨traffic, published, by rw [received]; rfl, fun attempt member first => ?_, ?_⟩
  · obtain ⟨receipt, taken, foreign⟩ := silent attempt member
    rw [first, received] at taken
    cases taken
    exact foreign (by simp [published])
  · refine (once 1 ⟨⟨demoKey.subId, demoForeign⟩, ⟨"6"⟩, ⟨"7"⟩⟩ (by rw [received]; rfl) ?_ ?_).1
      trivial
    · decide
    · decide

end Samples

end OaGateway
