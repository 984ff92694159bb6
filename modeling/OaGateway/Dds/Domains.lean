import OaGateway.Agra.Wrap
import OaGateway.Core.Bridging
import OaGateway.Dds.Halves
import OaGateway.Dds.Participant

/-! A sample on its way from one domain to another through the engine. -/
namespace OaGateway.Dds

open Lib Lib.Json OaGateway.Core

/-- How `serde_json` prints and reads the wrapper a sample's parts make: an object's
text has no white space around it, and is read back. -/
structure Printable (crates : Crates) (sample : DdsSample) : Prop where
  braced : Agra.startsWith '{'
    (crates.jsonPrint (Agra.partsValue sample.info (crates.hexUpper sample.encoded))) = true
  trimmed :
    trimText (crates.jsonPrint (Agra.partsValue sample.info (crates.hexUpper sample.encoded))) =
    crates.jsonPrint (Agra.partsValue sample.info (crates.hexUpper sample.encoded))
  read : crates.jsonParse
    (crates.jsonPrint (Agra.partsValue sample.info (crates.hexUpper sample.encoded))) =
    .ok (Agra.partsValue sample.info (crates.hexUpper sample.encoded))

section
variable {crates : Crates} {sample : DdsSample}

theorem Printable.text (printable : Printable crates sample) :
    Agra.JsonText crates (Agra.partsValue sample.info (crates.hexUpper sample.encoded)) where
  braced := printable.braced
  trimmed := printable.trimmed
  again _ := ⟨_, printable.read, .refl _⟩

theorem wrapperKind_parts (printable : Printable crates sample) :
    Agra.wrapperKind crates
      (utf8 (crates.jsonPrint (Agra.partsValue sample.info (crates.hexUpper sample.encoded)))) =
      some sample.info.kind :=
  Agra.wrapperKind_printed printable.text (Agra.within_partsValue _ _)

/-- The wrapper the parts make is taken apart into them again. -/
theorem unwrap_parts (hex : crates.WritesHex) (printable : Printable crates sample)
    (decodes : sample.encoded.length ≤ Agra.maxDecodedPayload) (ids : MessageId × MessageId)
    (topic : String) :
    Agra.unwrap crates ids topic
      (utf8 (crates.jsonPrint (Agra.partsValue sample.info (crates.hexUpper sample.encoded)))) = .ok
      (Agra.assemble crates ids topic
        (utf8 (crates.jsonPrint (Agra.partsValue sample.info (crates.hexUpper sample.encoded))))
          .json sample.info sample.encoded) :=
  Agra.unwrap_partsValue hex printable.text decodes ids topic

/-- The wrapper half is turned back into the sample it was made of. -/
theorem sampleFromEnvelope_parts (hex : crates.WritesHex) (printable : Printable crates sample)
    (decodes : sample.encoded.length ≤ Agra.maxDecodedPayload) (ids : MessageId × MessageId)
    {envelope : Envelope}
    (carries : envelope.payload =
      utf8 (crates.jsonPrint (Agra.partsValue sample.info (crates.hexUpper sample.encoded)))) :
    sampleFromEnvelope crates ids envelope = .ok sample := by
  have wrapper : (Agra.wrapperKind crates envelope.payload).isSome = true := by
    rw [carries, wrapperKind_parts printable]
    rfl
  rw [sampleFromEnvelope, if_pos wrapper, carries, unwrap_parts hex printable decodes]
  simp [Agra.assemble, Agra.innerEnvelope_spec]

/-- The sample the inner half is written as: the payload under its own type,
and nothing else of the wrapper. -/
def innerSample (crates : Crates) (sample : DdsSample) : DdsSample where
  info := ⟨.rx, elementToEnum (Agra.typeHintFromInner crates sample.encoded
    sample.info.messageTypeEnum), none, none, none, none⟩
  encoded := sample.encoded

end

section
variable {crates : Crates} {first second : DdsBridge} {sample : DdsSample} {topic : String}
  {ids : MessageId × MessageId}

theorem publishChecked_off {adapter : DdsAdapter} (off : adapter.config.validate = .off)
    (envelope : Envelope) :
    publishChecked crates adapter envelope = some envelope := by
  have quiet : violationsOf crates envelope.payload adapter.config.schema .off = [] := rfl
  rw [publishChecked, off, quiet]
  simp

theorem inboundPublish_halves {adapter : DdsAdapter}
    (unwraps : adapter.config.unwrapMaPayloads = true) (off : adapter.config.validate = .off)
    (fits : sample.encoded.length ≤ adapter.config.maxSampleSize)
    (decodes : sample.encoded.length ≤ Agra.maxDecodedPayload) :
    inboundPublish crates adapter ids topic sample =
      .ok [(halves crates adapter ids topic sample).1,
          (halves crates adapter ids topic sample).2] := by
  simp only [inboundPublish, Agra.unwrappedFromParts, Nat.not_lt.mpr fits,
    Nat.not_lt.mpr decodes, unwraps, ↓reduceIte, publishChecked_off off, halves]
  rfl

/-- What the other adapter writes of each half. -/
theorem forwardOutbound_halves (hex : crates.WritesHex) (apart : first.id ≠ second.id)
    (listed : topic ∈ second.topics) (decodes : sample.encoded.length ≤ Agra.maxDecodedPayload)
    (plain : Agra.wrapperKind crates sample.encoded = none) (printable : Printable crates sample)
    (draws : MessageId × MessageId) :
    forwardOutbound crates second draws (halves crates first.toDdsAdapter ids topic sample).1 =
        .ok (some (topic, sample)) ∧
      forwardOutbound crates second draws (halves crates first.toDdsAdapter ids topic sample).2 =
        .ok (some (topic, innerSample crates sample)) := by
  obtain ⟨wrapped, inner⟩ := @halves_payload crates first.toDdsAdapter ids topic sample
  have echo : ((halves crates first.toDdsAdapter ids topic sample).1.isEchoOf second.id = false) ∧
      (halves crates first.toDdsAdapter ids topic sample).2.isEchoOf second.id = false := by
    constructor
    · exact (Envelope.isEchoOf_withOrigin _ _ _).trans (decide_eq_false apart)
    · exact (Envelope.isEchoOf_withOrigin _ _ _).trans (decide_eq_false apart)
  have routes : (halves crates first.toDdsAdapter ids topic sample).1.route.topic = topic ∧
      (halves crates first.toDdsAdapter ids topic sample).2.route =
        .typed topic (Agra.typeHintFromInner crates sample.encoded
            sample.info.messageTypeEnum) := by
    refine ⟨rfl, ?_⟩
    exact (Agra.innerEnvelope_spec _ _ _ _ _ _).1
  have bridged : (!second.topics.contains topic) = false := by simpa using listed
  constructor
  · rw [forwardOutbound, echo.1, routes.1, bridged,
      sampleFromEnvelope_parts hex printable decodes draws wrapped]
    simp
  · have made : sampleFromEnvelope crates draws
      (halves crates first.toDdsAdapter ids topic sample).2 =
        .ok (innerSample crates sample) := by
      rw [sampleFromEnvelope, inner, plain, routes.2]
      rfl
    rw [forwardOutbound, echo.2, routes.2, made]
    simp only [RouteKey.typed, bridged, Bool.and_false, Bool.false_eq_true, ↓reduceIte]

/-- Publishes one after another: what they leave in the channels. -/
def publishEach (engine : Engine) (channels : Nat → Channel Delivery) :
    List (IterOrder SubscriberKey × Envelope) → Nat → Channel Delivery
  | [] => channels
  | (order, envelope) :: rest =>
    let published := engine.publish order channels envelope
    publishEach published.2.1 published.2.2 rest

end

section
variable {id : AdapterId} {topics : List String} {tx : Sender} {engine : Engine}
  {channels : Nat → Channel Delivery}

/-- A session with room is sent each envelope on a topic as often as it lists it. -/
theorem sent_publishEach (serves : Serves id topics tx engine.state) {topic : String}
    {envelopes : List (IterOrder SubscriberKey × Envelope)}
    (routed : ∀ envelope ∈ envelopes, envelope.2.route.topic = topic)
    (live : (channels tx.channel).closed = false)
    (room : (channels tx.channel).queue.length + envelopes.length * topics.count topic ≤
      (channels tx.channel).capacity) :
    ∃ sent : List Delivery,
      (publishEach engine channels envelopes tx.channel).queue =
        (channels tx.channel).queue ++ sent ∧
      sent.map (·.envelope) = envelopes.flatMap fun envelope =>
          List.replicate (topics.count topic) envelope.2 := by
  induction envelopes generalizing engine channels with
  | nil => exact ⟨[], by simp [publishEach], rfl⟩
  | cons head rest ih =>
    obtain ⟨order, envelope⟩ := head
    obtain ⟨here, later⟩ := List.forall_mem_cons.mp routed
    simp only [List.length_cons, Nat.add_mul, Nat.one_mul] at room
    obtain ⟨sent, after, same, count⟩ :=
      (serves.indexed.routed.fairFanOut order channels envelope).share tx.channel live
    rw [serves.share, here, min_eq_right (by omega)] at count
    have next : Serves id topics tx (engine.publish order channels envelope).2.1.state := serves
    have open_still : ((engine.publish order channels envelope).2.2 tx.channel).closed =
      false := by rwa [after]
    have space : ((engine.publish order channels envelope).2.2 tx.channel).queue.length +
        rest.length * topics.count topic ≤
            ((engine.publish order channels envelope).2.2 tx.channel).capacity := by
      rw [after]
      simp only [List.length_append, count]
      omega
    obtain ⟨more, queue, envelopes⟩ := ih next later open_still space
    refine ⟨sent ++ more, ?_, ?_⟩
    · rw [publishEach, queue, after, List.append_assoc]
    · have copies : sent.map (·.envelope) = List.replicate (topics.count topic) envelope := by
        rw [List.eq_replicate_iff]
        refine ⟨by simpa using count, fun other member => ?_⟩
        obtain ⟨delivery, inside, rfl⟩ := List.mem_map.mp member
        exact same delivery inside
      rw [List.map_append, copies, envelopes, List.flatMap_cons]

end

section
variable {crates : Crates} {first second : DdsBridge} {sample : DdsSample}
  {topic : String} {tx : Sender}
  {start : State} {calls : List Call} {engine : Engine} {channels : Nat → Channel Delivery}

/-- What a reader makes of deliveries depends on their envelopes only. -/
theorem map_replicate {Result : Type} {sent : List Delivery} {count : Nat} {outer inner : Envelope}
    (held : sent.map (·.envelope) = List.replicate count outer ++ List.replicate count inner)
    {read : Delivery → Result} {one other : Result} (outers : ∀ subId, read ⟨subId, outer⟩ = one)
    (inners : ∀ subId, read ⟨subId, inner⟩ = other) :
    sent.map read = List.replicate count one ++ List.replicate count other := by
  have each {part : List Delivery} {envelope : Envelope} {result : Result}
      (copies : part.map (·.envelope) = List.replicate count envelope)
      (reads : ∀ subId, read ⟨subId, envelope⟩ = result) :
          part.map read = List.replicate count result := by
    obtain ⟨length, same⟩ := List.eq_replicate_iff.mp copies
    refine List.eq_replicate_iff.mpr ⟨by simpa using length, fun found member => ?_⟩
    obtain ⟨⟨subId, carried⟩, inside, rfl⟩ := List.mem_map.mp member
    obtain rfl : carried = envelope := same carried (List.mem_map.mpr ⟨_, inside, rfl⟩)
    exact reads subId
  obtain ⟨front, back, rfl, before, after⟩ := List.map_eq_append_iff.mp held
  rw [List.map_append, each before outers, each after inners]

/-- Both halves reach the other adapter and are written. -/
theorem halves_written (hex : crates.WritesHex)
    (serves : Serves second.id second.topics tx engine.state) (apart : first.id ≠ second.id)
    (listed : topic ∈ second.topics) (decodes : sample.encoded.length ≤ Agra.maxDecodedPayload)
    (plain : Agra.wrapperKind crates sample.encoded = none) (printable : Printable crates sample)
    (live : (channels tx.channel).closed = false)
    (room : (channels tx.channel).queue.length + 2 * second.topics.count topic ≤
      (channels tx.channel).capacity)
    (ids : MessageId × MessageId) (order order' : IterOrder SubscriberKey) :
    ∃ sent : List Delivery,
      (publishEach engine channels [(order, (halves crates first.toDdsAdapter ids topic sample).1),
          (order', (halves crates first.toDdsAdapter ids topic sample).2)] tx.channel).queue =
          (channels tx.channel).queue ++ sent ∧
        ∀ draws : Delivery → MessageId × MessageId,
          (sent.map fun delivery => forwardOutbound crates second (draws delivery)
            delivery.envelope) =
            List.replicate (second.topics.count topic) (.ok (some (topic, sample))) ++
              List.replicate (second.topics.count topic)
                  (.ok (some (topic, innerSample crates sample))) := by
  have routed : ∀ envelope ∈ [(order, (halves crates first.toDdsAdapter ids topic sample).1),
      (order', (halves crates first.toDdsAdapter ids topic sample).2)],
          envelope.2.route.topic = topic := by
    have typed :=
      (Agra.innerEnvelope_spec ids.2 topic sample.encoded (Agra.sniffContentType sample.encoded)
      (Agra.typeHintFromInner crates sample.encoded sample.info.messageTypeEnum) sample.info).1
    refine List.forall_mem_cons.mpr ⟨rfl, List.forall_mem_singleton.mpr ?_⟩
    exact congrArg RouteKey.topic typed
  obtain ⟨sent, queue, copies⟩ := sent_publishEach serves routed live room
  refine ⟨sent, queue, fun draws => map_replicate (by simpa using copies) ?_ ?_⟩
  · exact fun subId => (forwardOutbound_halves hex apart listed decodes plain printable _).1
  · exact fun subId => (forwardOutbound_halves hex apart listed decodes plain printable _).2

/-- A sample the first adapter takes is written by the second as often as it
lists the topic, each time twice: as it was, and as its bare payload. -/
theorem crosses_as_two (hex : crates.WritesHex) (apart : first.id ≠ second.id)
    (unwraps : first.config.unwrapMaPayloads = true) (off : first.config.validate = .off)
    (fits : sample.encoded.length ≤ first.config.maxSampleSize)
    (decodes : sample.encoded.length ≤ Agra.maxDecodedPayload)
    (plain : Agra.wrapperKind crates sample.encoded = none) (printable : Printable crates sample)
    (listed : topic ∈ second.topics) (bridged : Bridged second.id "dds-" second.topics tx start)
    (others : ∀ call ∈ calls, call.Elsewhere second.id tx)
    (current : engine.state = calls.foldl Call.apply start)
    (live : (channels tx.channel).closed = false)
    (room : (channels tx.channel).queue.length + 2 * second.topics.count topic ≤
      (channels tx.channel).capacity)
    (ids : MessageId × MessageId) :
    ∃ wrapper inner, inboundPublish crates first.toDdsAdapter ids topic sample =
      .ok [wrapper, inner] ∧
      ∀ order order', ∃ sent : List Delivery,
        (publishEach engine channels [(order, wrapper), (order', inner)] tx.channel).queue =
            (channels tx.channel).queue ++ sent ∧
          ∀ draws : Delivery → MessageId × MessageId,
            (sent.map fun delivery => forwardOutbound crates second (draws delivery)
              delivery.envelope) =
              List.replicate (second.topics.count topic) (.ok (some (topic, sample))) ++
                List.replicate (second.topics.count topic)
                    (.ok (some (topic, innerSample crates sample))) := by
  have serves := (Serves.of_bridged bridged).foldl others
  rw [← current] at serves
  exact ⟨_, _, inboundPublish_halves unwraps off fits decodes,
    halves_written hex serves apart listed decodes plain printable live room ids⟩

end

section Samples

def txSample : DdsSample := ⟨⟨.tx, "COUNT", none, none, some "c1", none⟩, utf8 (countText "4")⟩

def txText : String :=
  "\x7b\"MA_TxDataPayloadCommand\":\x7b\"MessageData\":" ++
    "\x7b\"CommandID\":\x7b\"UUID\":\"c1\"\x7d," ++
    "\"EncodedPayload\":\"7B22436F756E74223A347D\",\"MessageType\":\"COUNT\"\x7d\x7d\x7d"

/-- A JSON crate for that sample and its payload. -/
def txCrates : Crates where
  jsonParse text :=
    if text = txText then .ok (Agra.partsValue txSample.info (upperHex txSample.encoded))
    else if text = countText "4" then .ok (.object [("Count", .number (.posInt 4))])
    else .error "expected value"
  jsonPrint _ := txText
  floatPrint _ := ""
  floatDisplay _ := ""
  xmlParse _ := .error "unknown token"
  regex _ := none
  hexUpper := upperHex

def domain (name : String) : DdsBridge where
  id := ⟨name⟩
  config := ⟨true, 1024, none, .off⟩
  topics := ["demo"]
  suppressEcho := true

/-- Only the second adapter has come up. -/
def domainState : State := (State.default.subscribe ⟨"dds-b"⟩ ⟨"dds-0"⟩ (.wildcard "demo") ⟨0⟩).2

def domainEngine : Engine := { Engine.new with state := domainState }

theorem bridged_domain :
    Bridged (domain "dds-b").id "dds-" (domain "dds-b").topics ⟨0⟩ domainState :=
  ⟨.default, .unspecified, ⟨.default, [], rfl, .nil _⟩,
    fun _ _ found => absurd found (by simp [State.default]), rfl⟩

theorem printable_tx : Printable txCrates txSample := ⟨by decide +kernel, by decide +kernel, rfl⟩

theorem hex_tx : txCrates.WritesHex := fun _ => rfl

theorem plain_tx : Agra.wrapperKind txCrates txSample.encoded = none := by decide +kernel

theorem crosses_as_two_tx :
    ∃ wrapper inner, inboundPublish txCrates (domain "dds-a").toDdsAdapter (⟨"1"⟩, ⟨"2"⟩)
      "demo" txSample =
        .ok [wrapper, inner] ∧
      ∀ order order', ∃ sent : List Delivery,
        (publishEach domainEngine (fun _ => ⟨4, [], false⟩)
          [(order, wrapper), (order', inner)] 0).queue = sent ∧
          ∀ draws : Delivery → MessageId × MessageId,
            (sent.map fun delivery => forwardOutbound txCrates (domain "dds-b") (draws delivery)
              delivery.envelope) =
              [.ok (some ("demo", txSample)),
                  .ok (some ("demo", innerSample txCrates txSample))] := by
  have small : txSample.encoded.length = 11 := by decide
  exact @crosses_as_two txCrates (domain "dds-a") (domain "dds-b") txSample "demo" ⟨0⟩ domainState
    [] domainEngine
    (fun _ => ⟨4, [], false⟩) hex_tx (by decide) rfl rfl (by rw [small]; decide)
      (by rw [small]; decide) plain_tx
    printable_tx (by decide) bridged_domain (by simp) rfl rfl (by decide) (⟨"1"⟩, ⟨"2"⟩)

/-- The second adapter writes two samples for one, and the other is not the same. -/
theorem crosses_doubled :
    ∃ wrapper inner, inboundPublish txCrates (domain "dds-a").toDdsAdapter (⟨"1"⟩, ⟨"2"⟩)
      "demo" txSample =
        .ok [wrapper, inner] ∧
      ∃ sent : List Delivery,
        (publishEach domainEngine (fun _ => ⟨4, [], false⟩)
          [(.unspecified, wrapper), (.unspecified, inner)] 0).queue =
            sent ∧
          (sent.map fun delivery => forwardOutbound txCrates (domain "dds-b") (⟨"3"⟩, ⟨"4"⟩)
            delivery.envelope) =
            [.ok (some ("demo", txSample)), .ok (some ("demo", innerSample txCrates txSample))] ∧
          (innerSample txCrates txSample).info ≠ txSample.info := by
  have small : txSample.encoded.length = 11 := by decide
  have decodes : txSample.encoded.length ≤ Agra.maxDecodedPayload := by
    rw [small]
    decide
  obtain ⟨sent, queue, written⟩ := @halves_written txCrates (domain "dds-a") (domain "dds-b")
    txSample "demo" ⟨0⟩
    domainEngine (fun _ => ⟨4, [], false⟩) hex_tx (Serves.of_bridged bridged_domain) (by decide)
      (by decide) decodes plain_tx
    printable_tx rfl (by decide) (⟨"1"⟩, ⟨"2"⟩) .unspecified .unspecified
  exact ⟨_, _, inboundPublish_halves rfl rfl (by rw [small]; decide) decodes, sent, queue,
    written _, by decide⟩

end Samples

end OaGateway.Dds
