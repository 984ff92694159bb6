import OaGateway.Stomp.Inbound
import OaGateway.Stomp.Sent

/-! One hop: a gateway sends an envelope, a broker passes the frame on, and
another gateway publishes it. -/
namespace OaGateway.Stomp

open Lib OaGateway.Core

/-- The name spaces the gateway's own headers are in. -/
def Namespaced (name : String) : Prop :=
  ∃ space ∈ ["owp.", "agra.", "oag.", "stomp."], space.toList <+: name.toList

/-- An envelope of one type whose route a frame can carry. -/
structure Routable (crates : Crates) (envelope : Envelope) : Prop where
  plain : Agra.wrapperKind crates envelope.payload = none
  topic : '\x00' ∉ envelope.route.topic.toList
  hint : ∃ hint, envelope.route.typeHint = some hint ∧ hint ≠ "" ∧ '\x00' ∉ hint.toList
  headers : ∀ header ∈ envelope.headers.entries,
    Namespaced header.1 ∧ '\x00' ∉ header.1.toList ∧ '\x00' ∉ header.2.toList
  content : envelope.contentType.value ≠ "" ∧ trimText envelope.contentType.value =
    envelope.contentType.value ∧
    ';' ∉ envelope.contentType.value.toList ∧ '\x00' ∉ envelope.contentType.value.toList

/-- A `MESSAGE` keeps a frame's destination, its other headers in order and its
body. What the broker adds has names the frame does not use. -/
structure Passes (frame message : Frame) : Prop where
  command : message.command = "MESSAGE"
  destination : message.header "destination" = frame.header "destination"
  others : (message.headers.filter fun header =>
      header.1 != "destination" && (frame.headers.map Prod.fst).contains header.1) =
    frame.headers.filter fun header => header.1 != "destination"
  body : message.body = frame.body
  clean : message.NulFree

/-- A broker reads one frame from the bytes of a `SEND` and passes it on. -/
def Relays (limit : UInt64) (send message : Frame) : Prop :=
  ∃ frame rest, decodeOneWithLimit limit send.encode = (.ok (some frame), rest) ∧
    Passes frame message

section
variable {crates : Crates} {sender receiver : StompAdapter} {envelope : Envelope}
  {frame message : Frame}

theorem Passes.header (passes : Passes frame message) {name : String}
    (held : name ∈ frame.headers.map Prod.fst) (other : name ≠ "destination") :
    message.header name = frame.header name := by
  have through (headers : List (String × String)) (test : String × String → Bool)
      (kept : ∀ header, header.1 = name → test header = true) :
      (headers.filter test).find? (fun header => header.1 == name) =
        headers.find? fun header => header.1 == name := by
    rw [List.find?_filter]
    congr 1
    funext header
    by_cases same : header.1 = name
    · simp [same, kept header same]
    · simp [same]
  rw [Frame.header, Frame.header, ← through message.headers (fun header =>
    header.1 != "destination" && (frame.headers.map Prod.fst).contains header.1),
      passes.others, through]
  · intro header same
    simp [same, other]
  · intro header same
    rw [same, Bool.and_eq_true, List.contains_iff_mem]
    exact ⟨by simpa using other, held⟩

/-- The broker names the length of the body where the frame it read did. -/
theorem Passes.mem_lengths (passes : Passes frame message)
    (held : contentLength ∈ frame.headers.map Prod.fst) (header : String × String)
    (named : header.1 = contentLength) :
    header ∈ message.headers ↔ header ∈ frame.headers := by
  have other : (header.1 != "destination") = true := by
    rw [named]
    decide
  have known : (frame.headers.map Prod.fst).contains header.1 = true := by
    rw [named]
    exact List.contains_iff_mem.mpr held
  have kept : header ∈ message.headers.filter (fun header =>
      header.1 != "destination" && (frame.headers.map Prod.fst).contains header.1) ↔
        header ∈ frame.headers.filter fun header => header.1 != "destination" := by
    rw [passes.others]
  rw [List.mem_filter, List.mem_filter, known, other] at kept
  simpa using kept

/-- The receiver reads the message as the broker wrote it. -/
theorem Passes.decode (passes : Passes frame message) {limit : UInt64}
    (held : contentLength ∈ frame.headers.map Prod.fst)
    (right : ∀ header ∈ frame.headers, header.1 = contentLength →
      parseUsize header.2 = some frame.body.length)
    (arrives : message.encode.length ≤ limit.toNat) :
    decodeOneWithLimit limit message.encode = (.ok (some message), []) := by
  have writable : message.Writable := by
    refine ⟨?_, ?_, fun header member named => ?_⟩
    · rw [passes.command]
      decide
    · rw [passes.command]
      exact List.all_iff_forall_prop.mp
        (by decide : "MESSAGE".toList.all fun c => c ≠ '\n' ∧ c ≠ '\r' ∧ c ≠ '\x00')
    · rw [passes.body]
      exact right header ((passes.mem_lengths held header named).mp member) named
  have whole : message.wireHeaders = message.headers := by
    obtain ⟨header, member, named⟩ := List.mem_map.mp held
    have carried := (passes.mem_lengths held header named).mpr member
    exact if_pos (List.any_eq_true.mpr ⟨header, carried, by simp [named]⟩)
  have read := (writable.decode_iff arrives []).mpr passes.clean
  rw [List.append_nil, whole] at read
  exact read

theorem Routable.lengthless (routable : Routable crates envelope) :
    ∀ header ∈ envelope.headers.entries, header.1 ≠ contentLength := by
  intro header member named
  have apart : ¬ Namespaced contentLength := by
    unfold Namespaced
    decide
  exact apart (named ▸ (routable.headers header member).1)

/-- The frame a broker reads from a `SEND`. -/
def readBack (sender : StompAdapter) (envelope : Envelope) : Frame :=
  { sent sender envelope with headers := (sent sender envelope).headers ++
      [(contentLength, toString envelope.payload.length)] }

theorem readBack_of_relays (routable : Routable crates envelope) {limit : UInt64}
    (fits : (sent sender envelope).encode.length ≤ limit.toNat)
    (relays : Relays limit (sent sender envelope) message) :
    Passes (readBack sender envelope) message := by
  obtain ⟨frame, rest, read, passes⟩ := relays
  have known := (sent_writable routable.lengthless).decode fits []
  rw [List.append_nil, read, sent_wireHeaders routable.lengthless] at known
  split at known
  · cases known
  · cases known
    exact passes

/-- The headers a route travels in, whatever else goes with them. -/
theorem readBack_headers {hint : String} (typed : envelope.route.typeHint = some hint) :
    (readBack sender envelope).header "destination" =
      some (sender.map.toStomp envelope.route.topic) ∧
      (readBack sender envelope).header hdrTopic = some envelope.route.topic ∧
      (readBack sender envelope).header hdrTypeHint = some hint ∧
      (readBack sender envelope).header "content-type" = some envelope.contentType.value ∧
      ∀ name ∈ [hdrTopic, hdrTypeHint, "content-type", contentLength],
        name ∈ (readBack sender envelope).headers.map Prod.fst := by
  obtain ⟨id, ⟨topic, typeHint⟩, headers, contentType, payload⟩ := envelope
  cases typed
  refine ⟨rfl, rfl, rfl, rfl, ?_⟩
  simp [readBack, sent, sendFrame, outboundHeaders]

theorem sniffContentType_kept {contentType : ContentType} (payload : Bytes)
    (present : contentType.value ≠ "") (trimmed : trimText contentType.value = contentType.value)
    (bare : ';' ∉ contentType.value.toList) :
    sniffContentType payload (some contentType.value) = contentType := by
  have whole : contentType.value.toList.takeWhile (· != ';') = contentType.value.toList :=
    List.takeWhile_eq_self_iff.mpr fun c member => by
      simpa using fun same : c = ';' => bare (same ▸ member)
  simp [sniffContentType, whole, trimmed, present, Option.filter]

theorem stampInbound_contentType (adapter : StompAdapter) (frame : Frame) (dest : String)
    (envelope : Envelope) : (stampInbound adapter frame dest envelope).contentType =
      envelope.contentType := by
  rw [stampInbound]
  cases frame.header "message-id" <;> rfl

/-- An envelope comes out of a hop with its topic, type, content type and
payload, as one envelope of the receiving adapter. -/
theorem hop_keeps_route (routable : Routable crates envelope)
    (sends : forwardOutbound sender envelope = some frame) {limit arriving : UInt64}
    (fits : frame.encode.length ≤ limit.toNat) (relays : Relays limit frame message)
    (arrives : message.encode.length ≤ arriving.toNat) (ids : MessageId × MessageId) :
    ∃ received published, decodeOneWithLimit arriving message.encode = (.ok (some received), []) ∧
      inboundPublish crates receiver ids received = .ok [published] ∧
      published.route = envelope.route ∧ published.contentType = envelope.contentType ∧
      published.payload = envelope.payload ∧ published.origin = some receiver.id.value := by
  obtain rfl : sent sender envelope = frame := by
    rw [forwardOutbound] at sends
    split at sends
    · cases sends
    · exact Option.some.inj sends
  obtain ⟨hint, typed, present, -⟩ := routable.hint
  have passes := readBack_of_relays routable fits relays
  obtain ⟨destination, topic, typeHint, contentType, held⟩ :=
    @readBack_headers sender envelope hint typed
  obtain ⟨right, -⟩ := (@sent_writable sender envelope routable.lengthless).wire_lengths
    (Frame.body_lt fits)
  rw [sent_wireHeaders routable.lengthless] at right
  have read := passes.decode (held contentLength (by simp)) right arrives
  rw [← passes.destination] at destination
  rw [← passes.header (held hdrTopic (by simp)) (by decide)] at topic
  rw [← passes.header (held hdrTypeHint (by simp)) (by decide)] at typeHint
  rw [← passes.header (held "content-type" (by simp)) (by decide)] at contentType
  have body : message.body = envelope.payload := passes.body
  have named : namedTopic receiver message (sender.map.toStomp envelope.route.topic) =
      some envelope.route.topic := by
    rw [namedTopic, topic, Option.some_or]
  have plain : peels crates receiver message = false := by
    rw [peels, body, routable.plain]
    simp
  have run := @inboundPublish_eq crates receiver ids message _ _ destination named
  rw [plain, if_neg Bool.false_ne_true] at run
  obtain ⟨payload, route, echo⟩ :=
    @stampInbound_spec receiver message (sender.map.toStomp envelope.route.topic)
    (plainEnvelope crates ids.1 envelope.route.topic message)
  refine ⟨message, _, read, run, route.trans ?_, ?_, payload.trans body, ?_⟩
  · have kept : inboundRoute envelope.route.topic (some hint) = envelope.route := by
      rw [inboundRoute, if_neg present, RouteKey.typed, ← typed]
    rw [plainEnvelope, typeHint, Option.some_or, kept]
    rfl
  · obtain ⟨some_type, trimmed, bare, -⟩ := routable.content
    have kept := sniffContentType_kept message.body some_type trimmed bare
    rw [stampInbound_contentType, plainEnvelope, contentType, kept, Envelope.withContentType]
  · simpa [Envelope.isEchoOf] using echo

/-- The broker the bridge is tested against passes frames on this way. -/
theorem passes_messageFor {dest : String} (addressed : frame.header "destination" = some dest)
    (own : "subscription" ∉ frame.headers.map Prod.fst ∧ "message-id" ∉ frame.headers.map Prod.fst)
    (clean : frame.NulFree) (mid : Nat) {sub : Sub} (named : '\x00' ∉ sub.id.toList) :
    Passes frame (BrokerState.messageFor frame dest mid sub) := by
  obtain ⟨subscription, messageId⟩ := own
  refine ⟨rfl, addressed.symm, ?_, rfl, ?_⟩
  · have passed : (frame.headers.filter fun header => header.1 != "destination").filter
        (fun header =>
        header.1 != "destination" && (frame.headers.map Prod.fst).contains header.1) =
        frame.headers.filter fun header => header.1 != "destination" := by
      refine List.filter_eq_self.mpr fun header member => ?_
      obtain ⟨inside, other⟩ := List.mem_filter.mp member
      rw [other, Bool.true_and, List.contains_iff_mem]
      exact List.mem_map_of_mem inside
    have added :
      ([("destination", dest), ("subscription", sub.id), ("message-id", toString mid)].filter
        fun header => header.1 != "destination" && (frame.headers.map Prod.fst).contains header.1) =
            [] := by
      refine List.filter_eq_nil_iff.mpr fun header member => ?_
      simp only [List.mem_cons, List.not_mem_nil, or_false] at member
      rw [Bool.and_eq_true, List.contains_iff_mem]
      rcases member with rfl | rfl | rfl
      · simp
      · exact fun both => subscription both.2
      · exact fun both => messageId both.2
    rw [BrokerState.messageFor, List.filter_append, added, passed, List.nil_append]
  · have dest_clean : '\x00' ∉ dest.toList := by
      obtain ⟨header, found, rfl⟩ := Option.map_eq_some_iff.mp addressed
      exact (clean header (List.mem_of_find?_eq_some found)).2
    intro header member
    simp only [BrokerState.messageFor, List.mem_append, List.mem_cons, List.not_mem_nil, or_false,
      List.mem_filter] at member
    rcases member with (rfl | rfl | rfl) | ⟨inside, -⟩
    · exact ⟨(by decide : '\x00' ∉ "destination".toList), dest_clean⟩
    · exact ⟨(by decide : '\x00' ∉ "subscription".toList), named⟩
    · exact ⟨(by decide : '\x00' ∉ "message-id".toList), nul_not_mem_toString mid⟩
    · exact clean header inside

end

section Samples

def farAdapter : StompAdapter := ⟨⟨"far"⟩, ⟨"/queue", ["other"], true, false⟩⟩

/-- What the broker passes on of a client's ping. -/
def relayedPing : Frame :=
  BrokerState.messageFor (readBack pingAdapter (pingEnvelope "Ping" pingText)) "/topic/demo"
    7 ⟨2, "sub-0"⟩

theorem routable_ping : Routable pingCrates.toCrates (pingEnvelope "Ping" pingText) := by
  refine ⟨rfl, by decide, ⟨"Ping", rfl, by decide, by decide⟩, ?_, by decide⟩
  unfold Namespaced
  decide

theorem relays_ping :
    Relays 1024 (sent pingAdapter (pingEnvelope "Ping" pingText)) relayedPing := by
  have client := FromClient.of_publishOwp publishes_ping (List.mem_singleton.mpr rfl)
  have clean := (sent_nulFree_iff client (by decide) (by decide)).mpr untainted_ping
  have read := ((sent_writable client.lengthless).decode_iff fits_ping []).mpr clean
  rw [List.append_nil, sent_wireHeaders client.lengthless] at read
  refine ⟨_, _, read, passes_messageFor rfl (by decide) ?_ 7 (by decide)⟩
  have wire := (Frame.nulFree_wireHeaders _).mpr clean
  rwa [sent_wireHeaders client.lengthless] at wire

theorem hop_keeps_route_ping :
    ∃ received published, decodeOneWithLimit 1024 relayedPing.encode = (.ok (some received), []) ∧
      inboundPublish pingCrates.toCrates farAdapter (⟨"3"⟩, ⟨"4"⟩) received = .ok [published] ∧
      published.route = .typed "demo" "Ping" ∧ published.contentType = .json ∧
      published.payload = utf8 pingText ∧ published.origin = some "far" :=
  @hop_keeps_route pingCrates.toCrates pingAdapter farAdapter _ _ _ routable_ping rfl _ _
    fits_ping relays_ping
    (by decide +kernel) _

end Samples

end OaGateway.Stomp
