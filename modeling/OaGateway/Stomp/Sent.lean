import OaGateway.Agra.Unwrap
import OaGateway.Owp.Publish
import OaGateway.Stomp.Bridge
import OaGateway.Stomp.Codec

/-! The `SEND` of an envelope a client published, as its peer reads it. -/
namespace OaGateway.Stomp

open Lib OaGateway.Core

/-- The headers an envelope comes to the engine with from a client. -/
def clientHeaders : List String :=
  [Agra.hdrWrapper, Agra.hdrMessageType, Agra.hdrInnerCt, Agra.hdrOriginator, Agra.hdrRxId,
    Agra.hdrCommandId, Agra.hdrDestRouting, "owp.service_id", "owp.conn_id"]

/-- What is known of such an envelope whatever the client sent. -/
structure FromClient (ids : MessageId × MessageId) (envelope : Envelope) : Prop where
  id : envelope.id = ids.1 ∨ envelope.id = ids.2
  content : envelope.contentType ∈ [ContentType.json, .xml, .octetStream]
  names : ∀ header ∈ envelope.headers.entries, header.1 ∈ clientHeaders

namespace FromClient
variable {crates : Owp.OwpCrates} {session : Owp.Session} {ids : MessageId × MessageId}
  {envelope : Envelope}
  {topic payload : String}

theorem withHeader (client : FromClient ids envelope) {name : String}
    (listed : name ∈ clientHeaders) (value : String) :
    FromClient ids (envelope.withHeader name value) := by
  refine ⟨client.id, client.content, fun header member => ?_⟩
  rcases mem_insertEntry member with rfl | kept
  · exact listed
  · exact client.names header kept

theorem withOptional (client : FromClient ids envelope) {name : String}
    (listed : name ∈ clientHeaders) (value : Option String) :
    FromClient ids (Agra.withOptional envelope name value) := by
  cases value with
  | none => exact client
  | some value => exact client.withHeader listed value

theorem new {id : MessageId} (drawn : id = ids.1 ∨ id = ids.2) (route : RouteKey) (bytes : Bytes)
    {contentType : ContentType} (known : contentType ∈ [ContentType.json, .xml, .octetStream]) :
    FromClient ids ((Envelope.new id route bytes).withContentType contentType) :=
  ⟨drawn, known, fun header member => absurd member
    (by simp [Envelope.withContentType, Envelope.new, OrdMap.empty])⟩

theorem sniffed (bytes : Bytes) : Agra.sniffContentType bytes ∈
    [ContentType.json, .xml, .octetStream] := by
  rw [Agra.sniffContentType]
  split
  · split_ifs <;> simp
  · simp

theorem innerEnvelope {id : MessageId} (drawn : id = ids.1 ∨ id = ids.2) (topic : String)
    (bytes : Bytes) {contentType : ContentType}
    (known : contentType ∈ [ContentType.json, .xml, .octetStream]) (hint : String)
    (info : Agra.WrapperMeta) :
    FromClient ids (Agra.innerEnvelope id topic bytes contentType hint info) := by
  have wrapper : Agra.hdrWrapper ∈ clientHeaders := by decide
  have messageType : Agra.hdrMessageType ∈ clientHeaders := by decide
  have contentTypes : Agra.hdrInnerCt ∈ clientHeaders := by decide
  have base :=
    (((new drawn (.typed topic hint) bytes known).withHeader wrapper
    info.kind.elementName).withHeader
    messageType info.messageTypeEnum).withHeader contentTypes contentType.value
  exact (((base.withOptional (by decide) _).withOptional (by decide) _).withOptional
    (by decide) _).withOptional
    (by decide) _

theorem of_unwrap {peeled : Agra.Unwrapped} {bytes : Bytes}
    (run : Agra.unwrap crates.toCrates ids topic bytes = .ok peeled) :
    FromClient ids peeled.wrapper ∧ FromClient ids peeled.inner := by
  obtain ⟨text, contentType, known, info, inner, rfl⟩ := Agra.unwrap_inv run
  exact ⟨new (.inl rfl) _ _ known, innerEnvelope (.inr rfl) _ _ (sniffed inner) _ _⟩

theorem of_outgoing {envelopes : List Envelope}
    (run : Owp.outgoing crates session ids topic payload = .ok envelopes) :
    ∀ envelope ∈ envelopes, FromClient ids envelope := by
  rw [Owp.outgoing] at run
  split at run
  · split at run
    · rename_i peeled unwrapped
      cases run
      obtain ⟨wrapper, inner⟩ := of_unwrap unwrapped
      simp [wrapper, inner]
    · cases run
  · split at run
    · split at run
      · cases run
        simpa using new (.inl rfl) _ _ (by simp)
      · cases run
    · split at run
      · cases run
        simpa using new (.inl rfl) _ _ (by simp)
      · cases run

/-- Conversion changes the payload, the hint and the content type. -/
theorem convert {after : Envelope} (client : FromClient ids envelope)
    (run : Owp.convert crates session envelope = .ok after) : FromClient ids after := by
  rw [Owp.convert] at run
  split at run
  · split at run
    · cases run
    · rw [Owp.towardXml] at run
      split at run
      · cases run
        exact ⟨client.id, by simp, client.names⟩
      · split at run
        · cases run
        · obtain ⟨text, -, run⟩ := bind_eq_ok.mp run
          obtain ⟨message, -, run⟩ := bind_eq_ok.mp run
          obtain ⟨xml, -, run⟩ := bind_eq_ok.mp run
          cases run
          exact ⟨client.id, by simp, client.names⟩
  · cases run
    exact client

/-- Everything a client's publish hands to the engine. -/
theorem of_publishOwp {serviceId : String} {envelopes : List Envelope}
    (run : Owp.publishOwp crates session serviceId ids topic payload = .ok envelopes)
    (member : envelope ∈ envelopes) : FromClient ids envelope := by
  rw [Owp.publishOwp] at run
  split at run
  · cases run
  · rename_i sources ready
    obtain ⟨source, inside, prepared⟩ := of_mem_collect run member
    have client := of_outgoing ready source inside
    obtain ⟨converted, changed, rfl⟩ := Owp.prepare_inv prepared
    have service : "owp.service_id" ∈ clientHeaders := by decide
    have connection : "owp.conn_id" ∈ clientHeaders := by decide
    exact ((client.convert changed).withHeader service serviceId).withHeader connection _

end FromClient

/-- No NUL in anything a `SEND` takes from its adapter and its envelope. -/
def Untainted (adapter : StompAdapter) (envelope : Envelope) : Prop :=
  '\x00' ∉ adapter.config.destinationLead.toList ∧ '\x00' ∉ adapter.id.value.toList ∧
    '\x00' ∉ envelope.route.topic.toList ∧
    (∀ hint ∈ envelope.route.typeHint, '\x00' ∉ hint.toList) ∧
      ∀ header ∈ envelope.headers.entries, '\x00' ∉ header.2.toList

section
variable {adapter : StompAdapter} {envelope : Envelope} {ids : MessageId × MessageId}

theorem nul_mem_toStomp (adapter : StompAdapter) (topic : String) :
    '\x00' ∈ (adapter.map.toStomp topic).toList ↔
      '\x00' ∈ adapter.config.destinationLead.toList ∨ '\x00' ∈ topic.toList := by
  have lead : '\x00' ∈ adapter.map.lead.toList ↔
      '\x00' ∈ adapter.config.destinationLead.toList := by
    rw [StompAdapter.map, DestinationMap.new]
    split
    · rfl
    · simp
  have dropped (text : List Char) : '\x00' ∈ text.dropWhile (· == '/') ↔ '\x00' ∈ text := by
    induction text with
    | nil => simp
    | cons c rest ih =>
      by_cases slash : c = '/'
      · simp [slash, ih]
      · simp [slash]
  simp [DestinationMap.toStomp, lead, dropped]

/-- No header of a `SEND` names the length of its body, unless the envelope's do. -/
theorem sent_lengthless (others : ∀ header ∈ envelope.headers.entries, header.1 ≠ contentLength) :
    ∀ header ∈ (sent adapter envelope).headers, header.1 ≠ contentLength := by
  have own : "destination" ≠ contentLength ∧ "content-type" ≠ contentLength ∧
    hdrOrigin ≠ contentLength ∧
      hdrTopic ≠ contentLength ∧ hdrId ≠ contentLength ∧ hdrTypeHint ≠ contentLength := by decide
  obtain ⟨destination, content, origin, topic, id, hint⟩ := own
  intro header member
  simp only [sent, sendFrame, outboundHeaders, List.mem_append, List.mem_cons,
    List.not_mem_nil, or_false, Option.mem_toList, Option.map_eq_some_iff,
      List.mem_filter] at member
  rcases member with rfl | ((rfl | rfl | rfl | rfl) | ⟨value, -, rfl⟩) | ⟨carried, -⟩
  · exact destination
  · exact content
  · exact origin
  · exact topic
  · exact id
  · exact hint
  · exact others header carried

theorem sent_writable (others : ∀ header ∈ envelope.headers.entries, header.1 ≠ contentLength) :
    (sent adapter envelope).Writable where
  named := by
    have known : "SEND" ≠ "" := by decide
    exact known
  single := List.all_iff_forall_prop.mp
    (by decide : "SEND".toList.all fun c => c ≠ '\n' ∧ c ≠ '\r' ∧ c ≠ '\x00')
  lengths header member named := absurd named (sent_lengthless others header member)

theorem sent_wireHeaders (others : ∀ header ∈ envelope.headers.entries, header.1 ≠ contentLength) :
    (sent adapter envelope).wireHeaders =
      (sent adapter envelope).headers ++ [(contentLength, toString envelope.payload.length)] := by
  rw [Frame.wireHeaders, if_neg]
  · rfl
  · rw [List.any_eq_true]
    rintro ⟨header, member, named⟩
    exact sent_lengthless others header member (by simpa using named)

theorem FromClient.lengthless (client : FromClient ids envelope) :
    ∀ header ∈ envelope.headers.entries, header.1 ≠ contentLength := by
  have names : ∀ name ∈ clientHeaders, name ≠ contentLength := by decide
  exact fun header member => names header.1 (client.names header member)

/-- Every header an envelope brings from a client goes out, under its own name. -/
theorem sent_headers (client : FromClient ids envelope) :
    (sent adapter envelope).headers =
      [("destination", adapter.map.toStomp envelope.route.topic),
        ("content-type", envelope.contentType.value),
          (hdrOrigin, adapter.id.value), (hdrTopic, envelope.route.topic),
            (hdrId, envelope.id.uuid)] ++
        (envelope.route.typeHint.map fun hint => (hdrTypeHint, hint)).toList ++
            envelope.headers.entries := by
  have kept : envelope.headers.entries.filter (fun header => copied header.1) =
      envelope.headers.entries := by
    refine List.filter_eq_self.mpr fun header member => ?_
    have each : ∀ name ∈ clientHeaders, copied name = true := by decide
    exact each header.1 (client.names header member)
  simp [sent, sendFrame, outboundHeaders, kept]

/-- The headers of a `SEND` are free of NUL when what they are made of is. -/
theorem sent_nulFree_iff (client : FromClient ids envelope) (first : '\x00' ∉ ids.1.uuid.toList)
    (second : '\x00' ∉ ids.2.uuid.toList) :
    (sent adapter envelope).NulFree ↔ Untainted adapter envelope := by
  have id : '\x00' ∉ envelope.id.uuid.toList := by
    rcases client.id with same | same
    · rwa [same]
    · rwa [same]
  have content : '\x00' ∉ envelope.contentType.value.toList := by
    have each : ∀ known ∈ [ContentType.json, .xml, .octetStream],
      '\x00' ∉ known.value.toList := by decide
    exact each _ client.content
  have names : ∀ header ∈ envelope.headers.entries, '\x00' ∉ header.1.toList := by
    have each : ∀ name ∈ clientHeaders, '\x00' ∉ name.toList := by decide
    exact fun header member => each _ (client.names header member)
  have fixed : '\x00' ∉ "destination".toList ∧ '\x00' ∉ "content-type".toList ∧
    '\x00' ∉ hdrOrigin.toList ∧
      '\x00' ∉ hdrTopic.toList ∧ '\x00' ∉ hdrId.toList ∧ '\x00' ∉ hdrTypeHint.toList := by decide
  obtain ⟨destination, contentName, originName, topicName, idName, hintName⟩ := fixed
  rw [Frame.NulFree, sent_headers client, Untainted]
  simp only [List.forall_mem_append, List.forall_mem_cons, nul_mem_toStomp, Option.mem_toList,
    Option.map_eq_some_iff, not_or]
  constructor
  · rintro ⟨⟨⟨⟨-, lead, topic⟩, -, ⟨-, origin⟩, -⟩, hints⟩, headers⟩
    exact ⟨lead, origin, topic, fun hint found => (hints _ ⟨hint, found, rfl⟩).2,
      fun header member => (headers header member).2⟩
  · rintro ⟨lead, origin, topic, hints, headers⟩
    refine ⟨⟨⟨⟨destination, lead, topic⟩, ⟨contentName, content⟩, ⟨originName, origin⟩,
      ⟨topicName, topic⟩, ⟨idName, id⟩, by simp⟩, ?_⟩, fun header member =>
        ⟨names header member, headers header member⟩⟩
    rintro header ⟨hint, found, rfl⟩
    exact ⟨hintName, hints hint found⟩

/-- The peer reads the `SEND` of a client's envelope as the frame it was, with
its length, exactly when no NUL has got into its headers. -/
theorem send_decodes_iff {crates : Owp.OwpCrates} {session : Owp.Session}
    {serviceId topic payload : String} {envelopes : List Envelope} {frame : Frame} {limit : UInt64}
    (first : '\x00' ∉ ids.1.uuid.toList) (second : '\x00' ∉ ids.2.uuid.toList)
    (published : Owp.publishOwp crates session serviceId ids topic payload = .ok envelopes)
    (member : envelope ∈ envelopes) (sends : forwardOutbound adapter envelope = some frame)
    (fits : frame.encode.length ≤ limit.toNat) :
    decodeOneWithLimit limit frame.encode =
        (.ok (some ⟨"SEND", frame.headers ++ [("content-length", toString frame.body.length)],
          frame.body⟩), []) ↔
      Untainted adapter envelope := by
  have client := FromClient.of_publishOwp published member
  obtain rfl : sent adapter envelope = frame := by
    rw [forwardOutbound] at sends
    split at sends
    · cases sends
    · exact Option.some.inj sends
  have read := (sent_writable client.lengthless).decode_iff fits []
  rw [List.append_nil, sent_wireHeaders client.lengthless] at read
  rw [← sent_nulFree_iff client first second]
  exact read

end

section Samples

def pingText : String := "\x7b\"Ping\":1\x7d"

/-- A member whose name is spelled with an escape. -/
def nulText : String := "\x7b\"\\u0000\":1\x7d"

def pingCrates : Owp.OwpCrates where
  jsonParse text :=
    if text = pingText then .ok (.object [("Ping", .number (.posInt 1))])
    else if text = nulText then .ok (.object [("\x00", .number (.posInt 1))])
    else .error "expected value"
  jsonPrint _ := ""
  floatPrint _ := ""
  floatDisplay _ := ""
  xmlParse _ := .error "unknown token"
  regex _ := none
  hexUpper := upperHex
  initParse _ := .error "expected value"
  uuidV5 _ := ""

def pingSession : Owp.Session where
  adapterId := ⟨"owp"⟩
  schema := none
  connId := 1
  config :=
    { serverId := "oa-gateway-0"
      systemLabel := "OA-Gateway Prototype"
      schema := none
      systemUuid := ""
      unwrapMaPayloads := true
      xmlBaseline := false
      maxSubscriptions := 1024
      initTimeout := true
      idleTimeout := true
      validate := .off }

def pingAdapter : StompAdapter := ⟨⟨"stomp"⟩, ⟨"/topic/", ["demo"], true, true⟩⟩

/-- What a client's publish of a number under some name comes to. -/
def pingEnvelope (name text : String) : Envelope :=
  Owp.stamp pingSession "svc"
    ((Envelope.new ⟨"1"⟩ (.typed "demo" name) (utf8 text)).withContentType .json)

theorem publishes_ping :
    Owp.publishOwp pingCrates pingSession "svc" (⟨"1"⟩, ⟨"2"⟩) "demo" pingText =
      .ok [pingEnvelope "Ping" pingText] := by
  rfl

theorem publishes_nul :
    Owp.publishOwp pingCrates pingSession "svc" (⟨"1"⟩, ⟨"2"⟩) "demo" nulText =
      .ok [pingEnvelope "\x00" nulText] := by
  rfl

theorem fits_ping : (sent pingAdapter (pingEnvelope "Ping" pingText)).encode.length ≤
    (1024 : UInt64).toNat := by
  decide +kernel

theorem fits_nul : (sent pingAdapter (pingEnvelope "\x00" nulText)).encode.length ≤
    (1024 : UInt64).toNat := by
  decide +kernel

theorem untainted_ping : Untainted pingAdapter (pingEnvelope "Ping" pingText) := by
  refine ⟨by decide, by decide, by decide, ?_, by decide⟩
  intro hint found
  cases (found : some "Ping" = some hint)
  decide

theorem send_decodes_iff_ping :
    decodeOneWithLimit 1024 (sent pingAdapter (pingEnvelope "Ping" pingText)).encode =
      (.ok (some ⟨"SEND", (sent pingAdapter (pingEnvelope "Ping" pingText)).headers ++
        [("content-length", "10")], utf8 pingText⟩), []) :=
  (send_decodes_iff (by decide) (by decide) publishes_ping (by simp) rfl fits_ping).mpr
    untainted_ping

/-- A member named by an escape puts a NUL into a header, and the frame is refused. -/
theorem send_refused :
    ∃ envelope, Owp.publishOwp pingCrates pingSession "svc" (⟨"1"⟩, ⟨"2"⟩) "demo" nulText =
      .ok [envelope] ∧
      ∃ frame, forwardOutbound pingAdapter envelope = some frame ∧
      frame.encode.length ≤ (1024 : UInt64).toNat ∧
        (decodeOneWithLimit 1024 frame.encode).1 = .error .nulInHeaders := by
  refine ⟨_, publishes_nul, sent pingAdapter (pingEnvelope "\x00" nulText), rfl, fits_nul, ?_⟩
  have client := FromClient.of_publishOwp publishes_nul (List.mem_singleton.mpr rfl)
  have tainted : ¬ Untainted pingAdapter (pingEnvelope "\x00" nulText) := fun clean =>
    absurd (clean.2.2.2.1 "\x00" rfl) (by decide)
  have nul := mt (sent_nulFree_iff client (by decide) (by decide)).mp tainted
  have read := (sent_writable client.lengthless).decode fits_nul []
  rw [if_pos ((sent_writable client.lengthless).nul_mem_head.mpr nul), List.append_nil] at read
  rw [read]

end Samples

end OaGateway.Stomp
