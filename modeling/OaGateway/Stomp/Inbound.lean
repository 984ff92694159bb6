import OaGateway.Agra.Unwrap
import OaGateway.Stomp.Bridge

/-! What a `MESSAGE` is published as, and on which topics. -/
namespace OaGateway.Stomp

open Lib OaGateway.Core

/-- The topic a frame names: its own header's, else what follows the lead of its
destination. -/
def namedTopic (adapter : StompAdapter) (frame : Frame) (dest : String) : Option String :=
  (frame.header hdrTopic).or (adapter.map.fromStomp dest)

/-- The frame is taken for a wrapper. -/
def peels (crates : Crates) (adapter : StompAdapter) (frame : Frame) : Bool :=
  adapter.config.unwrapMaPayloads && (Agra.wrapperKind crates frame.body).isSome

/-- The envelope of a frame that is not taken for a wrapper. -/
def plainEnvelope (crates : Crates) (id : MessageId) (topic : String) (frame : Frame) : Envelope :=
  (Envelope.new id
    (inboundRoute topic ((frame.header hdrTypeHint).or (sniffTypeHint crates frame.body)))
    frame.body).withContentType (sniffContentType frame.body (frame.header "content-type"))

section
variable {crates : Crates} {adapter : StompAdapter} {ids : MessageId × MessageId} {frame : Frame}

/-- The three ways through `inbound_publish` that publish something, or fail late. -/
theorem inboundPublish_eq {dest topic : String} (received : frame.header "destination" = some dest)
    (named : namedTopic adapter frame dest = some topic) :
    inboundPublish crates adapter ids frame =
      if peels crates adapter frame then
        match Agra.unwrap crates ids topic frame.body with
        | .error error => .error error.display
        | .ok peeled =>
          .ok [stampInbound adapter frame dest peeled.wrapper,
            stampInbound adapter frame dest peeled.inner]
      else .ok [stampInbound adapter frame dest (plainEnvelope crates ids.1 topic frame)] := by
  rw [namedTopic] at named
  simp only [inboundPublish, received, named]
  rfl

theorem inboundPublish_inv {envelopes : List Envelope}
    (run : inboundPublish crates adapter ids frame = .ok envelopes) :
    ∃ dest topic, frame.header "destination" = some dest ∧
      namedTopic adapter frame dest = some topic ∧
      ((peels crates adapter frame = true ∧
        ∃ peeled, Agra.unwrap crates ids topic frame.body = .ok peeled ∧
          envelopes = [stampInbound adapter frame dest peeled.wrapper,
            stampInbound adapter frame dest peeled.inner]) ∨
        (peels crates adapter frame = false ∧
          envelopes =
              [stampInbound adapter frame dest (plainEnvelope crates ids.1 topic frame)])) := by
  cases received : frame.header "destination" with
  | none =>
    rw [inboundPublish, received] at run
    cases run
  | some dest =>
    cases named : namedTopic adapter frame dest with
    | none =>
      rw [namedTopic] at named
      simp only [inboundPublish, received, named] at run
      cases run
    | some topic =>
      refine ⟨dest, topic, rfl, named, ?_⟩
      rw [inboundPublish_eq received named] at run
      split at run
      · rename_i wrapped
        split at run
        · cases run
        · rename_i peeled unwrapped
          exact .inl ⟨wrapped, peeled, unwrapped, (Except.ok.inj run).symm⟩
      · rename_i plain
        exact .inr ⟨Bool.not_eq_true _ ▸ plain, (Except.ok.inj run).symm⟩

theorem topic_inboundRoute (topic : String) (hint : Option String) :
    (inboundRoute topic hint).topic = topic := by
  cases hint with
  | none => rfl
  | some hint =>
    rw [inboundRoute]
    split <;> rfl

/-- Everything a frame publishes goes out on the topic it names. -/
theorem topic_of_inboundPublish {envelopes : List Envelope}
    (run : inboundPublish crates adapter ids frame = .ok envelopes) :
    ∃ dest topic, frame.header "destination" = some dest ∧
      namedTopic adapter frame dest = some topic ∧ envelopes ≠ [] ∧
          ∀ envelope ∈ envelopes, envelope.route.topic = topic := by
  obtain ⟨dest, topic, received, named, ⟨-, peeled, unwrapped, rfl⟩ | ⟨-, rfl⟩⟩ :=
    inboundPublish_inv run
  · refine ⟨dest, topic, received, named, by simp, ?_⟩
    obtain ⟨wrapper, inner⟩ := Agra.topic_of_unwrap unwrapped
    simp [(stampInbound_spec _ _ _).2.1, wrapper, inner]
  · refine ⟨dest, topic, received, named, by simp, ?_⟩
    simp only [List.mem_singleton, forall_eq, (stampInbound_spec _ _ _).2.1]
    exact topic_inboundRoute _ _

/-- The frame names a listed topic, or names none, or is a wrapper that does not
unwrap. -/
def NamesListed (crates : Crates) (adapter : StompAdapter) (ids : MessageId × MessageId)
    (frame : Frame) : Prop :=
  ∀ dest topic, frame.header "destination" = some dest →
  namedTopic adapter frame dest = some topic →
    topic ∈ adapter.config.topics ∨
      peels crates adapter frame = true ∧
        ∃ error, Agra.unwrap crates ids topic frame.body = .error error

/-- A frame is published on listed topics only exactly when it names one. The
topic a producer writes into a header is taken as it is. -/
theorem inbound_topics_iff (crates : Crates) (adapter : StompAdapter) (ids : MessageId × MessageId)
    (frame : Frame) :
    (∀ envelopes, inboundPublish crates adapter ids frame = .ok envelopes →
        ∀ envelope ∈ envelopes, envelope.route.topic ∈ adapter.config.topics) ↔
      NamesListed crates adapter ids frame := by
  constructor
  · intro listed dest topic received named
    cases run : inboundPublish crates adapter ids frame with
    | ok envelopes =>
      obtain ⟨dest', topic', received', named', some, each⟩ := topic_of_inboundPublish run
      obtain rfl : dest = dest' := Option.some.inj (received.symm.trans received')
      obtain rfl : topic = topic' := Option.some.inj (named.symm.trans named')
      obtain ⟨envelope, member⟩ := List.exists_mem_of_ne_nil _ some
      exact .inl (each envelope member ▸ listed envelopes run envelope member)
    | error message =>
      rw [inboundPublish_eq received named] at run
      split at run
      · rename_i wrapped
        split at run
        · rename_i error failed
          exact .inr ⟨wrapped, error, failed⟩
        · cases run
      · cases run
  · intro names envelopes run envelope member
    obtain ⟨dest, topic, received, named, -, each⟩ := topic_of_inboundPublish run
    rw [each envelope member]
    rcases names dest topic received named with listed | ⟨wrapped, error, failed⟩
    · exact listed
    · rw [inboundPublish_eq received named, if_pos wrapped, failed] at run
      cases run

/-- A client of the broker may name any topic on a destination that is bridged. -/
def straySend : Frame where
  command := "MESSAGE"
  headers := [("destination", "/topic/demo"), ("subscription", "sub-0"), ("message-id", "1"),
    (hdrTopic, "internal")]
  body := []

def demoOnly : StompAdapter := ⟨⟨"stomp"⟩, ⟨"/topic/", ["demo"], true, true⟩⟩

theorem inbound_topic_unlisted :
    straySend.header "destination" = some (demoOnly.map.toStomp "demo") ∧
      "demo" ∈ demoOnly.config.topics ∧
      ∃ envelope, inboundPublish Uci.bareCrates demoOnly (⟨"1"⟩, ⟨"2"⟩) straySend = .ok [envelope] ∧
        envelope.route.topic ∉ demoOnly.config.topics :=
  ⟨rfl, by decide, _, rfl, by decide⟩

end

end OaGateway.Stomp
