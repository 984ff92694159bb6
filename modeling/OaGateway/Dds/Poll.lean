import OaGateway.Dds.Participant

/-! One poll of the readers: when it gets through, and what it then publishes. -/
namespace OaGateway.Dds

open Lib OaGateway.Core

/-- The kind of a sample is one of the two the provider knows. -/
def Decodable (taken : Taken) : Prop :=
  taken.own = true ∨ taken.value.kind = "rx" ∨ taken.value.kind = "tx"

/-- A sample of this size is let through by one limit and refused by the other. -/
def BetweenLimits (adapter : DdsAdapter) (size : Nat) : Prop :=
  adapter.config.unwrapMaPayloads = true ∧ Agra.maxDecodedPayload < size ∧
    size ≤ adapter.config.maxSampleSize

/-- A sample that cannot stop a poll. -/
def Usable (adapter : DdsAdapter) (taken : Taken) : Prop :=
  taken.own = true ∨
    (taken.value.kind = "rx" ∨ taken.value.kind = "tx") ∧
      ¬ BetweenLimits adapter taken.value.encoded.length

/-- What one sample is published as when it arrives alone. -/
def alone (crates : Crates) (adapter : DdsAdapter) (topic : String) (taken : Taken) :
    List Envelope :=
  (pollInbound crates adapter [(topic, [taken])]).1

section
variable {crates : Crates} {adapter : DdsAdapter} {topic : String} {taken : Taken}

def MaDataPayload.sample (payload : MaDataPayload) : DdsSample where
  info :=
    { kind := if payload.kind = "rx" then .rx else .tx
      messageTypeEnum := payload.messageType
      originatorUuid := nonempty payload.originatorUuid
      rxPayloadId := nonempty payload.rxPayloadId
      commandId := nonempty payload.commandId
      destinationRouting := nonempty payload.destinationRouting }
  encoded := payload.encoded

theorem intoSample_eq_ok {payload : MaDataPayload} {sample : DdsSample} :
    payload.intoSample = .ok sample ↔ (payload.kind = "rx" ∨ payload.kind = "tx") ∧
      sample = payload.sample := by
  rw [MaDataPayload.intoSample, MaDataPayload.kindOf]
  by_cases received : payload.kind = "rx"
  · simp [received, MaDataPayload.sample, eq_comm]
  · by_cases sent : payload.kind = "tx"
    · simp [sent, MaDataPayload.sample, eq_comm]
    · simp [received, sent]

def arrivalsOf (topic : String) (taken : Taken) : List Arrival :=
  if taken.own then [] else [⟨topic, taken.value.sample, taken.ids⟩]

theorem decodeTaken_eq_ok {arrivals : List Arrival} :
    decodeTaken topic taken = .ok arrivals ↔ Decodable taken ∧
      arrivals = arrivalsOf topic taken := by
  rw [decodeTaken, Decodable, arrivalsOf]
  cases taken.own with
  | true => simp [eq_comm]
  | false =>
    simp only [Bool.false_eq_true, ↓reduceIte, false_or]
    cases read : taken.value.intoSample with
    | ok sample =>
      obtain ⟨kind, rfl⟩ := intoSample_eq_ok.mp read
      simp only [Except.ok.injEq, kind, true_and]
      exact eq_comm
    | error message =>
      have unknown : ¬ (taken.value.kind = "rx" ∨ taken.value.kind = "tx") := by
        intro kind
        have := intoSample_eq_ok.mpr ⟨kind, rfl⟩
        rw [read] at this
        cases this
      simp [unknown]

theorem pollReaders_eq_ok {readers : List (String × List Taken)} {arrivals : List Arrival} :
    pollReaders readers = .ok arrivals ↔
      (∀ reader ∈ readers, ∀ taken ∈ reader.2, Decodable taken) ∧
        arrivals = readers.flatMap fun reader => reader.2.flatMap (arrivalsOf reader.1) := by
  refine collect_flatten_eq_ok fun reader result => ?_
  exact collect_flatten_eq_ok fun taken arrivals => decodeTaken_eq_ok

/-- Only a sample between the two limits makes `inbound_publish` fail. -/
theorem inboundPublish_error_iff {ids : MessageId × MessageId} {sample : DdsSample} :
    (∃ message, inboundPublish crates adapter ids topic sample = .error message) ↔
      BetweenLimits adapter sample.encoded.length := by
  rw [inboundPublish, BetweenLimits, Agra.unwrappedFromParts]
  by_cases oversized : sample.encoded.length > adapter.config.maxSampleSize
  · simp only [oversized, ↓reduceIte, reduceCtorEq, exists_false, false_iff]
    omega
  · by_cases unwraps : adapter.config.unwrapMaPayloads = true
    · by_cases large : sample.encoded.length > Agra.maxDecodedPayload
      · simp [oversized, unwraps, large, Nat.le_of_not_gt oversized]
      · simp [oversized, unwraps, large]
    · simp [oversized, unwraps]

def publishedOf (crates : Crates) (adapter : DdsAdapter) (arrival : Arrival) : List Envelope :=
  ((inboundPublish crates adapter arrival.ids arrival.topic arrival.sample).toOption).getD []

/-- The adapter's loop gets through when no sample is between the limits, and
has then published what each gives. -/
theorem publishArrivals_spec (arrivals : List Arrival) :
    ((publishArrivals crates adapter arrivals).2 = .ok () ↔
        ∀ arrival ∈ arrivals, ¬ BetweenLimits adapter arrival.sample.encoded.length) ∧
      ((publishArrivals crates adapter arrivals).2 = .ok () →
        (publishArrivals crates adapter arrivals).1 =
            arrivals.flatMap (publishedOf crates adapter)) := by
  induction arrivals with
  | nil => simp [publishArrivals]
  | cons arrival rest ih =>
    have fails := @inboundPublish_error_iff crates adapter arrival.topic arrival.ids arrival.sample
    rw [publishArrivals]
    cases run : inboundPublish crates adapter arrival.ids arrival.topic arrival.sample with
    | error message =>
      rw [run] at fails
      simp [← fails]
    | ok envelopes =>
      rw [run] at fails
      have here : publishedOf crates adapter arrival =
        envelopes := by simp [publishedOf, run, Except.toOption]
      have fits : ¬ BetweenLimits adapter arrival.sample.encoded.length := by simp [← fails]
      refine ⟨?_, fun through => ?_⟩
      · simpa [fits] using ih.1
      · simp only [List.flatMap_cons, here, ih.2 through]

theorem usable_iff (topic : String) :
    Usable adapter taken ↔ Decodable taken ∧
      ∀ arrival ∈ arrivalsOf topic taken,
          ¬ BetweenLimits adapter arrival.sample.encoded.length := by
  rw [Usable, Decodable, arrivalsOf]
  cases taken.own with
  | true => simp
  | false => simp [MaDataPayload.sample]

theorem pollInbound_spec (readers : List (String × List Taken)) :
    ((pollInbound crates adapter readers).2 = .ok () ↔
        ∀ reader ∈ readers, ∀ taken ∈ reader.2, Usable adapter taken) ∧
      ((∀ reader ∈ readers, ∀ taken ∈ reader.2, Usable adapter taken) →
        (pollInbound crates adapter readers).1 = readers.flatMap fun reader =>
            reader.2.flatMap fun taken =>
          (arrivalsOf reader.1 taken).flatMap (publishedOf crates adapter)) := by
  cases polled : pollReaders readers with
  | error message =>
    have stuck : ¬ ∀ reader ∈ readers, ∀ taken ∈ reader.2, Usable adapter taken := by
      intro usable
      have decodable := fun reader inside taken member =>
        ((usable_iff reader.1).mp (usable reader inside taken member)).1
      have through := pollReaders_eq_ok.mpr ⟨decodable, rfl⟩
      rw [polled] at through
      cases through
    exact ⟨iff_of_false (by simp [pollInbound, polled]) stuck, fun usable => absurd usable stuck⟩
  | ok arrivals =>
    obtain ⟨decodable, rfl⟩ := pollReaders_eq_ok.mp polled
    obtain ⟨through, published⟩ := @publishArrivals_spec crates adapter
      (readers.flatMap fun reader => reader.2.flatMap (arrivalsOf reader.1))
    have usable : (∀ reader ∈ readers, ∀ taken ∈ reader.2, Usable adapter taken) ↔
        ∀ arrival ∈ readers.flatMap fun reader => reader.2.flatMap (arrivalsOf reader.1),
          ¬ BetweenLimits adapter arrival.sample.encoded.length := by
      simp only [List.mem_flatMap]
      constructor
      · rintro each arrival ⟨reader, inside, taken, member, arrived⟩
        exact ((usable_iff reader.1).mp (each reader inside taken member)).2 arrival arrived
      · intro each reader inside taken member
        refine (usable_iff reader.1).mpr ⟨decodable reader inside taken member,
          fun arrival arrived => ?_⟩
        exact each arrival ⟨reader, inside, taken, member, arrived⟩
    rw [pollInbound, polled, usable]
    refine ⟨through, fun fits => ?_⟩
    rw [published (through.mpr fits)]
    simp only [List.flatMap_assoc]

/-- A poll gets through and publishes what each sample would alone, exactly when
none has an unknown kind and none is between the two size limits. -/
theorem poll_keeps_iff (crates : Crates) (adapter : DdsAdapter)
    (readers : List (String × List Taken)) : (pollInbound crates adapter readers).2 = .ok () ∧
        (pollInbound crates adapter readers).1 =
          (readers.flatMap fun reader => reader.2.flatMap (alone crates adapter reader.1)) ↔
      ∀ reader ∈ readers, ∀ taken ∈ reader.2, Usable adapter taken := by
  obtain ⟨through, published⟩ := @pollInbound_spec crates adapter readers
  refine ⟨fun kept => through.mp kept.1, fun usable => ⟨through.mpr usable, ?_⟩⟩
  rw [published usable]
  refine List.flatMap_congr fun reader inside => List.flatMap_congr fun taken member => ?_
  have single := (@pollInbound_spec crates adapter [(reader.1, [taken])]).2
    (by simpa using usable reader inside taken member)
  simpa [alone] using single.symm

end

section Samples

def demoAdapter : DdsAdapter := ⟨⟨"dds"⟩, ⟨true, 16 * 1024 * 1024, none, .off⟩⟩

def emptySample (kind : String) : Taken :=
  ⟨false, ⟨kind, "PING", [], "", "", "", ""⟩, (⟨"1"⟩, ⟨"2"⟩)⟩

/-- One sample of an unknown kind ends the poll, and the sample before it is lost. -/
theorem poll_ended :
    pollInbound Uci.bareCrates demoAdapter [("demo", [emptySample "rx", emptySample "zz"])] =
        ([], .error "demo: unknown wrapper kind zz") ∧
      (alone Uci.bareCrates demoAdapter "demo" (emptySample "rx")).length = 2 :=
  ⟨rfl, rfl⟩

end Samples

end OaGateway.Dds
