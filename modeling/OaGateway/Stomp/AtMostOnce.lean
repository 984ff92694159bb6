import OaGateway.Stomp.WayBack

/-! Which messages a bridge delivers at most once. -/
namespace OaGateway.Stomp

open Lib OaGateway.Core

section
variable {link : Link} {envelope : Envelope} {bridge : Bridge} {key : SubscriberKey}
  {sub : Subscription}

private theorem sharing_pos (started : Started link envelope bridge) :
    0 < sharing link.adapter envelope.route.topic :=
  List.countP_pos_iff.mpr ⟨_, started.bridged, beq_self_eq_true _⟩

private theorem count_le_sharing (adapter : StompAdapter) (topic : String) :
    adapter.config.topics.count topic ≤ sharing adapter topic := by
  refine List.countP_mono_left fun other _ same => ?_
  rw [beq_iff_eq] at same
  rw [same, beq_self_eq_true]

/-- A subscription that takes the envelope when it comes back gets it twice, if
it took it before or if it comes back twice. -/
theorem received_twice (started : Started link envelope bridge)
    (quiet : link.adapter.config.suppressEcho = true)
    (plain : link.adapter.config.unwrapMaPayloads = false)
    (found : bridge.world.engine.state.byKey.lookup key = some sub)
    (other : key.adapterId ≠ link.adapter.id)
    (again : sub.route.Accepts (returnRoute link.crates link.adapter envelope))
    (twice : sub.route.Accepts envelope.route ∨ 1 < sharing link.adapter envelope.route.topic) :
    ∃ events after, (bridgeSystem link envelope).Run bridge events after ∧
      2 ≤ received envelope key sub after := by
  have routed := started.indexed.routed
  have apart := started.session.other_channel found other
  have once := started.count found (returnRoute link.crates link.adapter envelope)
  rw [if_pos again] at once
  have length := started.own_subs envelope.route.topic
  obtain ⟨events, out, mid, run, standing, waiting, first⟩ := run_out started quiet found other
  obtain ⟨own, others, subs⟩ := List.exists_cons_of_length_pos (length ▸ sharing_pos started)
  rw [subs, List.map_cons] at waiting
  obtain ⟨more, back, run', standing', waiting', second⟩ :=
    @run_return link envelope out key sub _ standing routed plain apart _ _ _ _ waiting
  rw [once] at second
  by_cases taken : sub.route.Accepts envelope.route
  · rw [takes, if_pos taken] at first
    exact ⟨_, back, run.append run', by omega⟩
  · have shared : 0 < others.length := by
      have := twice.resolve_left taken
      rw [subs, List.length_cons] at length
      omega
    obtain ⟨own', others', rfl⟩ := List.exists_cons_of_length_pos shared
    rw [List.map_cons] at waiting'
    obtain ⟨still, last, run'', -, -, third⟩ :=
      @run_return link envelope back key sub _ standing' routed plain apart _ _ _ _ waiting'
    rw [once] at third
    exact ⟨_, last, (run.append run').append run'', by omega⟩

/-- In every run each other subscription gets the payload at most once, exactly
when none takes it as it comes back, save one that did not take it before where
it comes back once. -/
theorem received_at_most_once_iff (started : Started link envelope bridge)
    (quiet : link.adapter.config.suppressEcho = true)
    (plain : link.adapter.config.unwrapMaPayloads = false) :
    (∀ events after key sub, (bridgeSystem link envelope).Run bridge events after →
        bridge.world.engine.state.byKey.lookup key = some sub → key.adapterId ≠ link.adapter.id →
        received envelope key sub after ≤ 1) ↔
      ∀ key sub, bridge.world.engine.state.byKey.lookup key = some sub →
      key.adapterId ≠ link.adapter.id →
        sub.route.Accepts (returnRoute link.crates link.adapter envelope) →
        ¬ sub.route.Accepts envelope.route ∧ sharing link.adapter envelope.route.topic ≤ 1 := by
  constructor
  · intro holds key sub found other again
    by_contra fails
    have twice : sub.route.Accepts envelope.route ∨
        1 < sharing link.adapter envelope.route.topic := by
      by_cases taken : sub.route.Accepts envelope.route
      · exact .inl taken
      · exact .inr (not_le.mp fun shared => fails ⟨taken, shared⟩)
    obtain ⟨events, after, run, got⟩ := received_twice started quiet plain found other again twice
    have := holds events after key sub run found other
    omega
  · intro condition events after key sub run found other
    have bound := received_le started quiet plain run found
    by_cases again : sub.route.Accepts (returnRoute link.crates link.adapter envelope)
    · obtain ⟨untaken, shared⟩ := condition key sub found other again
      have fewer := count_le_sharing link.adapter envelope.route.topic
      have product := Nat.mul_le_mul shared (fewer.trans shared)
      rw [takes, takes, if_neg untaken, if_pos again] at bound
      omega
    · rw [takes, takes, if_neg again, Nat.zero_mul] at bound
      split at bound <;> omega

end

section Samples

def demoText : String := "\x7b\"Ping\":1\x7d"

/-- A JSON parser that knows one text. -/
def demoCrates : Crates where
  jsonParse text :=
    if text = demoText then .ok (.object [("Ping", .number (.posInt 1))])
      else .error "expected value"
  jsonPrint _ := ""
  floatPrint _ := ""
  floatDisplay _ := ""
  xmlParse _ := .error "unknown token"
  regex _ := none
  hexUpper := upperHex

def demoLink : Link where
  crates := demoCrates
  adapter := ⟨⟨"stomp"⟩, ⟨"/topic/", ["demo"], false, true⟩⟩
  tx := ⟨0⟩
  connId := 1

def demoEnvelope : Envelope :=
  (Envelope.new ⟨"3"⟩ (.typed "demo" "Ping") (utf8 demoText)).withContentType .json

def clientKey : SubscriberKey := ⟨⟨"owp"⟩, ⟨"1:s1"⟩⟩

def bridgeKey : SubscriberKey := ⟨⟨"stomp"⟩, ⟨"stomp-out-0"⟩⟩

def clientSub (hint : String) : Subscription := ⟨.typed "demo" hint, ⟨1⟩⟩

/-- A client has subscribed to one type on the topic. -/
def clientState (hint : String) : State :=
  (State.default.subscribe clientKey.adapterId clientKey.subId (clientSub hint).route
    (clientSub hint).tx).2

/-- The session has come up after it. -/
def demoState (hint : String) : State :=
  ((clientState hint).subscribe bridgeKey.adapterId bridgeKey.subId (.wildcard "demo")
    demoLink.tx).2

def demoBridge (hint : String) : Bridge where
  world :=
    { engine := ⟨demoState hint, ⟨1, 0, 0⟩⟩
      channels := fun _ => ⟨defaultChannelCapacity, [], false⟩
      publishes := [⟨demoEnvelope, .counted⟩]
      enqueued := [] }
  broker := (subscribeFrames demoLink.adapter).foldl (·.heed demoLink.connId) ⟨[], 1⟩
  toBroker := []
  toAdapter := []
  pending := []
  publishing := none

private theorem byKey_demoState (hint : String) :
    (demoState hint).byKey =
      Finmap.insert bridgeKey ⟨.wildcard "demo", ⟨0⟩⟩
        (Finmap.insert clientKey (clientSub hint) ∅) := rfl

private theorem lookup_demoState {hint : String} {key : SubscriberKey} {sub : Subscription}
    (found : (demoState hint).byKey.lookup key = some sub) :
    key = bridgeKey ∧ sub = ⟨.wildcard "demo", ⟨0⟩⟩ ∨ key = clientKey ∧ sub = clientSub hint := by
  rw [byKey_demoState, Table.lookup_insert_ite, Table.lookup_insert_ite] at found
  split at found
  · exact .inl ⟨‹_›, (Option.some.inj found).symm⟩
  · split at found
    · exact .inr ⟨‹_›, (Option.some.inj found).symm⟩
    · cases found

private theorem started_demo (hint : String) : Started demoLink demoEnvelope (demoBridge hint) where
  connected := by
    have reached : calls.Reachable (clientState hint) :=
      ⟨.default, [.subscribe clientKey.adapterId clientKey.subId (clientSub hint).route
        (clientSub hint).tx], rfl, run_foldl _ _⟩
    have keys : (clientState hint).byKey = Finmap.insert clientKey (clientSub hint) ∅ := rfl
    refine ⟨clientState hint, .unspecified, reached, ?_, rfl⟩
    intro key sub found
    rw [keys, Table.lookup_insert_ite] at found
    split at found
    · cases found
      exact (by decide : (⟨1⟩ : Sender) ≠ ⟨0⟩)
    · cases found
  subscribed := ⟨⟨[], 1⟩, fun _ => rfl, rfl⟩
  apart := by
    intro key other sub held found found' channel _
    rcases lookup_demoState found with ⟨rfl, rfl⟩ | ⟨rfl, rfl⟩
    · rcases lookup_demoState found' with ⟨rfl, rfl⟩ | ⟨rfl, rfl⟩
      · rfl
      · cases channel
    · rcases lookup_demoState found' with ⟨rfl, rfl⟩ | ⟨rfl, rfl⟩
      · cases channel
      · rfl
  receivers _ _ _ := ⟨rfl, Nat.zero_lt_succ 63⟩
  channel := rfl
  published := rfl
  enqueued := rfl
  toBroker := rfl
  toAdapter := rfl
  idle := ⟨rfl, rfl⟩
  foreign := by decide
  bridged := by decide

private theorem returnRoute_demo :
    returnRoute demoLink.crates demoLink.adapter demoEnvelope = .typed "demo" "Ping" :=
  returnRoute_of_hint rfl (by decide)

/-- A client that waits for another type gets nothing twice. -/
theorem received_at_most_once_pong :
    Started demoLink demoEnvelope (demoBridge "Pong") ∧
    ∀ events after key sub, (bridgeSystem demoLink demoEnvelope).Run (demoBridge "Pong")
      events after →
      (demoBridge "Pong").world.engine.state.byKey.lookup key = some sub →
      key.adapterId ≠ demoLink.adapter.id → received demoEnvelope key sub after ≤ 1 := by
  refine ⟨started_demo "Pong", (received_at_most_once_iff (started_demo "Pong") rfl rfl).mpr ?_⟩
  intro key sub found other again
  rw [returnRoute_demo] at again
  rcases lookup_demoState found with ⟨rfl, rfl⟩ | ⟨rfl, rfl⟩
  · exact absurd rfl other
  · exact absurd again (by decide)

/-- A client that waits for the type gets the message a second time when the
broker returns it. -/
theorem received_twice_ping :
    ∃ events after, (bridgeSystem demoLink demoEnvelope).Run (demoBridge "Ping") events after ∧
      (demoBridge "Ping").world.engine.state.byKey.lookup clientKey = some (clientSub "Ping") ∧
      2 ≤ received demoEnvelope clientKey (clientSub "Ping") after := by
  have found : (demoBridge "Ping").world.engine.state.byKey.lookup clientKey =
    some (clientSub "Ping") := rfl
  obtain ⟨events, after, run, got⟩ := received_twice (started_demo "Ping") rfl rfl found (by decide)
    (by rw [returnRoute_demo]; decide) (.inl (by decide))
  exact ⟨events, after, run, found, got⟩

end Samples

end OaGateway.Stomp
