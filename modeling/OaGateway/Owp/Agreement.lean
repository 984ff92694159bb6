import OaGateway.Core.Routing
import OaGateway.Lib.Numeral
import OaGateway.Owp.Unsub

/-! Many sessions on one engine: each keeps a table of its subscriptions, and
the engine has them under keys made of a connection and a sid. -/
namespace OaGateway.Owp

open Lib OaGateway.Core

/-- One row of a session's table, with the route its `SUB` asked for. -/
structure Entry where
  sid : String
  live : LiveSub
  route : RouteKey

/-- What a session is in the middle of, between two accesses to the engine. -/
inductive Doing where
  | nothing
  /-- A `SUB` has been checked against the table. -/
  | subscribing (sid : String) (engineSub : SubId) (route : RouteKey)
  /-- The engine has the subscription, the table does not yet. -/
  | inserting (sid : String) (engineSub : SubId) (route : RouteKey)
  /-- The table has lost the subscription, the engine has it still. -/
  | unsubscribing (entry : Entry)
  /-- The session is over, and these rows are still on the engine. -/
  | draining (left : List Entry)
  | ended

structure Connection where
  connId : UInt64
  phase : Phase
  entries : List Entry
  spawned : Nat
  doing : Doing

namespace Connection

def subs (connection : Connection) : List (String × LiveSub) :=
  connection.entries.map fun entry => (entry.sid, entry.live)

def leave (connection : Connection) : Connection :=
  { connection with entries := [], doing := .draining connection.entries }

/-- A text frame is handled up to the first access to the engine. -/
def handle (connection : Connection) (outcome : Outcome) : Connection :=
  match outcome.effect with
  | .subscribe sid engineSub route => { connection with doing := .subscribing sid engineSub route }
  | .unsubscribe sid _ =>
    match connection.entries.find? fun entry => entry.sid == sid with
    | some entry =>
      { connection with
        entries := connection.entries.filter fun entry => entry.sid != sid
        doing := .unsubscribing entry }
    | none => connection
  | _ => if outcome.fatal then connection.leave else { connection with phase := outcome.phase }

/-- The session has not ended yet. -/
def active (connection : Connection) : Prop := connection.doing ≠ .ended

end Connection

/-- One adapter with its connections, next to everybody else's subscriptions. -/
structure Hub where
  engine : State
  connSeq : UInt64
  connections : Nat → Option Connection

inductive HubEvent where
  | accept (slot : Nat)
  /-- A connection whose handshake fails. -/
  | refuse
  | text (slot : Nat) (answers : Answers) (text : String)
  /-- The session's loop is left. -/
  | leave (slot : Nat)
  | subscribe (slot : Nat) (tx : Sender)
  /-- The engine answers with an error. -/
  | refused (slot : Nat) (tx : Sender)
  | insert (slot : Nat)
  | unsubscribe (slot : Nat)
  | drain (slot : Nat) (sid : String)
  | finish (slot : Nat)
  /-- A call of another adapter. -/
  | other (call : Call)

namespace Hub

def put (hub : Hub) (slot : Nat) (connection : Connection) : Hub :=
  { hub with connections := Function.update hub.connections slot (some connection) }

end Hub

section
variable (crates : OwpCrates) (adapter : Session)

/-- The session of a connection. -/
def Connection.session (connection : Connection) : Session :=
  { adapter with connId := connection.connId.toNat }

/-- Handling a frame as if the engine took every subscription: it is asked next. -/
def Connection.outcome (connection : Connection) (answers : Answers) (text : String) : Outcome :=
  handleText crates (connection.session adapter)
    { answers with subscribed := true } connection.phase connection.subs text

/-- One step of a session, of the accept loop or of another adapter. -/
inductive HubStep (hub : Hub) : HubEvent → Hub → Prop where
  | accept (free : hub.connections slot = none) :
      HubStep hub (.accept slot)
        { hub.put slot ⟨hub.connSeq, .awaitingInit, [], 0, .nothing⟩ with
          connSeq := hub.connSeq + 1 }
  | refuse : HubStep hub .refuse { hub with connSeq := hub.connSeq + 1 }
  | text (found : hub.connections slot = some connection) (idle : connection.doing = .nothing) :
      HubStep hub (.text slot answers text)
        (hub.put slot (connection.handle (connection.outcome crates adapter answers text)))
  | leave (found : hub.connections slot = some connection) (idle : connection.doing = .nothing) :
      HubStep hub (.leave slot) (hub.put slot connection.leave)
  | subscribe (found : hub.connections slot = some connection)
      (doing : connection.doing = .subscribing sid engineSub route)
      (answer : hub.engine.subscribe adapter.adapterId engineSub route tx = (.ok key, engine)) :
      HubStep hub (.subscribe slot tx)
        { hub.put slot { connection with doing := .inserting sid engineSub route } with engine }
  | refused (found : hub.connections slot = some connection)
      (doing : connection.doing = .subscribing sid engineSub route)
      (answer : hub.engine.subscribe adapter.adapterId engineSub route tx =
        (.error error, engine)) :
      HubStep hub (.refused slot tx)
        { hub.put slot { connection with doing := .nothing } with engine }
  | insert (found : hub.connections slot = some connection)
      (doing : connection.doing = .inserting sid engineSub route) :
      HubStep hub (.insert slot)
        (hub.put slot
          { connection with
            entries := connection.entries ++ [⟨sid, ⟨engineSub, connection.spawned⟩, route⟩]
            spawned := connection.spawned + 1
            doing := .nothing })
  | unsubscribe (found : hub.connections slot = some connection)
      (doing : connection.doing = .unsubscribing entry) :
      HubStep hub (.unsubscribe slot)
        { hub.put slot { connection with doing := .nothing } with
          engine := (hub.engine.unsubscribe adapter.adapterId entry.live.engineSub).2 }
  | drain (found : hub.connections slot = some connection)
      (doing : connection.doing = .draining (first ++ entry :: rest)) :
      HubStep hub (.drain slot entry.sid)
        { hub.put slot { connection with doing := .draining (first ++ rest) } with
          engine := (hub.engine.unsubscribe adapter.adapterId entry.live.engineSub).2 }
  | finish (found : hub.connections slot = some connection)
      (doing : connection.doing = .draining []) :
      HubStep hub (.finish slot) (hub.put slot { connection with doing := .ended })
  | other (foreign : call.caller ≠ adapter.adapterId) :
      HubStep hub (.other call) { hub with engine := call.apply hub.engine }

/-- The adapter from its start on. -/
def hubSystem : System Hub HubEvent where
  initial hub := calls.Reachable hub.engine ∧
    (∀ key, key.adapterId = adapter.adapterId → hub.engine.byKey.lookup key = none) ∧
    hub.connSeq = 1 ∧ ∀ slot, hub.connections slot = none
  step := HubStep crates adapter

end

/-- The engine's key for a sid of a connection. -/
def connKey (connId : UInt64) (sid : String) : SubId := ⟨toString connId.toNat ++ ":" ++ sid⟩

private theorem colon_not_mem_digits (number : Nat) : ':' ∉ (toString number).toList := by
  have written : (toString number).toList = Nat.toDigits 10 number := Nat.toList_repr
  intro member
  rw [written] at member
  exact absurd (Nat.isDigit_of_mem_toDigits (by decide) (by decide) member) (by decide)

/-- A number ends before its first colon, so a key says which connection and
which sid it is for. -/
theorem connKey_injective {first second : UInt64} {sid other : String}
    (same : connKey first sid = connKey second other) : first = second ∧ sid = other := by
  have texts : toString first.toNat ++ ":" ++ sid = toString second.toNat ++ ":" ++ other :=
    congrArg SubId.value same
  have characters := congrArg String.toList texts
  simp only [String.toList_append, List.append_assoc] at characters
  have numbers (number : Nat) (rest : List Char) :
      ((toString number).toList ++ (":".toList ++ rest)).takeWhile (· != ':') =
          (toString number).toList := by
    rw [List.takeWhile_append_of_pos]
    · simp
    · intro c member
      simpa using fun colon : c = ':' => colon_not_mem_digits number (colon ▸ member)
  have front := congrArg (List.takeWhile (· != ':')) characters
  rw [numbers, numbers] at front
  rw [front] at characters
  refine ⟨UInt64.toNat_inj.mp (Lib.toString_injective (String.toList_injective front)), ?_⟩
  exact String.toList_injective (List.append_cancel_left (List.append_cancel_left characters))

/-- Rows that a session has taken out of its table, or not yet put there. -/
def Doing.rows : Doing → List Entry
  | .inserting sid engineSub route => [⟨sid, ⟨engineSub, 0⟩, route⟩]
  | .unsubscribing entry => [entry]
  | .draining left => left
  | _ => []

namespace Connection

/-- Every row that a session answers for. -/
def rows (connection : Connection) : List Entry := connection.entries ++ connection.doing.rows

/-- Rows under sids of their own and the keys that go with them, no more than
are allowed. -/
structure Consistent (limit : Nat) (connection : Connection) : Prop where
  sids : (connection.rows.map Entry.sid).Nodup
  keys : ∀ row ∈ connection.rows, row.live.engineSub = connKey connection.connId row.sid
  room : connection.rows.length ≤ limit
  asked : ∀ sid engineSub route, connection.doing = .subscribing sid engineSub route →
    engineSub = connKey connection.connId sid ∧ sid ∉ connection.entries.map Entry.sid ∧
      connection.entries.length < limit
  closed : connection.doing = .ended → connection.entries = []
  drained : ∀ left, connection.doing = .draining left → connection.entries = []

/-- A session answers for a subscription. -/
def Claims (connection : Connection) (subId : SubId) (route : RouteKey) : Prop :=
  ∃ row ∈ connection.rows, row.live.engineSub = subId ∧ row.route = route

end Connection

/-- The engine has a subscription of an adapter. -/
def Registered (id : AdapterId) (engine : State) (subId : SubId) (route : RouteKey) : Prop :=
  ∃ tx, engine.byKey.lookup ⟨id, subId⟩ = some ⟨route, tx⟩

/-- The engine has what the sessions answer for, and no two of them under one
connection number. -/
structure Agrees (adapter : Session) (hub : Hub) : Prop where
  indexed : Indexed hub.engine
  consistent : ∀ slot connection, hub.connections slot = some connection →
    connection.Consistent adapter.config.maxSubscriptions
  apart : ∀ one two first second, hub.connections one = some first →
    hub.connections two = some second → first.active → second.active →
      first.connId = second.connId → one = two
  claimed : ∀ subId route, Registered adapter.adapterId hub.engine subId route ↔
    ∃ slot connection, hub.connections slot = some connection ∧ connection.Claims subId route

section Steps
variable {crates : OwpCrates} {adapter : Session} {hub after : Hub} {slot : Nat}
  {connection next : Connection}
  {engine : State}

theorem Connection.Claims.active (consistent : connection.Consistent limit)
    (claims : connection.Claims subId route) :
    connection.active := by
  intro ended
  obtain ⟨row, member, -⟩ := claims
  rw [Connection.rows, consistent.closed ended, ended] at member
  cases member

/-- Nobody else answers for what one session does. -/
theorem Agrees.sole (agrees : Agrees adapter hub) (found : hub.connections slot = some connection)
    {other : Nat} {second : Connection} (present : hub.connections other = some second)
    {sid : String} (active : connection.active)
    (claims : second.Claims (connKey connection.connId sid) route) :
    other = slot := by
  have consistent := agrees.consistent other second present
  refine agrees.apart other slot second connection present found
    (claims.active consistent) active ?_
  obtain ⟨row, member, key, -⟩ := claims
  rw [consistent.keys row member] at key
  exact (connKey_injective key).1

/-- One session moves on, and the engine with it. -/
theorem Agrees.put (agrees : Agrees adapter hub) (found : hub.connections slot = some connection)
    (indexed : Indexed engine) (consistent : next.Consistent adapter.config.maxSubscriptions)
    (same : next.connId = connection.connId) (active : connection.active)
    (moved : ∀ subId route, Registered adapter.adapterId engine subId route ↔
      (Registered adapter.adapterId hub.engine subId route ∧ ¬ connection.Claims subId route) ∨
        next.Claims subId route) :
    Agrees adapter { hub.put slot next with engine } where
  indexed := indexed
  consistent place other present := by
    simp only [Hub.put, Function.update_apply] at present
    split at present
    · cases present
      exact consistent
    · exact agrees.consistent place other present
  apart one two first second present found' alive awake ids := by
    simp only [Hub.put, Function.update_apply] at present found'
    split at present
    · cases present
      split at found'
      · rw [‹one = slot›, ‹two = slot›]
      · have := agrees.apart slot two connection second found found' active awake (same ▸ ids)
        rw [‹one = slot›, this]
    · split at found'
      · cases found'
        have := agrees.apart one slot first connection present found alive active
          (by rw [ids, same])
        rw [‹two = slot›, this]
      · exact agrees.apart one two first second present found' alive awake ids
  claimed subId route := by
    simp only [Hub.put]
    rw [moved, agrees.claimed]
    constructor
    · rintro (⟨⟨other, second, present, claims⟩, notOwn⟩ | claims)
      · refine ⟨other, second, ?_, claims⟩
        have different : other ≠ slot := by
          rintro rfl
          rw [found] at present
          cases present
          exact notOwn claims
        simpa [different] using present
      · exact ⟨slot, next, by simp, claims⟩
    · rintro ⟨other, second, present, claims⟩
      by_cases here : other = slot
      · subst here
        simp only [Function.update_self, Option.some.injEq] at present
        subst present
        exact .inr claims
      · simp only [Function.update_of_ne here] at present
        refine .inl ⟨⟨other, second, present, claims⟩, ?_⟩
        rintro ⟨row, member, rfl, rfl⟩
        rw [(agrees.consistent slot connection found).keys row member] at claims
        exact here (agrees.sole found present active claims)

theorem handleSub_subscribe {session : Session} {answers : Answers} {subs : List (String × LiveSub)}
    {verbose : Bool} {serviceId asked messageName topic sid : String} {engineSub : SubId}
    {route : RouteKey}
    (effect : (handleSub session answers subs verbose serviceId asked messageName topic).effect =
      .subscribe sid engineSub route) :
    engineSub = ⟨toString session.connId ++ ":" ++ sid⟩ ∧ sid ∉ subs.map Prod.fst ∧
      subs.length < session.config.maxSubscriptions := by
  simp only [handleSub] at effect
  split at effect
  · cases effect
  · rename_i fresh
    split at effect
    · cases effect
    · rename_i room
      split at effect
      · cases effect
      · cases effect
        exact ⟨rfl, not_mem_of_findSub (by simpa using fresh), Nat.not_le.mp room⟩

/-- A frame that asks for a subscription asks for a new one, within the limit. -/
theorem handleText_subscribe {session : Session} {answers : Answers} {phase : Phase}
    {subs : List (String × LiveSub)} {text sid : String} {engineSub : SubId} {route : RouteKey}
    (effect : (handleText crates session answers phase subs text).effect =
      .subscribe sid engineSub route) :
    engineSub = ⟨toString session.connId ++ ":" ++ sid⟩ ∧ sid ∉ subs.map Prod.fst ∧
      subs.length < session.config.maxSubscriptions := by
  rw [handleText] at effect
  split at effect
  · cases effect
  · split at effect
    · split at effect
      · rw [handleInit] at effect
        split at effect <;> cases effect
      · cases effect
    · split at effect
      · cases effect
      · rw [handlePub] at effect
        split at effect <;> cases effect
      · exact handleSub_subscribe effect
      · rw [handleUnsub] at effect
        split at effect <;> cases effect

/-- The table alone moves on. -/
theorem Agrees.put_same (agrees : Agrees adapter hub)
    (found : hub.connections slot = some connection)
    (consistent : next.Consistent adapter.config.maxSubscriptions)
    (same : next.connId = connection.connId) (active : connection.active)
    (claims : ∀ subId route, next.Claims subId route ↔ connection.Claims subId route) :
    Agrees adapter (hub.put slot next) := by
  refine agrees.put found agrees.indexed consistent same active fun subId route => ?_
  rw [claims, agrees.claimed]
  constructor
  · intro claimed
    by_cases own : connection.Claims subId route
    · exact .inr own
    · exact .inl ⟨claimed, own⟩
  · rintro (⟨claimed, -⟩ | own)
    · exact claimed
    · exact ⟨slot, connection, found, own⟩

namespace Connection.Consistent
variable {limit : Nat}

theorem accepted (connId : UInt64) :
    (⟨connId, .awaitingInit, [], 0, .nothing⟩ : Connection).Consistent limit :=
  ⟨List.nodup_nil, nofun, Nat.zero_le _, nofun, nofun, nofun⟩

theorem leave (consistent : connection.Consistent limit) (idle : connection.doing = .nothing) :
    connection.leave.Consistent limit := by
  have rows : connection.leave.rows = connection.rows := by
    simp [Connection.rows, Connection.leave, Doing.rows, idle]
  exact ⟨by rw [rows]; exact consistent.sids, by rw [rows]; exact consistent.keys, by
    rw [rows]; exact consistent.room, nofun, nofun, fun _ _ => rfl⟩

/-- A row taken out of the table is still answered for. -/
theorem perm_unsubscribing (consistent : connection.Consistent limit)
    (idle : connection.doing = .nothing) {sid : String} {entry : Entry}
    (found : (connection.entries.find? fun entry => entry.sid == sid) = some entry) :
    ((connection.entries.filter fun entry => entry.sid != sid) ++ [entry]).Perm
      connection.rows := by
  have rows : connection.rows = connection.entries := by simp [Connection.rows, Doing.rows, idle]
  have sids := consistent.sids
  rw [rows] at sids ⊢
  generalize connection.entries = entries at found sids
  induction entries with
  | nil => cases found
  | cons first rest ih =>
    obtain ⟨apart, later⟩ := List.nodup_cons.mp sids
    by_cases here : first.sid = sid
    · simp only [List.find?_cons, here, beq_self_eq_true, Option.some.injEq] at found
      subst found
      have others : (rest.filter fun entry => entry.sid != sid) = rest := by
        refine List.filter_eq_self.mpr fun other member => ?_
        have different : other.sid ≠ sid := fun same =>
          apart (here ▸ same ▸ List.mem_map_of_mem member)
        simpa using different
      simp only [List.filter_cons, here, bne_self_eq_false, Bool.false_eq_true, if_false, others]
      exact List.perm_append_singleton first rest
    · simp only [List.find?_cons, beq_eq_false_iff_ne.mpr here] at found
      simp only [List.filter_cons, bne_iff_ne.mpr here, if_true, List.cons_append]
      exact (ih found later).cons first

theorem handle (consistent : connection.Consistent adapter.config.maxSubscriptions)
    (idle : connection.doing = .nothing) {answers : Answers} {text : String} :
    (connection.handle (connection.outcome crates adapter answers text)).Consistent
      adapter.config.maxSubscriptions ∧
      (connection.handle (connection.outcome crates adapter answers text)).connId =
        connection.connId ∧
      ∀ row, row ∈ (connection.handle (connection.outcome crates adapter answers text)).rows ↔
          row ∈ connection.rows := by
  rw [Connection.handle]
  split
  · rename_i sid engineSub route effect
    obtain ⟨key, fresh, room⟩ := handleText_subscribe effect
    have rows : ({ connection with doing := .subscribing sid engineSub route } : Connection).rows =
        connection.rows := by
      simp [Connection.rows, Doing.rows, idle]
    refine ⟨⟨by rw [rows]; exact consistent.sids, by rw [rows]; exact consistent.keys, by
      rw [rows]; exact consistent.room, ?_, nofun, nofun⟩, rfl, by simp [rows]⟩
    rintro _ _ _ ⟨⟩
    refine ⟨key, ?_, ?_⟩
    · simpa [Connection.subs, Function.comp_def] using fresh
    · simpa [Connection.subs, Connection.session] using room
  · rename_i sid live effect
    split
    · rename_i entry present
      have perm := consistent.perm_unsubscribing idle present
      refine ⟨⟨(perm.map Entry.sid).nodup_iff.mpr consistent.sids, fun row member => ?_, ?_,
        nofun, nofun, nofun⟩, rfl, fun row => perm.mem_iff⟩
      · exact consistent.keys row (perm.mem_iff.mp member)
      · exact (perm.length_eq).trans_le consistent.room
    · exact ⟨consistent, rfl, fun _ => Iff.rfl⟩
  · split
    · refine ⟨consistent.leave idle, rfl, fun row => ?_⟩
      simp [Connection.rows, Connection.leave, Doing.rows, idle]
    · exact ⟨⟨consistent.sids, consistent.keys, consistent.room, consistent.asked,
        consistent.closed, consistent.drained⟩, rfl, fun _ => Iff.rfl⟩

theorem inserting (consistent : connection.Consistent limit) {sid : String} {engineSub : SubId}
    {route : RouteKey} (doing : connection.doing = .subscribing sid engineSub route) :
    ({ connection with doing := .inserting sid engineSub route } : Connection).Consistent
      limit := by
  obtain ⟨keyed, fresh, room⟩ := consistent.asked sid engineSub route doing
  have rows : connection.rows = connection.entries := by simp [Connection.rows, Doing.rows, doing]
  have sids := consistent.sids
  have keys := consistent.keys
  rw [rows] at sids keys
  refine ⟨?_, ?_, ?_, by simp, by simp, by simp⟩
  · simp only [Connection.rows, Doing.rows, List.map_append, List.map_singleton]
    refine List.nodup_append.mpr ⟨sids, List.nodup_singleton _, fun one member two here same => ?_⟩
    rw [List.mem_singleton] at here
    exact fresh (here ▸ same ▸ member)
  · intro row member
    rcases List.mem_append.mp member with old | new
    · exact keys row old
    · rw [List.mem_singleton.mp new]
      exact keyed
  · simp only [Connection.rows, Doing.rows, List.length_append, List.length_singleton]
    exact room

/-- The engine has not taken what it was asked for. -/
theorem idle (consistent : connection.Consistent limit) {sid : String} {engineSub : SubId}
    {route : RouteKey} (doing : connection.doing = .subscribing sid engineSub route) :
    ({ connection with doing := .nothing } : Connection).Consistent limit := by
  have rows : ({ connection with doing := .nothing } : Connection).rows = connection.rows := by
    simp [Connection.rows, Doing.rows, doing]
  exact ⟨by rw [rows]; exact consistent.sids, by rw [rows]; exact consistent.keys, by
    rw [rows]; exact consistent.room, by simp, by simp, by simp⟩

theorem inserted (consistent : connection.Consistent limit) {sid : String} {engineSub : SubId}
    {route : RouteKey} (doing : connection.doing = .inserting sid engineSub route) :
    ({ connection with
      entries := connection.entries ++ [⟨sid, ⟨engineSub, connection.spawned⟩, route⟩]
      spawned := connection.spawned + 1
      doing := .nothing } : Connection).Consistent limit := by
  have keys := consistent.keys (⟨sid, ⟨engineSub, 0⟩, route⟩ : Entry)
  refine ⟨?_, ?_, ?_, by simp, by simp, by simp⟩
  · simpa [Connection.rows, Doing.rows, doing] using consistent.sids
  · intro row member
    simp only [Connection.rows, Doing.rows, List.append_nil, List.mem_append,
      List.mem_singleton] at member
    rcases member with old | rfl
    · exact consistent.keys row (List.mem_append_left _ old)
    · exact keys (by simp [Connection.rows, Doing.rows, doing])
  · simpa [Connection.rows, Doing.rows, doing] using consistent.room

/-- A session gives up one row. -/
theorem removed (consistent : connection.Consistent limit) {entry : Entry}
    (rows : connection.rows.Perm (entry :: next.rows)) (same : next.connId = connection.connId)
    (settled : next.doing = .nothing ∨ (∃ left, next.doing = .draining left) ∧ next.entries = []) :
    next.Consistent limit := by
  have sids : (entry.sid :: next.rows.map Entry.sid).Nodup :=
    (rows.map Entry.sid).nodup_iff.mp consistent.sids
  refine ⟨(List.nodup_cons.mp sids).2, fun row member => ?_, ?_, ?_, ?_, ?_⟩
  · rw [same]
    exact consistent.keys row (rows.mem_iff.mpr (List.mem_cons_of_mem _ member))
  · have length := rows.length_eq
    rw [List.length_cons] at length
    exact (Nat.le_of_succ_le length.ge).trans consistent.room
  · rintro sid engineSub route doing
    rcases settled with idle | ⟨⟨left, draining⟩, -⟩
    · rw [idle] at doing
      cases doing
    · rw [draining] at doing
      cases doing
  · intro ended
    rcases settled with idle | ⟨-, empty⟩
    · rw [idle] at ended
      cases ended
    · exact empty
  · intro left draining
    rcases settled with idle | ⟨-, empty⟩
    · rw [idle] at draining
      cases draining
    · exact empty

theorem ended (consistent : connection.Consistent limit) (doing : connection.doing = .draining []) :
    ({ connection with doing := .ended } : Connection).Consistent limit := by
  have empty := consistent.drained _ doing
  refine ⟨?_, ?_, ?_, by simp, fun _ => empty, by simp⟩
  all_goals simp [Connection.rows, Doing.rows, empty]

end Connection.Consistent

/-- What the engine has once it has taken a subscription. -/
theorem registered_subscribe {key : SubscriberKey} {engineSub : SubId} {route : RouteKey}
    {tx : Sender} {state : State}
    (answer : state.subscribe adapter.adapterId engineSub route tx = (.ok key, engine))
    (subId : SubId) (taken : RouteKey) :
    Registered adapter.adapterId engine subId taken ↔
      (subId = engineSub ∧ taken = route) ∨
          (subId ≠ engineSub ∧ Registered adapter.adapterId state subId taken) := by
  have inserted := (State.subscribe_ok answer).2
  simp only [Registered, inserted, Table.lookup_insert_ite]
  by_cases same : subId = engineSub
  · simp [same, eq_comm]
  · simp [same]

theorem registered_unsubscribe (state : State) (gone subId : SubId) (route : RouteKey) :
    Registered adapter.adapterId (state.unsubscribe adapter.adapterId gone).2 subId route ↔
      subId ≠ gone ∧ Registered adapter.adapterId state subId route := by
  simp only [Registered, lookup_unsubscribe]
  by_cases here : subId = gone
  · simp [here]
  · simp [here]

/-- A subscription the engine takes is answered for from then on. -/
theorem Agrees.put_subscribed (agrees : Agrees adapter hub)
    (found : hub.connections slot = some connection) {sid : String} {engineSub : SubId}
    {route : RouteKey} {tx : Sender} {key : SubscriberKey}
    (doing : connection.doing = .subscribing sid engineSub route)
    (answer : hub.engine.subscribe adapter.adapterId engineSub route tx = (.ok key, engine)) :
    Agrees adapter { hub.put slot { connection with doing := .inserting sid engineSub route } with
      engine } := by
  have consistent := agrees.consistent slot connection found
  have rows : connection.rows = connection.entries := by simp [Connection.rows, Doing.rows, doing]
  have absent := (State.subscribe_ok answer).1
  have indexed := agrees.indexed.of_subscribe answer
  have other {subId : SubId} {taken : RouteKey}
    (registered : Registered adapter.adapterId hub.engine subId taken) :
      subId ≠ engineSub := by
    rintro rfl
    obtain ⟨sender, present⟩ := registered
    rw [absent] at present
    cases present
  refine agrees.put found indexed (consistent.inserting doing) rfl
    (by simp [Connection.active, doing]) ?_
  intro subId taken
  rw [registered_subscribe answer]
  constructor
  · rintro (⟨rfl, rfl⟩ | ⟨-, held⟩)
    · exact .inr ⟨_, List.mem_append_right _ (List.mem_singleton_self _), rfl, rfl⟩
    · by_cases own : connection.Claims subId taken
      · obtain ⟨row, member, same⟩ := own
        rw [rows] at member
        exact .inr ⟨row, List.mem_append_left _ member, same⟩
      · exact .inl ⟨held, own⟩
  · rintro (⟨held, -⟩ | ⟨row, member, rfl, rfl⟩)
    · exact .inr ⟨other held, held⟩
    · rcases List.mem_append.mp member with old | new
      · have held : Registered adapter.adapterId hub.engine row.live.engineSub row.route :=
          (agrees.claimed _ _).mpr ⟨slot, connection, found, row, by rw [rows]; exact old, rfl, rfl⟩
        exact .inr ⟨other held, held⟩
      · rw [List.mem_singleton.mp new]
        exact .inl ⟨rfl, rfl⟩

/-- A subscription taken off the engine is not answered for any more. -/
theorem Agrees.put_removed (agrees : Agrees adapter hub)
    (found : hub.connections slot = some connection) {entry : Entry}
    (rows : connection.rows.Perm (entry :: next.rows)) (same : next.connId = connection.connId)
    (active : connection.active)
    (settled : next.doing = .nothing ∨ (∃ left, next.doing = .draining left) ∧ next.entries = []) :
    Agrees adapter { hub.put slot next with
      engine := (hub.engine.unsubscribe adapter.adapterId entry.live.engineSub).2 } := by
  have consistent := agrees.consistent slot connection found
  have sids : (entry.sid :: next.rows.map Entry.sid).Nodup :=
    (rows.map Entry.sid).nodup_iff.mp consistent.sids
  have keyed : entry.live.engineSub = connKey connection.connId entry.sid :=
    consistent.keys entry (rows.mem_iff.mpr (List.mem_cons_self ..))
  have keys : ∀ row ∈ next.rows, row.live.engineSub = connKey connection.connId row.sid :=
      fun row member =>
    consistent.keys row (rows.mem_iff.mpr (List.mem_cons_of_mem _ member))
  refine agrees.put found (agrees.indexed.unsubscribe _ _) (consistent.removed rows same settled)
    same active ?_
  intro subId route
  rw [registered_unsubscribe]
  constructor
  · rintro ⟨different, held⟩
    by_cases own : connection.Claims subId route
    · obtain ⟨row, member, rfl, rfl⟩ := own
      rcases List.mem_cons.mp (rows.mem_iff.mp member) with rfl | left
      · exact absurd rfl different
      · exact .inr ⟨row, left, rfl, rfl⟩
    · exact .inl ⟨held, own⟩
  · rintro (⟨held, notOwn⟩ | ⟨row, member, rfl, rfl⟩)
    · refine ⟨?_, held⟩
      rintro rfl
      obtain ⟨other, second, present, claims⟩ := (agrees.claimed _ _).mp held
      rw [keyed] at claims
      obtain rfl := agrees.sole found present active claims
      rw [found] at present
      cases present
      rw [← keyed] at claims
      exact notOwn claims
    · have before := rows.mem_iff.mpr (List.mem_cons_of_mem entry member)
      refine ⟨fun clash => ?_, (agrees.claimed _ _).mpr
        ⟨slot, connection, found, row, before, rfl, rfl⟩⟩
      rw [keys row member, keyed] at clash
      exact (List.nodup_cons.mp sids).1 ((connKey_injective clash).2 ▸ List.mem_map_of_mem member)

/-- A new connection is numbered as one that has not ended yet. -/
def Reissues (hub : Hub) : HubEvent → Prop
  | .accept _ => ∃ slot connection, hub.connections slot = some connection ∧ connection.active ∧
      connection.connId = hub.connSeq
  | _ => False

/-- The adapter as long as it reissues no number. -/
def numberedSystem (crates : OwpCrates) (adapter : Session) : System Hub HubEvent :=
  (hubSystem crates adapter).restrict fun hub event => ¬ Reissues hub event

theorem Agrees.accept (agrees : Agrees adapter hub) (free : hub.connections slot = none)
    (fresh : ¬ Reissues hub (.accept slot)) :
    Agrees adapter
      { hub.put slot ⟨hub.connSeq, .awaitingInit, [], 0, .nothing⟩ with
          connSeq := hub.connSeq + 1 } where
  indexed := agrees.indexed
  consistent place other present := by
    simp only [Hub.put, Function.update_apply] at present
    split at present
    · cases present
      exact .accepted _
    · exact agrees.consistent place other present
  apart one two first second present found alive awake ids := by
    simp only [Hub.put, Function.update_apply] at present found
    split at present
    · cases present
      split at found
      · rw [‹one = slot›, ‹two = slot›]
      · exact absurd ⟨two, second, found, awake, ids.symm⟩ fresh
    · split at found
      · cases found
        exact absurd ⟨one, first, present, alive, ids⟩ fresh
      · exact agrees.apart one two first second present found alive awake ids
  claimed subId route := by
    refine (agrees.claimed subId route).trans ⟨?_, ?_⟩
    · rintro ⟨place, other, present, claims⟩
      have different : place ≠ slot := by
        rintro rfl
        rw [free] at present
        cases present
      exact ⟨place, other, by simpa [Hub.put, different] using present, claims⟩
    · rintro ⟨place, other, present, claims⟩
      simp only [Hub.put, Function.update_apply] at present
      split at present
      · cases present
        obtain ⟨row, member, -⟩ := claims
        cases member
      · exact ⟨place, other, present, claims⟩

/-- The engine never has what a session is about to ask for. -/
theorem Agrees.not_refused (agrees : Agrees adapter hub) {tx : Sender} :
    ¬ HubStep crates adapter hub (.refused slot tx) after := by
  rintro ⟨⟩
  rename_i connection sid engineSub route error engine doing found answer
  have consistent := agrees.consistent slot connection found
  obtain ⟨keyed, fresh, -⟩ := consistent.asked sid engineSub route doing
  rw [State.subscribe] at answer
  split at answer
  · rename_i taken
    obtain ⟨⟨held, sender⟩, present⟩ := Option.isSome_iff_exists.mp taken
    obtain ⟨other, second, there, claims⟩ := (agrees.claimed engineSub held).mp ⟨sender, present⟩
    rw [keyed] at claims
    obtain rfl := agrees.sole found there (by simp [Connection.active, doing]) claims
    rw [found] at there
    cases there
    obtain ⟨row, member, key, -⟩ := claims
    rw [consistent.keys row member] at key
    have entries : connection.rows = connection.entries := by
      simp [Connection.rows, Doing.rows, doing]
    rw [entries] at member
    exact fresh ((connKey_injective key).2 ▸ List.mem_map_of_mem member)
  · cases answer

theorem agrees_step (agrees : Agrees adapter hub) (fresh : ¬ Reissues hub event)
    (step : HubStep crates adapter hub event after) : Agrees adapter after := by
  cases step with
  | accept free => exact agrees.accept free fresh
  | refuse => exact ⟨agrees.indexed, agrees.consistent, agrees.apart, agrees.claimed⟩
  | text found idle =>
    obtain ⟨consistent, same, rows⟩ := (agrees.consistent _ _ found).handle idle
    refine agrees.put_same found consistent same (by simp [Connection.active, idle])
      fun subId route => ?_
    simp only [Connection.Claims, rows]
  | leave found idle =>
    refine agrees.put_same found ((agrees.consistent _ _ found).leave idle) rfl
      (by simp [Connection.active, idle])
      fun subId route => ?_
    simp [Connection.Claims, Connection.rows, Connection.leave, Doing.rows, idle]
  | subscribe found doing answer => exact agrees.put_subscribed found doing answer
  | refused found doing answer =>
    have step : HubStep crates adapter hub (.refused _ _) _ := .refused found doing answer
    exact absurd step agrees.not_refused
  | @insert slot connection sid engineSub route found doing =>
    refine agrees.put_same found ((agrees.consistent _ _ found).inserted doing) rfl
      (by simp [Connection.active, doing]) fun subId route => ?_
    simp [Connection.Claims, Connection.rows, Doing.rows, doing, or_and_right, exists_or]
  | @unsubscribe slot connection entry found doing =>
    refine agrees.put_removed found ?_ rfl (by simp [Connection.active, doing]) (.inl rfl)
    simp [Connection.rows, Doing.rows, doing]
  | @drain slot connection first entry rest found doing =>
    have empty := (agrees.consistent _ _ found).drained _ doing
    refine agrees.put_removed found ?_ rfl (by simp [Connection.active, doing])
      (.inr ⟨⟨_, rfl⟩, empty⟩)
    simp [Connection.rows, Doing.rows, doing, empty]
  | @finish slot connection found doing =>
    have empty := (agrees.consistent _ _ found).drained _ doing
    refine agrees.put_same found ((agrees.consistent _ _ found).ended doing) rfl
      (by simp [Connection.active, doing]) fun subId route => ?_
    simp [Connection.Claims, Connection.rows, Doing.rows, doing, empty]
  | other foreign =>
    refine ⟨agrees.indexed.apply _, agrees.consistent, agrees.apart, fun subId route => ?_⟩
    rw [← agrees.claimed]
    simp only [Registered]
    rw [agrees.indexed.lookup_of_caller_ne (Ne.symm foreign)]

theorem agrees_of_initial (initial : (hubSystem crates adapter).initial hub) :
    Agrees adapter hub := by
  obtain ⟨reached, free, -, none⟩ := initial
  refine ⟨.of_reachable reached, ?_, ?_, fun subId route => ?_⟩
  · intro slot connection found
    simp [none] at found
  · intro one two first second found
    simp [none] at found
  · simp [Registered, none, free]

/-- Every hub of a run agrees, as long as no number is reissued. -/
theorem agrees_of_reachable (reached : (numberedSystem crates adapter).Reachable hub) :
    Agrees adapter hub :=
  reached.invariant (@agrees_of_initial crates adapter) fun _ _ _ step agrees =>
    agrees_step agrees step.1 step.2

/-- What the engine has under the keys of a connection is what its session answers for. -/
theorem Agrees.own (agrees : Agrees adapter hub) (found : hub.connections slot = some connection)
    (active : connection.active) (sid : String) :
    Registered adapter.adapterId hub.engine (connKey connection.connId sid) route ↔
      connection.Claims (connKey connection.connId sid) route := by
  rw [agrees.claimed]
  constructor
  · rintro ⟨other, second, present, claims⟩
    obtain rfl := agrees.sole found present active claims
    rw [found] at present
    cases present
    exact claims
  · intro claims
    exact ⟨slot, connection, found, claims⟩

theorem Hub.put_found {place : Nat} {other : Connection}
    (found : (hub.put slot connection).connections place = some other) :
    (place = slot ∧ other = connection) ∨ (place ≠ slot ∧ hub.connections place = some other) := by
  simp only [Hub.put, Function.update_apply] at found
  split at found
  · cases found
    exact .inl ⟨‹_›, rfl⟩
  · exact .inr ⟨‹_›, found⟩

/-- Whose step an event is. -/
def HubEvent.mover : HubEvent → Option Nat
  | .accept slot | .text slot _ _ | .leave slot | .subscribe slot _ | .refused slot _ | .insert slot
  | .unsubscribe slot | .drain slot _ | .finish slot => some slot
  | .refuse | .other _ => none

/-- A step moves at most the session it is of. -/
theorem connections_elsewhere (step : HubStep crates adapter hub event after)
    (elsewhere : event.mover ≠ some slot) :
    after.connections slot = hub.connections slot := by
  cases step with
  | refuse => rfl
  | other => rfl
  | accept | text | leave | subscribe | refused | insert | unsubscribe | drain | finish =>
    exact Function.update_of_ne (fun same => elsewhere (congrArg some same.symm)) ..

theorem handleText_asks {session : Session} {answers : Answers} {phase : Phase}
    {subs : List (String × LiveSub)} {text sid : String} {engineSub : SubId} {route : RouteKey}
    (effect : (handleText crates session answers phase subs text).effect =
      .subscribe sid engineSub route) :
    ∃ messageName topic group, parseClient crates text = .ok (.sub sid messageName topic group) ∧
      route = .typed topic messageName := by
  rw [handleText] at effect
  split at effect
  · cases effect
  · rename_i parsed
    split at effect
    · split at effect
      · rw [handleInit] at effect
        split at effect <;> cases effect
      · cases effect
    · split at effect
      · cases effect
      · rw [handlePub] at effect
        split at effect <;> cases effect
      · simp only [handleSub] at effect
        split at effect
        · cases effect
        · split at effect
          · cases effect
          · split at effect
            · cases effect
            · cases effect
              exact ⟨_, _, _, parsed, rfl⟩
      · rw [handleUnsub] at effect
        split at effect <;> cases effect

/-- A session has a sid and a route for it, or has asked the engine for them. -/
def Connection.Wants (connection : Connection) (sid : String) (route : RouteKey) : Prop :=
  (∃ row ∈ connection.rows, row.sid = sid ∧ row.route = route) ∨
    ∃ engineSub, connection.doing = .subscribing sid engineSub route

/-- A frame of a connection was a `SUB` for a sid and a route. -/
def AskedFor (crates : OwpCrates) (slot : Nat) (labels : List HubEvent) (sid : String)
    (route : RouteKey) : Prop :=
  ∃ answers text messageName topic group, .text slot answers text ∈ labels ∧
    parseClient crates text = .ok (.sub sid messageName topic group) ∧
      route = .typed topic messageName

theorem wants_handle (consistent : connection.Consistent adapter.config.maxSubscriptions)
    (idle : connection.doing = .nothing) {answers : Answers} {text sid : String} {route : RouteKey}
    (wants : (connection.handle (connection.outcome crates adapter answers text)).Wants sid route) :
    connection.Wants sid route ∨ AskedFor crates slot [.text slot answers text] sid route := by
  rcases wants with ⟨row, member, same⟩ | ⟨engineSub, doing⟩
  · exact .inl (.inl ⟨row, ((consistent.handle idle).2.2 row).mp member, same⟩)
  · rw [Connection.handle] at doing
    split at doing
    · rename_i effect
      cases doing
      obtain ⟨messageName, topic, group, parsed, rfl⟩ := handleText_asks effect
      exact .inr ⟨answers, text, messageName, topic, group, List.mem_singleton_self _, parsed, rfl⟩
    · split at doing
      · cases doing
      · rw [idle] at doing
        cases doing
    · split at doing
      · cases doing
      · rw [idle] at doing
        cases doing

/-- Apart from an incoming frame, a step of a session adds nothing to what it wants. -/
theorem wants_moved (step : HubStep crates adapter hub event after)
    (mover : event.mover = some slot) (frame : ∀ answers text, event ≠ .text slot answers text)
    (found : after.connections slot = some next) {sid : String} {route : RouteKey}
    (wants : next.Wants sid route) :
    ∃ connection, hub.connections slot = some connection ∧ connection.Wants sid route := by
  cases step with
  | refuse => cases mover
  | other => cases mover
  | text =>
    cases mover
    exact absurd rfl (frame _ _)
  | @drain _ connection first entry rest present doing =>
    cases mover
    obtain ⟨-, rfl⟩ := (Hub.put_found found).resolve_right fun other => other.1 rfl
    obtain ⟨row, member, same⟩ | ⟨_, asking⟩ := wants
    · refine ⟨connection, present, .inl ⟨row, ?_, same⟩⟩
      simp only [Connection.rows, Doing.rows, doing, List.mem_append, List.mem_cons] at member ⊢
      tauto
    · cases asking
  | accept | leave | subscribe | refused | insert | unsubscribe | finish =>
    cases mover
    obtain ⟨-, rfl⟩ := (Hub.put_found found).resolve_right fun other => other.1 rfl
    simp_all [Connection.Wants, Connection.rows, Connection.leave, Doing.rows]

/-- Whatever a session wants was asked for in the step or wanted before it. -/
theorem wants_step (agrees : Agrees adapter hub) (step : HubStep crates adapter hub event after)
    (found : after.connections slot = some next) {sid : String} {route : RouteKey}
    (wants : next.Wants sid route) :
    (∃ connection, hub.connections slot = some connection ∧ connection.Wants sid route) ∨
      AskedFor crates slot [event] sid route := by
  by_cases mover : event.mover = some slot
  · by_cases frame : ∃ answers text, event = .text slot answers text
    · obtain ⟨answers, text, rfl⟩ := frame
      cases step with
      | @text _ connection _ _ present idle =>
        obtain ⟨-, rfl⟩ := (Hub.put_found found).resolve_right fun other => other.1 rfl
        exact (wants_handle (agrees.consistent _ _ present) idle wants).imp
          (fun before => ⟨connection, present, before⟩) id
    · exact .inl (wants_moved step mover (by simpa using frame) found wants)
  · rw [connections_elsewhere step mover] at found
    exact .inl ⟨next, found, wants⟩

theorem AskedFor.append {slot : Nat} {early late : List HubEvent} {sid : String} {route : RouteKey}
    (asked : AskedFor crates slot early sid route ∨ AskedFor crates slot late sid route) :
    AskedFor crates slot (early ++ late) sid route := by
  obtain ⟨answers, text, messageName, topic, group, member, parsed⟩ |
    ⟨answers, text, messageName, topic, group, member, parsed⟩ := asked
  · exact ⟨answers, text, messageName, topic, group, List.mem_append_left _ member, parsed⟩
  · exact ⟨answers, text, messageName, topic, group, List.mem_append_right _ member, parsed⟩

/-- A session wants only what a frame of its client has asked for. -/
theorem asked_of_run {start : Hub} {labels : List HubEvent}
    (initial : (hubSystem crates adapter).initial start)
    (run : (numberedSystem crates adapter).Run start labels hub) :
    ∀ slot connection, hub.connections slot = some connection →
      ∀ sid route, connection.Wants sid route → AskedFor crates slot labels sid route := by
  refine run.snocInduction
    (motive := fun labels hub => ∀ slot connection, hub.connections slot = some connection →
      ∀ sid route, connection.Wants sid route → AskedFor crates slot labels sid route) ?_ ?_
  · intro slot connection found
    rw [initial.2.2.2] at found
    cases found
  · intro labels middle label target front before step slot connection found sid route wants
    have agrees := agrees_of_reachable ⟨start, labels, initial, front⟩
    refine .append ((wants_step agrees step.2 found wants).imp ?_ id)
    rintro ⟨earlier, present, wanted⟩
    exact before slot earlier present sid route wanted

/-- No session has a `SUB`, an `UNSUB` or its end in progress. -/
def Hub.Quiet (hub : Hub) : Prop :=
  ∀ slot connection, hub.connections slot = some connection → connection.doing = .nothing ∨
    connection.doing = .ended

/-- The sessions of an adapter and the engine are in step. -/
structure InStep (crates : OwpCrates) (adapter : Session) (labels : List HubEvent)
    (hub : Hub) : Prop where
  /-- The engine has the rows of the tables and nothing else. -/
  exact : hub.Quiet → ∀ subId route, Registered adapter.adapterId hub.engine subId route ↔
    ∃ slot connection entry, hub.connections slot = some connection ∧ connection.active ∧
      entry ∈ connection.entries ∧ subId = connKey connection.connId entry.sid ∧ route = entry.route
  /-- Each row is of the topic and the message of a `SUB`. -/
  asked : ∀ slot connection entry, hub.connections slot = some connection →
    entry ∈ connection.entries → AskedFor crates slot labels entry.sid entry.route
  /-- One row for each sid. -/
  sids : ∀ slot connection, hub.connections slot = some connection →
    (connection.entries.map Entry.sid).Nodup
  distinct : ∀ one two first second, hub.connections one = some first →
    hub.connections two = some second → first.active → second.active →
    ∀ sid other, connKey first.connId sid = connKey second.connId other →
      one = two ∧ sid = other
  limit : ∀ slot connection, hub.connections slot = some connection →
    connection.entries.length ≤ adapter.config.maxSubscriptions
  accepted : ∀ slot tx after, ¬ HubStep crates adapter hub (.refused slot tx) after
  /-- A session that ends leaves nothing behind. -/
  gone : ∀ slot connection after, hub.connections slot = some connection →
    HubStep crates adapter hub (.finish slot) after →
      ∀ sid route, ¬ Registered adapter.adapterId after.engine (connKey connection.connId sid) route
  /-- No step of anybody else touches the keys of a connection. -/
  others : ∀ slot connection event after, hub.connections slot = some connection →
    connection.active →
    (numberedSystem crates adapter).step hub event after → event.mover ≠ some slot →
      ∀ sid route, Registered adapter.adapterId after.engine (connKey connection.connId sid) route ↔
        Registered adapter.adapterId hub.engine (connKey connection.connId sid) route

theorem Agrees.exact (agrees : Agrees adapter hub) (quiet : hub.Quiet) (subId : SubId)
    (route : RouteKey) :
    Registered adapter.adapterId hub.engine subId route ↔
      ∃ slot connection entry, hub.connections slot = some connection ∧ connection.active ∧
        entry ∈ connection.entries ∧ subId = connKey connection.connId entry.sid ∧
            route = entry.route := by
  rw [agrees.claimed]
  constructor
  · rintro ⟨slot, connection, found, claims⟩
    have active := claims.active (agrees.consistent _ _ found)
    obtain ⟨row, member, rfl, rfl⟩ := claims
    have idle := (quiet slot connection found).resolve_right active
    have keyed := (agrees.consistent _ _ found).keys row member
    simp only [Connection.rows, idle, Doing.rows, List.append_nil] at member
    exact ⟨slot, connection, row, found, active, member, keyed, rfl⟩
  · rintro ⟨slot, connection, entry, found, -, member, rfl, rfl⟩
    have member : entry ∈ connection.rows := List.mem_append_left _ member
    exact ⟨slot, connection, found, entry, member,
      (agrees.consistent _ _ found).keys entry member, rfl⟩

/-- An ended session had given back everything before. -/
theorem Agrees.gone (agrees : Agrees adapter hub) (found : hub.connections slot = some connection)
    (step : HubStep crates adapter hub (.finish slot) after) (sid : String) (route : RouteKey) :
    ¬ Registered adapter.adapterId after.engine (connKey connection.connId sid) route := by
  cases step with
  | finish present doing =>
    rw [found] at present
    cases present
    have empty := (agrees.consistent _ _ found).drained _ doing
    intro registered
    obtain ⟨row, member, -⟩ :=
      (agrees.own found (by simp [Connection.active, doing]) sid).mp registered
    simp [Connection.rows, Doing.rows, doing, empty] at member

theorem Agrees.others (agrees : Agrees adapter hub) (found : hub.connections slot = some connection)
    (active : connection.active) (step : (numberedSystem crates adapter).step hub event after)
    (elsewhere : event.mover ≠ some slot) (sid : String) (route : RouteKey) :
    Registered adapter.adapterId after.engine (connKey connection.connId sid) route ↔
      Registered adapter.adapterId hub.engine (connKey connection.connId sid) route := by
  have kept : after.connections slot = some connection :=
    (connections_elsewhere step.2 elsewhere).trans found
  rw [agrees.own found active, (agrees_step agrees step.1 step.2).own kept active]

/-- Whatever the clients send and however the sessions interleave, tables and
engine are in step while no number in use is given out again. -/
theorem sessions_in_step {start : Hub} {labels : List HubEvent}
    (initial : (hubSystem crates adapter).initial start)
    (run : (numberedSystem crates adapter).Run start labels hub) :
    InStep crates adapter labels hub := by
  have agrees := agrees_of_reachable ⟨start, labels, initial, run⟩
  refine ⟨agrees.exact, ?_, ?_, ?_, ?_, ?_, ?_, ?_⟩
  · intro slot connection entry found member
    exact asked_of_run initial run slot connection found _ _
      (.inl ⟨entry, List.mem_append_left _ member, rfl, rfl⟩)
  · intro slot connection found
    have sids := (agrees.consistent _ _ found).sids
    rw [Connection.rows, List.map_append] at sids
    exact (List.nodup_append.mp sids).1
  · intro one two first second found present alive awake sid other same
    obtain ⟨ids, rfl⟩ := connKey_injective same
    exact ⟨agrees.apart one two first second found present alive awake ids, rfl⟩
  · intro slot connection found
    have room := (agrees.consistent _ _ found).room
    rw [Connection.rows, List.length_append] at room
    exact (Nat.le_add_right _ _).trans room
  · intro slot tx after
    exact agrees.not_refused
  · intro slot connection after found step
    exact agrees.gone found step
  · intro slot connection event after found active step elsewhere
    exact agrees.others found active step elsewhere

end Steps

section Samples

/-- An adapter that has just started, on an engine of its own. -/
def Hub.start : Hub := ⟨.default, 1, fun _ => none⟩

theorem initial_start : (hubSystem verboseCrates plainSession).initial .start :=
  ⟨⟨.default, [], rfl, .nil _⟩, fun _ _ => rfl, rfl, fun _ => rfl⟩

def Hub.accepted (hub : Hub) (slot : Nat) : Hub :=
  { hub.put slot ⟨hub.connSeq, .awaitingInit, [], 0, .nothing⟩ with connSeq := hub.connSeq + 1 }

/-- A client whose `INIT` has been taken and whose `SUB` has been read. -/
def asking (connId : UInt64) : Connection :=
  ⟨connId, .active true "demo", [], 0, .subscribing "s1" (connKey connId "s1")
    (.typed "demo" "Ping")⟩

def greeting (slot : Nat) : List HubEvent :=
  [.text slot sampleAnswers ("INIT " ++ initBody), .text slot sampleAnswers "SUB s1 Ping demo"]

/-- What a frame does to an idle session, given what it comes to. -/
theorem numbered_text {crates : OwpCrates} {adapter : Session} {hub : Hub} {slot : Nat}
    {connection next : Connection} (found : hub.connections slot = some connection)
    (idle : connection.doing = .nothing)
    (moved : connection.handle (connection.outcome crates adapter answers text) = next) :
    (numberedSystem crates adapter).step hub (.text slot answers text) (hub.put slot next) := by
  rw [← moved]
  exact ⟨id, .text found idle⟩

theorem Hub.put_self (hub : Hub) (slot : Nat) (connection : Connection) :
    (hub.put slot connection).connections slot = some connection :=
  Function.update_self ..

theorem Hub.put_put (hub : Hub) (slot : Nat) (first second : Connection) :
    (hub.put slot first).put slot second = hub.put slot second := by
  simp [Hub.put]

theorem run_greeting (hub : Hub) (slot : Nat) :
    (numberedSystem verboseCrates plainSession).Run (hub.accepted slot) (greeting slot)
      ((hub.accepted slot).put slot (asking hub.connSeq)) := by
  let init : Connection := ⟨hub.connSeq, .active true "demo", [], 0, .nothing⟩
  have sub : (numberedSystem verboseCrates plainSession).step ((hub.accepted slot).put slot init)
      (.text slot sampleAnswers "SUB s1 Ping demo")
        (((hub.accepted slot).put slot init).put slot (asking hub.connSeq)) :=
    numbered_text (Function.update_self ..) rfl rfl
  rw [Hub.put_put] at sub
  exact .cons (numbered_text (Function.update_self ..) rfl rfl) (.cons sub (.nil _))

/-- The same client when the engine has taken the subscription. -/
def inserting : Connection :=
  { asking 1 with doing := .inserting "s1" (connKey 1 "s1") (.typed "demo" "Ping") }

def firstSubscription (engine : State) : Except EngineError SubscriberKey × State :=
  engine.subscribe plainSession.adapterId (connKey 1 "s1") (.typed "demo" "Ping") ⟨0⟩

/-- The only connection, with one row in its table. -/
def served : Connection :=
  ⟨1, .active true "demo", [⟨"s1", ⟨connKey 1 "s1", 0⟩, .typed "demo" "Ping"⟩], 1, .nothing⟩

def firstClient : List HubEvent := .accept 0 :: (greeting 0 ++ [.subscribe 0 ⟨0⟩, .insert 0])

theorem run_firstClient :
    ∃ hub, (numberedSystem verboseCrates plainSession).Run .start firstClient hub ∧
    hub.connSeq = 2 ∧ hub.connections = Function.update (fun _ => none) 0 (some served) ∧
    hub.engine = (firstSubscription .default).2 := by
  have accept : (numberedSystem verboseCrates plainSession).step .start (.accept 0)
      (Hub.start.accepted 0) := by
    refine ⟨?_, .accept rfl⟩
    rintro ⟨slot, connection, found, -⟩
    cases found
  let taken : Hub :=
    { ((Hub.start.accepted 0).put 0 (asking 1)).put 0 inserting with
      engine := (firstSubscription State.default).2 }
  have subscribe : (numberedSystem verboseCrates plainSession).step
    ((Hub.start.accepted 0).put 0 (asking 1))
      (.subscribe 0 ⟨0⟩) taken := ⟨id, .subscribe (Hub.put_self ..) rfl rfl⟩
  have present : taken.connections 0 = some inserting :=
    Hub.put_self ((Hub.start.accepted 0).put 0 (asking 1)) 0 inserting
  have insert : (numberedSystem verboseCrates plainSession).step taken (.insert 0) _ :=
    ⟨id, .insert present rfl⟩
  refine ⟨_, .cons accept ((run_greeting .start 0).append
    (.cons subscribe (.cons insert (.nil _)))), rfl, ?_, rfl⟩
  simp only [taken, Hub.put, Hub.accepted, Hub.start, Function.update_idem]
  rfl

/-- One client with one subscription, and the engine has exactly that. -/
theorem firstClient_in_step :
    ∃ hub, (numberedSystem verboseCrates plainSession).Run .start firstClient hub ∧
    hub.connections 0 = some served ∧ InStep verboseCrates plainSession firstClient hub := by
  obtain ⟨hub, run, -, connections, -⟩ := run_firstClient
  exact ⟨hub, run, by rw [connections]; rfl, sessions_in_step initial_start run⟩

theorem run_refusals (hub : Hub) (count : Nat) :
    (hubSystem verboseCrates plainSession).Run hub (List.replicate count .refuse)
      { hub with connSeq := hub.connSeq + UInt64.ofNat count } := by
  induction count generalizing hub with
  | zero =>
    rw [show hub.connSeq + UInt64.ofNat 0 = hub.connSeq from UInt64.add_zero _]
    exact .nil hub
  | succ count ih =>
    have rest := ih { hub with connSeq := hub.connSeq + 1 }
    have number : hub.connSeq + 1 + UInt64.ofNat count = hub.connSeq +
        UInt64.ofNat (count + 1) := by
      rw [UInt64.ofNat_add, UInt64.add_assoc, UInt64.add_comm 1]
      rfl
    rw [← number]
    exact .cons .refuse rest

/-- The second connection has the number of the first, which still lives, and the
engine has its key already. -/
theorem run_wrapped (count : Nat) (wraps : 2 + UInt64.ofNat count = 1) :
    ∃ hub after, (hubSystem verboseCrates plainSession).Run .start
        (firstClient ++ (List.replicate count .refuse ++ .accept 1 :: greeting 1)) hub ∧
      hub.connections 0 = some served ∧ hub.connections 1 = some (asking 1) ∧
      HubStep verboseCrates plainSession hub (.refused 1 ⟨1⟩) after := by
  obtain ⟨hub, run, number, connections, engine⟩ := run_firstClient
  let wrapped : Hub := { hub with connSeq := hub.connSeq + UInt64.ofNat count }
  have again : wrapped.connSeq = 1 := by
    rw [← wraps, ← number]
  have free : wrapped.connections 1 = none := by
    simp only [wrapped, connections]
    rfl
  have duplicate : hub.engine.subscribe plainSession.adapterId (connKey 1 "s1")
    (.typed "demo" "Ping") ⟨1⟩ =
      (.error (.duplicateSub (connKey 1 "s1")), hub.engine) := by
    have taken : (firstSubscription .default).2.byKey = State.default.byKey.insert
        ⟨plainSession.adapterId, connKey 1 "s1"⟩ ⟨.typed "demo" "Ping", ⟨0⟩⟩ :=
          (State.subscribe_ok rfl).2
    have held : (hub.engine.byKey.lookup ⟨plainSession.adapterId, connKey 1 "s1"⟩).isSome := by
      rw [engine, taken, Table.lookup_insert_ite, if_pos rfl]
      rfl
    rw [State.subscribe, if_pos held]
  have greeted := (run_greeting wrapped 1).of_restrict
  rw [again] at greeted
  refine ⟨_, _, run.of_restrict.append
    ((run_refusals hub count).append (.cons (.accept free) greeted)), ?_, Hub.put_self ..,
      .refused (Hub.put_self ..) rfl duplicate⟩
  simp [Hub.put, Hub.accepted, wrapped, connections]

/-- After so many connections that the counter is back at 1, a `SUB` is a
duplicate to the engine though its table has no such sid. -/
theorem subscribe_failed : ∃ hub after, (hubSystem verboseCrates plainSession).Run .start
      (firstClient ++ (List.replicate (2 ^ 64 - 1) .refuse ++ .accept 1 :: greeting 1)) hub ∧
    hub.connections 0 = some served ∧ hub.connections 1 = some (asking 1) ∧
      (asking 1).entries = [] ∧
    connKey served.connId "s1" = connKey (asking 1).connId "s1" ∧
    HubStep verboseCrates plainSession hub (.refused 1 ⟨1⟩) after := by
  obtain ⟨hub, after, run, first, second, refused⟩ := run_wrapped (2 ^ 64 - 1) (by decide)
  exact ⟨hub, after, run, first, second, rfl, rfl, refused⟩

end Samples

end OaGateway.Owp
