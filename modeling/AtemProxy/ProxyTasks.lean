import AtemProxy.UpstreamEvents
import AtemProxy.ServerSessions
import AtemProxy.BroadcastQueues
import AtemProxy.GuardedRuns

/-!
# The tasks of the proxy and their interleavings

Four tasks share the connection flag, the cache, the filter and the session
map: the upstream task, the fan-out task, the datagram handler and the tick.
Each task is a list of atomic operations still to be executed, and a run
takes the next operation of any task. Operations under one lock are atomic;
the datagram handler keeps the session lock while the filter decides its
commands one by one, and nobody else touches the sessions meanwhile. Every
session carries a record of the payloads ever queued to it.
-/

namespace AtemProxy.ProxyTasks

open BigEndian PacketCodec CommandFrames KeyedMaps LockStores TransferLanes CommandPolicy
  LateJoinCache ReliableTransport ServerSessions UpstreamEvents BroadcastQueues GuardedRuns

/-- Session with the payloads ever put into its outbound queue. -/
structure Tracked where
  /-- The session. -/
  session : ClientSession
  /-- Payloads queued since the handshake, oldest first. -/
  queued : List Bytes

/-- Apply an operation that may append to the outbound queue. -/
def Tracked.record (update : ClientSession → ClientSession) (t : Tracked) : Tracked :=
  ⟨update t.session,
    t.queued++(update t.session).rel.outbound.drop t.session.rel.outbound.length⟩

/-- Apply an operation that queues nothing. -/
def Tracked.keep (update : ClientSession → ClientSession) (t : Tracked) : Tracked :=
  {t with session := update t.session}

/-- Atomic operation of the fan-out task. -/
inductive FanoutOp where
  /-- Remove every session. -/
  | clearSessions
  /-- Abandon the transfer in progress. -/
  | clearLane
  /-- Queue state to opened sessions. -/
  | queueState (payload : Bytes)
  /-- Queue audio levels to subscribers. -/
  | queueAudio (payload : Bytes)
  /-- Look up who receives transfer data. -/
  | routeTransfer (payload : Bytes)
  /-- Queue transfer data to its owner. -/
  | queueTransfer (owner : SocketAddr) (payload : Bytes)
  /-- Take a dump after a lag. -/
  | takeDump
  /-- Queue that dump to opened sessions. -/
  | queueResync (dump : List Bytes)
  deriving DecidableEq

/-- Operations with which the fan-out handles a received event. -/
def fanoutOps : Received UpstreamEvent → List FanoutOp
  | .item .connected => []
  | .item .disconnected => [.clearSessions,.clearLane]
  | .item (.statePayload payload) => [.queueState payload]
  | .item (.audioLevels payload) => [.queueAudio payload]
  | .item (.transferPayload payload) => [.routeTransfer payload]
  | .lagged => [.takeDump]

/-- Progress of the datagram handler. -/
inductive Handler where
  /-- Waiting for a datagram. -/
  | idle
  /-- A HELLO found the proxy connected; the cache is tested next. -/
  | checkReady (addr : SocketAddr)
  /-- The HELLO is being answered; the session is inserted next. -/
  | insert (addr : SocketAddr) (sid : UInt16)
  /-- The filter decides the commands of a payload under the session lock. -/
  | filtering (addr : SocketAddr) (cmds : List CommandRef) (actions : List FilterAction)

/-- Atomic operation of a disconnect cleanup. -/
inductive CleanupOp where
  /-- Remove the client from the audio subscribers. -/
  | audio (addr : SocketAddr)
  /-- Abandon its transfer. -/
  | lane (addr : SocketAddr)
  /-- Release its stores. -/
  | locks (addr : SocketAddr)
  deriving DecidableEq

/-- Cleanup of expired clients, address by address. -/
def cleanupOps (dead : List SocketAddr) : List CleanupOp :=
  dead.flatMap (fun addr => [.audio addr,.lane addr,.locks addr])

/-- Events the broadcast queue can hold. -/
def eventCapacity : ℕ := 512

/-- Shared state and the progress of every task. -/
structure Proxy where
  /-- The upstream session is ready. -/
  connected : Bool
  /-- State cache. -/
  cache : StateCache
  /-- Filter with broker and lane. -/
  filter : CommandFilter
  /-- Sessions by address. -/
  sessions : OrderedMap SocketAddr Tracked
  /-- Counter for session ids. -/
  nextSid : UInt16
  /-- Idle limit of a client. -/
  idle : ℕ
  /-- Events on their way to the fan-out. -/
  events : Broadcast UpstreamEvent
  /-- Remaining operations of the upstream task. -/
  upstream : List UpstreamOp
  /-- Remaining operations of the fan-out task. -/
  fanout : List FanoutOp
  /-- Progress of the datagram handler. -/
  handler : Handler
  /-- Remaining cleanup of the tick. -/
  cleanup : List CleanupOp

namespace Proxy

/-- The proxy before the first datagram. -/
def start (policy : FilterPolicy) (idle : ℕ) : Proxy :=
  ⟨false,.new,.new policy,OrderedMap.empty,1,idle,.empty,[],[],.idle,[]⟩

/-- Store ownership. -/
def locks (s : Proxy) : LockBroker := s.filter.policy.locks

/-- Media lane. -/
def lane (s : Proxy) : TransferLane := s.filter.policy.transfer

/-- Replace the broker. -/
def setLocks (s : Proxy) (locks : LockBroker) : Proxy :=
  {s with filter := {s.filter with policy := {s.filter.policy with locks := locks}}}

/-- Replace the lane. -/
def setLane (s : Proxy) (lane : TransferLane) : Proxy :=
  {s with filter := {s.filter with policy := {s.filter.policy with transfer := lane}}}

/-- Replace the subscriber set. -/
def setClients (s : Proxy) (clients : Finset SocketAddr) : Proxy :=
  {s with filter := {s.filter with audio := {s.filter.audio with clients := clients}}}

/-- Nobody holds the session lock. -/
def unlocked (s : Proxy) : Bool :=
  match s.handler with
  | .filtering _ _ _ => false
  | _ => true

/-- Execute one operation of the upstream task. -/
def upstreamStep (s : Proxy) : UpstreamOp → Proxy
  | .lockStatus chunk => s.setLocks (s.locks.onUpstreamLockStatus chunk)
  | .ingest chunk => {s with cache := s.cache.ingestPayload chunk}
  | .send event => {s with events := s.events.send eventCapacity event}
  | .setReady => {s with cache := s.cache.setReady true}
  | .swapConnected =>
    if s.connected=true then s
    else {s with connected := true, upstream := .send .connected::s.upstream}
  | .setDisconnected => {s with connected := false}
  | .clearCache => {s with cache := s.cache.clear}
  | .clearLocks => s.setLocks s.locks.clear

/-- Execute one operation of the fan-out task; those on sessions wait for
the session lock. -/
def fanoutStep (s : Proxy) : FanoutOp → Option Proxy
  | .clearSessions =>
    if s.unlocked=true then some {s with sessions := OrderedMap.empty} else none
  | .clearLane => some (s.setLane s.lane.clear)
  | .queueState payload =>
    if s.unlocked=true then
      some {s with sessions := s.sessions.mapValues (fun _ => .record (.queueState payload))}
    else none
  | .queueAudio payload =>
    if s.unlocked=true then
      some {s with sessions := s.sessions.mapValues (fun _ => .record (.queueAudio payload))}
    else none
  | .routeTransfer payload =>
    match s.lane.fanoutOwner s.locks with
    | none => some s
    | some owner => some {s with fanout := .queueTransfer owner payload::s.fanout}
  | .queueTransfer owner payload =>
    if s.unlocked=true then
      some {s with
        sessions := s.sessions.mapValues
          (fun addr => .record (ClientSession.queueTransfer owner payload addr))}
    else none
  | .takeDump => some {s with fanout := .queueResync s.cache.dump::s.fanout}
  | .queueResync dump =>
    if s.unlocked=true then
      some {s with sessions := s.sessions.mapValues (fun _ => .record (.queueResync dump))}
    else none

/-- Execute one operation of a cleanup. -/
def cleanupStep (s : Proxy) : CleanupOp → Proxy
  | .audio addr => s.setClients (s.filter.audio.clients.erase addr)
  | .lane addr => s.setLane (s.lane.clientDisconnected addr)
  | .locks addr => s.setLocks (s.locks.clientDisconnected addr).1

/-- A datagram of a client with a session, up to the filter. -/
def beginDatagram (s : Proxy) (addr : SocketAddr) (t : Tracked) (header : PacketHeader)
    (payload : Bytes) (clock : Instant) : Proxy :=
  let heard := t.record (fun sess => sess.onHeader header s.cache.dump clock)
  let admission := heard.session.onReliable header payload
  let s' := {s with sessions := s.sessions.insert addr {heard with session := admission.session}}
  match admission.payload with
  | none => s'
  | some accepted =>
    match parseCommands accepted with
    | .error _ => {s' with handler := .filtering addr [] [.forward accepted]}
    | .ok cmds => {s' with handler := .filtering addr cmds []}

/-- A datagram arrives at the idle handler. -/
def receiveDatagram (s : Proxy) (addr : SocketAddr) (data : Bytes) (clock : Instant) : Proxy :=
  match decodePacket data with
  | .error _ => s
  | .ok (header,payload) =>
    if isHandshakePacket header.flags=true then
      if s.connected=true then {s with handler := .checkReady addr} else s
    else match s.sessions.get? addr with
      | none => s
      | some t => s.beginDatagram addr t header payload clock

/-- Retransmit request that a datagram is answered with. -/
def retransmit (s : Proxy) (addr : SocketAddr) (data : Bytes) (clock : Instant) : Option Bytes :=
  match decodePacket data with
  | .error _ => none
  | .ok (header,payload) =>
    if isHandshakePacket header.flags=true then none
    else match s.sessions.get? addr with
      | none => none
      | some t => ((t.session.onHeader header s.cache.dump clock).onReliable header payload).request

/-- Continue the datagram handler; the flag says whether a reply can be sent. -/
def handlerStep (s : Proxy) (clock : Instant) (replied : Bool) : Option Proxy :=
  match s.handler with
  | .idle => none
  | .checkReady addr =>
    if s.cache.ready=true then
      some {s with nextSid := s.nextSid+1, handler := .insert addr s.nextSid}
    else some {s with handler := .idle}
  | .insert addr sid =>
    if replied=true then
      some {s with
        sessions := s.sessions.insert addr ⟨.hello (serverSessionId sid) clock,[]⟩
        handler := .idle}
    else some {s with handler := .idle}
  | .filtering addr (cmd::cmds) actions =>
    let result := s.filter.processCommand addr cmd
    some {s with filter := result.1, handler := .filtering addr cmds (actions++[result.2])}
  | .filtering addr [] actions =>
    some {s with
      sessions := s.sessions.mapValues (fun other t =>
        if other=addr then t.keep (fun sess => sess.applyActions actions) else t)
      handler := .idle}

/-- Sessions without their record. -/
def plain (s : Proxy) : Sessions := s.sessions.mapValues (fun _ t => t.session)

/-- Remove expired sessions, poll the others and start the cleanup. -/
def tick (s : Proxy) (now : Instant) (clocks : SocketAddr → PollClocks) : Proxy :=
  let dead := deadAddrs s.plain s.idle now
  {s with
    sessions := dead.foldl OrderedMap.erase (s.sessions.mapValues (fun addr =>
      .keep (.poll s.idle now (clocks addr).elapsedAt (clocks addr).ackAt)))
    cleanup := cleanupOps dead}

end Proxy

/-- One atomic step of some task. -/
inductive Action where
  /-- The idle upstream task takes a payload. -/
  | payload (payload : Bytes)
  /-- The upstream session ends. -/
  | disconnect
  /-- The upstream task executes its next operation. -/
  | upstream
  /-- The idle fan-out task receives an event. -/
  | receive
  /-- The fan-out task executes its next operation. -/
  | fanout
  /-- The idle handler takes a datagram. -/
  | datagram (addr : SocketAddr) (data : Bytes) (clock : Instant)
  /-- The handler continues. -/
  | handler (clock : Instant) (replied : Bool)
  /-- The tick fires. -/
  | tick (now : Instant) (clocks : SocketAddr → PollClocks)
  /-- The tick executes its next cleanup operation. -/
  | cleanup

/-- Next state; none when the task cannot move. -/
def step (s : Proxy) : Action → Option Proxy
  | .payload payload =>
    if s.upstream=[] then some {s with upstream := handleUpstreamPayload payload} else none
  | .disconnect => if s.upstream=[] then some {s with upstream := disconnectSequence} else none
  | .upstream =>
    match s.upstream with
    | [] => none
    | op::ops => some (Proxy.upstreamStep {s with upstream := ops} op)
  | .receive =>
    if s.fanout=[] then
      match s.events.recv with
      | none => none
      | some (received,events) => some {s with events := events, fanout := fanoutOps received}
    else none
  | .fanout =>
    match s.fanout with
    | [] => none
    | op::ops => Proxy.fanoutStep {s with fanout := ops} op
  | .datagram addr data clock =>
    match s.handler with
    | .idle => some (s.receiveDatagram addr data clock)
    | _ => none
  | .handler clock replied => s.handlerStep clock replied
  | .tick now clocks =>
    if s.cleanup=[] ∧ s.unlocked=true then some (s.tick now clocks) else none
  | .cleanup =>
    match s.cleanup with
    | [] => none
    | op::ops => some (Proxy.cleanupStep {s with cleanup := ops} op)

/-- The three cleanup operations of an address are the filter's cleanup. -/
theorem cleanup_eq_clientDisconnected (s : Proxy) (addr : SocketAddr) :
    (([.audio addr,.lane addr,.locks addr] : List CleanupOp).foldl Proxy.cleanupStep s).filter=
      (s.filter.clientDisconnected addr).1 := rfl

/-- The upstream task touches none of the server's own state. -/
theorem Proxy.upstreamStep_frame (s : Proxy) (op : UpstreamOp) :
    (s.upstreamStep op).sessions=s.sessions ∧ (s.upstreamStep op).fanout=s.fanout ∧
      (s.upstreamStep op).handler=s.handler := by
  cases op with
  | swapConnected =>
    simp only [Proxy.upstreamStep]
    split <;> exact ⟨rfl,rfl,rfl⟩
  | _ => exact ⟨rfl,rfl,rfl⟩

/-- Outcomes of the first half of a datagram: it is ignored, it is a HELLO to
a connected proxy, or it is heard by the session of its address. -/
theorem Proxy.receiveDatagram_cases (s : Proxy) (addr : SocketAddr) (data : Bytes)
    (clock : Instant) :
    s.receiveDatagram addr data clock=s ∨
      s.receiveDatagram addr data clock={s with handler := .checkReady addr} ∨
      ∃ t header payload handler,s.sessions.get? addr=some t ∧
        (handler=s.handler ∨ ∃ cmds actions,handler=.filtering addr cmds actions) ∧
        let heard := t.record (fun sess => sess.onHeader header s.cache.dump clock)
        s.receiveDatagram addr data clock={s with
          sessions := s.sessions.insert addr
            {heard with session := (heard.session.onReliable header payload).session}
          handler := handler} := by
  simp only [Proxy.receiveDatagram]
  split
  · exact Or.inl rfl
  · rename_i header payload _
    split
    · split
      · exact Or.inr (Or.inl rfl)
      · exact Or.inl rfl
    · split
      · exact Or.inl rfl
      · rename_i t ht
        simp only [Proxy.beginDatagram]
        refine Or.inr (Or.inr ⟨t,header,payload,?_⟩)
        split
        · exact ⟨s.handler,ht,Or.inl rfl,rfl⟩
        · split
          · exact ⟨_,ht,Or.inr ⟨_,_,rfl⟩,rfl⟩
          · exact ⟨_,ht,Or.inr ⟨_,_,rfl⟩,rfl⟩

/-- A datagram changes sessions and handler only. -/
theorem Proxy.receiveDatagram_eq (s : Proxy) (addr : SocketAddr) (data : Bytes) (clock : Instant) :
    s.receiveDatagram addr data clock={s with
      sessions := (s.receiveDatagram addr data clock).sessions
      handler := (s.receiveDatagram addr data clock).handler} := by
  rcases s.receiveDatagram_cases addr data clock with heq | heq | ⟨_,_,_,_,_,_,heq⟩ <;> rw [heq]

/-- Effects of the fan-out operations. -/
inductive Fanned (s : Proxy) : FanoutOp → Proxy → Prop where
  /-- The sessions are removed. -/
  | clearSessions (unlocked : s.unlocked=true) :
    Fanned s .clearSessions {s with sessions := OrderedMap.empty}
  /-- The lane is cleared. -/
  | clearLane : Fanned s .clearLane (s.setLane s.lane.clear)
  /-- State is queued. -/
  | queueState (payload : Bytes) : Fanned s (.queueState payload)
    {s with sessions := s.sessions.mapValues (fun _ => .record (.queueState payload))}
  /-- Audio levels are queued. -/
  | queueAudio (payload : Bytes) : Fanned s (.queueAudio payload)
    {s with sessions := s.sessions.mapValues (fun _ => .record (.queueAudio payload))}
  /-- Nobody receives the transfer data. -/
  | unrouted (payload : Bytes) : Fanned s (.routeTransfer payload) s
  /-- Transfer data has a receiver. -/
  | routed (payload : Bytes) (owner : SocketAddr) : Fanned s (.routeTransfer payload)
    {s with fanout := .queueTransfer owner payload::s.fanout}
  /-- Transfer data is queued. -/
  | queueTransfer (owner : SocketAddr) (payload : Bytes) : Fanned s (.queueTransfer owner payload)
    {s with
      sessions := s.sessions.mapValues
        (fun addr => .record (ClientSession.queueTransfer owner payload addr))}
  /-- A dump is taken. -/
  | takeDump : Fanned s .takeDump {s with fanout := .queueResync s.cache.dump::s.fanout}
  /-- A dump is queued. -/
  | queueResync (dump : List Bytes) : Fanned s (.queueResync dump)
    {s with sessions := s.sessions.mapValues (fun _ => .record (.queueResync dump))}

/-- Every possible operation of the fan-out is one of these. -/
theorem fanned_of_fanoutStep {s t : Proxy} {op : FanoutOp} (h : s.fanoutStep op=some t) :
    Fanned s op t := by
  cases op <;> simp only [Proxy.fanoutStep,Option.ite_none_right_eq_some,Option.some.injEq] at h
  case clearSessions => exact h.2 ▸ .clearSessions h.1
  case clearLane => exact h ▸ .clearLane
  case queueState payload => exact h.2 ▸ .queueState payload
  case queueAudio payload => exact h.2 ▸ .queueAudio payload
  case routeTransfer payload =>
    split at h
    · cases h
      exact .unrouted payload
    · cases h
      exact .routed payload _
  case queueTransfer owner payload => exact h.2 ▸ .queueTransfer owner payload
  case takeDump => exact h ▸ .takeDump
  case queueResync dump => exact h.2 ▸ .queueResync dump

/-- Continuations of the datagram handler. -/
inductive Continued (s : Proxy) (clock : Instant) : Proxy → Prop where
  /-- The cache is ready and the HELLO is being answered. -/
  | answered (addr : SocketAddr) (waits : s.handler=.checkReady addr) :
    Continued s clock {s with nextSid := s.nextSid+1, handler := .insert addr s.nextSid}
  /-- The HELLO is refused, or its reply cannot be sent. -/
  | refused : Continued s clock {s with handler := .idle}
  /-- The session is inserted. -/
  | inserted (addr : SocketAddr) (sid : UInt16) (waits : s.handler=.insert addr sid) :
    Continued s clock {s with
      sessions := s.sessions.insert addr ⟨.hello (serverSessionId sid) clock,[]⟩
      handler := .idle}
  /-- The filter decides one command. -/
  | decided (addr : SocketAddr) (cmd : CommandRef) (cmds : List CommandRef)
    (actions : List FilterAction) (waits : s.handler=.filtering addr (cmd::cmds) actions) :
    Continued s clock {s with
      filter := (s.filter.processCommand addr cmd).1
      handler := .filtering addr cmds (actions++[(s.filter.processCommand addr cmd).2])}
  /-- The session records the decisions. -/
  | finished (addr : SocketAddr) (actions : List FilterAction)
    (waits : s.handler=.filtering addr [] actions) :
    Continued s clock {s with
      sessions := s.sessions.mapValues (fun other t =>
        if other=addr then t.keep (fun sess => sess.applyActions actions) else t)
      handler := .idle}

/-- Every possible step of the handler is one of these. -/
theorem continued_of_handlerStep {s t : Proxy} {clock : Instant} {replied : Bool}
    (h : s.handlerStep clock replied=some t) : Continued s clock t := by
  simp only [Proxy.handlerStep] at h
  split at h
  · cases h
  · rename_i addr hwait
    split at h
    · cases h
      exact .answered addr hwait
    · cases h
      exact .refused
  · rename_i addr sid hwait
    split at h
    · cases h
      exact .inserted addr sid hwait
    · cases h
      exact .refused
  · rename_i addr cmd cmds actions hwait
    cases h
    exact .decided addr cmd cmds actions hwait
  · rename_i addr actions hwait
    cases h
    exact .finished addr actions hwait

/-- Steps of the tasks with what they require. -/
inductive Taken (s : Proxy) : Action → Proxy → Prop where
  /-- A payload is taken. -/
  | payload (payload : Bytes) (idle : s.upstream=[]) :
    Taken s (.payload payload) {s with upstream := handleUpstreamPayload payload}
  /-- The upstream session ends. -/
  | disconnect (idle : s.upstream=[]) :
    Taken s .disconnect {s with upstream := disconnectSequence}
  /-- An upstream operation. -/
  | upstream (op : UpstreamOp) (ops : List UpstreamOp) (next : s.upstream=op::ops) :
    Taken s .upstream (Proxy.upstreamStep {s with upstream := ops} op)
  /-- An event is received. -/
  | receive (received : Received UpstreamEvent) (events : Broadcast UpstreamEvent)
    (idle : s.fanout=[]) (next : s.events.recv=some (received,events)) :
    Taken s .receive {s with events := events, fanout := fanoutOps received}
  /-- A fan-out operation. -/
  | fanout (op : FanoutOp) (ops : List FanoutOp) (t : Proxy) (next : s.fanout=op::ops)
    (done : Fanned {s with fanout := ops} op t) : Taken s .fanout t
  /-- A datagram arrives. -/
  | datagram (addr : SocketAddr) (data : Bytes) (clock : Instant) (idle : s.handler=.idle) :
    Taken s (.datagram addr data clock) (s.receiveDatagram addr data clock)
  /-- The handler continues. -/
  | handler (clock : Instant) (replied : Bool) (t : Proxy) (done : Continued s clock t) :
    Taken s (.handler clock replied) t
  /-- The tick fires. -/
  | tick (now : Instant) (clocks : SocketAddr → PollClocks) (idle : s.cleanup=[])
    (unlocked : s.unlocked=true) : Taken s (.tick now clocks) (s.tick now clocks)
  /-- A cleanup operation. -/
  | cleanup (op : CleanupOp) (ops : List CleanupOp) (next : s.cleanup=op::ops) :
    Taken s .cleanup (Proxy.cleanupStep {s with cleanup := ops} op)

/-- Every enabled step is one of these. -/
theorem taken_of_step {s t : Proxy} {action : Action} (h : step s action=some t) :
    Taken s action t := by
  cases action <;> dsimp only [step] at h
  case payload payload =>
    split at h
    · rename_i hidle
      cases h
      exact .payload payload hidle
    · cases h
  case disconnect =>
    split at h
    · rename_i hidle
      cases h
      exact .disconnect hidle
    · cases h
  case upstream =>
    split at h
    · cases h
    · rename_i op ops hnext
      cases h
      exact .upstream op ops hnext
  case receive =>
    split at h
    · rename_i hidle
      split at h
      · cases h
      · rename_i received events hnext
        cases h
        exact .receive received events hidle hnext
    · cases h
  case fanout =>
    split at h
    · cases h
    · rename_i op ops hnext
      exact .fanout op ops t hnext (fanned_of_fanoutStep h)
  case datagram addr data clock =>
    split at h
    · rename_i hidle
      cases h
      exact .datagram addr data clock hidle
    · cases h
  case handler clock replied => exact .handler clock replied t (continued_of_handlerStep h)
  case tick now clocks =>
    split at h
    · rename_i hready
      cases h
      exact .tick now clocks hready.1 hready.2
    · cases h
  case cleanup =>
    split at h
    · cases h
    · rename_i op ops hnext
      cases h
      exact .cleanup op ops hnext

end AtemProxy.ProxyTasks
