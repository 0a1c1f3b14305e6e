import AtemProxy.SessionEpochs
import AtemProxy.UpstreamSessions

/-!
# The whole proxy: server tasks, upstream session and command channel

The server tasks put commands into a bounded channel: the datagram handler
those its filter lets through, the tick those of a cleanup. Both wait while
the channel is full and do nothing else meanwhile. The upstream task takes
them out while it has a session. The channel outlives every session; the
session itself is dropped when it ends.
-/

namespace AtemProxy.ProxySystem

open BigEndian PacketCodec CommandFrames KeyedMaps LockStores TransferLanes CommandPolicy
  LateJoinCache ReliableTransport SenderLedgers ServerSessions UpstreamEvents UpstreamSessions
  BroadcastQueues GuardedRuns ProxyTasks SessionEpochs

/-- Server tasks, upstream session and everything on its way upstream. -/
structure System where
  /-- Server tasks and what they share with the upstream task. -/
  proxy : Proxy
  /-- Session with the switcher, if there is one. -/
  session : Option UpstreamSession
  /-- Commands in the channel, oldest first. -/
  channel : List Command
  /-- Commands the datagram handler has yet to put into the channel. -/
  forwards : List Bytes
  /-- Commands the tick has yet to put into the channel. -/
  cleanups : List Bytes
  /-- Disconnects announced so far. -/
  ended : ℕ

/-- Commands the channel can hold. -/
def channelCapacity : ℕ := 512

/-- Commands that one operation of a cleanup sends upstream. -/
def cleanupCommands (f : CommandFilter) : CleanupOp → List Bytes
  | .audio addr =>
    if addr ∈ f.audio.clients ∧ f.audio.clients.erase addr=∅ then
      (f.audio.lastEnable.map synthesizeAudioDisable).toList
    else []
  | .lane _ => []
  | .locks addr => (f.policy.locks.clientDisconnected addr).2

/-- The operations of one address together send what the filter returns. -/
theorem cleanupCommands_eq (s : Proxy) (addr : SocketAddr) :
    cleanupCommands s.filter (.audio addr)++
        (cleanupCommands (s.cleanupStep (.audio addr)).filter (.lane addr)++
          cleanupCommands ((s.cleanupStep (.audio addr)).cleanupStep (.lane addr)).filter
            (.locks addr))=
      (s.filter.clientDisconnected addr).2 := rfl

/-- The cleanup of one address is complete. -/
def addressDone : List CleanupOp → Bool
  | [] => true
  | .audio _::_ => true
  | _ => false

/-- Commands that the next operation of a cleanup sends upstream. -/
def nextCleanup (s : Proxy) : List Bytes :=
  match s.cleanup with
  | [] => []
  | op::_ => cleanupCommands s.filter op

/-- Commands that the datagram handler has yet to put after its next step. -/
def forwardsAfter (s : Proxy) (forwards : List Bytes) : List Bytes :=
  match s.handler with
  | .filtering _ [] actions => actions.flatMap FilterAction.forwarded
  | _ => forwards

/-- Session after an operation of the upstream task: the switcher's first
completed initialization opens the endpoint. -/
def sessionAfter (s : Proxy) (session : Option UpstreamSession) : Option UpstreamSession :=
  if s.upstream.head?=some .swapConnected ∧ s.connected=false then
    session.map (fun u => u.call (.opened true))
  else session

/-- An operation of the upstream task keeps the session, up to its opened flag. -/
theorem sessionAfter_eq_some {s : Proxy} {session : Option UpstreamSession} {u : UpstreamSession}
    (h : sessionAfter s session=some u) :
    ∃ v, session=some v ∧ (u=v ∨ u=v.call (.opened true)) := by
  unfold sessionAfter at h
  split at h
  · obtain ⟨v,hv,rfl⟩ := Option.map_eq_some_iff.mp h
    exact ⟨v,hv,Or.inr rfl⟩
  · exact ⟨u,h,Or.inl rfl⟩

namespace System

/-- The proxy before the first datagram. -/
def start (policy : FilterPolicy) (idle : ℕ) : System :=
  ⟨Proxy.start policy idle,none,[],[],[],0⟩

/-- A session can react: it exists, is not emptying the channel, and the task
has no operation left to do. -/
def reacting (x : System) (u : UpstreamSession) : Bool :=
  !u.draining && decide (x.proxy.upstream=[])

/-- A step of a server task or of the upstream task's remaining operations. -/
def serverStep (x : System) : Action → Option System
  | .payload _ => none
  | .disconnect => none
  | .upstream => (step x.proxy .upstream).map (fun t => {x with
      proxy := t
      session := sessionAfter x.proxy x.session
      ended := x.ended+announces x.proxy .upstream})
  | .receive => (step x.proxy .receive).map (fun t => {x with proxy := t})
  | .fanout => (step x.proxy .fanout).map (fun t => {x with proxy := t})
  | .datagram addr data clock =>
    if x.forwards=[] then
      (step x.proxy (.datagram addr data clock)).map (fun t => {x with proxy := t})
    else none
  | .handler clock replied => (step x.proxy (.handler clock replied)).map (fun t => {x with
      proxy := t
      forwards := forwardsAfter x.proxy x.forwards})
  | .tick now clocks =>
    if x.cleanups=[] then
      (step x.proxy (.tick now clocks)).map (fun t => {x with proxy := t})
    else none
  | .cleanup =>
    if addressDone x.proxy.cleanup=true ∧ x.cleanups≠[] then none
    else (step x.proxy .cleanup).map (fun t => {x with
      proxy := t
      cleanups := x.cleanups++nextCleanup x.proxy})

/-- A datagram of the switcher; its payload is handled by the upstream task. -/
def switcherStep (x : System) (u : UpstreamSession) (data : Bytes) (clock : Instant) :
    Option System :=
  let heard := u.onDatagram data clock
  match heard.2 with
  | none => some {x with session := some heard.1}
  | some payload => (step x.proxy (.payload payload)).map (fun t => {x with
      proxy := t
      session := some heard.1})

/-- One more command out of the channel, or the batch when it is empty. -/
def drainStep (x : System) (u : UpstreamSession) (now elapsedAt ackAt : Instant) : System :=
  match x.channel with
  | cmd::channel => {x with session := some (u.take cmd), channel := channel}
  | [] => {x with session := some (u.flush now elapsedAt ackAt)}

end System

/-- One atomic step of the whole proxy. -/
inductive SystemAction where
  /-- A step of the server tasks, or the next operation of the upstream task. -/
  | server (a : Action)
  /-- The switcher replies to the HELLO. -/
  | connect (reply : Bytes) (clock : Instant)
  /-- The session ends, or could not be established. -/
  | endSession
  /-- A datagram of the switcher. -/
  | switcher (data : Bytes) (clock : Instant)
  /-- The session takes a command from the channel. -/
  | wake
  /-- The session continues to empty the channel. -/
  | drain (now elapsedAt ackAt : Instant)
  /-- The tick of the session. -/
  | tick (clock now elapsedAt ackAt : Instant)
  /-- The datagram handler puts a command into the channel. -/
  | putForward
  /-- The cleanup puts a command into the channel. -/
  | putCleanup

/-- Next state; none when the step is not possible. -/
def systemStep (x : System) : SystemAction → Option System
  | .server a => x.serverStep a
  | .connect reply clock =>
    if x.session.isNone=true ∧ x.proxy.upstream=[] then
      (UpstreamSession.connect reply clock).map (fun u => {x with session := some u})
    else none
  | .endSession =>
    if (x.session.map UpstreamSession.draining).getD false=true then none
    else (step x.proxy .disconnect).map (fun t => {x with proxy := t, session := none})
  | .switcher data clock =>
    match x.session with
    | none => none
    | some u => if x.reacting u=true then x.switcherStep u data clock else none
  | .wake =>
    match x.session,x.channel with
    | some u,cmd::channel =>
      if x.reacting u=true then some {x with session := some (u.wake cmd), channel := channel}
      else none
    | _,_ => none
  | .drain now elapsedAt ackAt =>
    match x.session with
    | none => none
    | some u => if u.draining=true then some (x.drainStep u now elapsedAt ackAt) else none
  | .tick clock now elapsedAt ackAt =>
    match x.session with
    | none => none
    | some u =>
      if x.reacting u=true ∧ u.ledger.endpoint.isTimedOut clock=false then
        some {x with session := some (u.tick now elapsedAt ackAt)}
      else none
  | .putForward =>
    match x.forwards with
    | [] => none
    | raw::forwards =>
      if x.channel.length<channelCapacity then
        some {x with forwards := forwards, channel := x.channel++[⟨raw,x.ended⟩]}
      else none
  | .putCleanup =>
    match x.cleanups with
    | [] => none
    | raw::cleanups =>
      if addressDone x.proxy.cleanup=true ∧ x.channel.length<channelCapacity then
        some {x with cleanups := cleanups, channel := x.channel++[⟨raw,x.ended⟩]}
      else none

/-- Steps of the server tasks; the others belong to the upstream task. -/
def serves : Action → Bool
  | .payload _ => false
  | .disconnect => false
  | .upstream => false
  | _ => true

/-- The server tasks leave the operations of the upstream task alone. -/
theorem upstream_of_serves {s t : Proxy} {a : Action} (hs : serves a=true)
    (h : step s a=some t) : t.upstream=s.upstream := by
  cases taken_of_step h with
  | payload payload _ => cases hs
  | disconnect _ => cases hs
  | upstream op ops _ => cases hs
  | receive received events _ _ => rfl
  | fanout op ops t _ hdone => cases hdone <;> rfl
  | datagram addr data clock _ =>
    rw [s.receiveDatagram_eq addr data clock]
  | handler clock replied t hdone => cases hdone <;> rfl
  | tick now clocks _ _ => rfl
  | cleanup op ops _ => cases op <;> rfl

/-- Steps of the system with what they require. -/
inductive Moved (x : System) : SystemAction → System → Prop where
  /-- An operation of the upstream task. -/
  | upstream (t : Proxy) (done : step x.proxy .upstream=some t) :
    Moved x (.server .upstream) {x with
      proxy := t
      session := sessionAfter x.proxy x.session
      ended := x.ended+announces x.proxy .upstream}
  /-- A step of the server tasks that sends nothing upstream. -/
  | quiet (a : Action) (t : Proxy) (done : step x.proxy a=some t)
    (server : serves a=true) :
    Moved x (.server a) {x with proxy := t}
  /-- The datagram handler continues. -/
  | handler (clock : Instant) (replied : Bool) (t : Proxy)
    (done : step x.proxy (.handler clock replied)=some t) :
    Moved x (.server (.handler clock replied)) {x with
      proxy := t
      forwards := forwardsAfter x.proxy x.forwards}
  /-- A cleanup operation. -/
  | cleanup (t : Proxy) (done : step x.proxy .cleanup=some t) :
    Moved x (.server .cleanup) {x with
      proxy := t
      cleanups := x.cleanups++nextCleanup x.proxy}
  /-- A session begins. -/
  | connect (reply : Bytes) (clock : Instant) (u : UpstreamSession)
    (free : x.session=none) (idle : x.proxy.upstream=[])
    (done : UpstreamSession.connect reply clock=some u) :
    Moved x (.connect reply clock) {x with session := some u}
  /-- A session ends. -/
  | endSession (t : Proxy) (done : step x.proxy .disconnect=some t) :
    Moved x .endSession {x with proxy := t, session := none}
  /-- A datagram of the switcher without payload to handle. -/
  | heard (u : UpstreamSession) (data : Bytes) (clock : Instant) (present : x.session=some u) :
    Moved x (.switcher data clock) {x with session := some (u.onDatagram data clock).1}
  /-- A datagram of the switcher with a payload. -/
  | handled (u : UpstreamSession) (data : Bytes) (clock : Instant) (payload : Bytes) (t : Proxy)
    (present : x.session=some u) (asked : (u.onDatagram data clock).2=some payload)
    (done : step x.proxy (.payload payload)=some t) :
    Moved x (.switcher data clock) {x with
      proxy := t
      session := some (u.onDatagram data clock).1}
  /-- A command wakes the session. -/
  | woke (u : UpstreamSession) (cmd : Command) (channel : List Command)
    (present : x.session=some u) (next : x.channel=cmd::channel) :
    Moved x .wake {x with session := some (u.wake cmd), channel := channel}
  /-- One more command is taken. -/
  | took (u : UpstreamSession) (now elapsedAt ackAt : Instant) (cmd : Command)
    (channel : List Command) (present : x.session=some u) (next : x.channel=cmd::channel) :
    Moved x (.drain now elapsedAt ackAt) {x with session := some (u.take cmd), channel := channel}
  /-- The batch is sent. -/
  | flushed (u : UpstreamSession) (now elapsedAt ackAt : Instant) (present : x.session=some u)
    (empty : x.channel=[]) :
    Moved x (.drain now elapsedAt ackAt) {x with session := some (u.flush now elapsedAt ackAt)}
  /-- The session ticks. -/
  | ticked (u : UpstreamSession) (clock now elapsedAt ackAt : Instant)
    (present : x.session=some u) :
    Moved x (.tick clock now elapsedAt ackAt) {x with session := some (u.tick now elapsedAt ackAt)}
  /-- A forwarded command is put. -/
  | putForward (raw : Bytes) (forwards : List Bytes) (next : x.forwards=raw::forwards) :
    Moved x .putForward {x with forwards := forwards, channel := x.channel++[⟨raw,x.ended⟩]}
  /-- A cleanup command is put. -/
  | putCleanup (raw : Bytes) (cleanups : List Bytes) (next : x.cleanups=raw::cleanups) :
    Moved x .putCleanup {x with cleanups := cleanups, channel := x.channel++[⟨raw,x.ended⟩]}

/-- Every possible step of the server tasks is one of these. -/
theorem moved_of_serverStep {x y : System} {a : Action} (h : x.serverStep a=some y) :
    Moved x (.server a) y := by
  cases a <;> simp only [System.serverStep] at h
  case payload => cases h
  case disconnect => cases h
  case upstream =>
    obtain ⟨t,ht,rfl⟩ := Option.map_eq_some_iff.mp h
    exact .upstream t ht
  case receive =>
    obtain ⟨t,ht,rfl⟩ := Option.map_eq_some_iff.mp h
    exact .quiet .receive t ht rfl
  case fanout =>
    obtain ⟨t,ht,rfl⟩ := Option.map_eq_some_iff.mp h
    exact .quiet .fanout t ht rfl
  case datagram addr data clock =>
    split at h
    · obtain ⟨t,ht,rfl⟩ := Option.map_eq_some_iff.mp h
      exact .quiet _ t ht rfl
    · cases h
  case handler clock replied =>
    obtain ⟨t,ht,rfl⟩ := Option.map_eq_some_iff.mp h
    exact .handler clock replied t ht
  case tick now clocks =>
    split at h
    · obtain ⟨t,ht,rfl⟩ := Option.map_eq_some_iff.mp h
      exact .quiet _ t ht rfl
    · cases h
  case cleanup =>
    split at h
    · cases h
    · obtain ⟨t,ht,rfl⟩ := Option.map_eq_some_iff.mp h
      exact .cleanup t ht

/-- Every possible step is one of these. -/
theorem moved_of_systemStep {x y : System} {a : SystemAction} (h : systemStep x a=some y) :
    Moved x a y := by
  cases a <;> simp only [systemStep] at h
  case server a => exact moved_of_serverStep h
  case connect reply clock =>
    split at h
    · rename_i hfree
      obtain ⟨u,hu,rfl⟩ := Option.map_eq_some_iff.mp h
      exact .connect reply clock u (Option.isNone_iff_eq_none.mp hfree.1) hfree.2 hu
    · cases h
  case endSession =>
    split at h
    · cases h
    · obtain ⟨t,ht,rfl⟩ := Option.map_eq_some_iff.mp h
      exact .endSession t ht
  case switcher data clock =>
    split at h
    · cases h
    · rename_i u hu
      split at h
      · simp only [System.switcherStep] at h
        split at h
        · cases h
          exact .heard u data clock hu
        · rename_i payload hpayload
          obtain ⟨t,ht,rfl⟩ := Option.map_eq_some_iff.mp h
          exact .handled u data clock payload t hu hpayload ht
      · cases h
  case wake =>
    split at h
    · rename_i u cmd channel hu hchannel
      split at h
      · cases h
        exact .woke u cmd channel hu hchannel
      · cases h
    · cases h
  case drain now elapsedAt ackAt =>
    split at h
    · cases h
    · rename_i u hu
      split at h
      · cases h
        simp only [System.drainStep]
        split
        · rename_i cmd channel hchannel
          exact .took u now elapsedAt ackAt cmd channel hu hchannel
        · rename_i hchannel
          exact .flushed u now elapsedAt ackAt hu hchannel
      · cases h
  case tick clock now elapsedAt ackAt =>
    split at h
    · cases h
    · rename_i u hu
      split at h
      · cases h
        exact .ticked u clock now elapsedAt ackAt hu
      · cases h
  case putForward =>
    split at h
    · cases h
    · rename_i raw forwards hforwards
      split at h
      · cases h
        exact .putForward raw forwards hforwards
      · cases h
  case putCleanup =>
    split at h
    · cases h
    · rename_i raw cleanups hcleanups
      split at h
      · cases h
        exact .putCleanup raw cleanups hcleanups
      · cases h

/-- Every step of the system is at most one step of the tasks it is made of. -/
theorem proxy_of_systemStep {x y : System} {a : SystemAction} (h : systemStep x a=some y) :
    y.proxy=x.proxy ∨ ∃ action, step x.proxy action=some y.proxy := by
  cases moved_of_systemStep h with
  | upstream t ht => exact Or.inr ⟨_,ht⟩
  | quiet a t ht _ => exact Or.inr ⟨a,ht⟩
  | handler clock replied t ht => exact Or.inr ⟨_,ht⟩
  | cleanup t ht => exact Or.inr ⟨_,ht⟩
  | connect reply clock u _ _ _ => exact Or.inl rfl
  | endSession t ht => exact Or.inr ⟨_,ht⟩
  | heard u data clock _ => exact Or.inl rfl
  | handled u data clock payload t _ _ ht => exact Or.inr ⟨_,ht⟩
  | woke u cmd channel _ _ => exact Or.inl rfl
  | took u now elapsedAt ackAt cmd channel _ _ => exact Or.inl rfl
  | flushed u now elapsedAt ackAt _ _ => exact Or.inl rfl
  | ticked u clock now elapsedAt ackAt _ => exact Or.inl rfl
  | putForward raw forwards _ => exact Or.inl rfl
  | putCleanup raw cleanups _ => exact Or.inl rfl

/-- Every run of the system is a run of the tasks it is made of. -/
theorem tasks_run_of_system_run {x y : System} {acts : List SystemAction}
    (h : run systemStep x acts=some y) : ∃ actions, run step x.proxy actions=some y.proxy := by
  induction acts generalizing x with
  | nil =>
    rw [run_nil,Option.some.injEq] at h
    exact ⟨[],by rw [run_nil,h]⟩
  | cons a acts ih =>
    obtain ⟨z,hz,h⟩ := (run_cons_eq_some systemStep).mp h
    obtain ⟨actions,hactions⟩ := ih h
    rcases proxy_of_systemStep hz with hsame | ⟨action,haction⟩
    · exact ⟨actions,hsame ▸ hactions⟩
    · exact ⟨action::actions,(run_cons_eq_some step).mpr ⟨z.proxy,haction,hactions⟩⟩

end AtemProxy.ProxySystem
