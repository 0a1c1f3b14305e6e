import AtemProxy.ProxyTasks
import AtemProxy.SenderLedgers

/-!
# Where the sessions of the proxy come from

After any step a session was there before, or the handler has just inserted
it. No operation closes a session again, so an unopened session was unopened
before.
-/

namespace AtemProxy.SessionOrigins

open BigEndian PacketCodec CommandFrames KeyedMaps LockStores CommandPolicy LateJoinCache
  ReliableTransport SenderLedgers ServerSessions UpstreamEvents BroadcastQueues ProxyTasks

/-- A cleanup leaves the sessions alone. -/
theorem cleanupStep_sessions (s : Proxy) (op : CleanupOp) :
    (s.cleanupStep op).sessions=s.sessions := by
  cases op <;> rfl

/-- A poll takes payloads from the front of the queue. -/
theorem poll_suffix (idle : ℕ) (now elapsedAt ackAt : Instant) (sess : ClientSession) :
    (sess.poll idle now elapsedAt ackAt).rel.outbound<:+sess.rel.outbound := by
  unfold ClientSession.poll
  split
  · exact List.suffix_rfl
  · exact pollOutbound_suffix sess.rel now elapsedAt ackAt

/-- A reliable packet leaves the queue alone. -/
theorem onReliable_suffix (sess : ClientSession) (header : PacketHeader) (payload : Bytes) :
    (sess.onReliable header payload).session.rel.outbound<:+sess.rel.outbound := by
  have hcore := (acceptReliable_core sess.rel header.packetId header.flags.isRetransmit).2.2.2
  simp only [ClientSession.onReliable]
  split
  · split <;> exact hcore ▸ List.suffix_rfl
  · exact List.suffix_rfl

/-- What the fan-out can queue to a session. -/
inductive Handout where
  /-- A state payload. -/
  | state (payload : Bytes)
  /-- Audio levels. -/
  | audio (payload : Bytes)
  /-- Transfer data for one client. -/
  | transfer (owner : SocketAddr) (payload : Bytes)
  /-- A dump after a lag. -/
  | resync (dump : List Bytes)

/-- The operation on the session of an address. -/
def Handout.update (addr : SocketAddr) : Handout → ClientSession → ClientSession
  | .state payload => .queueState payload
  | .audio payload => .queueAudio payload
  | .transfer owner payload => ClientSession.queueTransfer owner payload addr
  | .resync dump => .queueResync dump

/-- Fan-out operation that hands it out. -/
def Handout.op : Handout → FanoutOp
  | .state payload => .queueState payload
  | .audio payload => .queueAudio payload
  | .transfer owner payload => .queueTransfer owner payload
  | .resync dump => .queueResync dump

/-- Payloads handed out. -/
def Handout.payloads : Handout → List Bytes
  | .state payload => [payload]
  | .audio payload => [payload]
  | .transfer _ payload => [payload]
  | .resync dump => packCommands dump

/-- A handout appends its payloads or nothing. -/
theorem Handout.hands (addr : SocketAddr) (h : Handout) (sess : ClientSession) :
    Hands h.payloads sess (h.update addr sess) := by
  cases h with
  | state payload => exact hands_queueState payload sess
  | audio payload => exact hands_queueAudio payload sess
  | transfer owner payload => exact hands_queueTransfer owner payload addr sess
  | resync dump => exact hands_queueResync dump sess

/-- Handouts leave an unopened session alone. -/
theorem update_unopened (h : Handout) (addr : SocketAddr) {sess : ClientSession}
    (hclosed : sess.opened=false) : h.update addr sess=sess := by
  cases h <;>
    simp only [Handout.update,ClientSession.queueState,ClientSession.queueAudio,
      ClientSession.queueTransfer,ClientSession.queueResync,hclosed,Bool.false_eq_true,false_and,
      and_false,if_false]

/-- A session that is not opened is handed nothing. -/
theorem record_unopened (h : Handout) (addr : SocketAddr) {t : Tracked}
    (hclosed : t.session.opened=false) : t.record (h.update addr)=t := by
  rw [Tracked.record,update_unopened h addr hclosed,List.drop_length,List.append_nil]

/-- Session after a datagram that is heard. -/
def heardBy (t : Tracked) (header : PacketHeader) (payload : Bytes) (dump : List Bytes)
    (clock : Instant) : Tracked :=
  let heard := t.record (fun sess => sess.onHeader header dump clock)
  {heard with session := (heard.session.onReliable header payload).session}

/-- What an operation appends to the queue is added to the record. -/
theorem record_queued (t : Tracked) {update : ClientSession → ClientSession} {new : List Bytes}
    (h : (update t.session).rel.outbound=t.session.rel.outbound++new) :
    (t.record update).queued=t.queued++new := by
  rw [Tracked.record,h,List.drop_left]

/-- A datagram that is heard keeps flags and record, or opens the session, with the
dump unless it was sent. -/
theorem heardBy_cases (t : Tracked) (header : PacketHeader) (payload : Bytes) (dump : List Bytes)
    (clock : Instant) :
    ((heardBy t header payload dump clock).session.opened=t.session.opened ∧
        (heardBy t header payload dump clock).session.dumpSent=t.session.dumpSent ∧
        (heardBy t header payload dump clock).session.rel.outbound<:+t.session.rel.outbound ∧
        (heardBy t header payload dump clock).queued=t.queued) ∨
      (t.session.opened=false ∧ (heardBy t header payload dump clock).session.opened=true ∧
        (heardBy t header payload dump clock).queued=
          t.queued++if t.session.dumpSent=true then [] else packCommands dump) := by
  obtain ⟨hopened,hdump,_⟩ :=
    (t.session.onHeader header dump clock).onReliable_flags header payload
  have hsuffix := onReliable_suffix (t.session.onHeader header dump clock) header payload
  rcases t.session.onHeader_cases header dump clock with ⟨ho,hd,hout⟩ | ⟨hclosed,hnow,hout⟩
  · have hqueued := @record_queued t (fun sess => sess.onHeader header dump clock) []
      (hout.trans (List.append_nil _).symm)
    rw [List.append_nil] at hqueued
    exact Or.inl ⟨hopened.trans ho,hdump.trans hd,hout ▸ hsuffix,hqueued⟩
  · have hqueued := @record_queued t (fun sess => sess.onHeader header dump clock) _ hout
    exact Or.inr ⟨hclosed,hopened.trans hnow,hqueued⟩

/-- Effects of a step on the session of one address. -/
inductive SessionStep (s : Proxy) (addr : SocketAddr) :
    Action → Option Tracked → Option Tracked → Prop where
  /-- Nothing happens to it. -/
  | kept (a : Action) (t : Option Tracked) : SessionStep s addr a t t
  /-- The fan-out hands something to it. -/
  | handed (h : Handout) (next : s.fanout.head?=some h.op) (t : Tracked) :
    SessionStep s addr .fanout (some t) (some (t.record (h.update addr)))
  /-- It hears a datagram. -/
  | heard (data : Bytes) (header : PacketHeader) (payload : Bytes) (clock : Instant) (t : Tracked) :
    SessionStep s addr (.datagram addr data clock) (some t)
      (some (heardBy t header payload s.cache.dump clock))
  /-- It records decisions of the filter. -/
  | decided (clock : Instant) (replied : Bool) (actions : List FilterAction) (t : Tracked) :
    SessionStep s addr (.handler clock replied) (some t)
      (some (t.keep (fun sess => sess.applyActions actions)))
  /-- It is polled. -/
  | polled (now : Instant) (clocks : SocketAddr → PollClocks) (t : Tracked) :
    SessionStep s addr (.tick now clocks) (some t)
      (some (t.keep (.poll s.idle now (clocks addr).elapsedAt (clocks addr).ackAt)))
  /-- It is removed. -/
  | removed (a : Action) (t : Option Tracked) : SessionStep s addr a t none
  /-- It is created, or replaced by a new one. -/
  | inserted (sid : UInt16) (clock : Instant) (waits : s.handler=.insert addr sid)
    (t : Option Tracked) :
    SessionStep s addr (.handler clock true) t (some ⟨.hello (serverSessionId sid) clock,[]⟩)

section SessionSteps

variable {s t : Proxy} (addr : SocketAddr)

/-- A table mapped by one operation on each session. -/
theorem sessionStep_mapValues {a : Action} {update : SocketAddr → Tracked → Tracked}
    (h : ∀ v,SessionStep s addr a (some v) (some (update addr v))) :
    SessionStep s addr a (s.sessions.get? addr) ((s.sessions.mapValues update).get? addr) := by
  rw [OrderedMap.get?_mapValues]
  cases s.sessions.get? addr with
  | none => exact .kept a none
  | some v => exact h v

/-- What the fan-out does to one session. -/
theorem sessionStep_fanned {op : FanoutOp} {ops : List FanoutOp} (hnext : s.fanout=op::ops)
    (h : Fanned {s with fanout := ops} op t) :
    SessionStep s addr .fanout (s.sessions.get? addr) (t.sessions.get? addr) := by
  have hhead : s.fanout.head?=some op := by rw [hnext]; rfl
  cases h with
  | clearSessions _ => exact .removed _ _
  | clearLane => exact .kept _ _
  | queueState payload =>
    exact sessionStep_mapValues addr (fun v => .handed (.state payload) hhead v)
  | queueAudio payload =>
    exact sessionStep_mapValues addr (fun v => .handed (.audio payload) hhead v)
  | unrouted payload => exact .kept _ _
  | routed payload owner => exact .kept _ _
  | queueTransfer owner payload =>
    exact sessionStep_mapValues addr (fun v => .handed (.transfer owner payload) hhead v)
  | takeDump => exact .kept _ _
  | queueResync dump =>
    exact sessionStep_mapValues addr (fun v => .handed (.resync dump) hhead v)

/-- What the datagram handler does to one session. -/
theorem sessionStep_handler {clock : Instant} {replied : Bool}
    (h : s.handlerStep clock replied=some t) :
    SessionStep s addr (.handler clock replied) (s.sessions.get? addr) (t.sessions.get? addr) := by
  simp only [Proxy.handlerStep] at h
  split at h
  · cases h
  · split at h <;> cases h <;> exact .kept _ _
  · rename_i other sid hwaits
    cases replied with
    | false =>
      cases h
      exact .kept _ _
    | true =>
      cases h
      by_cases he : addr=other
      · subst he
        simp only [OrderedMap.get?_insert_self]
        exact .inserted sid clock hwaits _
      · simp only [OrderedMap.get?_insert_of_ne _ he]
        exact .kept _ _
  · cases h
    exact .kept _ _
  · rename_i other actions _
    cases h
    refine sessionStep_mapValues addr (fun v => ?_)
    split
    · exact .decided clock replied actions v
    · exact .kept _ _

/-- What a datagram does to one session. -/
theorem sessionStep_datagram {target : SocketAddr} {data : Bytes} {clock : Instant} :
    SessionStep s addr (.datagram target data clock) (s.sessions.get? addr)
      ((s.receiveDatagram target data clock).sessions.get? addr) := by
  rcases s.receiveDatagram_cases target data clock with
    heq | heq | ⟨before,header,payload,handler,hbefore,_,heq⟩
  · rw [heq]
    exact .kept _ _
  · rw [heq]
    exact .kept _ _
  · rw [heq]
    by_cases he : addr=target
    · subst he
      rw [hbefore,OrderedMap.get?_insert_self]
      exact .heard data header payload clock before
    · rw [OrderedMap.get?_insert_of_ne _ he]
      exact .kept _ _

/-- Every step does one of these to the session of an address. -/
theorem sessionStep_of_step {a : Action} (h : step s a=some t) :
    SessionStep s addr a (s.sessions.get? addr) (t.sessions.get? addr) := by
  cases taken_of_step h with
  | payload payload _ => exact .kept _ _
  | disconnect _ => exact .kept _ _
  | upstream op ops _ =>
    rw [(Proxy.upstreamStep_frame _ op).1]
    exact .kept _ _
  | receive received events _ _ => exact .kept _ _
  | fanout op ops t hnext hdone => exact sessionStep_fanned addr hnext hdone
  | datagram target data clock _ => exact sessionStep_datagram addr
  | handler clock replied t _ => exact sessionStep_handler addr h
  | tick now clocks _ _ =>
    simp only [Proxy.tick,OrderedMap.get?_eraseAll]
    split
    · exact .removed _ _
    · exact sessionStep_mapValues addr (fun v => .polled now clocks v)
  | cleanup op ops _ =>
    rw [cleanupStep_sessions]
    exact .kept _ _

end SessionSteps

/-- Origin of a session after a step: the same address before the step, or
the handler that inserts it. -/
def Originates (s : Proxy) (a : Action) (addr : SocketAddr) (u : Tracked) : Prop :=
  (∃ before, s.sessions.get? addr=some before ∧
      (u.session.opened=false → before.session.opened=false)) ∨
    ∃ sid clock, s.handler=.insert addr sid ∧ a=.handler clock true

/-- Every session after a step has an origin before it. -/
theorem originates_of_step {s t : Proxy} {a : Action} (h : step s a=some t) {addr : SocketAddr}
    {u : Tracked} (hu : t.sessions.get? addr=some u) : Originates s a addr u := by
  have hkind := sessionStep_of_step addr h
  rw [hu] at hkind
  unfold Originates
  generalize s.sessions.get? addr=earlier at hkind
  cases hkind with
  | kept _ _ => exact Or.inl ⟨u,rfl,id⟩
  | handed handout _ before =>
    have hopened := (handout.hands addr before.session).opened
    exact Or.inl ⟨before,rfl,fun hclosed => hopened.symm.trans hclosed⟩
  | heard data header payload clock before =>
    refine Or.inl ⟨before,rfl,fun hclosed => ?_⟩
    rcases heardBy_cases before header payload s.cache.dump clock with ⟨hsame,_⟩ | ⟨hwas,_⟩
    · exact hsame.symm.trans hclosed
    · exact hwas
  | decided clock replied actions before =>
    have hopened := (before.session.applyActions_keeps actions).1
    exact Or.inl ⟨before,rfl,fun hclosed => hopened.symm.trans hclosed⟩
  | polled now clocks before =>
    have hopened := (before.session.poll_flags s.idle now (clocks addr).elapsedAt
      (clocks addr).ackAt).1
    exact Or.inl ⟨before,rfl,fun hclosed => hopened.symm.trans hclosed⟩
  | inserted sid clock hwaits _ => exact Or.inr ⟨sid,clock,hwaits,rfl⟩

end AtemProxy.SessionOrigins
