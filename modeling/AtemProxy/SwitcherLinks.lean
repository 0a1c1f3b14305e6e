import AtemProxy.LinkTraffic
import AtemProxy.UpstreamIds

/-!
# The upstream session as one end of a link

Towards the switcher the proxy is a client: it hears datagrams, acknowledges them, and
sends the commands it packed. As long as a session lasts and the switcher keeps its
session id, every step of the whole proxy does to the session what a few events do to
the right end of a link, and sends the datagrams that they send.
-/

namespace AtemProxy.SwitcherLinks

open BigEndian PacketCodec CommandFrames ReliableTransport ReliableWindow SenderLedgers
  ServerSessions UpstreamSessions GuardedRuns ProxyTasks SessionEpochs ProxySystem UpstreamIds
  DuplexLinks LinkTraffic
open ReliableLink (Peer Link Side)

/-- Packets that joined the window of the session. -/
def joinedWindow (u v : UpstreamSession) : List Packet :=
  (v.ledger.endpoint.inFlight.drop u.ledger.endpoint.inFlight.length).map packetOf

/-- The peer is the record of the session. -/
structure Mirrors (u : UpstreamSession) (p : Peer) : Prop where
  /-- Endpoint. -/
  ep : p.ep=u.ledger.endpoint
  /-- Queued payloads. -/
  queued : p.queued=u.ledger.queued

/-- The record after a step that hears nothing. -/
def advanced (u v : UpstreamSession) (p : Peer) : Peer :=
  {p with
    ep := v.ledger.endpoint
    queued := v.ledger.queued
    sent := p.sent++joinedWindow u v}

/-- The step neither begins nor ends the session, and hears no datagram. -/
def deaf : SystemAction → Bool
  | .connect _ _ => false
  | .endSession => false
  | .switcher _ _ => false
  | _ => true

/-- Events of the link that do what the step does to the session, and send what it
sends. -/
def Follows (u v : UpstreamSession) (out : List Bytes) : Prop :=
  ∃ events,(∀ e∈events,outside e=true) ∧ ∀ l : Link,Mirrors u l.right →
    run eventStep l events=some (l.update .right (advanced u v l.right,out))

/-- Nothing happens to the endpoint. -/
theorem follows_same {u v : UpstreamSession} (h : v.ledger=u.ledger) : Follows u v [] := by
  refine ⟨[],fun _ he => absurd he List.not_mem_nil,fun l hl => ?_⟩
  have hsame : advanced u v l.right=l.right := by
    unfold advanced joinedWindow
    rw [h,List.drop_length,List.map_nil,List.append_nil,←hl.ep,←hl.queued]
  rw [run_nil,hsame]
  show some l=some {l with right := l.right, toLeft := l.toLeft++[]}
  rw [List.append_nil]

/-- The session is polled. -/
theorem follows_poll (u : UpstreamSession) (now elapsedAt ackAt : Instant) :
    Follows u (u.call (.pollOutbound now elapsedAt ackAt))
      (u.ledger.endpoint.pollOutbound now elapsedAt ackAt).2 := by
  refine ⟨[.act (.pollOutbound .right now elapsedAt ackAt)],fun e he => ?_,fun l hl => ?_⟩
  · rw [List.mem_singleton.mp he]
    rfl
  · rw [run_cons,eventStep_act rfl rfl,Option.bind_some,run_nil]
    unfold advanced joinedWindow ReliableLink.Peer.pollOutbound UpstreamSession.call
      SenderLedger.call
    dsimp only [Link.peer]
    rw [hl.ep,hl.queued]

/-- The pending commands are packed, and the session is polled. -/
theorem follows_pack_poll (u : UpstreamSession) (now elapsedAt ackAt : Instant) :
    Follows u (u.pack.call (.pollOutbound now elapsedAt ackAt))
      (u.pack.ledger.endpoint.pollOutbound now elapsedAt ackAt).2 := by
  refine ⟨[.act (.queueCommandsPacked .right (u.pending.map Command.raw)),
    .act (.pollOutbound .right now elapsedAt ackAt)],fun e he => ?_,fun l hl => ?_⟩
  · rcases List.mem_cons.mp he with rfl | he
    · rfl
    · rw [List.mem_singleton.mp he]
      rfl
  · rw [run_cons,eventStep_act rfl rfl,Option.bind_some,run_cons,eventStep_act rfl rfl,
      Option.bind_some,run_nil]
    unfold advanced joinedWindow UpstreamSession.call UpstreamSession.pack SenderLedger.call
    dsimp only [ReliableLink.Link.setPeer,Link.peer,ReliableLink.Peer.queueCommandsPacked,
      ReliableLink.Peer.pollOutbound,ReliableEndpoint.queueCommandsPacked,Link.update]
    rw [hl.ep,hl.queued]

/-- The session opens, and the last packet of the initial dump is acknowledged once more. -/
theorem follows_opened {u : UpstreamSession} (h : u.ledger.endpoint.ack.highestRecv≠none) :
    Follows u (u.call (.opened true))
      [buildInitCompleteAck u.ledger.endpoint.sessionId
        (u.ledger.endpoint.ack.highestRecv.getD 0)] := by
  obtain ⟨ackId,hhigh⟩ := Option.ne_none_iff_exists'.mp h
  refine ⟨[.act (.opened .right),.repeatAck .right initAckRemoteSeq],fun e he => ?_,
    fun l hl => ?_⟩
  · rcases List.mem_cons.mp he with rfl | he
    · rfl
    · rw [List.mem_singleton.mp he]
      rfl
  · rw [run_cons,eventStep_act rfl rfl,Option.bind_some,run_cons]
    have hrepeated : repeatedAck {u.ledger.endpoint with opened := true} initAckRemoteSeq=
        some (buildInitCompleteAck u.ledger.endpoint.sessionId
          (u.ledger.endpoint.ack.highestRecv.getD 0)) := by
      unfold repeatedAck
      dsimp only
      rw [hhigh]
      rfl
    dsimp only [eventStep,ReliableLink.Link.setPeer,Link.peer]
    rw [hl.ep,hrepeated,Option.map_some,Option.bind_some,run_nil]
    unfold advanced joinedWindow UpstreamSession.call SenderLedger.call
    dsimp only [Link.update]
    rw [List.drop_length,List.map_nil,List.append_nil,hl.queued]

/-- Every deaf step of a session follows the link. -/
theorem follows_step {x y : System} {a : SystemAction} {u : UpstreamSession}
    (hu : x.session=some u) (hhigh : u.ledger.endpoint.ack.highestRecv≠none)
    (ha : deaf a=true) (h : systemStep x a=some y) :
    ∃ v,y.session=some v ∧ Follows u v (emitted x a) := by
  cases moved_of_systemStep h with
  | upstream t _ =>
    by_cases hswap : x.proxy.upstream.head?=some .swapConnected ∧ x.proxy.connected=false
    · refine ⟨u.call (.opened true),?_,?_⟩
      · dsimp only
        unfold sessionAfter
        rw [if_pos hswap,hu,Option.map_some]
      · unfold emitted
        rw [if_pos hswap,hu,Option.map_some]
        exact follows_opened hhigh
    · refine ⟨u,?_,?_⟩
      · dsimp only
        unfold sessionAfter
        rw [if_neg hswap,hu]
      · unfold emitted
        rw [if_neg hswap]
        exact follows_same rfl
  | quiet a t _ hserves =>
    have hout : emitted x (.server a)=[] := by
      cases a with
      | upstream => cases hserves
      | _ => rfl
    rw [hout]
    exact ⟨u,hu,follows_same rfl⟩
  | handler clock replied t _ => exact ⟨u,hu,follows_same rfl⟩
  | cleanup t _ => exact ⟨u,hu,follows_same rfl⟩
  | connect reply clock v _ _ _ => cases ha
  | endSession t _ => cases ha
  | heard v data clock _ => cases ha
  | handled v data clock payload t _ _ _ => cases ha
  | woke v cmd channel hv _ =>
    rw [hu,Option.some.injEq] at hv
    subst hv
    refine ⟨_,rfl,follows_same ?_⟩
    unfold UpstreamSession.wake UpstreamSession.take
    split <;> rfl
  | took v now elapsedAt ackAt cmd channel hv hnext =>
    rw [hu,Option.some.injEq] at hv
    subst hv
    have hout : emitted x (.drain now elapsedAt ackAt)=[] := by
      unfold emitted
      rw [hu,hnext]
    rw [hout]
    refine ⟨_,rfl,follows_same ?_⟩
    unfold UpstreamSession.take
    split <;> rfl
  | flushed v now elapsedAt ackAt hv hempty =>
    rw [hu,Option.some.injEq] at hv
    subst hv
    have hout : emitted x (.drain now elapsedAt ackAt)=
        (u.pack.ledger.endpoint.pollOutbound now elapsedAt ackAt).2 := by
      unfold emitted
      rw [hu,hempty]
    rw [hout]
    exact ⟨_,rfl,follows_pack_poll u now elapsedAt ackAt⟩
  | ticked v clock now elapsedAt ackAt hv =>
    rw [hu,Option.some.injEq] at hv
    subst hv
    have hout : emitted x (.tick clock now elapsedAt ackAt)=
        ((tickEndpoint u).pollOutbound now elapsedAt ackAt).2 := by
      unfold emitted
      rw [hu]
    rw [hout]
    refine ⟨_,rfl,?_⟩
    unfold UpstreamSession.tick tickEndpoint
    dsimp only
    split
    · exact follows_poll u now elapsedAt ackAt
    · exact follows_pack_poll u now elapsedAt ackAt
  | putForward raw forwards _ => exact ⟨u,hu,follows_same rfl⟩
  | putCleanup raw cleanups _ => exact ⟨u,hu,follows_same rfl⟩

/-- A session that accepted something, or acknowledged the reply to its HELLO, never
forgets it. -/
abbrev High (u : UpstreamSession) : Prop := u.ledger.endpoint.ack.highestRecv≠none

/-- No call forgets the highest id. -/
theorem high_call {u : UpstreamSession} (h : High u) (c : EndpointCall) : High (u.call c) := by
  cases c with
  | acceptReliable packetId isRetransmit =>
    by_cases hturn : packetId=u.ledger.endpoint.ack.expectedRecv
    · show ((u.ledger.endpoint.acceptReliable packetId isRetransmit).1).ack.highestRecv≠none
      unfold ReliableEndpoint.acceptReliable
      rw [if_pos hturn]
      exact Option.some_ne_none packetId
    · show ((u.ledger.endpoint.acceptReliable packetId isRetransmit).1).ack.highestRecv≠none
      rw [ReliableEndpoint.acceptReliable_of_ne hturn]
      exact h
  | pollOutbound now elapsedAt ackAt =>
    show (u.ledger.endpoint.pollOutbound now elapsedAt ackAt).1.ack.highestRecv≠none
    rw [(pollOutbound_phase u.ledger.endpoint now elapsedAt ackAt).highest]
    exact h
  | _ => exact h

/-- Nor does any operation of the session. -/
theorem sessionRule_high : SessionRule High where
  call h c _ := high_call h c
  pack h := h
  flag h _ := h

/-- Nor does a command that is taken. -/
theorem high_take {u : UpstreamSession} (h : High u) (cmd : Command) : High (u.take cmd) := by
  unfold UpstreamSession.take
  split <;> exact h

/-- Adopting the current id changes nothing. -/
theorem adopt_same {u : UpstreamSession} {header : PacketHeader}
    (h : header.sessionId=u.ledger.endpoint.sessionId) :
    u.call (.sessionId header.sessionId)=u := by
  unfold UpstreamSession.call SenderLedger.call
  rw [h]

/-- The header of a datagram does to the session what it does to the peer. -/
theorem onHeader_mirrors {u : UpstreamSession} {p : Peer} (hp : Mirrors u p)
    {header : PacketHeader} (h : header.sessionId=u.ledger.endpoint.sessionId) :
    Mirrors (u.onHeader header) (p.acknowledged header none) := by
  have hcond : (header.flags.ackReply=true ∨ header.ackId≠0) ↔
      ClientSession.acknowledges header=true := by
    rw [ClientSession.acknowledges,Bool.or_eq_true,decide_eq_true_iff]
  have hadopted : (if header.sessionId≠0 then u.call (.sessionId header.sessionId) else u)=u := by
    rw [adopt_same h]
    exact ite_self u
  unfold UpstreamSession.onHeader Peer.acknowledged Peer.openWith
  rw [hadopted]
  dsimp only
  by_cases hack : ClientSession.acknowledges header=true
  · rw [if_pos hack,if_pos (hcond.mpr hack)]
    exact ⟨congrArg (fun ep => ep.onAckId header.ackId) hp.ep,hp.queued⟩
  · rw [if_neg hack,if_neg (fun hc => hack (hcond.mp hc))]
    exact hp

/-- So does the sequence check. -/
theorem acceptReliable_mirrors {u : UpstreamSession} {p : Peer} (hp : Mirrors u p)
    (header : PacketHeader) (payload : Bytes) :
    let result := u.ledger.endpoint.acceptReliable header.packetId header.flags.isRetransmit
    Mirrors (u.call (.acceptReliable header.packetId header.flags.isRetransmit))
        (p.acceptReliable header payload).1 ∧
      (if result.2=true then none else some result.1.buildRetransmitRequest).toList=
        (p.acceptReliable header payload).2 ∧
      ∃ packets,(p.acceptReliable header payload).1.accepted=p.accepted++packets ∧
        nonEmpty (packets.map Packet.payload)=
          (if result.2=true ∧ payload≠[] then some payload else none).toList := by
  intro result
  by_cases hturn : header.packetId=u.ledger.endpoint.ack.expectedRecv
  · have hresult : result=({u.ledger.endpoint with ack := {u.ledger.endpoint.ack with
        expectedRecv := nextPacketId u.ledger.endpoint.ack.expectedRecv
        highestRecv := some header.packetId
        packetsSinceAck := saturatingSucc16 u.ledger.endpoint.ack.packetsSinceAck}},true) :=
      if_pos hturn
    rw [Peer.acceptReliable_of_eq (by rw [hp.ep]; exact hturn),hresult]
    refine ⟨⟨?_,hp.queued⟩,rfl,[⟨header.packetId,payload⟩],rfl,?_⟩
    · show _=result.1
      rw [hresult]
      dsimp only
      rw [hp.ep]
    · by_cases hempty : payload=[]
      · rw [if_neg (fun hc => hc.2 hempty),hempty]
        rfl
      · rw [if_pos ⟨rfl,hempty⟩]
        exact List.filter_cons_of_pos (decide_eq_true hempty)
  · have hresult : result=(u.ledger.endpoint,false) :=
      ReliableEndpoint.acceptReliable_of_ne hturn header.flags.isRetransmit
    rw [Peer.acceptReliable_of_ne (by rw [hp.ep]; exact hturn),hresult]
    refine ⟨⟨?_,hp.queued⟩,?_,[],(List.append_nil _).symm,rfl⟩
    · show p.ep=result.1
      rw [hresult]
      exact hp.ep
    · rw [hp.ep]
      rfl

/-- A datagram of the switcher does to the session what it does to the peer, is
answered alike, and its payload is handled exactly if the peer accepts it. -/
theorem onDatagram_mirrors {u : UpstreamSession} {p : Peer} (hp : Mirrors u p) {data : Bytes}
    {header : PacketHeader} {payload : Bytes} (hdecode : decodePacket data=.ok (header,payload))
    (hid : header.sessionId=u.ledger.endpoint.sessionId)
    (hhello : isHandshakePacket header.flags=false) (clock : Instant) :
    Mirrors (u.onDatagram data clock).1 (p.handleDatagram clock none data).1 ∧
      (u.retransmit data clock).toList=(p.handleDatagram clock none data).2 ∧
      ∃ packets,(p.handleDatagram clock none data).1.accepted=p.accepted++packets ∧
        (header.flags.ackRequest=true ∨ payload=[] →
          nonEmpty (packets.map Packet.payload)=(u.onDatagram data clock).2.toList) := by
  have hheard : Mirrors (u.call (.noteRecv clock)) {p with ep := p.ep.noteRecv clock} :=
    ⟨congrArg (fun ep => ep.noteRecv clock) hp.ep,hp.queued⟩
  have hknown := onHeader_mirrors hheard hid
  have hkept : (({p with ep := p.ep.noteRecv clock} : Peer).acknowledged header none).accepted=
      p.accepted := by
    unfold Peer.acknowledged Peer.openWith
    split <;> rfl
  have hno : ¬isHandshakePacket header.flags=true := by
    rw [hhello]
    exact Bool.false_ne_true
  unfold UpstreamSession.onDatagram UpstreamSession.retransmit Peer.handleDatagram
  rw [hdecode]
  dsimp only
  rw [if_neg hno,if_neg hno]
  by_cases hreq : header.flags.ackRequest=true
  · rw [if_pos hreq,if_pos hreq,if_pos hreq]
    obtain ⟨hmirrors,hrequest,packets,haccepted,hpayload⟩ :=
      acceptReliable_mirrors hknown header payload
    exact ⟨hmirrors,hrequest,packets,by rw [haccepted,hkept],fun _ => hpayload⟩
  · rw [if_neg hreq,if_neg hreq,if_neg hreq]
    refine ⟨hknown,rfl,[],?_,fun hor => ?_⟩
    · rw [hkept,List.append_nil]
    · rcases hor with hreq' | rfl
      · exact absurd hreq' hreq
      · rfl

end AtemProxy.SwitcherLinks
