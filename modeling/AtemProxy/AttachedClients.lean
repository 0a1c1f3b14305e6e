import AtemProxy.LinkTraffic
import AtemProxy.PayloadBounds
import AtemProxy.SessionFeeds

/-!
# A client attached to the proxy by a lossy network

The session of one address and the client behind it are the two ends of a
reliable link: whatever the tasks of the proxy do to the session, and whatever
the network does to the datagrams, is a run of that link. So the delivery
guarantees of the link hold for the whole proxy, for as long as the session
exists: a client is handed what was queued to its session, in order, and the
filter is handed what the client queued. The client is an endpoint of the same
code, set up as after the reply to its HELLO, and nothing of an earlier session
of the address is on its way when the session is inserted.
-/

namespace AtemProxy.AttachedClients

open BigEndian PacketCodec CommandFrames KeyedMaps LastWrites LockStores CommandPolicy LateJoinCache
  ReliableTransport ReliableWindow ServerSessions GuardedRuns ProxyTasks SessionOrigins SessionFeeds
  DuplexLinks LinkTraffic
open ReliableLink (Peer Link Datagram Linked linkStart)
open PayloadBounds (Small Bounded)
open LateJoiners (Following Settled payloadWrites)

/-- The proxy, the client at one address and the datagrams between them. -/
structure Attached where
  /-- The proxy with all its sessions. -/
  proxy : Proxy
  /-- Reliable packets that the session of the address sent. -/
  sent : List Packet
  /-- Those removed from its window by acknowledgements. -/
  acked : List Packet
  /-- Packets that the session accepted. -/
  accepted : List Packet
  /-- The client. -/
  client : Peer
  /-- Datagrams on their way to the proxy. -/
  toProxy : List Datagram
  /-- Datagrams on their way to the client. -/
  toClient : List Datagram

namespace Attached

/-- The session as one end of a link. -/
def peer (x : Attached) (t : Tracked) : Peer :=
  ⟨t.session.rel,t.queued,x.sent,x.acked,x.accepted⟩

/-- Session, network and client as a link whose left end is the session. -/
def link (x : Attached) (t : Tracked) : Link := ⟨x.peer t,x.client,x.toProxy,x.toClient⟩

/-- The proxy moves on, the session becomes this peer and sends datagrams. -/
def advance (x : Attached) (s : Proxy) (p : Peer) (out : List Bytes) : Attached :=
  {x with
    proxy := s
    sent := p.sent
    acked := p.acked
    accepted := p.accepted
    toClient := x.toClient++p.stamp out}

/-- Client and network become those of the link. -/
def takeLink (x : Attached) (l : Link) : Attached :=
  {x with client := l.right, toProxy := l.toLeft, toClient := l.toRight}

end Attached

/-- Datagrams that a step of the tasks sends to the client; only the tick sends any. -/
def emitted (addr : SocketAddr) (t : Tracked) : ProxyTasks.Action → List Bytes
  | .tick now clocks =>
    (t.session.rel.pollOutbound now (clocks addr).elapsedAt (clocks addr).ackAt).2
  | _ => []

/-- Packets that joined the window of the session. -/
def joined (t u : Tracked) : List Packet :=
  (u.session.rel.inFlight.drop t.session.rel.inFlight.length).map packetOf

/-- The session after it heard a datagram, with its record. -/
def heardPeer (x : Attached) (t u : Tracked) (data : Bytes) : Peer :=
  match decodePacket data with
  | .error _ => x.peer u
  | .ok (header,payload) =>
    {x.peer u with
      acked := x.acked++
        if ClientSession.acknowledges header=true then removedBy t.session.rel header.ackId else []
      accepted := x.accepted++
        if header.flags.ackRequest=true ∧ header.packetId=t.session.rel.ack.expectedRecv then
          [⟨header.packetId,payload⟩]
        else []}

/-- The step handles a datagram of the address, or gives it a new session. -/
def targets (addr : SocketAddr) (s : Proxy) : ProxyTasks.Action → Bool
  | .datagram other _ _ => decide (other=addr)
  | a => inserts s addr a

/-- What can happen to the proxy, to the client or between them. -/
inductive Move where
  /-- A step of the tasks without a datagram of this client. -/
  | task (a : ProxyTasks.Action)
  /-- The datagram at this position reaches the proxy. -/
  | hear (i : ℕ) (clock : Instant)
  /-- The client or the network acts. -/
  | client (e : Event)

/-- Next state; none when the move is not possible or ends the session. -/
def move (addr : SocketAddr) (x : Attached) : Move → Option Attached
  | .task a =>
    if targets addr x.proxy a=true then none
    else match x.proxy.sessions.get? addr,step x.proxy a with
      | some t,some s => (s.sessions.get? addr).map (fun u =>
          x.advance s {x.peer u with sent := x.sent++joined t u} (emitted addr t a))
      | _,_ => none
  | .hear i clock =>
    match x.proxy.sessions.get? addr,x.toProxy[i]? with
    | some t,some d =>
      if inTime (x.link t) d=true then
        match step x.proxy (.datagram addr d.bytes clock) with
        | none => none
        | some s => (s.sessions.get? addr).map (fun u =>
            ({x with toProxy := x.toProxy.eraseIdx i} : Attached).advance s
              (heardPeer x t u d.bytes) (x.proxy.retransmit addr d.bytes clock).toList)
      else none
    | _,_ => none
  | .client e =>
    match x.proxy.sessions.get? addr with
    | none => none
    | some t => if outside e=true then (eventStep (x.link t) e).map x.takeLink else none

/-- The session and its endpoint agree that it is open, and the dump is queued
when it opens. -/
structure Aligned (t : Tracked) : Prop where
  /-- Opened flags. -/
  opened : t.session.rel.opened=t.session.opened
  /-- Dump flag. -/
  undumped : t.session.opened=false → t.session.dumpSent=false

/-- A session that is handed something queues it or stays as it is. -/
theorem handout_rel (addr : SocketAddr) (h : Handout) (sess : ClientSession) :
    (h.update addr sess).rel=sess.rel ∨
      (h.update addr sess).rel={sess.rel with outbound := sess.rel.outbound++h.payloads} := by
  cases h <;> dsimp only [Handout.update,ClientSession.queueState,ClientSession.queueAudio,
    ClientSession.queueTransfer,ClientSession.queueResync] <;> split <;>
    first | exact Or.inl rfl | exact Or.inr rfl

/-- Link action with which a session queues what it is handed. -/
def handoutAction : Handout → ReliableLink.Action
  | .state payload => .queuePayload .left payload
  | .audio payload => .queuePayload .left payload
  | .transfer _ payload => .queuePayload .left payload
  | .resync dump => .queueCommandsPacked .left dump

/-- That action appends the payloads to queue and record. -/
theorem step_handoutAction (l : Link) (h : Handout) :
    eventStep l (.act (handoutAction h))=some {l with left := {l.left with
      ep := {l.left.ep with outbound := l.left.ep.outbound++h.payloads}
      queued := l.left.queued++h.payloads}} := by
  cases h <;> rfl

/-- A state of the link that a step of the tasks left behind. -/
def LeftBehind (x : Attached) (t u : Tracked) (s : Proxy) (out : List Bytes) : Prop :=
  ∃ events,(∀ e∈events,inside e=true) ∧ run eventStep (x.link t) events=
    some ((x.advance s {x.peer u with sent := x.sent++joined t u} out).link u)

/-- A session whose endpoint and record are as before. -/
theorem leftBehind_same {x : Attached} {t u : Tracked} (s : Proxy)
    (hrel : u.session.rel=t.session.rel) (hqueued : u.queued=t.queued) :
    LeftBehind x t u s [] := by
  refine ⟨[],fun _ he => absurd he List.not_mem_nil,?_⟩
  rw [run_nil]
  unfold Attached.link Attached.advance Attached.peer joined Peer.stamp
  rw [hrel,hqueued,List.drop_length,List.map_nil,List.append_nil,List.map_nil,List.append_nil]

/-- A session that is handed something queues it in the link, too. -/
theorem leftBehind_handed {x : Attached} {t : Tracked} (s : Proxy) (addr : SocketAddr)
    (h : Handout) : LeftBehind x t (t.record (h.update addr)) s [] := by
  rcases handout_rel addr h t.session with hrel | hrel
  · refine leftBehind_same s hrel ?_
    dsimp only [Tracked.record]
    rw [hrel,List.drop_length,List.append_nil]
  · have hqueued := record_queued t (congrArg ReliableEndpoint.outbound hrel)
    refine ⟨[.act (handoutAction h)],fun e he => ?_,?_⟩
    · rw [List.mem_singleton.mp he]
      cases h <;> rfl
    · rw [run_cons,step_handoutAction,Option.bind_some,run_nil]
      unfold Attached.link Attached.advance Attached.peer joined Peer.stamp
      rw [hqueued]
      dsimp only [Tracked.record]
      rw [hrel,List.drop_length,List.map_nil,List.append_nil,List.map_nil,List.append_nil]

/-- A session that survives a tick was polled. -/
theorem tick_polled {s : Proxy} {addr : SocketAddr} {t u : Tracked} {now : Instant}
    {clocks : SocketAddr → PollClocks} (ht : s.sessions.get? addr=some t)
    (hu : (s.tick now clocks).sessions.get? addr=some u) :
    u={t with session := {t.session with
      rel := (t.session.rel.pollOutbound now (clocks addr).elapsedAt (clocks addr).ackAt).1}} := by
  dsimp only [Proxy.tick] at hu
  rw [OrderedMap.get?_eraseAll] at hu
  split at hu
  · cases hu
  · rename_i hlive
    rw [OrderedMap.get?_mapValues,ht,Option.map_some,Option.some.injEq] at hu
    have hplain : s.plain.get? addr=some t.session := by
      unfold Proxy.plain
      rw [OrderedMap.get?_mapValues,ht,Option.map_some]
    have hawake : t.session.expired s.idle now=false := by
      refine eq_false_of_ne_true (fun hexpired => hlive ?_)
      exact (mem_deadAddrs_iff s.plain s.idle now addr).mpr ⟨t.session,hplain,hexpired⟩
    rw [←hu]
    unfold Tracked.keep ClientSession.poll
    rw [hawake]
    rfl

/-- A step of the tasks without a datagram of the client is a run of the link,
and keeps the flags aligned. -/
theorem link_of_task {addr : SocketAddr} {x : Attached} {t u : Tracked} {s : Proxy}
    {a : ProxyTasks.Action} (ht : x.proxy.sessions.get? addr=some t)
    (htargets : targets addr x.proxy a=false) (hstep : step x.proxy a=some s)
    (hu : s.sessions.get? addr=some u) :
    LeftBehind x t u s (emitted addr t a) ∧ (Aligned t → Aligned u) := by
  by_cases htick : ∃ now clocks,a=.tick now clocks
  · obtain ⟨now,clocks,rfl⟩ := htick
    cases taken_of_step hstep with
    | tick _ _ _ _ =>
      have hpolled := tick_polled ht hu
      subst hpolled
      refine ⟨⟨[.act (.pollOutbound .left now (clocks addr).elapsedAt (clocks addr).ackAt)],
        fun e he => by rw [List.mem_singleton.mp he]; rfl,rfl⟩,fun h => ⟨?_,h.undumped⟩⟩
      exact (pollOutbound_opened _ _ _ _).trans h.opened
  · have hemitted : emitted addr t a=[] := by
      cases a with
      | tick now clocks => exact absurd ⟨now,clocks,rfl⟩ htick
      | _ => rfl
    rw [hemitted]
    have hkind := sessionStep_of_step addr hstep
    rw [ht,hu] at hkind
    cases hkind with
    | kept _ _ => exact ⟨leftBehind_same s rfl rfl,id⟩
    | handed h _ _ =>
      have hands := h.hands addr t.session
      refine ⟨leftBehind_handed s addr h,fun hal => ⟨?_,?_⟩⟩
      · have hopened : (h.update addr t.session).rel.opened=t.session.rel.opened := by
          rcases handout_rel addr h t.session with hrel | hrel <;> rw [hrel]
        exact hopened.trans (hal.opened.trans hands.opened.symm)
      · intro hclosed
        exact hands.dumpSent.trans (hal.undumped (hands.opened.symm.trans hclosed))
    | heard data header payload clock _ =>
      dsimp only [targets] at htargets
      rw [decide_eq_false_iff_not] at htargets
      exact absurd rfl htargets
    | decided clock replied actions _ =>
      obtain ⟨hopened,hdump,hrel⟩ := t.session.applyActions_keeps actions
      refine ⟨leftBehind_same s hrel rfl,fun h => ⟨?_,?_⟩⟩
      · exact (congrArg ReliableEndpoint.opened hrel).trans (h.opened.trans hopened.symm)
      · exact fun hclosed => hdump.trans (h.undumped (hopened.symm.trans hclosed))
    | polled now clocks _ => exact absurd ⟨now,clocks,rfl⟩ htick
    | inserted sid clock hwaits _ =>
      dsimp only [targets,inserts] at htargets
      rw [hwaits] at htargets
      dsimp only at htargets
      rw [decide_eq_false_iff_not] at htargets
      exact absurd rfl htargets

/-- The header part of a datagram, in the session and in the link. -/
theorem acknowledged_peer {x : Attached} {t : Tracked} (h : Aligned t) (header : PacketHeader)
    (clock : Instant) (dump : List Bytes) :
    ({x.peer t with ep := t.session.rel.noteRecv clock} : Peer).acknowledged header (some dump)=
      {x.peer (t.record (fun sess => sess.onHeader header dump clock)) with
        acked := x.acked++
          if ClientSession.acknowledges header=true then removedBy t.session.rel header.ackId
          else []} := by
  have hcond : (header.flags.ackReply=true ∨ header.ackId≠0) ↔
      ClientSession.acknowledges header=true := by
    rw [ClientSession.acknowledges,Bool.or_eq_true,decide_eq_true_iff]
  unfold Peer.acknowledged Attached.peer Tracked.record ClientSession.onHeader
  by_cases hack : ClientSession.acknowledges header=true
  · rw [if_pos (hcond.mpr hack)]
    simp only [hack,if_true]
    unfold Peer.openWith Peer.onAckId ClientSession.openWith
    by_cases hopen : t.session.opened=true
    · have hrel := h.opened.trans hopen
      simp only [ReliableEndpoint.onAckId,ReliableEndpoint.noteRecv,hrel,hopen,if_true,
        List.drop_length,List.append_nil]
      rfl
    · have hclosed := eq_false_of_ne_true hopen
      have hrel := h.opened.trans hclosed
      simp only [ReliableEndpoint.onAckId,ReliableEndpoint.noteRecv,hrel,hclosed,
        h.undumped hclosed,Bool.false_eq_true,if_false,Peer.queueCommandsPacked,
        ReliableEndpoint.queueCommandsPacked,List.drop_left]
      rfl
  · rw [if_neg (fun hc => hack (hcond.mp hc))]
    simp only [hack,Bool.false_eq_true,if_false]
    dsimp only [ReliableEndpoint.noteRecv]
    rw [List.drop_length,List.append_nil,List.append_nil]

/-- Outcomes of the sequence check: the expected packet is accepted, another one is
refused with a request, and an unreliable datagram is not checked. -/
theorem onReliable_cases (sess : ClientSession) (header : PacketHeader) (payload : Bytes) :
    (header.flags.ackRequest=true ∧ header.packetId=sess.rel.ack.expectedRecv ∧
      sess.onReliable header payload=
        ⟨{sess with rel := {sess.rel with ack := {sess.rel.ack with
            expectedRecv := nextPacketId sess.rel.ack.expectedRecv
            highestRecv := some header.packetId
            packetsSinceAck := saturatingSucc16 sess.rel.ack.packetsSinceAck}}},none,
          if payload=[] then none else some payload⟩) ∨
    (header.flags.ackRequest=true ∧ header.packetId≠sess.rel.ack.expectedRecv ∧
      sess.onReliable header payload=⟨sess,some sess.rel.buildRetransmitRequest,none⟩) ∨
    (header.flags.ackRequest=false ∧ sess.onReliable header payload=⟨sess,none,none⟩) := by
  unfold ClientSession.onReliable
  by_cases hreq : header.flags.ackRequest=true
  · by_cases hid : header.packetId=sess.rel.ack.expectedRecv
    · refine Or.inl ⟨hreq,hid,?_⟩
      unfold ReliableEndpoint.acceptReliable
      rw [if_pos hreq,if_pos hid]
      rfl
    · refine Or.inr (Or.inl ⟨hreq,hid,?_⟩)
      rw [if_pos hreq,ReliableEndpoint.acceptReliable_of_ne hid]
      rfl
  · exact Or.inr (Or.inr ⟨eq_false_of_ne_true hreq,if_neg hreq⟩)

/-- The record of a datagram that is heard. -/
theorem heardPeer_eq (x : Attached) (t u : Tracked) {bytes : Bytes} {header : PacketHeader}
    {payload : Bytes} (hdecode : decodePacket bytes=.ok (header,payload)) {taken : List Packet}
    (htaken : (if header.flags.ackRequest=true ∧
      header.packetId=t.session.rel.ack.expectedRecv then [⟨header.packetId,payload⟩] else [])=
        taken) :
    heardPeer x t u bytes=⟨u.session.rel,u.queued,x.sent,x.acked++
      if ClientSession.acknowledges header=true then removedBy t.session.rel header.ackId else [],
      x.accepted++taken⟩ := by
  unfold heardPeer
  rw [hdecode]
  dsimp only
  rw [htaken]
  rfl

/-- A datagram does to the session what it does to the left end of the link. -/
theorem handleDatagram_peer {x : Attached} {t : Tracked} (h : Aligned t) {bytes : Bytes}
    {header : PacketHeader} {payload : Bytes} (hdecode : decodePacket bytes=.ok (header,payload))
    (clock : Instant) (dump : List Bytes) :
    (x.peer t).handleDatagram clock (some dump) bytes=
      (heardPeer x t (heardBy t header payload dump clock) bytes,
        ((t.session.onHeader header dump clock).onReliable header payload).request.toList) := by
  have hack := acknowledged_peer (x := x) h header clock dump
  have hexpected : (t.session.onHeader header dump clock).rel.ack=t.session.rel.ack :=
    (t.session.onHeader_core header dump clock).2
  have hstart : (x.peer t).handleDatagram clock (some dump) bytes=
      (if header.flags.ackRequest=true then
        (({x.peer t with ep := t.session.rel.noteRecv clock} : Peer).acknowledged header
          (some dump)).acceptReliable header payload
      else (({x.peer t with ep := t.session.rel.noteRecv clock} : Peer).acknowledged header
        (some dump),[])) := by
    unfold Peer.handleDatagram
    rw [hdecode]
    rfl
  have hheard : heardBy t header payload dump clock=
      ⟨((t.session.onHeader header dump clock).onReliable header payload).session,
        (t.record (fun sess => sess.onHeader header dump clock)).queued⟩ := rfl
  rw [hstart,hack,hheard]
  rcases onReliable_cases (t.session.onHeader header dump clock) header payload with
    ⟨hreq,hid,hadm⟩ | ⟨hreq,hid,hadm⟩ | ⟨hreq,hadm⟩
  · have hturn : header.packetId=t.session.rel.ack.expectedRecv := by rw [hid,hexpected]
    rw [hadm,heardPeer_eq x t _ hdecode (if_pos ⟨hreq,hturn⟩),if_pos hreq,
      Peer.acceptReliable_of_eq hid]
    rfl
  · have hturn : header.packetId≠t.session.rel.ack.expectedRecv := by rwa [hexpected] at hid
    rw [hadm,heardPeer_eq x t _ hdecode (if_neg (fun hc => hturn hc.2)),if_pos hreq,
      Peer.acceptReliable_of_ne hid,List.append_nil]
    rfl
  · have hnot : ¬header.flags.ackRequest=true := by
      rw [hreq]
      exact Bool.false_ne_true
    rw [hadm,heardPeer_eq x t _ hdecode (if_neg (fun hc => hnot hc.1)),if_neg hnot,
      List.append_nil]
    rfl

/-- A datagram keeps the flags aligned: the first acknowledgement sets all of them. -/
theorem Aligned.heardBy {t : Tracked} (h : Aligned t) (header : PacketHeader) (payload : Bytes)
    (dump : List Bytes) (clock : Instant) :
    Aligned (SessionOrigins.heardBy t header payload dump clock) := by
  have hheader : (t.session.onHeader header dump clock).rel.opened=
        (t.session.onHeader header dump clock).opened ∧
      ((t.session.onHeader header dump clock).opened=false →
        (t.session.onHeader header dump clock).dumpSent=false) := by
    unfold ClientSession.onHeader
    dsimp only
    split
    · unfold ClientSession.openWith
      dsimp only
      split
      · rename_i hopen
        exact ⟨h.opened,h.undumped⟩
      · split
        · exact ⟨rfl,fun hc => Bool.noConfusion hc⟩
        · exact ⟨rfl,fun hc => Bool.noConfusion hc⟩
    · exact ⟨h.opened,h.undumped⟩
  constructor <;> unfold SessionOrigins.heardBy Tracked.record <;> dsimp only <;>
    rcases onReliable_cases (t.session.onHeader header dump clock) header payload with
      ⟨_,_,hadm⟩ | ⟨_,_,hadm⟩ | ⟨_,hadm⟩ <;> rw [hadm]
  · exact hheader.1
  · exact hheader.1
  · exact hheader.1
  · exact hheader.2
  · exact hheader.2
  · exact hheader.2

/-- A datagram that is no HELLO goes to the session of its address. -/
theorem receiveDatagram_plain {s : Proxy} {addr : SocketAddr} {t : Tracked} {data : Bytes}
    {header : PacketHeader} {payload : Bytes} (ht : s.sessions.get? addr=some t)
    (hdecode : decodePacket data=.ok (header,payload))
    (hplain : isHandshakePacket header.flags=false) (clock : Instant) :
    (s.receiveDatagram addr data clock).sessions.get? addr=
        some (heardBy t header payload s.cache.dump clock) ∧
      s.retransmit addr data clock=
        ((t.session.onHeader header s.cache.dump clock).onReliable header payload).request := by
  unfold Proxy.receiveDatagram Proxy.retransmit
  rw [hdecode]
  dsimp only
  rw [if_neg (by rw [hplain]; exact Bool.false_ne_true),ht]
  refine ⟨?_,if_neg (by rw [hplain]; exact Bool.false_ne_true)⟩
  unfold Proxy.beginDatagram
  dsimp only
  split
  · exact OrderedMap.get?_insert_self _ _ _
  · split <;> exact OrderedMap.get?_insert_self _ _ _

/-- A datagram that reaches the proxy is delivered by the link. -/
theorem link_of_hear {addr : SocketAddr} {x : Attached} {t u : Tracked} {s : Proxy} {i : ℕ}
    {d : Datagram} {clock : Instant} {id : UInt16} (haligned : Aligned t)
    (hsent : SentIn id d.bytes)
    (ht : x.proxy.sessions.get? addr=some t) (hd : x.toProxy[i]?=some d)
    (htime : inTime (x.link t) d=true)
    (hstep : step x.proxy (.datagram addr d.bytes clock)=some s)
    (hu : s.sessions.get? addr=some u) :
    eventStep (x.link t) (.act (.deliver .left i clock (some x.proxy.cache.dump)))=
        some ((({x with toProxy := x.toProxy.eraseIdx i} : Attached).advance s
          (heardPeer x t u d.bytes) (x.proxy.retransmit addr d.bytes clock).toList).link u) ∧
      Aligned u := by
  obtain ⟨header,payload,hdecode,_,hhello,_⟩ := hsent.decode
  obtain ⟨hsession,hrequest⟩ := receiveDatagram_plain ht hdecode hhello clock
  have hs : s=x.proxy.receiveDatagram addr d.bytes clock := by
    cases taken_of_step hstep with
    | datagram _ _ _ _ => rfl
  rw [hs,hsession,Option.some.injEq] at hu
  unfold inTime at htime
  rw [Bool.and_eq_true] at htime
  have hwire : (x.link t).wire .left=x.toProxy := rfl
  refine ⟨eventStep_act ?_ ?_,hu ▸ haligned.heardBy header payload x.proxy.cache.dump clock⟩
  · dsimp only [timely]
    rw [hwire,hd,Option.all_some]
    exact htime.2
  · dsimp only [ReliableLink.step]
    rw [hwire,hd]
    dsimp only
    rw [if_pos htime.1]
    have hpeer : (x.link t).peer .left=x.peer t := rfl
    rw [hpeer,handleDatagram_peer haligned hdecode clock x.proxy.cache.dump,hrequest,hu]
    have hrel : heardPeer x t u d.bytes=⟨u.session.rel,u.queued,x.sent,
        (heardPeer x t u d.bytes).acked,(heardPeer x t u d.bytes).accepted⟩ := by
      rw [heardPeer_eq x t u hdecode rfl]
    rw [hrel]
    rfl

/-- The session exists, both directions of its link count their packets, and the
client speaks in one session. -/
structure Attends (addr : SocketAddr) (x : Attached) : Prop where
  /-- The session and its link. -/
  session : ∃ t,x.proxy.sessions.get? addr=some t ∧ Aligned t ∧ Duplex (x.link t)
  /-- The client and its datagrams. -/
  client : ∃ id,Talks id x.client.ep ∧ ∀ d∈x.toProxy,SentIn id d.bytes

/-- Events of the link that a move consists of. -/
def Move.Consists : Move → Event → Prop
  | .task _,e => inside e=true
  | .hear _ _,e => inside e=true
  | .client own,e => e=own

/-- A run of the link from one state of the session to another. -/
def Linking (x y : Attached) (t u : Tracked) : Prop :=
  ∃ events,run eventStep (x.link t) events=some (y.link u)

/-- Every move of the proxy, the client or the network is a run of the link
between session and client. -/
theorem linking_of_move {addr : SocketAddr} {x y : Attached} {m : Move} {t : Tracked}
    (h : Attends addr x) (ht : x.proxy.sessions.get? addr=some t) (haligned : Aligned t)
    (hm : move addr x m=some y) :
    ∃ u,y.proxy.sessions.get? addr=some u ∧ Aligned u ∧
      ∃ events,(∀ e∈events,m.Consists e) ∧ run eventStep (x.link t) events=some (y.link u) := by
  cases m with
  | task a =>
    dsimp only [move] at hm
    split at hm
    · cases hm
    · rename_i htargets
      split at hm
      · rename_i before s hbefore hstep
        rw [ht,Option.some.injEq] at hbefore
        subst hbefore
        obtain ⟨u,hu,rfl⟩ := Option.map_eq_some_iff.mp hm
        obtain ⟨hlinking,hkeep⟩ := link_of_task ht (eq_false_of_ne_true htargets) hstep hu
        exact ⟨u,hu,hkeep haligned,hlinking⟩
      · cases hm
  | hear i clock =>
    dsimp only [move] at hm
    split at hm
    · rename_i before d hbefore hd
      rw [ht,Option.some.injEq] at hbefore
      subst hbefore
      split at hm
      · rename_i htime
        split at hm
        · cases hm
        · rename_i s hstep
          obtain ⟨u,hu,rfl⟩ := Option.map_eq_some_iff.mp hm
          obtain ⟨id,_,hsent⟩ := h.client
          obtain ⟨hdeliver,hkeep⟩ := link_of_hear haligned
            (hsent d (List.mem_of_getElem? hd)) ht hd htime hstep hu
          refine ⟨u,hu,hkeep,[.act (.deliver .left i clock (some x.proxy.cache.dump))],
            fun e he => ?_,?_⟩
          · rw [List.mem_singleton.mp he]
            rfl
          · rw [run_cons,hdeliver,Option.bind_some,run_nil]
      · cases hm
    · cases hm
  | client e =>
    dsimp only [move] at hm
    rw [ht] at hm
    dsimp only at hm
    split at hm
    · rename_i hok
      obtain ⟨l,hl,rfl⟩ := Option.map_eq_some_iff.mp hm
      have hleft := outside_left hok hl
      refine ⟨t,ht,haligned,[e],fun own he => List.mem_singleton.mp he,?_⟩
      rw [run_cons,hl,Option.bind_some,run_nil]
      have hlink : (x.takeLink l).link t=⟨(x.link t).left,l.right,l.toLeft,l.toRight⟩ := rfl
      rw [hlink,←hleft]
    · cases hm

/-- Every move keeps the session at the end of its link. -/
theorem attends_move {addr : SocketAddr} {x y : Attached} {m : Move} (h : Attends addr x)
    (hm : move addr x m=some y) : Attends addr y := by
  obtain ⟨t,ht,haligned,hduplex⟩ := h.session
  obtain ⟨u,hu,hkeep,events,_,hrun⟩ := linking_of_move h ht haligned hm
  obtain ⟨id,htalks,hsent⟩ := h.client
  refine ⟨⟨u,hu,hkeep,duplex_run hduplex hrun⟩,id,?_⟩
  cases m with
  | task a =>
    dsimp only [move] at hm
    split at hm
    · cases hm
    · split at hm
      · obtain ⟨_,_,rfl⟩ := Option.map_eq_some_iff.mp hm
        exact ⟨htalks,hsent⟩
      · cases hm
  | hear i clock =>
    dsimp only [move] at hm
    split at hm
    · split at hm
      · split at hm
        · cases hm
        · obtain ⟨_,_,rfl⟩ := Option.map_eq_some_iff.mp hm
          exact ⟨htalks,fun d hd => hsent d (List.mem_of_mem_eraseIdx hd)⟩
      · cases hm
    · cases hm
  | client e =>
    dsimp only [move] at hm
    rw [ht] at hm
    dsimp only at hm
    split at hm
    · rename_i hok
      obtain ⟨l,hl,rfl⟩ := Option.map_eq_some_iff.mp hm
      have hspeaking : Speaking id (x.link t) := ⟨htalks,hsent⟩
      exact ⟨(speaking_outside hspeaking hok hl).talks,
        (speaking_outside hspeaking hok hl).sent⟩
    · cases hm

/-- The proxy with a client refines the link: whole runs between two states of the
session are runs of the link. -/
theorem linking_of_run {addr : SocketAddr} {moves : List Move} {x y : Attached} {t : Tracked}
    (h : Attends addr x) (ht : x.proxy.sessions.get? addr=some t) (haligned : Aligned t)
    (hrun : run (move addr) x moves=some y) :
    ∃ u,y.proxy.sessions.get? addr=some u ∧ Aligned u ∧ Linking x y t u := by
  induction moves generalizing x t with
  | nil =>
    rw [run_nil,Option.some.injEq] at hrun
    subst hrun
    exact ⟨t,ht,haligned,[],rfl⟩
  | cons m moves ih =>
    obtain ⟨z,hz,hrun⟩ := (run_cons_eq_some (move addr)).mp hrun
    obtain ⟨v,hv,hvaligned,first,_,hzrun⟩ := linking_of_move h ht haligned hz
    obtain ⟨u,hu,haligned,second,hyrun⟩ := ih (attends_move h hz) hv hvaligned hrun
    refine ⟨u,hu,haligned,first++second,?_⟩
    rw [run_append,hzrun]
    exact hyrun

/-- The session was just inserted, and the client has the reply to its HELLO. -/
structure Joined (addr : SocketAddr) (x : Attached) : Prop where
  /-- The new session, and the client that took over its id; the reply had packet
  id zero. -/
  session : ∃ sid clock clientClock,x.proxy.sessions.get? addr=some ⟨.hello sid clock,[]⟩ ∧
    x.client=Peer.start (.forUpstream sid 0 clientClock)
  /-- It has sent and accepted nothing. -/
  record : x.sent=[] ∧ x.acked=[] ∧ x.accepted=[]
  /-- Nothing is on its way. -/
  wires : x.toProxy=[] ∧ x.toClient=[]

/-- The HELLO and its reply leave both ends as a link begins. -/
theorem attends_of_joined {addr : SocketAddr} {x : Attached} (h : Joined addr x) :
    Attends addr x := by
  obtain ⟨sid,clock,clientClock,hsession,hclient⟩ := h.session
  refine ⟨⟨_,hsession,⟨rfl,fun _ => rfl⟩,?_⟩,?_⟩
  · have hlink : x.link ⟨.hello sid clock,[]⟩=
        linkStart (.forSession sid clock) (.forUpstream sid 0 clientClock) := by
      unfold Attached.link Attached.peer
      rw [h.record.1,h.record.2.1,h.record.2.2,hclient,h.wires.1,h.wires.2]
      rfl
    rw [hlink]
    exact duplex_linkStart sid 0 clientClock clock rfl
  · refine ⟨sid,?_,fun d hd => ?_⟩
    · rw [hclient]
      exact talks_of_empty rfl rfl
    · rw [h.wires.1] at hd
      cases hd

/-- So does every run. -/
theorem attends_run {addr : SocketAddr} {x y : Attached} {moves : List Move}
    (h : Joined addr x) (hrun : run (move addr) x moves=some y) : Attends addr y :=
  run_invariant (move addr) (fun _ _ _ ha hm => attends_move ha hm) (attends_of_joined h) hrun

/-- As long as its session exists, session and client are at the ends of a run of the
link; the client has accepted the first payloads that the proxy queued to it, the session
has accepted the first payloads that the client queued, and either side forgets only what
the other has accepted. -/
theorem attached_in_order {addr : SocketAddr} {x y : Attached} {moves : List Move}
    (h : Joined addr x) (hrun : run (move addr) x moves=some y) :
    ∃ t₀ t,x.proxy.sessions.get? addr=some t₀ ∧ y.proxy.sessions.get? addr=some t ∧
      Linking x y t₀ t ∧
      nonEmpty (y.client.accepted.map Packet.payload)<+:nonEmpty (t.queued.map wirePayload) ∧
      y.acked<+:y.client.accepted ∧
      nonEmpty (y.accepted.map Packet.payload)<+:nonEmpty (y.client.queued.map wirePayload) ∧
      y.client.acked<+:y.accepted := by
  have hattends := attends_of_joined h
  obtain ⟨t₀,ht₀,haligned,_⟩ := hattends.session
  obtain ⟨t,ht,_,hlinking⟩ := linking_of_run hattends ht₀ haligned hrun
  obtain ⟨u,hu,_,hduplex⟩ := (attends_run h hrun).session
  rw [ht,Option.some.injEq] at hu
  subst hu
  obtain ⟨hforth,hacked⟩ := Linked.inOrder hduplex.forth
  obtain ⟨hback,hclient⟩ := Linked.inOrder hduplex.back
  exact ⟨t₀,t,ht₀,ht,hlinking,hforth,hacked,hback,hclient⟩

/-- A move is at most one step of the tasks. -/
theorem proxy_of_move {addr : SocketAddr} {x y : Attached} {m : Move}
    (hm : move addr x m=some y) :
    y.proxy=x.proxy ∨ ∃ a,step x.proxy a=some y.proxy ∧
      ∀ payload,a=.payload payload → m=.task (.payload payload) := by
  cases m with
  | task a =>
    dsimp only [move] at hm
    split at hm
    · cases hm
    · split at hm
      · rename_i t s _ hstep
        obtain ⟨_,_,rfl⟩ := Option.map_eq_some_iff.mp hm
        exact Or.inr ⟨a,hstep,fun _ ha => congrArg Move.task ha⟩
      · cases hm
  | hear i clock =>
    dsimp only [move] at hm
    split at hm
    · split at hm
      · split at hm
        · cases hm
        · rename_i hstep
          obtain ⟨_,_,rfl⟩ := Option.map_eq_some_iff.mp hm
          refine Or.inr ⟨_,hstep,fun payload ha => ?_⟩
          cases ha
      · cases hm
    · cases hm
  | client a =>
    dsimp only [move] at hm
    split at hm
    · cases hm
    · split at hm
      · obtain ⟨_,_,rfl⟩ := Option.map_eq_some_iff.mp hm
        exact Or.inl rfl
      · cases hm

/-- Moves are runs of the tasks. -/
theorem tasks_of_run {addr : SocketAddr} {moves : List Move} {x y : Attached}
    (hrun : run (move addr) x moves=some y) : ∃ acts,run step x.proxy acts=some y.proxy := by
  induction moves generalizing x with
  | nil =>
    rw [run_nil,Option.some.injEq] at hrun
    subst hrun
    exact ⟨[],rfl⟩
  | cons m moves ih =>
    obtain ⟨z,hz,hrun⟩ := (run_cons_eq_some (move addr)).mp hrun
    obtain ⟨acts,hacts⟩ := ih hrun
    rcases proxy_of_move hz with hsame | ⟨a,ha,_⟩
    · exact ⟨acts,hsame ▸ hacts⟩
    · exact ⟨a::acts,by rw [run_cons,ha,Option.bind_some,hacts]⟩

/-- The upstream task takes payloads that fit into a datagram only. -/
def FitsAction (a : ProxyTasks.Action) : Prop := ∀ payload,a=.payload payload → Small payload

/-- The same for moves. -/
def FitsMove (m : Move) : Prop := ∀ payload,m=.task (.payload payload) → Small payload

/-- Sessions follow the cache, and everything on its way to them fits. -/
def Steady (s : Proxy) : Prop := Following s ∧ Bounded s

/-- Steps of the tasks stay steady. -/
theorem steady_step {s t : Proxy} {a : ProxyTasks.Action} (h : Steady s) (ha : FitsAction a)
    (hstep : step s a=some t) : Steady t :=
  ⟨LateJoiners.following_step h.1 hstep,h.2.step ha hstep⟩

/-- Moves stay steady. -/
theorem steady_move {addr : SocketAddr} {x y : Attached} {m : Move} (h : Steady x.proxy)
    (hfits : FitsMove m) (hm : move addr x m=some y) : Steady y.proxy := by
  rcases proxy_of_move hm with hsame | ⟨a,ha,hpayload⟩
  · exact hsame ▸ h
  · exact steady_step h (fun payload he => hfits payload (hpayload payload he)) ha

/-- Runs of the proxy, first alone and then with the client, stay steady. -/
theorem steady_run {policy : FilterPolicy} {idle : ℕ} {addr : SocketAddr}
    {before : List ProxyTasks.Action} {moves : List Move} {x y : Attached}
    (hreach : run step (Proxy.start policy idle) before=some x.proxy)
    (hbefore : ∀ a∈before,FitsAction a) (hrun : run (move addr) x moves=some y)
    (hmoves : ∀ m∈moves,FitsMove m) : Steady y.proxy := by
  have hstart : Steady (Proxy.start policy idle) :=
    ⟨LateJoiners.following_start policy idle,PayloadBounds.bounded_start policy idle⟩
  have halone : Meets step (fun _ a => FitsAction a) (Proxy.start policy idle) before :=
    meets_of_forall step (fun a ha _ => hbefore a ha) _
  have hsteady : Always step Steady (Proxy.start policy idle) before :=
    always_of_meets step (fun _ _ _ h ha hs => steady_step h ha hs) hstart halone
  have hattached : Meets (move addr) (fun _ m => FitsMove m) x moves :=
    meets_of_forall (move addr) (fun m hm _ => hmoves m hm) _
  have hkept : Always (move addr) (fun x => Steady x.proxy) x moves :=
    always_of_meets (move addr) (fun _ _ _ h hfits hm => steady_move h hfits hm)
      (hsteady.last step hreach) hattached
  exact hkept.last (move addr) hrun

/-- Payloads without content carry no command. -/
theorem flatMap_writes_nonEmpty (payloads : List Bytes) :
    (nonEmpty payloads).flatMap payloadWrites=payloads.flatMap payloadWrites := by
  induction payloads with
  | nil => rfl
  | cons payload payloads ih =>
    by_cases h : payload=[]
    · subst h
      exact ih
    · have hkeep : nonEmpty (payload::payloads)=payload::nonEmpty payloads :=
        List.filter_cons_of_pos (decide_eq_true h)
      rw [hkeep,List.flatMap_cons,List.flatMap_cons,ih]

/-- Whenever the session has nothing left to send or to be acknowledged, the client has
accepted everything that was queued to it. -/
theorem attached_accepted_everything {policy : FilterPolicy} {idle : ℕ} {addr : SocketAddr}
    {before : List ProxyTasks.Action} {moves : List Move} {x y : Attached} {t : Tracked}
    (hreach : run step (Proxy.start policy idle) before=some x.proxy)
    (hbefore : ∀ a∈before,FitsAction a) (hjoined : Joined addr x)
    (hrun : run (move addr) x moves=some y) (hmoves : ∀ m∈moves,FitsMove m)
    (ht : y.proxy.sessions.get? addr=some t)
    (hempty : t.session.rel.outbound=[] ∧ t.session.rel.inFlight=[]) :
    nonEmpty (y.client.accepted.map Packet.payload)=nonEmpty t.queued := by
  obtain ⟨_,hbounded⟩ := steady_run hreach hbefore hrun hmoves
  obtain ⟨u,hu,_,hduplex⟩ := (attends_run hjoined hrun).session
  rw [ht,Option.some.injEq] at hu
  subst hu
  have hwhole : t.queued.map wirePayload=t.queued := by
    rw [List.map_congr_left (fun payload hm =>
      wirePayload_of_le ((hbounded.sessions addr t ht).small payload hm))]
    exact List.map_id _
  have haccepted : nonEmpty (y.client.accepted.map Packet.payload)=
      nonEmpty (t.queued.map wirePayload) := Linked.everything hduplex.forth hempty
  rw [haccepted,hwhole]

/-- Convergence end to end: whenever no chunk and no event is on its way inside the
proxy and the session has nothing left to send or to be acknowledged, the last
command with each cached key that the client accepted is the cached one. -/
theorem attached_client_converges {policy : FilterPolicy} {idle : ℕ} {addr : SocketAddr}
    {before : List ProxyTasks.Action} {moves : List Move} {x y : Attached} {t : Tracked}
    (hreach : run step (Proxy.start policy idle) before=some x.proxy)
    (hbefore : ∀ a∈before,FitsAction a) (hjoined : Joined addr x)
    (hrun : run (move addr) x moves=some y) (hmoves : ∀ m∈moves,FitsMove m)
    (hsettled : Settled y.proxy) (ht : y.proxy.sessions.get? addr=some t)
    (hopen : t.session.opened=true)
    (hempty : t.session.rel.outbound=[] ∧ t.session.rel.inFlight=[])
    {key : CacheKey} {value : Bytes} (hget : y.proxy.cache.map.get? key=some value) :
    lastFor key ((y.client.accepted.map Packet.payload).flatMap payloadWrites)=some value := by
  obtain ⟨hfollowing,_⟩ := steady_run hreach hbefore hrun hmoves
  have haccepted := attached_accepted_everything hreach hbefore hjoined hrun hmoves ht hempty
  rw [←flatMap_writes_nonEmpty,haccepted,flatMap_writes_nonEmpty]
  exact hfollowing.converged hsettled addr t ht hopen key value hget

/-- The switcher announces a program input and completes its initialization, and a
client says HELLO. -/
def programJoined : List ProxyTasks.Action :=
  [.payload ((LateJoiners.programSource 1).raw++syntheticInitComplete),.upstream,.upstream,
    .upstream,.upstream,.upstream,.upstream,.receive,.fanout,.receive,
    .datagram ⟨1,1⟩ helloData 0,.handler 0 true,.handler 0 true]

/-- The proxy with the new session. -/
def programProxy : Proxy :=
  (run step LateJoiners.denyingStart programJoined).getD LateJoiners.denyingStart

/-- That proxy and the client. -/
def programClient : Attached :=
  ⟨programProxy,[],[],[],.start (.forUpstream 0x8001 0 0),[],[]⟩

/-- Clock readings of a tick at this time. -/
def clocksAt (now : Instant) : SocketAddr → PollClocks := fun _ => ⟨now,now⟩

/-- The HELLO reply is acknowledged; the dump is sent, duplicated, accepted and
acknowledged. -/
def catchingUp : List Move :=
  [.client (.act (.buildAckPacket .right 0)),.hear 0 1,.task (.tick 2 (clocksAt 2)),
    .client (.act (.duplicate .right 0)),.client (.act (.deliver .right 0 3 none)),
    .client (.act (.deliver .right 0 3 none)),.client (.act (.pollOutbound .right 10 10 10)),
    .hear 0 11,.hear 0 11]

/-- The proxy and the client after that. -/
def caughtUp : Attached := (run (move ⟨1,1⟩) programClient catchingUp).getD programClient

/-- The client has just joined. -/
theorem programClient_joined : Joined ⟨1,1⟩ programClient :=
  ⟨⟨0x8001,0,0,rfl,rfl⟩,⟨rfl,rfl,rfl⟩,⟨rfl,rfl⟩⟩

/-- The duplicated dump was accepted once. -/
theorem caughtUp_in_order :
    caughtUp.client.accepted.length=1 ∧
      ∃ t₀ t,programClient.proxy.sessions.get? ⟨1,1⟩=some t₀ ∧
      caughtUp.proxy.sessions.get? ⟨1,1⟩=some t ∧ Linking programClient caughtUp t₀ t ∧
      nonEmpty (caughtUp.client.accepted.map Packet.payload)<+:
        nonEmpty (t.queued.map wirePayload) ∧
      caughtUp.acked<+:caughtUp.client.accepted ∧
      nonEmpty (caughtUp.accepted.map Packet.payload)<+:
        nonEmpty (caughtUp.client.queued.map wirePayload) ∧
      caughtUp.client.acked<+:caughtUp.accepted :=
  ⟨rfl,attached_in_order programClient_joined
    (show run (move ⟨1,1⟩) programClient catchingUp=some caughtUp from rfl)⟩

/-- The payload of the switcher fits into a datagram. -/
theorem programJoined_fits : ∀ a∈programJoined,FitsAction a := by
  intro a ha payload he
  subst he
  simp only [programJoined,List.mem_cons,reduceCtorEq,List.not_mem_nil,or_false,
    ProxyTasks.Action.payload.injEq] at ha
  subst ha
  show _≤2035
  decide

/-- While the client catches up, the switcher says nothing. -/
theorem catchingUp_fits : ∀ m∈catchingUp,FitsMove m := by
  intro m hm payload he
  subst he
  simp only [catchingUp,List.mem_cons,reduceCtorEq,List.not_mem_nil,or_false,
    Move.task.injEq] at hm

/-- The client has the program input of the cache. -/
theorem caughtUp_converges :
    lastFor (cacheKey (LateJoiners.programSource 1))
        ((caughtUp.client.accepted.map Packet.payload).flatMap payloadWrites)=
      some (LateJoiners.programSource 1).raw :=
  attached_client_converges
    (show run step LateJoiners.denyingStart programJoined=some programClient.proxy from rfl)
    programJoined_fits programClient_joined
    (show run (move ⟨1,1⟩) programClient catchingUp=some caughtUp from rfl) catchingUp_fits
    ⟨fun _ h => absurd h List.not_mem_nil,⟨rfl,rfl⟩,rfl⟩ rfl rfl ⟨rfl,rfl⟩ rfl

end AtemProxy.AttachedClients
