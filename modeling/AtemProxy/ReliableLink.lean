import AtemProxy.ReliableWindow
import AtemProxy.GuardedRuns

/-!
# Two endpoints over a lossy network

Both peers run the same endpoint code. Each keeps a record of the payloads
queued, the packets sent, removed by acknowledgements and accepted. The
network holds datagrams that may be delivered in any order, dropped or
duplicated; each is marked with the number of the packet it carries or
acknowledges, and one that carries or acknowledges a packet of the left
peer is delivered only while that peer is at most `2^15-512` packets ahead.
-/

namespace AtemProxy.ReliableLink

open BigEndian PacketCodec ReliableTransport ReliableWindow GuardedRuns

/-- The two ends of the link. -/
inductive Side where
  /-- The end whose packets are followed. -/
  | left
  /-- The end that accepts them. -/
  | right
  deriving DecidableEq

/-- The opposite end. -/
def Side.other : Side → Side
  | .left => .right
  | .right => .left

/-- Absolute number a datagram refers to. -/
inductive Mark where
  /-- Carries the packet with this number. -/
  | data (n : ℕ)
  /-- Acknowledges the packet with this number. -/
  | ack (n : ℕ)
  /-- Refers to no packet. -/
  | plain
  deriving DecidableEq

/-- Datagram inside the network. -/
structure Datagram where
  /-- Bytes on the wire. -/
  bytes : Bytes
  /-- What the bytes refer to. -/
  mark : Mark
  deriving DecidableEq

/-- Endpoint together with the record of what it did. -/
structure Peer where
  /-- The endpoint of the source. -/
  ep : ReliableEndpoint
  /-- Payloads put into the outbound queue, oldest first. -/
  queued : List Bytes
  /-- Reliable packets sent, keepalives included, without repetitions. -/
  sent : List Packet
  /-- Packets removed from the window by acknowledgements. -/
  acked : List Packet
  /-- Packets accepted for delivery. -/
  accepted : List Packet
  deriving DecidableEq

namespace Peer

/-- A peer that has done nothing yet. -/
def start (ep : ReliableEndpoint) : Peer := ⟨ep,[],[],[],[]⟩

/-- Queue one payload. -/
def queuePayload (p : Peer) (payload : Bytes) : Peer :=
  {p with ep := p.ep.queuePayload payload, queued := p.queued++[payload]}

/-- Queue packed commands. -/
def queueCommandsPacked (p : Peer) (cmds : List Bytes) : Peer :=
  {p with ep := p.ep.queueCommandsPacked cmds, queued := p.queued++packCommands cmds}

/-- Number a datagram by the window or by the packets accepted so far. -/
def markOf (p : Peer) (bytes : Bytes) : Mark :=
  match decodePacket bytes with
  | .error _ => .plain
  | .ok (header,_) =>
    if header.flags.ackRequest=true then
      match p.ep.inFlight.findIdx? (fun entry => decide (entry.packetId=header.packetId)) with
      | some i => .data (p.acked.length+i+1)
      | none => .plain
    else if header.flags.ackReply=true then .ack p.accepted.length
    else .plain

/-- Datagrams as they enter the network. -/
def stamp (p : Peer) (out : List Bytes) : List Datagram :=
  out.map (fun bytes => ⟨bytes,p.markOf bytes⟩)

/-- Poll the endpoint; packets that joined the window were sent now. -/
def pollOutbound (p : Peer) (now elapsedAt ackAt : Instant) : Peer×List Bytes :=
  let polled := p.ep.pollOutbound now elapsedAt ackAt
  ({p with
      ep := polled.1
      sent := p.sent++(polled.1.inFlight.drop p.ep.inFlight.length).map packetOf},polled.2)

/-- Acknowledge outside a poll, as after the handshake. -/
def buildAckPacket (p : Peer) (clock : Instant) : Peer×List Bytes :=
  let built := p.ep.buildAckPacket clock
  ({p with ep := built.1},built.2.toList)

/-- Handle an acknowledgement. -/
def onAckId (p : Peer) (ackId : UInt16) : Peer :=
  {p with ep := p.ep.onAckId ackId, acked := p.acked++removedBy p.ep ackId}

/-- A server session opens with its first acknowledgement and queues the
state dump; a client session does not open here. -/
def openWith (p : Peer) : Option (List Bytes) → Peer
  | none => p
  | some dump =>
    if p.ep.opened=true then p
    else ({p with ep := {p.ep with opened := true}} : Peer).queueCommandsPacked dump

/-- Handle the reliable part of a datagram. -/
def acceptReliable (p : Peer) (header : PacketHeader) (payload : Bytes) : Peer×List Bytes :=
  let result := p.ep.acceptReliable header.packetId header.flags.isRetransmit
  if result.2=true then
    ({p with ep := result.1, accepted := p.accepted++[⟨header.packetId,payload⟩]},[])
  else ({p with ep := result.1},[result.1.buildRetransmitRequest])

/-- The state an accepted packet leaves. -/
theorem acceptReliable_of_eq {p : Peer} {header : PacketHeader}
    (h : header.packetId=p.ep.ack.expectedRecv) (payload : Bytes) :
    p.acceptReliable header payload=
      ({p with
          ep := {p.ep with ack := {p.ep.ack with
            expectedRecv := nextPacketId p.ep.ack.expectedRecv
            highestRecv := some header.packetId
            packetsSinceAck := saturatingSucc16 p.ep.ack.packetsSinceAck}}
          accepted := p.accepted++[⟨header.packetId,payload⟩]},[]) := by
  unfold acceptReliable ReliableEndpoint.acceptReliable
  rw [if_pos h]
  rfl

/-- A refused packet is answered by a retransmit request and changes nothing. -/
theorem acceptReliable_of_ne {p : Peer} {header : PacketHeader}
    (h : header.packetId≠p.ep.ack.expectedRecv) (payload : Bytes) :
    p.acceptReliable header payload=(p,[p.ep.buildRetransmitRequest]) := by
  unfold acceptReliable
  rw [ReliableEndpoint.acceptReliable_of_ne h]
  rfl

/-- Acknowledgement part of a datagram. -/
def acknowledged (p : Peer) (header : PacketHeader) (dump : Option (List Bytes)) : Peer :=
  if header.flags.ackReply=true ∨ header.ackId≠0 then (p.onAckId header.ackId).openWith dump
  else p

/-- Process one datagram of an open session; the result lists the replies. -/
def handleDatagram (p : Peer) (clock : Instant) (dump : Option (List Bytes)) (bytes : Bytes) :
    Peer×List Bytes :=
  match decodePacket bytes with
  | .error _ => (p,[])
  | .ok (header,payload) =>
    let heard := ({p with ep := p.ep.noteRecv clock} : Peer).acknowledged header dump
    if header.flags.ackRequest=true then heard.acceptReliable header payload else (heard,[])

end Peer

/-- Two peers and the datagrams between them. -/
structure Link where
  /-- The peer whose packets are followed. -/
  left : Peer
  /-- The peer that accepts them. -/
  right : Peer
  /-- Datagrams on their way to the left peer. -/
  toLeft : List Datagram
  /-- Datagrams on their way to the right peer. -/
  toRight : List Datagram
  deriving DecidableEq

namespace Link

/-- The peer at one end. -/
def peer (l : Link) : Side → Peer
  | .left => l.left
  | .right => l.right

/-- Replace the peer at one end. -/
def setPeer (l : Link) (side : Side) (p : Peer) : Link :=
  match side with
  | .left => {l with left := p}
  | .right => {l with right := p}

/-- Datagrams on their way to one end. -/
def wire (l : Link) : Side → List Datagram
  | .left => l.toLeft
  | .right => l.toRight

/-- Replace the datagrams on their way to one end. -/
def setWire (l : Link) (side : Side) (ds : List Datagram) : Link :=
  match side with
  | .left => {l with toLeft := ds}
  | .right => {l with toRight := ds}

/-- A peer changed and sent datagrams to the other end. -/
def update (l : Link) (side : Side) (result : Peer×List Bytes) : Link :=
  match side with
  | .left => {l with left := result.1, toRight := l.toRight++result.1.stamp result.2}
  | .right => {l with right := result.1, toLeft := l.toLeft++result.1.stamp result.2}

/-- Delivery bound for datagrams that refer to packets of the left peer. -/
def fresh (l : Link) (side : Side) (mark : Mark) : Bool :=
  match side,mark with
  | .right,.data n => decide (l.left.sent.length≤n+(2^15-512))
  | .left,.ack n => decide (l.left.sent.length≤n+(2^15-512))
  | _,_ => true

end Link

/-- One step of either peer or of the network. -/
inductive Action where
  /-- Queue one payload. -/
  | queuePayload (side : Side) (payload : Bytes)
  /-- Queue packed commands. -/
  | queueCommandsPacked (side : Side) (cmds : List Bytes)
  /-- Poll with arbitrary clock readings. -/
  | pollOutbound (side : Side) (now elapsedAt ackAt : Instant)
  /-- Acknowledge outside a poll. -/
  | buildAckPacket (side : Side) (clock : Instant)
  /-- Allow keepalives. -/
  | opened (side : Side)
  /-- Deliver the datagram at this position. -/
  | deliver (side : Side) (i : ℕ) (clock : Instant) (dump : Option (List Bytes))
  /-- Lose the datagram at this position. -/
  | lose (side : Side) (i : ℕ)
  /-- Duplicate the datagram at this position. -/
  | duplicate (side : Side) (i : ℕ)

/-- Next state; none when the action is not possible. -/
def step (l : Link) : Action → Option Link
  | .queuePayload side payload => some (l.setPeer side ((l.peer side).queuePayload payload))
  | .queueCommandsPacked side cmds =>
    some (l.setPeer side ((l.peer side).queueCommandsPacked cmds))
  | .pollOutbound side now elapsedAt ackAt =>
    some (l.update side ((l.peer side).pollOutbound now elapsedAt ackAt))
  | .buildAckPacket side clock => some (l.update side ((l.peer side).buildAckPacket clock))
  | .opened side =>
    some (l.setPeer side {l.peer side with ep := {(l.peer side).ep with opened := true}})
  | .deliver side i clock dump =>
    match (l.wire side)[i]? with
    | none => none
    | some d =>
      if l.fresh side d.mark=true then
        some ((l.setWire side ((l.wire side).eraseIdx i)).update side
          ((l.peer side).handleDatagram clock dump d.bytes))
      else none
  | .lose side i => some (l.setWire side ((l.wire side).eraseIdx i))
  | .duplicate side i => some (l.setWire side (l.wire side++(l.wire side)[i]?.toList))

/-- Numbers, framing and payload accounting of the packets a peer sends. -/
structure Sending (p : Peer) : Prop where
  /-- Packets are numbered and the window is the unacknowledged rest. -/
  windowed : Windowed p.acked p.sent p.ep
  /-- Window entries hold their datagrams. -/
  framed : AllFramed p.ep
  /-- Sent and waiting payloads are the queued ones, keepalives apart. -/
  accounted : nonEmpty (p.sent.map Packet.payload++p.ep.outbound.map wirePayload)=
    nonEmpty (p.queued.map wirePayload)

/-- Fields of a peer that its send side does not read. -/
theorem Sending.of_core {p p' : Peer} (h : Sending p) (hw : p'.ep.inFlight=p.ep.inFlight)
    (hn : p'.ep.nextSendId=p.ep.nextSendId) (hc : p'.ep.config=p.ep.config)
    (ho : p'.ep.outbound=p.ep.outbound) (hq : p'.queued=p.queued) (hs : p'.sent=p.sent)
    (ha : p'.acked=p.acked) : Sending p' where
  windowed := by
    rw [ha,hs]
    exact h.windowed.of_core (by rw [hw]) hn hc
  framed := by unfold AllFramed; rw [hw]; exact h.framed
  accounted := by rw [hs,ho,hq]; exact h.accounted

/-- Queueing more payloads. -/
theorem Sending.queue {p : Peer} (h : Sending p) (payloads : List Bytes) :
    Sending {p with
      ep := {p.ep with outbound := p.ep.outbound++payloads}
      queued := p.queued++payloads} where
  windowed := h.windowed.of_core rfl rfl rfl
  framed := h.framed
  accounted := by
    dsimp only
    rw [List.map_append,List.map_append,←List.append_assoc,nonEmpty_append,h.accounted,
      nonEmpty_append]

/-- The dump is queued like any payload. -/
theorem Sending.openWith {p : Peer} (h : Sending p) (dump : Option (List Bytes)) :
    Sending (p.openWith dump) := by
  unfold Peer.openWith
  split
  · exact h
  · split
    · exact h
    · rename_i cmds _
      have hopen : Sending {p with ep := {p.ep with opened := true}} :=
        h.of_core rfl rfl rfl rfl rfl rfl rfl
      exact hopen.queue (packCommands cmds)

/-- An acknowledgement moves packets out of the window. -/
theorem Sending.onAckId {p : Peer} (h : Sending p) (ackId : UInt16) :
    Sending (p.onAckId ackId) where
  windowed := h.windowed.onAckId ackId
  framed entry hmem := h.framed entry ((onAckId_suffix p.ep ackId).subset hmem)
  accounted := h.accounted

/-- The packets that joined the window are the ones a poll sent. -/
theorem Sending.pollOutbound_sent {p : Peer} (h : Sending p) {now elapsedAt ackAt : Instant}
    {new : List Packet}
    (hw : Windowed p.acked (p.sent++new) (p.ep.pollOutbound now elapsedAt ackAt).1) :
    (p.pollOutbound now elapsedAt ackAt).1.sent=p.sent++new := by
  have hsplit := hw.split
  rw [h.windowed.split,List.append_assoc,List.append_cancel_left_eq] at hsplit
  unfold Peer.pollOutbound
  dsimp only
  rw [List.map_drop,←hsplit,List.drop_left' (List.length_map _)]

/-- A poll numbers what it sends. -/
theorem Sending.pollOutbound {p : Peer} (h : Sending p) (now elapsedAt ackAt : Instant) :
    Sending (p.pollOutbound now elapsedAt ackAt).1 := by
  obtain ⟨new,hw,hq⟩ := pollOutbound_forwards h.windowed now elapsedAt ackAt
  have hsent := h.pollOutbound_sent hw
  constructor
  · rw [hsent]
    exact hw
  · exact (pollOutbound_phase p.ep now elapsedAt ackAt).framed h.framed
  · rw [hsent,List.map_append,List.append_assoc,nonEmpty_append]
    change nonEmpty _++nonEmpty (new.map Packet.payload++
      (p.ep.pollOutbound now elapsedAt ackAt).1.outbound.map wirePayload)=_
    rw [hq,←nonEmpty_append]
    exact h.accounted

/-- An accepted packet leaves the send side alone. -/
theorem Sending.acceptReliable {p : Peer} (h : Sending p) (header : PacketHeader)
    (payload : Bytes) : Sending (p.acceptReliable header payload).1 := by
  by_cases heq : header.packetId=p.ep.ack.expectedRecv
  · rw [Peer.acceptReliable_of_eq heq]
    exact h.of_core rfl rfl rfl rfl rfl rfl rfl
  · rw [Peer.acceptReliable_of_ne heq]
    exact h

/-- The acknowledgement part of a datagram. -/
theorem Sending.acknowledged {p : Peer} (h : Sending p) (header : PacketHeader)
    (dump : Option (List Bytes)) : Sending (p.acknowledged header dump) := by
  unfold Peer.acknowledged
  split
  · exact (h.onAckId header.ackId).openWith dump
  · exact h

/-- A whole datagram. -/
theorem Sending.handleDatagram {p : Peer} (h : Sending p) (clock : Instant)
    (dump : Option (List Bytes)) (bytes : Bytes) :
    Sending (p.handleDatagram clock dump bytes).1 := by
  unfold Peer.handleDatagram
  split
  · exact h
  · rename_i header payload _
    have hheard : Sending (({p with ep := p.ep.noteRecv clock} : Peer).acknowledged
        header dump) :=
      (h.of_core rfl rfl rfl rfl rfl rfl rfl : Sending
        {p with ep := p.ep.noteRecv clock}).acknowledged header dump
    dsimp only
    split
    · exact hheard.acceptReliable header payload
    · exact hheard

/-- A peer that noted the arrival of a datagram. -/
def Peer.heard (p : Peer) (clock : Instant) : Peer := {p with ep := p.ep.noteRecv clock}

/-- A datagram with a packet is checked against the sequence. -/
theorem Peer.handleDatagram_of_carries {bytes : Bytes} {packet : Packet}
    (h : Carries bytes packet) (p : Peer) (clock : Instant) (dump : Option (List Bytes)) :
    ∃ header, header.packetId=packet.packetId ∧
      p.handleDatagram clock dump bytes=(p.heard clock).acceptReliable header packet.payload := by
  obtain ⟨header,hdec,hid,hreq,hrep,hack⟩ := h
  refine ⟨header,hid,?_⟩
  unfold Peer.handleDatagram Peer.acknowledged
  rw [hdec]
  dsimp only
  rw [if_pos hreq,if_neg (by rw [hrep,hack]; decide)]
  rfl

/-- An acknowledgement removes packets, and may open a session. -/
theorem Peer.handleDatagram_of_acknowledges {bytes : Bytes} {ackId : UInt16}
    (h : Acknowledges bytes ackId) (p : Peer) (clock : Instant) (dump : Option (List Bytes)) :
    p.handleDatagram clock dump bytes=(((p.heard clock).onAckId ackId).openWith dump,[]) := by
  obtain ⟨header,hdec,rfl,hreq,hrep⟩ := h
  unfold Peer.handleDatagram Peer.acknowledged
  rw [hdec]
  dsimp only
  rw [if_neg (by rw [hreq]; decide),if_pos (Or.inl hrep)]
  rfl

/-- Any other datagram is only noted. -/
theorem Peer.handleDatagram_of_silent {bytes : Bytes} (h : Silent bytes) (p : Peer)
    (clock : Instant) (dump : Option (List Bytes)) :
    p.handleDatagram clock dump bytes=(p.heard clock,[]) := by
  obtain ⟨header,hdec,hack,hreq,hrep⟩ := h
  unfold Peer.handleDatagram Peer.acknowledged
  rw [hdec]
  dsimp only
  rw [if_neg (by rw [hreq]; decide),if_neg (by rw [hrep,hack]; decide)]
  rfl

/-- Opening a session leaves the packets alone. -/
theorem Peer.openWith_fields (p : Peer) (dump : Option (List Bytes)) :
    (p.openWith dump).sent=p.sent ∧ (p.openWith dump).acked=p.acked ∧
      (p.openWith dump).accepted=p.accepted ∧ (p.openWith dump).ep.ack=p.ep.ack ∧
        (p.openWith dump).ep.inFlight=p.ep.inFlight ∧
          (p.openWith dump).ep.config=p.ep.config := by
  unfold Peer.openWith
  split
  · exact ⟨rfl,rfl,rfl,rfl,rfl,rfl⟩
  · split <;> exact ⟨rfl,rfl,rfl,rfl,rfl,rfl⟩

/-- Datagram to the right: it carries a numbered packet of the left peer,
or concerns packets of the right peer only. -/
def DataMarked (sent : List Packet) (d : Datagram) : Prop :=
  (∃ n packet, d.mark=.data (n+1) ∧ sent[n]?=some packet ∧ Carries d.bytes packet) ∨
    (∃ ackId,Acknowledges d.bytes ackId) ∨ Silent d.bytes

/-- Datagram to the left: it acknowledges a number that was accepted, or
concerns packets of the right peer only. -/
def AckMarked (count : ℕ) (d : Datagram) : Prop :=
  (∃ n ackId, d.mark=.ack n ∧ n ≤ count ∧ ackId.toNat%32768=n%32768 ∧
      Acknowledges d.bytes ackId) ∨
    (∃ packet,Carries d.bytes packet) ∨ Silent d.bytes

/-- More packets may have been sent meanwhile. -/
theorem DataMarked.mono {sent sent' : List Packet} {d : Datagram} (h : DataMarked sent d)
    (hpre : sent<+:sent') : DataMarked sent' d := by
  rcases h with ⟨n,packet,hm,hn,hc⟩ | h
  · exact Or.inl ⟨n,packet,hm,getElem?_extended hpre hn,hc⟩
  · exact Or.inr h

/-- More packets may have been accepted meanwhile. -/
theorem AckMarked.mono {count count' : ℕ} {d : Datagram} (h : AckMarked count d)
    (hle : count ≤ count') : AckMarked count' d := by
  rcases h with ⟨n,ackId,hm,hn,hid,hc⟩ | h
  · exact Or.inl ⟨n,ackId,hm,hn.trans hle,hid,hc⟩
  · exact Or.inr h

/-- An acknowledgement is marked with the number of accepted packets. -/
theorem Peer.markOf_of_acknowledges {bytes : Bytes} {ackId : UInt16}
    (h : Acknowledges bytes ackId) (p : Peer) : p.markOf bytes=.ack p.accepted.length := by
  obtain ⟨header,hdec,_,hreq,hrep⟩ := h
  unfold Peer.markOf
  rw [hdec]
  dsimp only
  rw [if_neg (by rw [hreq]; decide),if_pos hrep]

/-- Ids are distinct inside a window, so the mark is the packet's number. -/
theorem Sending.markOf_of_carries {p : Peer} (h : Sending p) {entry : InFlightEntry}
    (hmem : entry∈p.ep.inFlight) {bytes : Bytes} (hc : Carries bytes (packetOf entry)) :
    ∃ n, p.markOf bytes=.data (n+1) ∧ p.sent[n]?=some (packetOf entry) := by
  obtain ⟨j,hj⟩ := List.mem_iff_getElem?.mp hmem
  obtain ⟨header,hdec,hid,hreq,_⟩ := hc
  have hjlt : j<p.ep.inFlight.length := (List.getElem?_eq_some_iff.mp hj).1
  have hjnum := h.windowed.entry_number hj
  have hbound := h.windowed.bounded
  unfold Peer.markOf
  rw [hdec]
  dsimp only
  rw [if_pos hreq]
  cases hfind : p.ep.inFlight.findIdx? (fun entry => decide (entry.packetId=header.packetId)) with
  | none =>
    have hne := List.findIdx?_eq_none_iff.mp hfind entry hmem
    rw [hid] at hne
    exact absurd hne (by rw [decide_eq_false_iff_not,not_not]; rfl)
  | some i =>
    obtain ⟨hilt,hieq,_⟩ := List.findIdx?_eq_some_iff_getElem.mp hfind
    rw [decide_eq_true_eq,hid] at hieq
    have hinum := (h.windowed.entry_number (List.getElem?_eq_getElem hilt)).2
    rw [hieq] at hinum
    have heq : i=j := by
      have hjn := hjnum.2
      have hsame : (packetOf entry).packetId=entry.packetId := rfl
      rw [hsame] at hinum
      omega
    subst heq
    exact ⟨_,rfl,hjnum.1⟩

/-- Numbers of both peers and of every datagram between them. -/
structure Linked (l : Link) : Prop where
  /-- Send side of the left peer. -/
  sending : Sending l.left
  /-- Receive side of the right peer. -/
  receiving : Receiving l.left.sent l.right.accepted l.right.ep.ack
  /-- Window of the right peer. -/
  framed : AllFramed l.right.ep
  /-- Coalescing count of the right peer. -/
  coalesce : l.right.ep.config.ackCoalesceCount=16
  /-- Only accepted packets were removed. -/
  ackedAccepted : l.left.acked.length≤l.right.accepted.length
  /-- Datagrams to the right. -/
  toRight : ∀ d∈l.toRight,DataMarked l.left.sent d
  /-- Datagrams to the left. -/
  toLeft : ∀ d∈l.toLeft,AckMarked l.right.accepted.length d

/-- A peer that sends nothing. -/
theorem Link.setPeer_eq_update (l : Link) (side : Side) (p : Peer) :
    l.setPeer side p=l.update side (p,[]) := by
  cases side <;> unfold setPeer update Peer.stamp <;> simp only [List.map_nil,List.append_nil]

/-- A step of the left peer. -/
theorem Linked.update_left {l : Link} (h : Linked l) {p : Peer} {out : List Bytes}
    (hs : Sending p) (hpre : l.left.sent<+:p.sent)
    (hacked : p.acked.length≤l.right.accepted.length)
    (hout : ∀ bytes∈out,DataMarked p.sent ⟨bytes,p.markOf bytes⟩) :
    Linked (l.update .left (p,out)) where
  sending := hs
  receiving := {h.receiving with inOrder := h.receiving.inOrder.trans hpre}
  framed := h.framed
  coalesce := h.coalesce
  ackedAccepted := hacked
  toRight d hd := by
    rcases List.mem_append.mp hd with hd | hd
    · exact (h.toRight d hd).mono hpre
    · obtain ⟨bytes,hb,rfl⟩ := List.mem_map.mp hd
      exact hout bytes hb
  toLeft := h.toLeft

/-- A step of the right peer. -/
theorem Linked.update_right {l : Link} (h : Linked l) {p : Peer} {out : List Bytes}
    (hr : Receiving l.left.sent p.accepted p.ep.ack) (hf : AllFramed p.ep)
    (hc : p.ep.config=l.right.ep.config) (hle : l.right.accepted.length≤p.accepted.length)
    (hout : ∀ bytes∈out,AckMarked p.accepted.length ⟨bytes,p.markOf bytes⟩) :
    Linked (l.update .right (p,out)) where
  sending := h.sending
  receiving := hr
  framed := hf
  coalesce := (congrArg ReliableConfig.ackCoalesceCount hc).trans h.coalesce
  ackedAccepted := h.ackedAccepted.trans hle
  toRight := h.toRight
  toLeft d hd := by
    rcases List.mem_append.mp hd with hd | hd
    · exact (h.toLeft d hd).mono hle
    · obtain ⟨bytes,hb,rfl⟩ := List.mem_map.mp hd
      exact hout bytes hb

/-- Datagrams may get lost and be repeated. -/
theorem Linked.setWire {l : Link} (h : Linked l) {side : Side} {ds : List Datagram}
    (hsub : ds⊆l.wire side) : Linked (l.setWire side ds) := by
  cases side with
  | left => exact {h with toLeft := fun d hd => h.toLeft d (hsub hd)}
  | right => exact {h with toRight := fun d hd => h.toRight d (hsub hd)}

/-- A change of either peer that touches neither numbers nor window. -/
theorem Linked.queue {l : Link} (h : Linked l) (side : Side) (payloads : List Bytes) :
    Linked (l.setPeer side {l.peer side with
      ep := {(l.peer side).ep with outbound := (l.peer side).ep.outbound++payloads}
      queued := (l.peer side).queued++payloads}) := by
  rw [Link.setPeer_eq_update]
  cases side with
  | left =>
    exact h.update_left (h.sending.queue payloads) List.prefix_rfl h.ackedAccepted
      (fun _ hb => absurd hb List.not_mem_nil)
  | right =>
    exact h.update_right h.receiving h.framed rfl (Nat.le_refl _)
      (fun _ hb => absurd hb List.not_mem_nil)

/-- An emission of the left peer is numbered. -/
theorem Sending.dataMarked {p : Peer} (h : Sending p) {highest : Option UInt16} {bytes : Bytes}
    (hem : Emission p.ep.inFlight highest bytes) : DataMarked p.sent ⟨bytes,p.markOf bytes⟩ := by
  rcases hem with ⟨entry,hmem,hc⟩ | ⟨ackId,_,hack⟩
  · obtain ⟨n,hmark,hn⟩ := h.markOf_of_carries hmem hc
    exact Or.inl ⟨n,packetOf entry,hmark,hn,hc⟩
  · exact Or.inr (Or.inl ⟨ackId,hack⟩)

/-- An emission of the right peer acknowledges what it accepted. -/
theorem ackMarked_of_receiving {sent accepted : List Packet} {ack : AckState}
    (h : Receiving sent accepted ack) {window : List InFlightEntry} {bytes : Bytes}
    (hem : Emission window ack.highestRecv bytes) {p : Peer} (hp : p.accepted=accepted) :
    AckMarked p.accepted.length ⟨bytes,p.markOf bytes⟩ := by
  rcases hem with ⟨entry,_,hc⟩ | ⟨ackId,hhigh,hack⟩
  · exact Or.inr (Or.inl ⟨packetOf entry,hc⟩)
  · refine Or.inl ⟨p.accepted.length,ackId,p.markOf_of_acknowledges hack,Nat.le_refl _,?_,hack⟩
    rw [hp]
    exact h.highest ackId hhigh

/-- A poll keeps the receive side. -/
theorem receiving_of_phase {sent accepted : List Packet} {ep : ReliableEndpoint}
    {acks : Option UInt16} {result : ReliableEndpoint×List Bytes}
    (h : Receiving sent accepted ep.ack) (hphase : Phase acks ep result) :
    Receiving sent accepted result.1.ack where
  inOrder := h.inOrder
  expected := by rw [hphase.expected]; exact h.expected
  highest := by rw [hphase.highest]; exact h.highest
  pending hpos := by
    rw [hphase.highest]
    exact h.pending (Nat.lt_of_lt_of_le hpos hphase.sinceAck)

/-- A poll of either peer. -/
theorem Linked.pollOutbound {l : Link} (h : Linked l) (side : Side)
    (now elapsedAt ackAt : Instant) :
    Linked (l.update side ((l.peer side).pollOutbound now elapsedAt ackAt)) := by
  have hphase := pollOutbound_phase (l.peer side).ep now elapsedAt ackAt
  cases side with
  | left =>
    have hs := h.sending.pollOutbound now elapsedAt ackAt
    exact h.update_left hs (List.prefix_append _ _) h.ackedAccepted
      (fun bytes hb => hs.dataMarked (hphase.emits h.sending.framed bytes hb))
  | right =>
    exact h.update_right (receiving_of_phase h.receiving hphase) (hphase.framed h.framed)
      hphase.config (Nat.le_refl _)
      (fun bytes hb => ackMarked_of_receiving h.receiving (hphase.emits h.framed bytes hb) rfl)

/-- An acknowledgement leaves the send side alone. -/
theorem Sending.buildAckPacket {p : Peer} (h : Sending p) (clock : Instant) :
    Sending (p.buildAckPacket clock).1 := by
  unfold Peer.buildAckPacket ReliableEndpoint.buildAckPacket
  split <;> exact h.of_core rfl rfl rfl rfl rfl rfl rfl

/-- An acknowledgement of either peer. -/
theorem Linked.buildAckPacket {l : Link} (h : Linked l) (side : Side) (clock : Instant) :
    Linked (l.update side ((l.peer side).buildAckPacket clock)) := by
  have hphase := buildAckPacket_phase (l.peer side).ep clock
  cases side with
  | left =>
    have hs := h.sending.buildAckPacket clock
    exact h.update_left hs List.prefix_rfl h.ackedAccepted
      (fun bytes hb => hs.dataMarked (hphase.emits h.sending.framed bytes hb))
  | right =>
    exact h.update_right (receiving_of_phase h.receiving hphase) (hphase.framed h.framed)
      hphase.config (Nat.le_refl _)
      (fun bytes hb => ackMarked_of_receiving h.receiving (hphase.emits h.framed bytes hb) rfl)

/-- Allowing keepalives sends nothing. -/
theorem Linked.opened {l : Link} (h : Linked l) (side : Side) :
    Linked (l.setPeer side
      {l.peer side with ep := {(l.peer side).ep with opened := true}}) := by
  rw [Link.setPeer_eq_update]
  cases side with
  | left =>
    exact h.update_left (h.sending.of_core rfl rfl rfl rfl rfl rfl rfl) List.prefix_rfl
      h.ackedAccepted (fun _ hb => absurd hb List.not_mem_nil)
  | right =>
    exact h.update_right h.receiving h.framed rfl (Nat.le_refl _)
      (fun _ hb => absurd hb List.not_mem_nil)

/-- What a datagram to the left does to the record of acknowledged packets. -/
theorem Linked.deliver_left {l : Link} (h : Linked l) {d : Datagram}
    (hd : AckMarked l.right.accepted.length d) (hfresh : l.fresh .left d.mark=true)
    (clock : Instant) (dump : Option (List Bytes)) :
    Linked (l.update .left (l.left.handleDatagram clock dump d.bytes)) := by
  have hs := h.sending.handleDatagram clock dump d.bytes
  rcases hd with ⟨n,ackId,hmark,hn,hid,hack⟩ | ⟨packet,hc⟩ | hsilent
  · rw [hmark] at hfresh
    have hle := h.receiving.inOrder.length_le
    have hbound : l.left.sent.length≤n+32256 := of_decide_eq_true hfresh
    have hlen := h.sending.windowed.removedBy_length (hn.trans hle) hbound hid
    rw [Peer.handleDatagram_of_acknowledges hack] at hs ⊢
    obtain ⟨hsent,hacked,_⟩ :=
      Peer.openWith_fields ((l.left.heard clock).onAckId ackId) dump
    refine h.update_left hs (by rw [hsent]; exact List.prefix_rfl) ?_
      (fun _ hb => absurd hb List.not_mem_nil)
    rw [hacked]
    change (l.left.acked++removedBy l.left.ep ackId).length≤_
    rw [List.length_append,hlen]
    exact Nat.max_le.mpr ⟨h.ackedAccepted,hn⟩
  · obtain ⟨header,_,heq⟩ := Peer.handleDatagram_of_carries hc l.left clock dump
    rw [heq] at hs ⊢
    by_cases hid : header.packetId=(l.left.heard clock).ep.ack.expectedRecv
    · rw [Peer.acceptReliable_of_eq hid] at hs ⊢
      exact h.update_left hs List.prefix_rfl h.ackedAccepted
        (fun _ hb => absurd hb List.not_mem_nil)
    · rw [Peer.acceptReliable_of_ne hid] at hs ⊢
      refine h.update_left hs List.prefix_rfl h.ackedAccepted ?_
      intro bytes hb
      rw [List.mem_singleton.mp hb]
      exact Or.inr (Or.inr (buildRetransmitRequest_silent _))
  · rw [Peer.handleDatagram_of_silent hsilent] at hs ⊢
    exact h.update_left hs List.prefix_rfl h.ackedAccepted
      (fun _ hb => absurd hb List.not_mem_nil)

/-- The receiver is never more than a window behind. -/
theorem Linked.near {l : Link} (h : Linked l) :
    l.left.sent.length≤l.right.accepted.length+32 := by
  have hlen := h.sending.windowed.length_eq
  have hbound := h.sending.windowed.bounded
  have hacked := h.ackedAccepted
  omega

/-- A datagram to the right is accepted only if it carries the next packet. -/
theorem Linked.deliver_right {l : Link} (h : Linked l) {d : Datagram}
    (hd : DataMarked l.left.sent d) (hfresh : l.fresh .right d.mark=true)
    (clock : Instant) (dump : Option (List Bytes)) :
    Linked (l.update .right (l.right.handleDatagram clock dump d.bytes)) := by
  rcases hd with ⟨n,packet,hmark,hn,hc⟩ | ⟨ackId,hack⟩ | hsilent
  · rw [hmark] at hfresh
    have hbound : l.left.sent.length≤n+1+32256 := of_decide_eq_true hfresh
    have hlt : n<l.left.sent.length := (List.getElem?_eq_some_iff.mp hn).1
    have hnum := h.sending.windowed.numbered n packet hn
    obtain ⟨header,hid,heq⟩ := Peer.handleDatagram_of_carries hc l.right clock dump
    rw [heq]
    by_cases hexp : header.packetId=(l.right.heard clock).ep.ack.expectedRecv
    · have hturn : packet.packetId=l.right.ep.ack.expectedRecv := hid.symm.trans hexp
      have hnext : n=l.right.accepted.length := Nat.succ_injective
        (h.receiving.number_of_expected hlt hbound h.near hnum hturn)
      rw [hnext] at hn
      have hr := h.receiving.acceptReliable hn hturn true
      unfold ReliableEndpoint.acceptReliable at hr
      rw [if_pos hturn] at hr
      rw [Peer.acceptReliable_of_eq hexp]
      have hpk : (⟨header.packetId,packet.payload⟩ : Packet)=packet := by rw [hid]
      rw [hpk,hid]
      refine h.update_right hr h.framed rfl ?_ (fun _ hb => absurd hb List.not_mem_nil)
      change l.right.accepted.length≤(l.right.accepted++[packet]).length
      rw [List.length_append]
      exact Nat.le_add_right _ _
    · rw [Peer.acceptReliable_of_ne hexp]
      refine h.update_right h.receiving h.framed rfl (Nat.le_refl _) ?_
      intro bytes hb
      rw [List.mem_singleton.mp hb]
      exact Or.inr (Or.inr (buildRetransmitRequest_silent _))
  · rw [Peer.handleDatagram_of_acknowledges hack]
    obtain ⟨_,_,haccepted,hackst,hwindow,hconfig⟩ :=
      Peer.openWith_fields ((l.right.heard clock).onAckId ackId) dump
    refine h.update_right ?_ ?_ hconfig ?_ (fun _ hb => absurd hb List.not_mem_nil)
    · rw [haccepted,hackst]
      exact h.receiving
    · intro entry hmem
      rw [hwindow] at hmem
      exact h.framed entry ((onAckId_suffix l.right.ep ackId).subset hmem)
    · rw [haccepted]
      exact Nat.le_refl _
  · rw [Peer.handleDatagram_of_silent hsilent]
    exact h.update_right h.receiving h.framed rfl (Nat.le_refl _)
      (fun _ hb => absurd hb List.not_mem_nil)

/-- Every step keeps the numbers. -/
theorem linked_step {l l' : Link} {action : Action} (h : Linked l)
    (hstep : step l action=some l') : Linked l' := by
  cases action with
  | queuePayload side payload =>
    cases hstep
    exact h.queue side [payload]
  | queueCommandsPacked side cmds =>
    cases hstep
    exact h.queue side (packCommands cmds)
  | pollOutbound side now elapsedAt ackAt =>
    cases hstep
    exact h.pollOutbound side now elapsedAt ackAt
  | buildAckPacket side clock =>
    cases hstep
    exact h.buildAckPacket side clock
  | opened side =>
    cases hstep
    exact h.opened side
  | deliver side i clock dump =>
    dsimp only [step] at hstep
    split at hstep
    · cases hstep
    · rename_i d hd
      split at hstep
      · rename_i hfresh
        cases hstep
        have hmem := List.mem_of_getElem? hd
        have hrest : Linked (l.setWire side ((l.wire side).eraseIdx i)) :=
          h.setWire (fun _ hd => List.mem_of_mem_eraseIdx hd)
        cases side with
        | left => exact hrest.deliver_left (h.toLeft d hmem) hfresh clock dump
        | right => exact hrest.deliver_right (h.toRight d hmem) hfresh clock dump
      · cases hstep
  | lose side i =>
    cases hstep
    exact h.setWire (fun _ hd => List.mem_of_mem_eraseIdx hd)
  | duplicate side i =>
    cases hstep
    apply h.setWire
    intro d hd
    rcases List.mem_append.mp hd with hd | hd
    · exact hd
    · exact List.mem_of_getElem? (Option.mem_toList.mp hd)

/-- Both endpoints as the handshake leaves them: the left peer sends from
id one, the right peer expects id one, and nothing is under way. -/
structure Fresh (l : Link) : Prop where
  /-- The left peer has done nothing. -/
  left : l.left=Peer.start l.left.ep
  /-- Its first packet has id one. -/
  next : l.left.ep.nextSendId=1
  /-- Its window is empty. -/
  window : l.left.ep.inFlight=[]
  /-- Its queue is empty. -/
  queue : l.left.ep.outbound=[]
  /-- Its window limit is the default. -/
  limit : l.left.ep.config.maxInFlight=32
  /-- The right peer has done nothing. -/
  right : l.right=Peer.start l.right.ep
  /-- It expects id one. -/
  expected : l.right.ep.ack.expectedRecv=1
  /-- An id it can acknowledge is that of the handshake. -/
  hello : ∀ helloId,l.right.ep.ack.highestRecv=some helloId → nextPacketId helloId=1
  /-- Its coalescing count is the default. -/
  coalesce : l.right.ep.config.ackCoalesceCount=16
  /-- It owes no acknowledgement. -/
  pending : l.right.ep.ack.packetsSinceAck=0
  /-- Its window is empty. -/
  rightWindow : l.right.ep.inFlight=[]
  /-- No datagram is under way to the left. -/
  toLeft : l.toLeft=[]
  /-- No datagram is under way to the right. -/
  toRight : l.toRight=[]

/-- Both ends agree after the handshake. -/
theorem Fresh.linked {l : Link} (h : Fresh l) : Linked l := by
  have hsent : l.left.sent=[] := by rw [h.left]; rfl
  have hacked : l.left.acked=[] := by rw [h.left]; rfl
  have hqueued : l.left.queued=[] := by rw [h.left]; rfl
  have haccepted : l.right.accepted=[] := by rw [h.right]; rfl
  constructor
  · constructor
    · constructor
      · rw [hsent,hacked,h.window]
        rfl
      · intro i packet hi
        rw [hsent] at hi
        cases hi
      · rw [h.next,hsent]
        rfl
      · rw [h.window]
        exact Nat.zero_le _
      · exact h.limit
    · intro entry hmem
      rw [h.window] at hmem
      cases hmem
    · rw [hsent,h.queue,hqueued]
      rfl
  · constructor
    · rw [haccepted]
      exact List.nil_prefix
    · rw [h.expected,haccepted]
      rfl
    · intro ackId hack
      have hone := congrArg UInt16.toNat (h.hello ackId hack)
      rw [nextPacketId_toNat] at hone
      change (ackId.toNat+1)%32768=1 at hone
      rw [haccepted,List.length_nil]
      omega
    · intro hpos
      rw [h.pending] at hpos
      exact absurd hpos (Nat.lt_irrefl 0)
  · intro entry hmem
    rw [h.rightWindow] at hmem
    cases hmem
  · exact h.coalesce
  · rw [hacked]
    exact Nat.zero_le _
  · rw [h.toRight]
    exact fun _ hd => absurd hd List.not_mem_nil
  · rw [h.toLeft]
    exact fun _ hd => absurd hd List.not_mem_nil

/-- The numbers hold in every state of every run. -/
theorem linked_run {l₀ l : Link} {actions : List Action} (h : Fresh l₀)
    (hrun : run step l₀ actions=some l) : Linked l :=
  run_invariant step (fun _ _ _ hl hs => linked_step hl hs) h.linked hrun

/-- Payloads that carry something and fit are sent whole. -/
theorem nonEmpty_queued {queued : List Bytes} (h : ∀ p∈queued,p≠[] ∧ p.length≤2035) :
    nonEmpty (queued.map wirePayload)=queued := by
  have hmap : queued.map wirePayload=queued := by
    rw [List.map_congr_left (fun p hp => wirePayload_of_le (h p hp).2)]
    exact List.map_id _
  rw [hmap]
  exact List.filter_eq_self.mpr (fun p hp => decide_eq_true (h p hp).1)

/-- In-order exactly-once delivery: over any run the accepted payloads,
keepalives apart, are the first ones queued, and a packet leaves the window
only after it was accepted. -/
theorem accepted_payloads_inOrder {l₀ l : Link} {actions : List Action} (h : Fresh l₀)
    (hrun : run step l₀ actions=some l)
    (hq : ∀ payload∈l.left.queued,payload≠[] ∧ payload.length≤2035) :
    nonEmpty (l.right.accepted.map Packet.payload)<+:l.left.queued ∧
      l.left.acked<+:l.right.accepted := by
  have hl := linked_run h hrun
  constructor
  · have hsent : nonEmpty (l.right.accepted.map Packet.payload)<+:
        nonEmpty (l.left.sent.map Packet.payload) :=
      (hl.receiving.inOrder.map Packet.payload).filter _
    have hall := hl.sending.accounted
    rw [nonEmpty_append,nonEmpty_queued hq] at hall
    exact hsent.trans ⟨_,hall⟩
  · have hprefix : l.left.acked<+:l.left.sent := ⟨_,hl.sending.windowed.split.symm⟩
    exact List.prefix_of_prefix_length_le hprefix hl.receiving.inOrder hl.ackedAccepted

/-- A link whose peers have just finished the handshake. -/
def linkStart (left right : ReliableEndpoint) : Link := ⟨Peer.start left,Peer.start right,[],[]⟩

/-- Client sessions and upstream sessions start fresh in both directions. -/
theorem fresh_linkStart (sessionId helloId : UInt16) (clock clock' : Instant)
    (h : nextPacketId helloId=1) :
    Fresh (linkStart (.forUpstream sessionId helloId clock) (.forSession sessionId clock')) ∧
      Fresh (linkStart (.forSession sessionId clock')
        (.forUpstream sessionId helloId clock)) := by
  constructor
  · exact ⟨rfl,rfl,rfl,rfl,rfl,rfl,rfl,fun _ hid => (by cases hid),rfl,rfl,rfl,rfl,rfl⟩
  · exact ⟨rfl,rfl,rfl,rfl,rfl,rfl,h,fun _ hid => (by cases hid; exact h),rfl,rfl,rfl,rfl,rfl⟩

/-- One payload is sent, duplicated, accepted once and acknowledged. -/
def duplicatedPayloadRun : List Action :=
  [.queuePayload .left [7],.pollOutbound .left 0 0 0,.duplicate .right 0,
    .deliver .right 1 1 none,.deliver .right 0 1 none,.pollOutbound .right 2 2 2,
    .deliver .left 1 3 none]

/-- The delivered link of that run. -/
def duplicatedPayloadLink : Link :=
  (run step (linkStart (.forUpstream 1 0 0) (.forSession 1 0)) duplicatedPayloadRun).getD
    (linkStart (.forUpstream 1 0 0) (.forSession 1 0))

/-- A duplicated payload is accepted once and leaves the window. -/
theorem duplicatedPayload_accepted_once :
    duplicatedPayloadLink.right.accepted=[⟨1,[7]⟩] ∧
      duplicatedPayloadLink.left.acked=[⟨1,[7]⟩] ∧
      nonEmpty (duplicatedPayloadLink.right.accepted.map Packet.payload)<+:
        duplicatedPayloadLink.left.queued ∧
      duplicatedPayloadLink.left.acked<+:duplicatedPayloadLink.right.accepted :=
  ⟨by decide +kernel,by decide +kernel,
    accepted_payloads_inOrder (fresh_linkStart 1 0 0 0 rfl).1
      (show run step _ duplicatedPayloadRun=some duplicatedPayloadLink by decide +kernel)
      (by decide +kernel)⟩

end AtemProxy.ReliableLink
