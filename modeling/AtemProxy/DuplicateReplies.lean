import AtemProxy.ProxyTasks
import AtemProxy.UpstreamSessions
import AtemProxy.GhostOwners

/-!
# How a repeated packet is answered

The endpoint tells a repeated packet from a packet out of order, but both
reach the caller as the same refusal. Server and upstream session answer
every refusal with a retransmit request, so every repeated packet is
answered with a request for a packet that was never missing.
-/

namespace AtemProxy.DuplicateReplies

open BigEndian PacketCodec CommandFrames KeyedMaps LockStores ReliableTransport ServerSessions
  UpstreamSessions ProxyTasks GuardedRuns

/-- One of the 256 ids before the expected one, modulo the id space. -/
def Behind (packetId expected : UInt16) : Prop :=
  ∃ k,1≤k ∧ k≤256 ∧ packetId.toNat=(expected.toNat+32768-k)%32768

/-- An id behind the expected one differs from it, also around the wrap. -/
theorem Behind.ne {packetId expected : UInt16} (h : Behind packetId expected) :
    packetId≠expected := by
  rintro rfl
  obtain ⟨k,hlow,hhigh,hid⟩ := h
  omega

/-- Every refused packet is answered by the server with a request. -/
theorem onReliable_request_iff (sess : ClientSession) (header : PacketHeader) (payload : Bytes)
    (hreliable : header.flags.ackRequest=true) :
    (sess.onReliable header payload).request=
      if header.packetId=sess.rel.ack.expectedRecv then none
      else some sess.rel.buildRetransmitRequest := by
  unfold ClientSession.onReliable
  rw [if_pos hreliable]
  by_cases he : header.packetId=sess.rel.ack.expectedRecv
  · simp only [ReliableEndpoint.acceptReliable,if_pos he,if_true]
  · rw [ReliableEndpoint.acceptReliable_of_ne he,if_neg he]
    rfl

/-- A header of the switcher leaves the expected id alone. -/
theorem upstream_onHeader_expectedRecv (u : UpstreamSession) (header : PacketHeader) :
    (u.onHeader header).ledger.endpoint.ack.expectedRecv=
      u.ledger.endpoint.ack.expectedRecv := by
  unfold UpstreamSession.onHeader
  dsimp only
  split <;> split <;> rfl

/-- Whatever the states of server and upstream session, a reliable datagram
whose id is one of the 256 before the expected one is answered with a
retransmit request: by the server when it comes from a client with a session,
and by the upstream session when it comes from the switcher. -/
theorem duplicate_always_answered (s : Proxy) (u : UpstreamSession) (addr : SocketAddr)
    (t : Tracked) {data payload : Bytes} {header : PacketHeader} (clock : Instant)
    (hdecode : decodePacket data=.ok (header,payload))
    (hplain : isHandshakePacket header.flags=false) (hreliable : header.flags.ackRequest=true) :
    (s.sessions.get? addr=some t → Behind header.packetId t.session.rel.ack.expectedRecv →
      s.retransmit addr data clock≠none) ∧
    (Behind header.packetId u.ledger.endpoint.ack.expectedRecv →
      u.retransmit data clock≠none) := by
  constructor
  · intro hget hbehind
    have hne : header.packetId≠
        (t.session.onHeader header s.cache.dump clock).rel.ack.expectedRecv := by
      rw [(t.session.onHeader_core header s.cache.dump clock).2]
      exact hbehind.ne
    simp only [Proxy.retransmit,hdecode,hplain,hget,Bool.false_eq_true,if_false]
    rw [onReliable_request_iff _ header payload hreliable,if_neg hne]
    exact Option.some_ne_none _
  · intro hbehind
    have hne : header.packetId≠((u.call (.noteRecv clock)).onHeader
        header).ledger.endpoint.ack.expectedRecv := by
      rw [upstream_onHeader_expectedRecv]
      exact hbehind.ne
    simp only [UpstreamSession.retransmit,hdecode,hplain,hreliable,Bool.false_eq_true,if_false,
      if_true,ReliableEndpoint.acceptReliable_of_ne hne]
    exact Option.some_ne_none _

/-- The first reliable packet of a client, accepted and sent once more. -/
def repeating : Proxy := (run step GhostOwners.singleOwnerStart
  (GhostOwners.clientJoined++GhostOwners.lockRequest)).getD GhostOwners.singleOwnerStart

/-- Reply of the switcher to a HELLO. -/
def helloReply : Bytes :=
  encodePacket (PacketHeader.new {handshake := true} 0x8001 20) [2,0,0,0,0,0,0,0]

/-- First reliable packet of the switcher. -/
def firstData : Bytes := encodePacket (ReliableEndpoint.dataHeader 0x8001 1 []) []

/-- Upstream session after that packet was accepted. -/
def accepted : Option UpstreamSession :=
  (UpstreamSession.connect helloReply 0).map (fun u => (u.onDatagram firstData 1).1)

/-- A packet that was accepted and is sent once more is answered with a request
for the next packet, which nobody has sent: by the server to a client and by
the upstream session to the switcher. -/
theorem accepted_packet_requested_again :
    run step GhostOwners.singleOwnerStart (GhostOwners.clientJoined++GhostOwners.lockRequest)=
        some repeating ∧
      (repeating.sessions.get? ⟨1,1⟩).map (fun t => t.session.rel.ack.expectedRecv)=some 2 ∧
      (repeating.retransmit ⟨1,1⟩ GhostOwners.lockData 2).isSome=true ∧
      accepted.map (fun u => u.ledger.endpoint.ack.expectedRecv)=some 2 ∧
      (accepted.bind (fun u => u.retransmit firstData 2)).isSome=true := by
  refine ⟨rfl,by decide +kernel,by decide +kernel,by decide +kernel,by decide +kernel⟩

/-- Both callers on the repeated first packet of a peer. -/
theorem duplicate_always_answered_first :
    ∃ t u,repeating.sessions.get? ⟨1,1⟩=some t ∧ accepted=some u ∧
      Behind 1 t.session.rel.ack.expectedRecv ∧ Behind 1 u.ledger.endpoint.ack.expectedRecv ∧
      repeating.retransmit ⟨1,1⟩ firstData 2≠none ∧ u.retransmit firstData 2≠none := by
  have hbehind : Behind 1 2 := ⟨1,by decide,by decide,by decide⟩
  have hserver : (repeating.sessions.get? ⟨1,1⟩).map
      (fun t => t.session.rel.ack.expectedRecv)=some 2 := by
    decide +kernel
  obtain ⟨t,ht,hexpected⟩ := Option.map_eq_some_iff.mp hserver
  have hupstream : accepted.map (fun u => u.ledger.endpoint.ack.expectedRecv)=some 2 := by
    decide +kernel
  obtain ⟨u,hu,hexpected'⟩ := Option.map_eq_some_iff.mp hupstream
  have hdecode : decodePacket firstData=.ok (ReliableEndpoint.dataHeader 0x8001 1 [],[]) := by
    decide +kernel
  obtain ⟨hreply,hreply'⟩ := duplicate_always_answered repeating u ⟨1,1⟩ t 2 hdecode (by decide)
    (by decide)
  exact ⟨t,u,ht,hu,hexpected ▸ hbehind,hexpected' ▸ hbehind,hreply ht (hexpected ▸ hbehind),
    hreply' (hexpected' ▸ hbehind)⟩

end AtemProxy.DuplicateReplies
