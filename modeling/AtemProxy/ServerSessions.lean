import AtemProxy.CommandPolicy
import AtemProxy.LateJoinCache
import AtemProxy.ReliableTransport

/-!
# Client sessions and what the server tasks do to them

One session per client address. A handshake replaces the session of its
address, the first acknowledgement opens it and queues the cache dump, and
an accepted reliable payload is handed to the filter. The fan-out queues
upstream payloads to opened sessions; the tick polls live sessions and
removes silent ones. All functions here run under the session lock.
-/

namespace AtemProxy.ServerSessions

open BigEndian PacketCodec CommandFrames KeyedMaps LockStores CommandPolicy LateJoinCache
  ReliableTransport

/-- State kept for one client address. -/
structure ClientSession where
  /-- Reliable endpoint towards the client. -/
  rel : ReliableEndpoint
  /-- The init dump was queued. -/
  dumpSent : Bool
  /-- The client acknowledged the handshake. -/
  opened : Bool
  /-- The client asked for audio levels. -/
  audio : Bool
  deriving DecidableEq

/-- Sessions by client address. -/
abbrev Sessions := OrderedMap SocketAddr ClientSession

/-- HELLO and HELLO reply. -/
def isHandshakePacket (flags : PacketFlags) : Bool := flags.handshake

/-- A HELLO datagram. -/
def helloData : Bytes :=
  encodePacket (PacketHeader.new {handshake := true} 0 20) [1,0,0,0,0,0,0,0]

/-- Session id handed out for a counter value. -/
def serverSessionId (index : UInt16) : UInt16 := 0x8000 ||| (index &&& 0x7FFF)

/-- Session of a client whose HELLO was just answered. -/
def ClientSession.hello (sessionId : UInt16) (clock : Instant) : ClientSession :=
  ⟨.forSession sessionId clock,false,false,false⟩

namespace ClientSession

/-- The header acknowledges something. -/
def acknowledges (header : PacketHeader) : Bool :=
  header.flags.ackReply || decide (header.ackId≠0)

/-- Open the session at its first acknowledgement and queue the dump once. -/
def openWith (sess : ClientSession) (dump : List Bytes) : ClientSession :=
  if sess.opened=true then sess
  else if sess.dumpSent=true then {sess with opened := true, rel := {sess.rel with opened := true}}
  else
    {sess with
      opened := true
      dumpSent := true
      rel := ({sess.rel with opened := true} : ReliableEndpoint).queueCommandsPacked dump}

/-- Acknowledgement part of a datagram. -/
def onHeader (sess : ClientSession) (header : PacketHeader) (dump : List Bytes)
    (clock : Instant) : ClientSession :=
  let heard : ClientSession := {sess with rel := sess.rel.noteRecv clock}
  if acknowledges header=true then
    ({heard with rel := heard.rel.onAckId header.ackId} : ClientSession).openWith dump
  else heard

/-- What the reliable part of a datagram asks for. -/
structure Admission where
  /-- Session after the sequence check. -/
  session : ClientSession
  /-- Retransmit request for the client. -/
  request : Option Bytes
  /-- Payload for the filter. -/
  payload : Option Bytes

/-- Reliable part of a datagram. -/
def onReliable (sess : ClientSession) (header : PacketHeader) (payload : Bytes) : Admission :=
  if header.flags.ackRequest=true then
    let result := sess.rel.acceptReliable header.packetId header.flags.isRetransmit
    let next : ClientSession := {sess with rel := result.1}
    if result.2=true then ⟨next,none,if payload=[] then none else some payload⟩
    else ⟨next,some result.1.buildRetransmitRequest,none⟩
  else ⟨sess,none,none⟩

/-- Record the subscription that an action reports. -/
def applyAction (sess : ClientSession) : FilterAction → ClientSession
  | .audioSubscribe enable _ => {sess with audio := enable}
  | .forward _ => sess
  | .dropped _ _ => sess

/-- Record the subscriptions of all actions of a payload. -/
def applyActions (sess : ClientSession) (actions : List FilterAction) : ClientSession :=
  actions.foldl applyAction sess

/-- Silent for longer than the idle limit. -/
def expired (sess : ClientSession) (idle : ℕ) (now : Instant) : Bool :=
  decide (idle<now-sess.rel.lastRecvAt)

end ClientSession

namespace ClientSession

/-- A state payload goes to an opened session. -/
def queueState (payload : Bytes) (sess : ClientSession) : ClientSession :=
  if sess.opened=true then {sess with rel := sess.rel.queuePayload payload} else sess

/-- Audio levels go to an opened session that subscribed. -/
def queueAudio (payload : Bytes) (sess : ClientSession) : ClientSession :=
  if sess.opened=true ∧ sess.audio=true then {sess with rel := sess.rel.queuePayload payload}
  else sess

/-- Transfer data goes to the opened session of one client. -/
def queueTransfer (owner : SocketAddr) (payload : Bytes) (addr : SocketAddr)
    (sess : ClientSession) : ClientSession :=
  if addr=owner ∧ sess.opened=true then {sess with rel := sess.rel.queuePayload payload}
  else sess

/-- After a lag, a dump goes to an opened session. -/
def queueResync (dump : List Bytes) (sess : ClientSession) : ClientSession :=
  if sess.opened=true then {sess with rel := sess.rel.queueCommandsPacked dump} else sess

/-- A live session is polled by the tick. -/
def poll (idle : ℕ) (now elapsedAt ackAt : Instant) (sess : ClientSession) : ClientSession :=
  if sess.expired idle now=true then sess
  else {sess with rel := (sess.rel.pollOutbound now elapsedAt ackAt).1}

end ClientSession

/-- Clock readings of one session's poll. -/
structure PollClocks where
  /-- Clock of the coalescing test. -/
  elapsedAt : Instant
  /-- Clock of the acknowledgement. -/
  ackAt : Instant

/-- Addresses whose sessions expired. They are cleaned up one after the other; the source
takes them from a hash map in no particular order, here they come in the order in which
their sessions were inserted. -/
def deadAddrs (sessions : Sessions) (idle : ℕ) (now : Instant) : List SocketAddr :=
  (sessions.entries.filter (fun entry => entry.2.expired idle now)).map Prod.fst

/-- Poll every live session. -/
def pollLive (sessions : Sessions) (idle : ℕ) (now : Instant)
    (clocks : SocketAddr → PollClocks) : Sessions :=
  sessions.mapValues (fun addr => .poll idle now (clocks addr).elapsedAt (clocks addr).ackAt)

/-- Sessions that survive a tick, polled. -/
def tickSessions (sessions : Sessions) (idle : ℕ) (now : Instant)
    (clocks : SocketAddr → PollClocks) : Sessions :=
  (deadAddrs sessions idle now).foldl OrderedMap.erase (pollLive sessions idle now clocks)

/-- The tick removes the addresses that are silent for too long. -/
theorem mem_deadAddrs_iff (sessions : Sessions) (idle : ℕ) (now : Instant) (addr : SocketAddr) :
    addr∈deadAddrs sessions idle now ↔
      ∃ sess, sessions.get? addr=some sess ∧ sess.expired idle now=true := by
  simp only [deadAddrs,List.mem_map,List.mem_filter]
  constructor
  · rintro ⟨⟨other,sess⟩,⟨hmem,hexp⟩,rfl⟩
    exact ⟨sess,(sessions.get?_eq_some_iff other sess).mpr hmem,hexp⟩
  · rintro ⟨sess,hget,hexp⟩
    exact ⟨(addr,sess),⟨(sessions.get?_eq_some_iff addr sess).mp hget,hexp⟩,rfl⟩

/-- A tick removes exactly the expired sessions. -/
theorem get?_tickSessions (sessions : Sessions) (idle : ℕ) (now : Instant)
    (clocks : SocketAddr → PollClocks) (addr : SocketAddr) :
    (tickSessions sessions idle now clocks).get? addr=
      if addr∈deadAddrs sessions idle now then none
      else (pollLive sessions idle now clocks).get? addr := by
  simp only [tickSessions,OrderedMap.get?_eraseAll]

/-- The flags stay, and either these payloads or none are appended to the
outbound queue. -/
structure Hands (payloads : List Bytes) (sess next : ClientSession) : Prop where
  /-- Opened flag. -/
  opened : next.opened=sess.opened
  /-- Dump flag. -/
  dumpSent : next.dumpSent=sess.dumpSent
  /-- Audio flag. -/
  audio : next.audio=sess.audio
  /-- Outbound queue. -/
  outbound : next.rel.outbound=sess.rel.outbound ∨
    next.rel.outbound=sess.rel.outbound++payloads

/-- Operations of the fan-out act on the endpoint of some sessions only. -/
theorem hands_guarded {guard : Prop} [Decidable guard] {payloads : List Bytes}
    {sess : ClientSession} {rel : ReliableEndpoint}
    (h : rel.outbound=sess.rel.outbound++payloads) :
    Hands payloads sess (if guard then {sess with rel := rel} else sess) := by
  split
  · exact ⟨rfl,rfl,rfl,Or.inr h⟩
  · exact ⟨rfl,rfl,rfl,Or.inl rfl⟩

/-- State goes to every opened session. -/
theorem hands_queueState (payload : Bytes) (sess : ClientSession) :
    Hands [payload] sess (sess.queueState payload) := hands_guarded rfl

/-- Audio goes to opened sessions that subscribed to it. -/
theorem hands_queueAudio (payload : Bytes) (sess : ClientSession) :
    Hands [payload] sess (sess.queueAudio payload) := hands_guarded rfl

/-- Transfer data goes to its owner. -/
theorem hands_queueTransfer (owner : SocketAddr) (payload : Bytes) (addr : SocketAddr)
    (sess : ClientSession) : Hands [payload] sess (sess.queueTransfer owner payload addr) :=
  hands_guarded rfl

/-- A dump goes to every opened session. -/
theorem hands_queueResync (dump : List Bytes) (sess : ClientSession) :
    Hands (packCommands dump) sess (sess.queueResync dump) := hands_guarded rfl

/-- A poll acts on the endpoint only. -/
theorem ClientSession.poll_flags (idle : ℕ) (now elapsedAt ackAt : Instant)
    (sess : ClientSession) :
    (sess.poll idle now elapsedAt ackAt).opened=sess.opened ∧
      (sess.poll idle now elapsedAt ackAt).dumpSent=sess.dumpSent ∧
      (sess.poll idle now elapsedAt ackAt).audio=sess.audio := by
  simp only [poll]
  split <;> exact ⟨rfl,rfl,rfl⟩

/-- Recorded actions act on the audio flag only. -/
theorem ClientSession.applyActions_keeps (sess : ClientSession) (actions : List FilterAction) :
    (sess.applyActions actions).opened=sess.opened ∧
      (sess.applyActions actions).dumpSent=sess.dumpSent ∧
      (sess.applyActions actions).rel=sess.rel := by
  simp only [applyActions]
  induction actions generalizing sess with
  | nil => exact ⟨rfl,rfl,rfl⟩
  | cons action actions ih =>
    obtain ⟨hopened,hdump,hrel⟩ := ih (sess.applyAction action)
    rw [List.foldl_cons,hopened,hdump,hrel]
    cases action <;> exact ⟨rfl,rfl,rfl⟩

/-- Opening a session keeps the audio flag. -/
theorem ClientSession.openWith_audio (sess : ClientSession) (dump : List Bytes) :
    (sess.openWith dump).audio=sess.audio := by
  simp only [openWith]
  split
  · rfl
  · split <;> rfl

/-- So does the header of a datagram. -/
theorem ClientSession.onHeader_audio (sess : ClientSession) (header : PacketHeader)
    (dump : List Bytes) (clock : Instant) :
    (sess.onHeader header dump clock).audio=sess.audio := by
  simp only [onHeader]
  split
  · rw [openWith_audio]
  · rfl

/-- A header leaves session id and receive side alone. -/
theorem ClientSession.onHeader_core (sess : ClientSession) (header : PacketHeader)
    (dump : List Bytes) (clock : Instant) :
    (sess.onHeader header dump clock).rel.sessionId=sess.rel.sessionId ∧
      (sess.onHeader header dump clock).rel.ack=sess.rel.ack := by
  simp only [onHeader,openWith]
  split
  · split
    · exact ⟨rfl,rfl⟩
    · split <;> exact ⟨rfl,rfl⟩
  · exact ⟨rfl,rfl⟩

/-- A header leaves queue and flags alone, or opens the session, with the dump unless
it was sent. -/
theorem ClientSession.onHeader_cases (sess : ClientSession) (header : PacketHeader)
    (dump : List Bytes) (clock : Instant) :
    ((sess.onHeader header dump clock).opened=sess.opened ∧
        (sess.onHeader header dump clock).dumpSent=sess.dumpSent ∧
        (sess.onHeader header dump clock).rel.outbound=sess.rel.outbound) ∨
      (sess.opened=false ∧ (sess.onHeader header dump clock).opened=true ∧
        (sess.onHeader header dump clock).rel.outbound=
          sess.rel.outbound++if sess.dumpSent=true then [] else packCommands dump) := by
  simp only [onHeader,openWith]
  split
  · split
    · exact Or.inl ⟨rfl,rfl,rfl⟩
    · rename_i hclosed
      refine Or.inr ⟨eq_false_of_ne_true hclosed,?_⟩
      split
      · exact ⟨rfl,(List.append_nil _).symm⟩
      · exact ⟨rfl,rfl⟩
  · exact Or.inl ⟨rfl,rfl,rfl⟩

/-- The sequence check acts on the endpoint only. -/
theorem ClientSession.onReliable_flags (sess : ClientSession) (header : PacketHeader)
    (payload : Bytes) :
    (sess.onReliable header payload).session.opened=sess.opened ∧
      (sess.onReliable header payload).session.dumpSent=sess.dumpSent ∧
      (sess.onReliable header payload).session.audio=sess.audio := by
  simp only [onReliable]
  split
  · split <;> exact ⟨rfl,rfl,rfl⟩
  · exact ⟨rfl,rfl,rfl⟩

end AtemProxy.ServerSessions
