import AtemProxy.SenderLedgers
import AtemProxy.ServerSessions

/-!
# One session with the switcher

The upstream task connects with a HELLO, then reacts to three things: a
command in the channel, a datagram of the switcher and its tick. A command
wakes the task, which drains the channel into the pending list and sends the
whole batch at once. Every command carries the number of disconnects that
were announced before it was put into the channel; the numbers are a record
and decide nothing.
-/

namespace AtemProxy.UpstreamSessions

open BigEndian PacketCodec ReliableTransport SenderLedgers ServerSessions

/-- Command in the channel with the disconnects announced before it. -/
structure Command where
  /-- Bytes as they were put. -/
  raw : Bytes
  /-- Disconnects announced before. -/
  epoch : ℕ
  deriving DecidableEq

/-- State of one upstream session. -/
structure UpstreamSession where
  /-- Reliable endpoint towards the switcher, with its ledger. -/
  ledger : SenderLedger
  /-- Commands taken from the channel and not sent yet. -/
  pending : List Command
  /-- The task is emptying the channel. -/
  draining : Bool
  /-- Commands handed to the endpoint so far. -/
  packed : List Command
  deriving DecidableEq

/-- Status byte of a HELLO reply. -/
def parseHandshakeStatus (payload : Bytes) : Option UInt8 := payload.head?

/-- Status of an accepted HELLO. -/
def handshakeOkStatus : UInt8 := 0x02

namespace UpstreamSession

/-- Session after the reply to the HELLO, if it is an acceptance; the reply is
acknowledged at once. -/
def connect (reply : Bytes) (clock : Instant) : Option UpstreamSession :=
  match decodePacket reply with
  | .error _ => none
  | .ok (header,payload) =>
    if isHandshakePacket header.flags=true ∧
        parseHandshakeStatus payload=some handshakeOkStatus then
      let rel := ReliableEndpoint.forUpstream header.sessionId header.packetId clock
      some ⟨.start (rel.buildAckPacket clock).1,[],false,[]⟩
    else none

/-- Apply a call to the endpoint. -/
def call (u : UpstreamSession) (c : EndpointCall) : UpstreamSession :=
  {u with ledger := u.ledger.call c}

/-- Take a command from the channel; fragments shorter than a frame header are
dropped. -/
def take (u : UpstreamSession) (cmd : Command) : UpstreamSession :=
  if 8≤cmd.raw.length then {u with pending := u.pending++[cmd]} else u

/-- Hand the pending commands to the endpoint. -/
def pack (u : UpstreamSession) : UpstreamSession :=
  {u with
    ledger := u.ledger.call (.queueCommandsPacked (u.pending.map Command.raw))
    packed := u.packed++u.pending
    pending := []}

/-- A command wakes the task; a fragment is dropped without a drain. -/
def wake (u : UpstreamSession) (cmd : Command) : UpstreamSession :=
  if 8≤cmd.raw.length then {u.take cmd with draining := true} else u

/-- The channel is empty: send the batch. -/
def flush (u : UpstreamSession) (now elapsedAt ackAt : Instant) : UpstreamSession :=
  {u.pack.call (.pollOutbound now elapsedAt ackAt) with draining := false}

/-- Tick of a session that is not timed out. -/
def tick (u : UpstreamSession) (now elapsedAt ackAt : Instant) : UpstreamSession :=
  let packed := if u.pending=[] then u else u.pack
  packed.call (.pollOutbound now elapsedAt ackAt)

/-- Header part of a datagram: a non-zero session id is adopted, then
acknowledgements are applied. -/
def onHeader (u : UpstreamSession) (header : PacketHeader) : UpstreamSession :=
  let adopted := if header.sessionId≠0 then u.call (.sessionId header.sessionId) else u
  if ClientSession.acknowledges header=true then adopted.call (.onAckId header.ackId) else adopted

/-- A datagram of the switcher, and the payload it asks to handle. -/
def onDatagram (u : UpstreamSession) (data : Bytes) (clock : Instant) :
    UpstreamSession×Option Bytes :=
  let heard := u.call (.noteRecv clock)
  match decodePacket data with
  | .error _ => (heard,none)
  | .ok (header,payload) =>
    let known := heard.onHeader header
    if isHandshakePacket header.flags=true then (known,none)
    else if header.flags.ackRequest=true then
      let accepted :=
        (known.ledger.endpoint.acceptReliable header.packetId header.flags.isRetransmit).2
      (known.call (.acceptReliable header.packetId header.flags.isRetransmit),
        if accepted=true ∧ payload≠[] then some payload else none)
    else (known,if payload≠[] then some payload else none)

/-- Retransmit request that a datagram of the switcher is answered with. -/
def retransmit (u : UpstreamSession) (data : Bytes) (clock : Instant) : Option Bytes :=
  match decodePacket data with
  | .error _ => none
  | .ok (header,_) =>
    let known := (u.call (.noteRecv clock)).onHeader header
    if isHandshakePacket header.flags=true then none
    else if header.flags.ackRequest=true then
      let result :=
        known.ledger.endpoint.acceptReliable header.packetId header.flags.isRetransmit
      if result.2=true then none else some result.1.buildRetransmitRequest
    else none

/-- A session starts with the endpoint of its handshake and nothing else. -/
theorem connect_eq {reply : Bytes} {clock : Instant} {u : UpstreamSession}
    (h : connect reply clock=some u) : ∃ header : PacketHeader,
      u=⟨.start ((ReliableEndpoint.forUpstream header.sessionId header.packetId
        clock).buildAckPacket clock).1,[],false,[]⟩ := by
  unfold connect at h
  split at h
  · cases h
  · rename_i header payload _
    dsimp only at h
    split at h
    · cases h
      exact ⟨header,rfl⟩
    · cases h

/-- The payload handed on is that of the datagram. -/
theorem onDatagram_payload {u : UpstreamSession} {data payload : Bytes} {clock : Instant}
    (h : (u.onDatagram data clock).2=some payload) :
    ∃ header, decodePacket data=.ok (header,payload) := by
  unfold onDatagram at h
  dsimp only at h
  split at h
  · cases h
  · rename_i header own hdecode
    split at h
    · cases h
    · split at h <;> dsimp only at h <;> split at h <;> cases h
      · exact ⟨header,hdecode⟩
      · exact ⟨header,hdecode⟩

end UpstreamSession

/-- A property of sessions that is kept by calls that queue nothing and by the
packing of the pending commands, and that does not read the draining flag. -/
structure SessionRule (P : UpstreamSession → Prop) : Prop where
  /-- Calls that queue nothing. -/
  call : ∀ {u},P u → ∀ {c : EndpointCall},c.silent=true → P (u.call c)
  /-- Packing. -/
  pack : ∀ {u},P u → P u.pack
  /-- The flag is not read. -/
  flag : ∀ {u},P u → ∀ draining,P {u with draining := draining}

section Rules

variable {P : UpstreamSession → Prop}

/-- A header is handled by calls that queue nothing. -/
theorem SessionRule.onHeader (h : SessionRule P) {u : UpstreamSession} (hu : P u)
    (header : PacketHeader) : P (u.onHeader header) := by
  have hadopted : P (if header.sessionId≠0 then u.call (.sessionId header.sessionId) else u) := by
    split
    · exact h.call hu rfl
    · exact hu
  unfold UpstreamSession.onHeader
  dsimp only
  split
  · exact h.call hadopted rfl
  · exact hadopted

/-- So is a datagram of the switcher. -/
theorem SessionRule.onDatagram (h : SessionRule P) {u : UpstreamSession} (hu : P u)
    (data : Bytes) (clock : Instant) : P (u.onDatagram data clock).1 := by
  have hheard : P (u.call (.noteRecv clock)) := h.call hu rfl
  unfold UpstreamSession.onDatagram
  dsimp only
  split
  · exact hheard
  · rename_i header payload _
    have hknown := h.onHeader hheard header
    split
    · exact hknown
    · split
      · exact h.call hknown rfl
      · exact hknown

/-- The command that wakes a session is taken like any other. -/
theorem SessionRule.wake (h : SessionRule P) {u : UpstreamSession} {cmd : Command} (hu : P u)
    (htaken : P (u.take cmd)) : P (u.wake cmd) := by
  unfold UpstreamSession.wake
  split
  · exact h.flag htaken true
  · exact hu

/-- A flush packs and polls. -/
theorem SessionRule.flush (h : SessionRule P) {u : UpstreamSession} (hu : P u)
    (now elapsedAt ackAt : Instant) : P (u.flush now elapsedAt ackAt) :=
  h.flag (h.call (h.pack hu) rfl) false

/-- A tick packs and polls. -/
theorem SessionRule.tick (h : SessionRule P) {u : UpstreamSession} (hu : P u)
    (now elapsedAt ackAt : Instant) : P (u.tick now elapsedAt ackAt) := by
  unfold UpstreamSession.tick
  dsimp only
  split
  · exact h.call hu rfl
  · exact h.call (h.pack hu) rfl

end Rules

end AtemProxy.UpstreamSessions
