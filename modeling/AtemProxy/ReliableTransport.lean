import AtemProxy.PacketCodec

/-!
# One endpoint of the reliable datagram protocol

Fifteen-bit packet ids, a bounded in-flight window, cumulative
acknowledgements and whole-window retransmission. Instants and durations
are natural numbers of one common unit; every clock reading of the source
is a parameter, so a run may read arbitrary times.
-/

namespace AtemProxy.ReliableTransport

open BigEndian PacketCodec

/-- Point in time; subtraction saturates as it does for monotonic instants. -/
abbrev Instant := ℕ

/-- Packet ids are taken modulo this value. -/
def maxPacketId : UInt16 := 32768

/-- Timing and window settings; durations are milliseconds. -/
structure ReliableConfig where
  /-- Reliable packets that may await an acknowledgement. -/
  maxInFlight : ℕ := 32
  /-- Age of the oldest packet at which the window is sent again. -/
  retransmitAfter : ℕ := 30
  /-- Accepted packets that force an acknowledgement. -/
  ackCoalesceCount : ℕ := 16
  /-- Age of the last acknowledgement that allows a new one. -/
  ackCoalesceAfter : ℕ := 5
  /-- Pause between keepalive packets. -/
  pingInterval : ℕ := 100
  /-- Silence after which an upstream session is given up. -/
  idleTimeout : ℕ := 1000
  deriving DecidableEq

/-- Successor in the fifteen-bit id space, with sixteen-bit addition. -/
def nextPacketId (current : UInt16) : UInt16 := (current+1)%maxPacketId

/-- Ids count modulo the ring. -/
theorem nextPacketId_toNat (current : UInt16) :
    (nextPacketId current).toNat=(current.toNat+1)%32768 := by
  unfold nextPacketId maxPacketId
  rw [UInt16.toNat_mod,UInt16.toNat_add]
  change (current.toNat+1)%65536%32768=_
  omega

/-- Wrap-aware test whether an acknowledgement covers a packet; the signed
remainder truncates towards zero. -/
def isAckCovering (ackId packetId : UInt16) : Bool :=
  if ackId=packetId then true
  else decide (((ackId.toNat : ℤ)-(packetId.toNat : ℤ)+32768).tmod 32768<256)

/-- Reliable packet awaiting its acknowledgement. -/
structure InFlightEntry where
  /-- Wire id of the packet. -/
  packetId : UInt16
  /-- Datagram as first sent. -/
  bytes : Bytes
  /-- Time of the last transmission. -/
  sentAt : Instant
  deriving DecidableEq

/-- Receive-side sequence and acknowledgement state. -/
structure AckState where
  /-- Last accepted packet id. -/
  highestRecv : Option UInt16 := none
  /-- Next packet id to accept. -/
  expectedRecv : UInt16 := 0
  /-- Time of the last acknowledgement. -/
  lastAckSentAt : Option Instant := none
  /-- Packets accepted since then, saturating at sixteen bits. -/
  packetsSinceAck : ℕ := 0
  deriving DecidableEq

/-- Reliable state of one connection, client or server role. -/
structure ReliableEndpoint where
  /-- Session id written into every header. -/
  sessionId : UInt16
  /-- Id of the next reliable packet. -/
  nextSendId : UInt16
  /-- Timing and window settings. -/
  config : ReliableConfig
  /-- Packets awaiting acknowledgement, oldest first. -/
  inFlight : List InFlightEntry
  /-- Payloads not yet sent, oldest first. -/
  outbound : List Bytes
  /-- Receive side. -/
  ack : AckState
  /-- Time of the last received datagram. -/
  lastRecvAt : Instant
  /-- Time of the last keepalive. -/
  lastPingAt : Instant
  /-- Keepalives are allowed. -/
  opened : Bool
  deriving DecidableEq

/-- Saturating increment of a sixteen-bit counter. -/
def saturatingSucc16 (n : ℕ) : ℕ := min (n+1) 65535

namespace ReliableEndpoint

/-- Endpoint at the start of a session. -/
def new (sessionId : UInt16) (config : ReliableConfig) (clock : Instant) : ReliableEndpoint :=
  ⟨sessionId,0,config,[],[],{},clock,clock,false⟩

/-- Endpoint of a client session after the HELLO: the first packets of both
directions have id one. -/
def forSession (sessionId : UInt16) (clock : Instant) : ReliableEndpoint :=
  {new sessionId {idleTimeout := 5000} clock with nextSendId := 1, ack := {expectedRecv := 1}}

/-- Endpoint of the upstream session after the HELLO reply with this packet
id; the reply itself is acknowledged at once. -/
def forUpstream (sessionId helloId : UInt16) (clock : Instant) : ReliableEndpoint :=
  {new sessionId {} clock with
    nextSendId := 1
    ack := {highestRecv := some helloId, expectedRecv := nextPacketId helloId}}

/-- Remember when a datagram arrived. -/
def noteRecv (ep : ReliableEndpoint) (clock : Instant) : ReliableEndpoint :=
  {ep with lastRecvAt := clock}

/-- Queue one payload. -/
def queuePayload (ep : ReliableEndpoint) (payload : Bytes) : ReliableEndpoint :=
  {ep with outbound := ep.outbound++[payload]}

end ReliableEndpoint

/-- Pack commands into payloads below the packing limit. The accumulator
holds the payload under construction; an oversized command goes out alone. -/
def packLoop (current : Bytes) : List Bytes → List Bytes
  | [] => if current=[] then [] else [current]
  | cmd::cmds =>
    if headerLen+current.length+cmd.length>maxPacketLen ∧ current≠[] then
      if headerLen+cmd.length>maxPacketLen then current::cmd::packLoop [] cmds
      else current::packLoop cmd cmds
    else if headerLen+cmd.length>maxPacketLen then cmd::packLoop current cmds
    else packLoop (current++cmd) cmds

/-- Payloads that carry the commands. -/
def packCommands (cmds : List Bytes) : List Bytes := packLoop [] cmds

/-- No batch is longer than the limit or a single command. -/
theorem packLoop_length_le {limit : ℕ} (hlimit : 1388≤limit) {cmds : List Bytes}
    (h : ∀ cmd ∈ cmds, cmd.length≤limit) {current : Bytes} (hc : current.length≤1388) :
    ∀ payload ∈ packLoop current cmds, payload.length≤limit := by
  induction cmds generalizing current with
  | nil =>
    intro payload hm
    rw [packLoop] at hm
    split at hm
    · exact absurd hm List.not_mem_nil
    · rw [List.mem_singleton.mp hm]
      omega
  | cons cmd cmds ih =>
    have hcmd := h cmd List.mem_cons_self
    have hcmds : ∀ c ∈ cmds, c.length≤limit := fun c hm => h c (List.mem_cons_of_mem _ hm)
    intro payload hm
    rw [packLoop] at hm
    unfold headerLen maxPacketLen at hm
    split_ifs at hm with hfull hbig hlone
    · rcases List.mem_cons.mp hm with rfl | hm
      · omega
      rcases List.mem_cons.mp hm with rfl | hm
      · exact hcmd
      · exact ih hcmds (Nat.zero_le _) payload hm
    · rcases List.mem_cons.mp hm with rfl | hm
      · omega
      · exact ih hcmds (by omega) payload hm
    · rcases List.mem_cons.mp hm with rfl | hm
      · exact hcmd
      · exact ih hcmds hc payload hm
    · refine ih hcmds ?_ payload hm
      by_cases hnil : current=[]
      · rw [hnil,List.nil_append]
        omega
      · have hroom : ¬12+current.length+cmd.length>1400 := fun hgt => hfull ⟨hgt,hnil⟩
        rw [List.length_append]
        omega

/-- Packing never exceeds the larger of the packing limit and the longest
command. -/
theorem packCommands_length_le {limit : ℕ} (hlimit : 1388≤limit) {cmds : List Bytes}
    (h : ∀ cmd ∈ cmds, cmd.length≤limit) : ∀ payload ∈ packCommands cmds, payload.length≤limit :=
  packLoop_length_le hlimit h (Nat.zero_le _)

namespace ReliableEndpoint

/-- Queue commands packed into few payloads. -/
def queueCommandsPacked (ep : ReliableEndpoint) (cmds : List Bytes) : ReliableEndpoint :=
  {ep with outbound := ep.outbound++packCommands cmds}

/-- Remove covered packets from the front of the window. -/
def onAckId (ep : ReliableEndpoint) (ackId : UInt16) : ReliableEndpoint :=
  {ep with inFlight := ep.inFlight.dropWhile (fun entry => isAckCovering ackId entry.packetId)}

/-- Accept the expected packet. A repeated packet that was seen before and
a packet out of order are told apart, and both are refused. -/
def acceptReliable (ep : ReliableEndpoint) (packetId : UInt16) (isRetransmit : Bool) :
    ReliableEndpoint×Bool :=
  if packetId=ep.ack.expectedRecv then
    ({ep with ack := {ep.ack with
        expectedRecv := nextPacketId ep.ack.expectedRecv
        highestRecv := some packetId
        packetsSinceAck := saturatingSucc16 ep.ack.packetsSinceAck}},true)
  else if isRetransmit=true ∧
      isAckCovering ((ep.ack.expectedRecv-1)%maxPacketId) packetId=true then (ep,false)
  else (ep,false)

/-- Whether an acknowledgement is due. -/
def shouldSendAck (ep : ReliableEndpoint) (clock : Instant) : Bool :=
  match ep.ack.highestRecv with
  | none => false
  | some _ =>
    if ep.config.ackCoalesceCount≤ep.ack.packetsSinceAck then true
    else match ep.ack.lastAckSentAt with
      | none => decide (0<ep.ack.packetsSinceAck)
      | some t => decide (0<ep.ack.packetsSinceAck ∧ ep.config.ackCoalesceAfter ≤ clock-t)

/-- Header of an acknowledgement. -/
def ackHeader (sessionId ackId : UInt16) : PacketHeader :=
  {PacketHeader.new {ackReply := true} sessionId 12 with ackId := ackId}

/-- Build an acknowledgement of the last accepted packet. -/
def buildAckPacket (ep : ReliableEndpoint) (clock : Instant) :
    ReliableEndpoint×Option Bytes :=
  match ep.ack.highestRecv with
  | none => (ep,none)
  | some ackId =>
    ({ep with ack := {ep.ack with packetsSinceAck := 0, lastAckSentAt := some clock}},
      some (encodePacket (ackHeader ep.sessionId ackId) []))

/-- Ask the peer for the next expected packet. -/
def buildRetransmitRequest (ep : ReliableEndpoint) : Bytes :=
  encodePacket {PacketHeader.new {retransmitRequest := true} ep.sessionId 12 with
    retransmitRequest := ep.ack.expectedRecv} []

/-- Header of a reliable packet. -/
def dataHeader (sessionId packetId : UInt16) (payload : Bytes) : PacketHeader :=
  {PacketHeader.new {ackRequest := true} sessionId (UInt16.ofNat (headerLen+payload.length)) with
    packetId := packetId}

/-- Send one reliable packet: take the next id and put it into the window. -/
def sendReliable (ep : ReliableEndpoint) (payload : Bytes) (now : Instant) :
    ReliableEndpoint×Bytes :=
  let bytes := encodePacket (dataHeader ep.sessionId ep.nextSendId payload) payload
  ({ep with
      nextSendId := nextPacketId ep.nextSendId
      inFlight := ep.inFlight++[⟨ep.nextSendId,bytes,now⟩]},bytes)

/-- Send the whole window again when its oldest packet is stale. -/
def retransmitPhase (ep : ReliableEndpoint) (now : Instant) : ReliableEndpoint×List Bytes :=
  match ep.inFlight with
  | [] => (ep,[])
  | oldest::_ =>
    if ep.config.retransmitAfter≤now-oldest.sentAt then
      ({ep with inFlight := ep.inFlight.map (fun entry => {entry with sentAt := now})},
        ep.inFlight.map (fun entry => patchRetransmit entry.bytes))
    else (ep,[])

/-- Send queued payloads while the window has room. -/
def refillLoop (now : Instant) : List Bytes → ReliableEndpoint → ReliableEndpoint×List Bytes
  | [],ep => ({ep with outbound := []},[])
  | payload::queue,ep =>
    if ep.inFlight.length<ep.config.maxInFlight then
      let sent := ep.sendReliable payload now
      let others := refillLoop now queue sent.1
      (others.1,sent.2::others.2)
    else ({ep with outbound := payload::queue},[])

/-- New reliable packets of one poll. -/
def refillPhase (ep : ReliableEndpoint) (now : Instant) : ReliableEndpoint×List Bytes :=
  refillLoop now ep.outbound ep

/-- Acknowledgement of one poll. The two readings of the clock are
separate calls in the source. -/
def ackPhase (ep : ReliableEndpoint) (elapsedAt ackAt : Instant) : ReliableEndpoint×List Bytes :=
  if ep.shouldSendAck elapsedAt=true then
    let built := ep.buildAckPacket ackAt
    (built.1,built.2.toList)
  else (ep,[])

/-- Keepalive of one poll, only while nothing reliable is outstanding. -/
def pingPhase (ep : ReliableEndpoint) (now : Instant) : ReliableEndpoint×List Bytes :=
  if ep.opened=true ∧ ep.inFlight=[] ∧ ep.outbound=[] ∧
      ep.config.pingInterval≤now-ep.lastPingAt then
    let sent := ep.sendReliable [] now
    ({sent.1 with lastPingAt := now},[sent.2])
  else (ep,[])

/-- Next outbound datagrams: retransmits, new packets, acknowledgement, keepalive. -/
def pollOutbound (ep : ReliableEndpoint) (now elapsedAt ackAt : Instant) :
    ReliableEndpoint×List Bytes :=
  let repeated := ep.retransmitPhase now
  let refilled := repeated.1.refillPhase now
  let acked := refilled.1.ackPhase elapsedAt ackAt
  let pinged := acked.1.pingPhase now
  (pinged.1,repeated.2++refilled.2++acked.2++pinged.2)

/-- A packet that is not the expected one changes nothing. -/
theorem acceptReliable_of_ne {ep : ReliableEndpoint} {packetId : UInt16}
    (h : packetId≠ep.ack.expectedRecv) (isRetransmit : Bool) :
    ep.acceptReliable packetId isRetransmit=(ep,false) := by
  unfold acceptReliable
  rw [if_neg h,ite_self]

/-- Silence longer than the idle timeout. -/
def isTimedOut (ep : ReliableEndpoint) (clock : Instant) : Bool :=
  decide (ep.config.idleTimeout < clock-ep.lastRecvAt)

end ReliableEndpoint

/-- A relation between an endpoint and what it becomes and emits that phases keep
when they run one after the other, and that reads neither the queue nor the time
of the last keepalive. -/
structure PhaseRule (R : ReliableEndpoint → ReliableEndpoint×List Bytes → Prop) : Prop where
  /-- Nothing happens. -/
  refl : ∀ ep,R ep (ep,[])
  /-- The queue and the time of the keepalive are not read. -/
  fields : ∀ {ep result},R ep result → ∀ outbound lastPingAt,
    R ep ({result.1 with outbound := outbound, lastPingAt := lastPingAt},result.2)
  /-- One phase after the other. -/
  trans : ∀ {ep} {first second : ReliableEndpoint×List Bytes},R ep first → R first.1 second →
    R ep (second.1,first.2++second.2)

/-- Every single transmission into a window with room obeys the relation. -/
def Sends (R : ReliableEndpoint → ReliableEndpoint×List Bytes → Prop) (now : Instant) : Prop :=
  ∀ ep payload,ep.inFlight.length<ep.config.maxInFlight ∨ ep.inFlight=[] →
    R ep ((ep.sendReliable payload now).1,[(ep.sendReliable payload now).2])

section Phases

variable {R : ReliableEndpoint → ReliableEndpoint×List Bytes → Prop} {now : Instant}

/-- The refill is a chain of transmissions. -/
theorem PhaseRule.refillLoop (h : PhaseRule R) (hsend : Sends R now) (queue : List Bytes)
    (ep : ReliableEndpoint) : R ep (ReliableEndpoint.refillLoop now queue ep) := by
  induction queue generalizing ep with
  | nil => exact h.fields (h.refl ep) [] ep.lastPingAt
  | cons payload queue ih =>
    rw [ReliableEndpoint.refillLoop]
    split
    · rename_i hroom
      exact h.trans (hsend ep payload (Or.inl hroom)) (ih _)
    · exact h.fields (h.refl ep) (payload::queue) ep.lastPingAt

/-- A keepalive is one transmission or none. -/
theorem PhaseRule.pingPhase (h : PhaseRule R) (hsend : Sends R now) (ep : ReliableEndpoint) :
    R ep (ep.pingPhase now) := by
  unfold ReliableEndpoint.pingPhase
  split
  · rename_i hidle
    exact h.fields (hsend ep [] (Or.inr hidle.2.1)) _ now
  · exact h.refl ep

/-- A poll sends its repetitions, and what it does after them obeys the rule when
transmissions and the acknowledgement do. -/
theorem PhaseRule.poll (h : PhaseRule R) (hsend : Sends R now) {elapsedAt ackAt : Instant}
    (hack : ∀ ep : ReliableEndpoint,R ep (ep.ackPhase elapsedAt ackAt)) (ep : ReliableEndpoint) :
    ∃ later,(ep.pollOutbound now elapsedAt ackAt).2=(ep.retransmitPhase now).2++later ∧
      R (ep.retransmitPhase now).1 ((ep.pollOutbound now elapsedAt ackAt).1,later) := by
  have hrefilled := h.refillLoop hsend (ep.retransmitPhase now).1.outbound
    (ep.retransmitPhase now).1
  have hrest := h.trans (h.trans hrefilled (hack _)) (h.pingPhase hsend _)
  refine ⟨_,?_,hrest⟩
  unfold ReliableEndpoint.pollOutbound ReliableEndpoint.refillPhase
  dsimp only
  rw [List.append_assoc,List.append_assoc,List.append_assoc]

end Phases

/-- Phases of a poll open nothing. -/
theorem phaseRule_opened :
    PhaseRule (fun ep result => result.1.opened=ep.opened) where
  refl _ := rfl
  fields h _ _ := h
  trans h h' := h'.trans h

/-- A poll opens nothing. -/
theorem pollOutbound_opened (ep : ReliableEndpoint) (now elapsedAt ackAt : Instant) :
    (ep.pollOutbound now elapsedAt ackAt).1.opened=ep.opened := by
  have hack : ∀ ep : ReliableEndpoint,(ep.ackPhase elapsedAt ackAt).1.opened=ep.opened := by
    intro ep
    unfold ReliableEndpoint.ackPhase ReliableEndpoint.buildAckPacket
    split
    · split <;> rfl
    · rfl
  have hrepeated : (ep.retransmitPhase now).1.opened=ep.opened := by
    unfold ReliableEndpoint.retransmitPhase
    split
    · rfl
    · split <;> rfl
  have hsend : Sends (fun ep result => result.1.opened=ep.opened) now := fun _ _ _ => rfl
  obtain ⟨_,_,hrule⟩ := phaseRule_opened.poll hsend hack ep
  exact hrule.trans hrepeated

end AtemProxy.ReliableTransport
