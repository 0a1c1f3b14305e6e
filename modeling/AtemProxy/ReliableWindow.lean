import AtemProxy.ReliableTransport

/-!
# Absolute packet numbers of one endpoint

Wire ids count modulo `2^15`. The n-th packet ever sent has id `n` in that
ring, and so do the acknowledgements of the n-th packet ever accepted. The
send side is described by the packets sent and those already removed by
acknowledgements, the receive side by the packets accepted. While a datagram
is at most `2^15-512` packets behind the sender, its id determines its number.
-/

namespace AtemProxy.ReliableWindow

open BigEndian PacketCodec ReliableTransport

/-- A reliable packet as the wire carries it. -/
structure Packet where
  /-- Wire id. -/
  packetId : UInt16
  /-- Payload after the length clamp. -/
  payload : Bytes
  deriving DecidableEq

/-- A packet keeps its number when more are sent. -/
theorem getElem?_extended {sent sent' : List Packet} (hpre : sent<+:sent') {i : ℕ}
    {packet : Packet} (h : sent[i]?=some packet) : sent'[i]?=some packet := by
  obtain ⟨later,rfl⟩ := hpre
  rw [List.getElem?_append_left (List.getElem?_eq_some_iff.mp h).1]
  exact h

/-- Payload inside a datagram; a datagram that does not decode has none. -/
def payloadIn (bytes : Bytes) : Bytes :=
  match decodePacket bytes with
  | .ok (_,payload) => payload
  | .error _ => []

/-- Packet held by a window entry. -/
def packetOf (entry : InFlightEntry) : Packet := ⟨entry.packetId,payloadIn entry.bytes⟩

/-- The datagram carries this reliable packet, first sent or repeated. -/
def Carries (bytes : Bytes) (packet : Packet) : Prop :=
  ∃ header, decodePacket bytes=.ok (header,packet.payload) ∧ header.packetId=packet.packetId ∧
    header.flags.ackRequest=true ∧ header.flags.ackReply=false ∧ header.ackId=0

/-- The datagram is a bare acknowledgement of this wire id. -/
def Acknowledges (bytes : Bytes) (ackId : UInt16) : Prop :=
  ∃ header, decodePacket bytes=.ok (header,[]) ∧ header.ackId=ackId ∧
    header.flags.ackRequest=false ∧ header.flags.ackReply=true

/-- The datagram neither carries a packet nor acknowledges one. -/
def Silent (bytes : Bytes) : Prop :=
  ∃ header, decodePacket bytes=.ok (header,[]) ∧ header.ackId=0 ∧
    header.flags.ackRequest=false ∧ header.flags.ackReply=false

/-- The entry holds the datagram built for its id. -/
def Framed (entry : InFlightEntry) : Prop :=
  ∃ sessionId raw, entry.bytes=
    encodePacket (ReliableEndpoint.dataHeader sessionId entry.packetId raw) raw

/-- A datagram carries what is sent of its payload. -/
theorem payloadIn_encodePacket (header : PacketHeader) (payload : Bytes) :
    payloadIn (encodePacket header payload)=wirePayload payload := by
  unfold payloadIn
  rw [decodePacket_encodePacket]

/-- A window entry carries its packet. -/
theorem Framed.carries {entry : InFlightEntry} (h : Framed entry) :
    Carries entry.bytes (packetOf entry) := by
  obtain ⟨sessionId,raw,hb⟩ := h
  unfold packetOf
  rw [hb,payloadIn_encodePacket]
  exact ⟨_,decodePacket_encodePacket _ _,rfl,rfl,rfl,rfl⟩

/-- Repeating a window entry carries the same packet. -/
theorem Framed.patch_carries {entry : InFlightEntry} (h : Framed entry) :
    Carries (patchRetransmit entry.bytes) (packetOf entry) := by
  obtain ⟨sessionId,raw,hb⟩ := h
  unfold packetOf
  rw [hb,payloadIn_encodePacket,patchRetransmit_encodePacket]
  exact ⟨_,decodePacket_encodePacket _ _,rfl,rfl,rfl,rfl⟩

/-- A standalone acknowledgement acknowledges its id. -/
theorem ackHeader_acknowledges (sessionId ackId : UInt16) :
    Acknowledges (encodePacket (ReliableEndpoint.ackHeader sessionId ackId) []) ackId :=
  ⟨_,decodePacket_encodePacket _ _,rfl,rfl,rfl⟩

/-- A request to retransmit neither carries a packet nor acknowledges one. -/
theorem buildRetransmitRequest_silent (ep : ReliableEndpoint) :
    Silent ep.buildRetransmitRequest :=
  ⟨_,decodePacket_encodePacket _ _,rfl,rfl,rfl⟩

/-- Every entry of the window is framed. -/
def AllFramed (ep : ReliableEndpoint) : Prop := ∀ entry∈ep.inFlight,Framed entry

/-- A datagram of a poll carries a packet of the window left behind, or
acknowledges the last accepted id. -/
def Emission (window : List InFlightEntry) (highest : Option UInt16) (bytes : Bytes) : Prop :=
  (∃ entry∈window,Carries bytes (packetOf entry)) ∨
    ∃ ackId,highest=some ackId ∧ Acknowledges bytes ackId

/-- The window may grow meanwhile. -/
theorem Emission.mono {window window' : List InFlightEntry} {highest : Option UInt16}
    {bytes : Bytes} (h : Emission window highest bytes)
    (hsub : window.map packetOf<+:window'.map packetOf) : Emission window' highest bytes := by
  rcases h with ⟨entry,hmem,hc⟩ | hack
  · obtain ⟨entry',hmem',heq⟩ := List.mem_map.mp (hsub.subset (List.mem_map_of_mem hmem))
    exact Or.inl ⟨entry',hmem',by rw [heq]; exact hc⟩
  · exact Or.inr hack

/-- Effect of one poll phase on everything but the clock fields: the window
only grows, the sequence state of the receive side stays, and each datagram
is accounted for by the window left behind or by the id it may acknowledge. -/
structure Phase (acks : Option UInt16) (ep : ReliableEndpoint)
    (result : ReliableEndpoint×List Bytes) : Prop where
  /-- Framing is kept. -/
  framed : AllFramed ep → AllFramed result.1
  /-- Packets are appended to the window. -/
  grows : ep.inFlight.map packetOf<+:result.1.inFlight.map packetOf
  /-- Next expected id. -/
  expected : result.1.ack.expectedRecv=ep.ack.expectedRecv
  /-- Last accepted id. -/
  highest : result.1.ack.highestRecv=ep.ack.highestRecv
  /-- Acknowledging only resets the counter. -/
  sinceAck : result.1.ack.packetsSinceAck≤ep.ack.packetsSinceAck
  /-- Settings. -/
  config : result.1.config=ep.config
  /-- Emitted datagrams. -/
  emits : AllFramed ep → ∀ bytes∈result.2,Emission result.1.inFlight acks bytes

variable {acks : Option UInt16}

/-- A phase that does nothing. -/
theorem Phase.refl (ep : ReliableEndpoint) : Phase acks ep (ep,[]) :=
  ⟨id,List.prefix_rfl,rfl,rfl,Nat.le_refl _,rfl,fun _ _ h => absurd h List.not_mem_nil⟩

/-- Phases run one after the other. -/
theorem Phase.trans {ep mid ep' : ReliableEndpoint} {out out' : List Bytes}
    (h : Phase acks ep (mid,out)) (h' : Phase acks mid (ep',out')) :
    Phase acks ep (ep',out++out') where
  framed hf := h'.framed (h.framed hf)
  grows := h.grows.trans h'.grows
  expected := h'.expected.trans h.expected
  highest := h'.highest.trans h.highest
  sinceAck := h'.sinceAck.trans h.sinceAck
  config := h'.config.trans h.config
  emits := by
    intro hf bytes hb
    rcases List.mem_append.mp hb with hb | hb
    · exact (h.emits hf bytes hb).mono h'.grows
    · exact h'.emits (h.framed hf) bytes hb

/-- A retransmission changes times only. -/
theorem map_packetOf_resent (window : List InFlightEntry) (now : Instant) :
    (window.map (fun entry => {entry with sentAt := now})).map packetOf=window.map packetOf := by
  rw [List.map_map]
  rfl

/-- A retransmission repeats the window. -/
theorem retransmitPhase_phase (ep : ReliableEndpoint) (now : Instant) :
    Phase acks ep (ep.retransmitPhase now) := by
  unfold ReliableEndpoint.retransmitPhase
  split
  · exact Phase.refl ep
  · split
    · constructor
      · intro hf entry hmem
        obtain ⟨old,hold,rfl⟩ := List.mem_map.mp hmem
        exact hf old hold
      · dsimp only
        rw [map_packetOf_resent]
      · rfl
      · rfl
      · exact Nat.le_refl _
      · rfl
      · intro hf bytes hb
        obtain ⟨old,hold,rfl⟩ := List.mem_map.mp hb
        exact Or.inl ⟨{old with sentAt := now},List.mem_map.mpr ⟨old,hold,rfl⟩,
          (hf old hold).patch_carries⟩
    · exact Phase.refl ep

/-- Sending a packet appends one framed entry. -/
theorem sendReliable_phase (ep : ReliableEndpoint) (payload : Bytes) (now : Instant) :
    Phase acks ep ((ep.sendReliable payload now).1,[(ep.sendReliable payload now).2]) := by
  have hnew : Framed ⟨ep.nextSendId,encodePacket
      (ReliableEndpoint.dataHeader ep.sessionId ep.nextSendId payload) payload,now⟩ :=
    ⟨ep.sessionId,payload,rfl⟩
  constructor
  · intro hf entry hmem
    rcases List.mem_append.mp hmem with hmem | hmem
    · exact hf entry hmem
    · rw [List.mem_singleton.mp hmem]
      exact hnew
  · unfold ReliableEndpoint.sendReliable
    dsimp only
    rw [List.map_append]
    exact List.prefix_append _ _
  · rfl
  · rfl
  · exact Nat.le_refl _
  · rfl
  · intro _ bytes hb
    rw [List.mem_singleton.mp hb]
    exact Or.inl ⟨_,List.mem_append_right _ (List.mem_singleton_self _),hnew.carries⟩

/-- Changes of fields that no phase property reads. -/
theorem Phase.of_core {ep ep' ep'' : ReliableEndpoint} {out : List Bytes}
    (h : Phase acks ep (ep',out)) (hw : ep''.inFlight=ep'.inFlight) (ha : ep''.ack=ep'.ack)
    (hc : ep''.config=ep'.config) : Phase acks ep (ep'',out) where
  framed hf := by unfold AllFramed; rw [hw]; exact h.framed hf
  grows := by rw [hw]; exact h.grows
  expected := by rw [ha]; exact h.expected
  highest := by rw [ha]; exact h.highest
  sinceAck := by rw [ha]; exact h.sinceAck
  config := hc.trans h.config
  emits := by rw [hw]; exact h.emits

/-- Phases of a poll follow each other. -/
theorem phaseRule_phase : PhaseRule (Phase acks) where
  refl := Phase.refl
  fields h _ _ := h.of_core rfl rfl rfl
  trans := Phase.trans

/-- The refill is one phase. -/
theorem refillLoop_phase (now : Instant) (queue : List Bytes) (ep : ReliableEndpoint) :
    Phase acks ep (ReliableEndpoint.refillLoop now queue ep) :=
  phaseRule_phase.refillLoop (fun ep payload _ => sendReliable_phase ep payload now) queue ep

/-- A standalone acknowledgement is one phase. -/
theorem buildAckPacket_phase (ep : ReliableEndpoint) (clock : Instant) :
    Phase ep.ack.highestRecv ep
      ((ep.buildAckPacket clock).1,(ep.buildAckPacket clock).2.toList) := by
  unfold ReliableEndpoint.buildAckPacket
  cases hh : ep.ack.highestRecv with
  | none => exact Phase.refl ep
  | some ackId =>
    refine ⟨id,List.prefix_rfl,rfl,rfl,Nat.zero_le _,rfl,?_⟩
    intro _ bytes hb
    rw [Option.toList_some,List.mem_singleton] at hb
    rw [hb]
    exact Or.inr ⟨ackId,rfl,ackHeader_acknowledges _ _⟩

/-- An acknowledgement leaves the send side alone. -/
theorem ackPhase_core (ep : ReliableEndpoint) (elapsedAt ackAt : Instant) :
    (ep.ackPhase elapsedAt ackAt).1.inFlight=ep.inFlight ∧
      (ep.ackPhase elapsedAt ackAt).1.nextSendId=ep.nextSendId ∧
      (ep.ackPhase elapsedAt ackAt).1.config=ep.config ∧
      (ep.ackPhase elapsedAt ackAt).1.outbound=ep.outbound := by
  unfold ReliableEndpoint.ackPhase ReliableEndpoint.buildAckPacket
  split
  · split <;> exact ⟨rfl,rfl,rfl,rfl⟩
  · exact ⟨rfl,rfl,rfl,rfl⟩

/-- The acknowledgement is one phase. -/
theorem ackPhase_phase (ep : ReliableEndpoint) (elapsedAt ackAt : Instant) :
    Phase ep.ack.highestRecv ep (ep.ackPhase elapsedAt ackAt) := by
  unfold ReliableEndpoint.ackPhase
  split
  · exact buildAckPacket_phase ep ackAt
  · exact Phase.refl ep

/-- Without an acknowledgement due nothing is acknowledged. -/
theorem ackPhase_quiet {ep : ReliableEndpoint} {elapsedAt : Instant}
    (h : ep.shouldSendAck elapsedAt=false) (ackAt : Instant) :
    Phase acks ep (ep.ackPhase elapsedAt ackAt) := by
  unfold ReliableEndpoint.ackPhase
  rw [if_neg (by rw [h]; decide)]
  exact Phase.refl ep

/-- The keepalive is one phase. -/
theorem pingPhase_phase (ep : ReliableEndpoint) (now : Instant) :
    Phase acks ep (ep.pingPhase now) :=
  phaseRule_phase.pingPhase (fun ep payload _ => sendReliable_phase ep payload now) ep

/-- A retransmission leaves the receive side alone. -/
theorem retransmitPhase_ack (ep : ReliableEndpoint) (now : Instant) :
    (ep.retransmitPhase now).1.ack=ep.ack ∧ (ep.retransmitPhase now).1.config=ep.config := by
  unfold ReliableEndpoint.retransmitPhase
  split
  · exact ⟨rfl,rfl⟩
  · split <;> exact ⟨rfl,rfl⟩

/-- The receive side and the settings stay. -/
theorem phaseRule_ack :
    PhaseRule (fun ep result => result.1.ack=ep.ack ∧ result.1.config=ep.config) where
  refl _ := ⟨rfl,rfl⟩
  fields h _ _ := h
  trans h h' := ⟨h'.1.trans h.1,h'.2.trans h.2⟩

/-- So does the refill. -/
theorem refillLoop_ack (now : Instant) (queue : List Bytes) (ep : ReliableEndpoint) :
    (ReliableEndpoint.refillLoop now queue ep).1.ack=ep.ack ∧
      (ReliableEndpoint.refillLoop now queue ep).1.config=ep.config :=
  phaseRule_ack.refillLoop (fun _ _ _ => ⟨rfl,rfl⟩) queue ep

/-- Endpoint in which a poll decides about its acknowledgement. -/
def refilled (ep : ReliableEndpoint) (now : Instant) : ReliableEndpoint :=
  ((ep.retransmitPhase now).1.refillPhase now).1

/-- That decision is the one of the polled endpoint. -/
theorem refilled_ack (ep : ReliableEndpoint) (now : Instant) :
    (refilled ep now).ack=ep.ack ∧ (refilled ep now).config=ep.config := by
  obtain ⟨ha,hc⟩ := refillLoop_ack now (ep.retransmitPhase now).1.outbound
    (ep.retransmitPhase now).1
  obtain ⟨ha',hc'⟩ := retransmitPhase_ack ep now
  exact ⟨ha.trans ha',hc.trans hc'⟩

/-- The refill does not change whether an acknowledgement is due. -/
theorem shouldSendAck_refilled (ep : ReliableEndpoint) (now elapsedAt : Instant) :
    (refilled ep now).shouldSendAck elapsedAt=ep.shouldSendAck elapsedAt := by
  obtain ⟨ha,hc⟩ := refilled_ack ep now
  unfold ReliableEndpoint.shouldSendAck
  rw [ha,hc]

/-- A whole poll is one phase around its acknowledgement. -/
theorem pollOutbound_phase_of {ep : ReliableEndpoint} {now elapsedAt ackAt : Instant}
    (h : Phase acks (refilled ep now) ((refilled ep now).ackPhase elapsedAt ackAt)) :
    Phase acks ep (ep.pollOutbound now elapsedAt ackAt) :=
  (((retransmitPhase_phase ep now).trans (refillLoop_phase now _ _)).trans h).trans
    (pingPhase_phase _ now)

/-- A poll acknowledges at most the last accepted id. -/
theorem pollOutbound_phase (ep : ReliableEndpoint) (now elapsedAt ackAt : Instant) :
    Phase ep.ack.highestRecv ep (ep.pollOutbound now elapsedAt ackAt) := by
  apply pollOutbound_phase_of
  rw [←(refilled_ack ep now).1]
  exact ackPhase_phase _ elapsedAt ackAt

/-- A poll without an acknowledgement due acknowledges nothing. -/
theorem pollOutbound_quiet {ep : ReliableEndpoint} {elapsedAt : Instant}
    (h : ep.shouldSendAck elapsedAt=false) (now ackAt : Instant) :
    Phase none ep (ep.pollOutbound now elapsedAt ackAt) := by
  apply pollOutbound_phase_of
  exact ackPhase_quiet ((shouldSendAck_refilled ep now elapsedAt).trans h) ackAt

/-- The packets sent are those already removed by acknowledgements followed
by the window; the n-th of them has wire id `n` in the ring, and the window
holds at most thirty-two. -/
structure Windowed (acked sent : List Packet) (ep : ReliableEndpoint) : Prop where
  /-- The window is what remains of the packets sent. -/
  split : sent=acked++ep.inFlight.map packetOf
  /-- Ids count up from one. -/
  numbered : ∀ i packet,sent[i]?=some packet → packet.packetId.toNat=(i+1)%32768
  /-- The next packet continues the count. -/
  next : ep.nextSendId.toNat=(sent.length+1)%32768
  /-- Window size. -/
  bounded : ep.inFlight.length≤32
  /-- Window limit. -/
  limit : ep.config.maxInFlight=32

/-- Fields that the numbers do not depend on. -/
theorem Windowed.of_core {acked sent : List Packet} {ep ep' : ReliableEndpoint}
    (h : Windowed acked sent ep) (hw : ep'.inFlight.map packetOf=ep.inFlight.map packetOf)
    (hn : ep'.nextSendId=ep.nextSendId) (hc : ep'.config=ep.config) :
    Windowed acked sent ep' where
  split := by rw [hw]; exact h.split
  numbered := h.numbered
  next := by rw [hn]; exact h.next
  bounded := by
    have hlen := congrArg List.length hw
    rw [List.length_map,List.length_map] at hlen
    rw [hlen]
    exact h.bounded
  limit := by rw [hc]; exact h.limit

/-- Every packet sent was removed or is in flight. -/
theorem Windowed.length_eq {acked sent : List Packet} {ep : ReliableEndpoint}
    (h : Windowed acked sent ep) : sent.length=acked.length+ep.inFlight.length := by
  have hlen := congrArg List.length h.split
  rwa [List.length_append,List.length_map] at hlen

/-- Sending takes the next number. -/
theorem Windowed.sendReliable {acked sent : List Packet} {ep : ReliableEndpoint}
    (h : Windowed acked sent ep) (hroom : ep.inFlight.length<32) (payload : Bytes)
    (now : Instant) :
    Windowed acked (sent++[⟨ep.nextSendId,wirePayload payload⟩])
      (ep.sendReliable payload now).1 where
  split := by
    unfold ReliableEndpoint.sendReliable
    dsimp only
    rw [List.map_append,←List.append_assoc,←h.split]
    unfold packetOf
    rw [List.map_singleton,payloadIn_encodePacket]
  numbered := by
    intro i packet hi
    rcases Nat.lt_trichotomy i sent.length with hlt | heq | hgt
    · rw [List.getElem?_append_left hlt] at hi
      exact h.numbered i packet hi
    · rw [heq,List.getElem?_concat_length] at hi
      cases hi
      rw [heq]
      exact h.next
    · rw [List.getElem?_eq_none (by rw [List.length_append,List.length_singleton]; omega)] at hi
      cases hi
  next := by
    have hn := h.next
    change (nextPacketId ep.nextSendId).toNat=_
    rw [nextPacketId_toNat,hn,List.length_append,List.length_singleton]
    omega
  bounded := by
    unfold ReliableEndpoint.sendReliable
    dsimp only
    rw [List.length_append,List.length_singleton]
    omega
  limit := h.limit

/-- Payloads that carry something. -/
def nonEmpty (payloads : List Bytes) : List Bytes := payloads.filter (fun p => decide (p≠[]))

/-- Payloads of two lists. -/
theorem nonEmpty_append (xs ys : List Bytes) : nonEmpty (xs++ys)=nonEmpty xs++nonEmpty ys :=
  List.filter_append xs ys

/-- The new packets and the payloads still waiting are the payloads that
waited before, keepalives apart. -/
def Forwards (acked sent : List Packet) (ep ep' : ReliableEndpoint) : Prop :=
  ∃ new, Windowed acked (sent++new) ep' ∧
    nonEmpty (new.map Packet.payload++ep'.outbound.map wirePayload)=
      nonEmpty (ep.outbound.map wirePayload)

/-- Changes of fields that neither the numbers nor the queue depend on. -/
theorem Windowed.forwards {acked sent : List Packet} {ep ep' : ReliableEndpoint}
    (h : Windowed acked sent ep) (hw : ep'.inFlight.map packetOf=ep.inFlight.map packetOf)
    (hn : ep'.nextSendId=ep.nextSendId) (hc : ep'.config=ep.config)
    (ho : ep'.outbound=ep.outbound) : Forwards acked sent ep ep' := by
  refine ⟨[],?_,by rw [ho]; rfl⟩
  rw [List.append_nil]
  exact h.of_core hw hn hc

/-- Phases forward one after the other. -/
theorem Forwards.trans {acked sent : List Packet} {ep mid ep' : ReliableEndpoint}
    (h : Forwards acked sent ep mid)
    (h' : ∀ sent,Windowed acked sent mid → Forwards acked sent mid ep') :
    Forwards acked sent ep ep' := by
  obtain ⟨new,hw,hq⟩ := h
  obtain ⟨new',hw',hq'⟩ := h' _ hw
  refine ⟨new++new',by rwa [←List.append_assoc],?_⟩
  rw [List.map_append,List.append_assoc,nonEmpty_append,hq',←nonEmpty_append,hq]

/-- A retransmission sends nothing new. -/
theorem retransmitPhase_forwards {acked sent : List Packet} {ep : ReliableEndpoint}
    (h : Windowed acked sent ep) (now : Instant) :
    Forwards acked sent ep (ep.retransmitPhase now).1 := by
  unfold ReliableEndpoint.retransmitPhase
  split
  · exact h.forwards rfl rfl rfl rfl
  · split
    · exact h.forwards (map_packetOf_resent _ now) rfl rfl rfl
    · exact h.forwards rfl rfl rfl rfl

/-- The refill sends queued payloads in order. -/
theorem refillLoop_windowed {acked sent : List Packet} {ep : ReliableEndpoint}
    (h : Windowed acked sent ep) (now : Instant) (queue : List Bytes) :
    ∃ new, Windowed acked (sent++new) (ReliableEndpoint.refillLoop now queue ep).1 ∧
      new.map Packet.payload++
        (ReliableEndpoint.refillLoop now queue ep).1.outbound.map wirePayload=
          queue.map wirePayload := by
  induction queue generalizing sent ep with
  | nil =>
    refine ⟨[],?_,rfl⟩
    rw [List.append_nil]
    exact h.of_core rfl rfl rfl
  | cons payload queue ih =>
    rw [ReliableEndpoint.refillLoop]
    split
    · rename_i hroom
      rw [h.limit] at hroom
      obtain ⟨new,hw,hq⟩ := ih (h.sendReliable hroom payload now)
      refine ⟨⟨ep.nextSendId,wirePayload payload⟩::new,?_,?_⟩
      · rwa [←List.append_cons] at hw
      · rw [List.map_cons,List.cons_append,List.map_cons]
        dsimp only
        rw [hq]
    · refine ⟨[],?_,rfl⟩
      rw [List.append_nil]
      exact h.of_core rfl rfl rfl

/-- The refill sends what was queued. -/
theorem refillPhase_forwards {acked sent : List Packet} {ep : ReliableEndpoint}
    (h : Windowed acked sent ep) (now : Instant) :
    Forwards acked sent ep (ep.refillPhase now).1 := by
  obtain ⟨new,hw,hq⟩ := refillLoop_windowed h now ep.outbound
  exact ⟨new,hw,congrArg nonEmpty hq⟩

/-- An acknowledgement sends no packet. -/
theorem ackPhase_forwards {acked sent : List Packet} {ep : ReliableEndpoint}
    (h : Windowed acked sent ep) (elapsedAt ackAt : Instant) :
    Forwards acked sent ep (ep.ackPhase elapsedAt ackAt).1 := by
  unfold ReliableEndpoint.ackPhase
  split
  · unfold ReliableEndpoint.buildAckPacket
    split
    · exact h.forwards rfl rfl rfl rfl
    · exact h.forwards rfl rfl rfl rfl
  · exact h.forwards rfl rfl rfl rfl

/-- A keepalive is a numbered packet with an empty payload. -/
theorem pingPhase_forwards {acked sent : List Packet} {ep : ReliableEndpoint}
    (h : Windowed acked sent ep) (now : Instant) :
    Forwards acked sent ep (ep.pingPhase now).1 := by
  unfold ReliableEndpoint.pingPhase
  split
  · rename_i hping
    have hroom : ep.inFlight.length<32 := by
      rw [hping.2.1]
      exact Nat.zero_lt_succ 31
    exact ⟨_,(h.sendReliable hroom [] now).of_core rfl rfl rfl,rfl⟩
  · exact h.forwards rfl rfl rfl rfl

/-- A poll sends what was queued, and maybe a keepalive. -/
theorem pollOutbound_forwards {acked sent : List Packet} {ep : ReliableEndpoint}
    (h : Windowed acked sent ep) (now elapsedAt ackAt : Instant) :
    Forwards acked sent ep (ep.pollOutbound now elapsedAt ackAt).1 :=
  (((retransmitPhase_forwards h now).trans
    (fun _ hw => refillPhase_forwards hw now)).trans
    (fun _ hw => ackPhase_forwards hw elapsedAt ackAt)).trans
    (fun _ hw => pingPhase_forwards hw now)

/-- For ids of the ring, covering is a distance below 256 in the ring. -/
theorem isAckCovering_iff {ackId packetId : UInt16} (h : packetId.toNat<32768) :
    isAckCovering ackId packetId=true ↔
      (ackId.toNat+32768-packetId.toNat)%32768<256 := by
  have ha := ackId.toNat_lt
  unfold isAckCovering
  split
  · rename_i heq
    rw [heq]
    simp only [true_iff]
    omega
  · rw [decide_eq_true_eq,Int.tmod_eq_emod_of_nonneg (by omega)]
    omega

/-- Dropping while below a threshold index is dropping that many. -/
theorem dropWhile_eq_drop {α : Type} (p : α → Bool) (xs : List α) (k : ℕ)
    (h : ∀ i x,xs[i]?=some x → (p x=true ↔ i<k)) : xs.dropWhile p=xs.drop k := by
  induction xs generalizing k with
  | nil => rw [List.dropWhile_nil,List.drop_nil]
  | cons x xs ih =>
    have hx := h 0 x rfl
    cases k with
    | zero =>
      rw [List.dropWhile_cons_of_neg (by rw [hx]; exact Nat.lt_irrefl 0),List.drop_zero]
    | succ k =>
      rw [List.dropWhile_cons_of_pos (hx.mpr (Nat.zero_lt_succ k)),List.drop_succ_cons]
      apply ih
      intro i y hy
      rw [h (i+1) y hy]
      omega

/-- A window entry has the number of its place. -/
theorem Windowed.entry_number {acked sent : List Packet} {ep : ReliableEndpoint}
    (h : Windowed acked sent ep) {i : ℕ} {entry : InFlightEntry}
    (hi : ep.inFlight[i]?=some entry) :
    sent[acked.length+i]?=some (packetOf entry) ∧
      entry.packetId.toNat=(acked.length+i+1)%32768 := by
  have hs : sent[acked.length+i]?=some (packetOf entry) := by
    rw [h.split,List.getElem?_append_right (Nat.le_add_right _ _),Nat.add_sub_cancel_left,
      List.getElem?_map,hi,Option.map_some]
  exact ⟨hs,h.numbered _ _ hs⟩

/-- An acknowledgement of packet `n` that is fresh enough removes exactly
the packets up to `n`. -/
theorem Windowed.onAckId_inFlight {acked sent : List Packet} {ep : ReliableEndpoint}
    (h : Windowed acked sent ep) {n : ℕ} {ackId : UInt16} (hn : n ≤ sent.length)
    (hfresh : sent.length≤n+32256) (hid : ackId.toNat%32768=n%32768) :
    (ep.onAckId ackId).inFlight=ep.inFlight.drop (n-acked.length) := by
  unfold ReliableEndpoint.onAckId
  dsimp only
  apply dropWhile_eq_drop
  intro i entry hi
  have hlen := h.length_eq
  have hilt : i<ep.inFlight.length := (List.getElem?_eq_some_iff.mp hi).1
  have hbound := h.bounded
  have hnum := (h.entry_number hi).2
  rw [isAckCovering_iff (by omega),hnum]
  omega

/-- Packets an acknowledgement removes from the window. -/
def removedBy (ep : ReliableEndpoint) (ackId : UInt16) : List Packet :=
  (ep.inFlight.take (ep.inFlight.length-(ep.onAckId ackId).inFlight.length)).map packetOf

/-- A fresh acknowledgement of packet `n` leaves the packets behind it. -/
theorem Windowed.removedBy_length {acked sent : List Packet} {ep : ReliableEndpoint}
    (h : Windowed acked sent ep) {n : ℕ} {ackId : UInt16} (hn : n ≤ sent.length)
    (hfresh : sent.length≤n+32256) (hid : ackId.toNat%32768=n%32768) :
    acked.length+(removedBy ep ackId).length=max acked.length n := by
  have hlen := h.length_eq
  unfold removedBy
  rw [h.onAckId_inFlight hn hfresh hid,List.length_map,List.length_take,List.length_drop]
  omega

/-- An acknowledgement removes the oldest packets. -/
theorem onAckId_suffix (ep : ReliableEndpoint) (ackId : UInt16) :
    (ep.onAckId ackId).inFlight<:+ep.inFlight := List.dropWhile_suffix _

/-- Removed packets move from the window to the acknowledged ones, whatever
the acknowledgement says. -/
theorem Windowed.onAckId {acked sent : List Packet} {ep : ReliableEndpoint}
    (h : Windowed acked sent ep) (ackId : UInt16) :
    Windowed (acked++removedBy ep ackId) sent (ep.onAckId ackId) where
  split := by
    obtain ⟨front,hfront⟩ := onAckId_suffix ep ackId
    unfold removedBy
    rw [h.split,←hfront,List.length_append,Nat.add_sub_cancel,List.take_left' rfl,
      List.map_append,List.append_assoc]
  numbered := h.numbered
  next := h.next
  bounded := (onAckId_suffix ep ackId).length_le.trans h.bounded
  limit := h.limit

/-- The packets accepted are the first packets sent, and the sequence state
counts them. -/
structure Receiving (sent accepted : List Packet) (ack : AckState) : Prop where
  /-- Nothing is accepted out of order. -/
  inOrder : accepted<+:sent
  /-- The next id continues the count. -/
  expected : ack.expectedRecv.toNat=(accepted.length+1)%32768
  /-- The last accepted id, or the id of the handshake before them. -/
  highest : ∀ ackId,ack.highestRecv=some ackId → ackId.toNat%32768=accepted.length%32768
  /-- An unacknowledged packet has an id to acknowledge. -/
  pending : 0<ack.packetsSinceAck → ack.highestRecv≠none

/-- A fresh packet is accepted only in its turn. -/
theorem Receiving.number_of_expected {sent accepted : List Packet} {ack : AckState}
    (h : Receiving sent accepted ack) {n : ℕ} {packet : Packet} (hn : n ≤ sent.length)
    (hfresh : sent.length≤n+32256) (hnear : sent.length≤accepted.length+32)
    (hnum : packet.packetId.toNat=n%32768) (heq : packet.packetId=ack.expectedRecv) :
    n=accepted.length+1 := by
  have he := h.expected
  have hle := h.inOrder.length_le
  rw [←heq,hnum] at he
  omega

/-- Accepting the next packet sent. -/
theorem Receiving.acceptReliable {sent accepted : List Packet} {ep : ReliableEndpoint}
    (h : Receiving sent accepted ep.ack) {packet : Packet}
    (hnext : sent[accepted.length]?=some packet)
    (heq : packet.packetId=ep.ack.expectedRecv) (isRetransmit : Bool) :
    Receiving sent (accepted++[packet])
      (ep.acceptReliable packet.packetId isRetransmit).1.ack := by
  have he := h.expected
  unfold ReliableEndpoint.acceptReliable
  rw [if_pos heq]
  constructor
  · obtain ⟨later,hlater⟩ := h.inOrder
    rw [←hlater,List.getElem?_append_right (Nat.le_refl _),Nat.sub_self] at hnext
    cases later with
    | nil => cases hnext
    | cons first others =>
      cases hnext
      exact ⟨others,by rw [←hlater,List.append_assoc,List.singleton_append]⟩
  · dsimp only
    rw [nextPacketId_toNat,he,List.length_append,List.length_singleton]
    omega
  · intro ackId hack
    dsimp only at hack
    cases hack
    rw [heq,he,List.length_append,List.length_singleton]
    omega
  · intro _ hnone
    cases hnone

end AtemProxy.ReliableWindow
