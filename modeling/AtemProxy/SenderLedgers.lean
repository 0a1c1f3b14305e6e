import AtemProxy.ReliableWindow

/-!
# The send side of an endpoint against a ledger of its payloads

A ledger is kept beside the endpoint: the payloads queued so far, and for
every packet ever sent whether it is a keepalive or which payload it was
made from. Acknowledgements move packets from the window to the removed
ones. The window settings are arbitrary here; the ids only have to fit
into the ring.
-/

namespace AtemProxy.SenderLedgers

open BigEndian PacketCodec ReliableTransport ReliableWindow

/-- What a reliable packet was made from. -/
inductive Origin where
  /-- Ping of an idle endpoint. -/
  | keepalive
  /-- Payload taken from the outbound queue. -/
  | queued (payload : Bytes)
  deriving DecidableEq

/-- Payload of the packet; a ping is empty. -/
def Origin.bytes : Origin → Bytes
  | .keepalive => []
  | .queued payload => payload

/-- Payload that was queued; pings are left out. -/
def Origin.payload? : Origin → Option Bytes
  | .keepalive => none
  | .queued payload => some payload

/-- An endpoint with the history of its payloads. -/
structure SenderLedger where
  /-- The endpoint itself. -/
  endpoint : ReliableEndpoint
  /-- Payloads queued so far. -/
  queued : List Bytes
  /-- Origins of the packets removed by acknowledgements, oldest first. -/
  removed : List Origin
  /-- Origins of the packets in flight, oldest first. -/
  window : List Origin
  deriving DecidableEq

/-- Calls on an endpoint, and the fields its owners assign. -/
inductive EndpointCall where
  /-- Queue one payload. -/
  | queuePayload (payload : Bytes)
  /-- Queue packed commands. -/
  | queueCommandsPacked (cmds : List Bytes)
  /-- Acknowledgement with any id. -/
  | onAckId (ackId : UInt16)
  /-- Reliable packet with any id. -/
  | acceptReliable (packetId : UInt16) (isRetransmit : Bool)
  /-- Poll with arbitrary clock readings. -/
  | pollOutbound (now elapsedAt ackAt : Instant)
  /-- A datagram was received at this time. -/
  | noteRecv (clock : Instant)
  /-- Assignment of the opened flag. -/
  | opened (flag : Bool)
  /-- Assignment of the session id. -/
  | sessionId (sessionId : UInt16)

/-- The payloads a call queues fit into a datagram. -/
def EndpointCall.Fits : EndpointCall → Prop
  | .queuePayload payload => payload.length≤2035
  | .queueCommandsPacked cmds => ∀ cmd ∈ cmds, cmd.length≤2035
  | _ => True

namespace SenderLedger

/-- Ledger of an endpoint that has not sent anything. -/
def start (ep : ReliableEndpoint) : SenderLedger := ⟨ep,[],[],[]⟩

/-- Origins of the packets one poll adds to the window. -/
def polledOrigins (ep : ReliableEndpoint) (now elapsedAt ackAt : Instant) : List Origin :=
  let taken := ep.outbound.take (ep.outbound.length-(refilled ep now).outbound.length)
  let pinged := (ep.pollOutbound now elapsedAt ackAt).1
  taken.map .queued++
    (if pinged.inFlight.length=(refilled ep now).inFlight.length then [] else [.keepalive])

/-- Ledger after one call. -/
def call (l : SenderLedger) : EndpointCall → SenderLedger
  | .queuePayload payload =>
    {l with endpoint := l.endpoint.queuePayload payload, queued := l.queued++[payload]}
  | .queueCommandsPacked cmds =>
    {l with endpoint := l.endpoint.queueCommandsPacked cmds,
            queued := l.queued++packCommands cmds}
  | .onAckId ackId =>
    let acked := l.endpoint.onAckId ackId
    let count := l.endpoint.inFlight.length-acked.inFlight.length
    {l with endpoint := acked, removed := l.removed++l.window.take count,
            window := l.window.drop count}
  | .acceptReliable packetId isRetransmit =>
    {l with endpoint := (l.endpoint.acceptReliable packetId isRetransmit).1}
  | .pollOutbound now elapsedAt ackAt =>
    {l with endpoint := (l.endpoint.pollOutbound now elapsedAt ackAt).1,
            window := l.window++polledOrigins l.endpoint now elapsedAt ackAt}
  | .noteRecv clock => {l with endpoint := l.endpoint.noteRecv clock}
  | .opened flag => {l with endpoint := {l.endpoint with opened := flag}}
  | .sessionId sessionId => {l with endpoint := {l.endpoint with sessionId := sessionId}}

end SenderLedger

/-- Calls that queue nothing. -/
def EndpointCall.silent : EndpointCall → Bool
  | .queuePayload _ => false
  | .queueCommandsPacked _ => false
  | _ => true

/-- Calls that queue nothing fit. -/
theorem EndpointCall.fits_of_silent {c : EndpointCall} (h : c.silent=true) : c.Fits := by
  cases c with
  | queuePayload payload => cases h
  | queueCommandsPacked cmds => cases h
  | _ => exact trivial

/-- They leave the queued payloads alone. -/
theorem SenderLedger.queued_of_silent (l : SenderLedger) {c : EndpointCall} (h : c.silent=true) :
    (l.call c).queued=l.queued := by
  cases c with
  | queuePayload payload => cases h
  | queueCommandsPacked cmds => cases h
  | _ => rfl

/-- The entry decodes to a reliable packet with its own id and the payload
it was made from. -/
def Carried (entry : InFlightEntry) (origin : Origin) : Prop :=
  ∃ header, decodePacket entry.bytes=.ok (header,origin.bytes) ∧
    header.flags={ackRequest := true} ∧ header.packetId=entry.packetId

/-- Ids count up by one in the ring and end just before the next one. -/
def Consecutive (window : List InFlightEntry) (next : UInt16) : Prop :=
  next.toNat<32768 ∧ ∀ i entry, window[i]?=some entry →
    entry.packetId.toNat<32768 ∧ (entry.packetId.toNat+(window.length-i))%32768=next.toNat

/-- Fewer packets than ids have distinct ids. -/
theorem Consecutive.nodup {window : List InFlightEntry} {next : UInt16}
    (h : Consecutive window next) (hsize : window.length<32768) :
    (window.map InFlightEntry.packetId).Nodup := by
  rw [List.nodup_iff_getElem?_ne_getElem?]
  intro i j hij hj he
  rw [List.length_map] at hj
  rw [List.getElem?_map,List.getElem?_map,List.getElem?_eq_getElem (by omega),
    List.getElem?_eq_getElem hj,Option.map_some,Option.map_some,Option.some.injEq] at he
  obtain ⟨_,hi'⟩ := h.2 i _ (List.getElem?_eq_getElem (by omega))
  obtain ⟨_,hj'⟩ := h.2 j _ (List.getElem?_eq_getElem hj)
  rw [he] at hi'
  omega

/-- A packet with the next id continues the count. -/
theorem Consecutive.send {window : List InFlightEntry} {next : UInt16}
    (h : Consecutive window next) {entry : InFlightEntry} (hid : entry.packetId=next) :
    Consecutive (window++[entry]) (nextPacketId next) := by
  have hnext := nextPacketId_toNat next
  refine ⟨by rw [hnext]; omega,?_⟩
  intro i e he
  have hbound := (List.getElem?_eq_some_iff.mp he).1
  rw [List.length_append,List.length_singleton] at hbound ⊢
  by_cases hi : i<window.length
  · rw [List.getElem?_append_left hi] at he
    obtain ⟨hlt,hmod⟩ := h.2 i e he
    refine ⟨hlt,?_⟩
    rw [hnext]
    omega
  · have hlast : i=window.length := by omega
    rw [hlast,List.getElem?_concat_length,Option.some.injEq] at he
    rw [hlast,Nat.add_sub_cancel_left,←he,hid,hnext]
    exact ⟨h.1,rfl⟩

/-- Removing packets from the front keeps the count. -/
theorem Consecutive.drop {window : List InFlightEntry} {next : UInt16}
    (h : Consecutive window next) (k : ℕ) : Consecutive (window.drop k) next := by
  refine ⟨h.1,?_⟩
  intro i entry he
  rw [List.getElem?_drop] at he
  obtain ⟨hlt,hmod⟩ := h.2 (k+i) entry he
  have hk : k+i<window.length := (List.getElem?_eq_some_iff.mp he).1
  refine ⟨hlt,?_⟩
  rw [List.length_drop,Nat.sub_sub]
  exact hmod

/-- Ids are all the count depends on. -/
theorem Consecutive.of_ids {window window' : List InFlightEntry} {next : UInt16}
    (h : Consecutive window next)
    (hids : window'.map InFlightEntry.packetId=window.map InFlightEntry.packetId) :
    Consecutive window' next := by
  have hlen : window'.length=window.length := by
    rw [←List.length_map,hids,List.length_map]
  refine ⟨h.1,?_⟩
  intro i entry he
  have hmap : (window.map InFlightEntry.packetId)[i]?=some entry.packetId := by
    rw [←hids,List.getElem?_map,he]
    rfl
  rw [List.getElem?_map,Option.map_eq_some_iff] at hmap
  obtain ⟨old,hold,hid⟩ := hmap
  rw [hlen,←hid]
  exact h.2 i old hold

/-- What holds of the endpoint and the origins of its window at any time,
whatever is still queued. -/
structure SendSide (limit : ℕ) (ep : ReliableEndpoint) (window : List Origin) : Prop where
  /-- Ids of the window. -/
  ids : Consecutive ep.inFlight ep.nextSendId
  /-- Size of the window. -/
  size : ep.inFlight.length≤limit
  /-- Window limit. -/
  limited : ep.config.maxInFlight=limit
  /-- Contents of the window. -/
  carried : List.Forall₂ Carried ep.inFlight window
  /-- Only the oldest packet can be a keepalive. -/
  ping : ∀ origin ∈ window.tail, origin≠.keepalive

/-- Fields that the send side does not read. -/
theorem SendSide.of_core {limit : ℕ} {ep ep' : ReliableEndpoint} {window : List Origin}
    (h : SendSide limit ep window) (hw : ep'.inFlight=ep.inFlight)
    (hn : ep'.nextSendId=ep.nextSendId) (hc : ep'.config=ep.config) :
    SendSide limit ep' window where
  ids := by rw [hw,hn]; exact h.ids
  size := by rw [hw]; exact h.size
  limited := by rw [hc]; exact h.limited
  carried := by rw [hw]; exact h.carried
  ping := h.ping

/-- Sending a packet appends it, a keepalive only into an empty window. -/
theorem SendSide.send {limit : ℕ} {ep : ReliableEndpoint} {window : List Origin}
    (h : SendSide limit ep window) (hroom : ep.inFlight.length<limit) (origin : Origin)
    (hfit : origin.bytes.length≤2035) (hping : origin≠.keepalive ∨ window=[]) (now : Instant) :
    SendSide limit (ep.sendReliable origin.bytes now).1 (window++[origin]) where
  ids := h.ids.send rfl
  size := by
    unfold ReliableEndpoint.sendReliable
    dsimp only
    rw [List.length_append,List.length_singleton]
    omega
  limited := h.limited
  carried := by
    have hnew := decodePacket_encodePacket
      (ReliableEndpoint.dataHeader ep.sessionId ep.nextSendId origin.bytes) origin.bytes
    rw [wirePayload_of_le hfit] at hnew
    exact List.rel_append h.carried (List.Forall₂.cons ⟨_,hnew,rfl,rfl⟩ List.Forall₂.nil)
  ping := by
    intro o ho
    cases window with
    | nil => exact absurd ho List.not_mem_nil
    | cons first window =>
      rcases List.mem_append.mp ho with ho | ho
      · exact h.ping o ho
      · rw [List.mem_singleton.mp ho]
        exact hping.resolve_right (List.cons_ne_nil _ _)

/-- Removing packets from the front removes their origins. -/
theorem SendSide.drop {limit : ℕ} {ep : ReliableEndpoint} {window : List Origin}
    (h : SendSide limit ep window) (k : ℕ) :
    SendSide limit {ep with inFlight := ep.inFlight.drop k} (window.drop k) where
  ids := h.ids.drop k
  size := by
    dsimp only
    rw [List.length_drop]
    exact (Nat.sub_le _ _).trans h.size
  limited := h.limited
  carried := List.forall₂_drop k h.carried
  ping := by
    intro origin hm
    rw [List.tail_drop,←List.drop_tail] at hm
    exact h.ping origin (List.mem_of_mem_drop hm)

/-- Sending the window again changes its times only. -/
theorem SendSide.retransmit {limit : ℕ} {ep : ReliableEndpoint} {window : List Origin}
    (h : SendSide limit ep window) (now : Instant) :
    SendSide limit (ep.retransmitPhase now).1 window ∧
      (ep.retransmitPhase now).1.outbound=ep.outbound := by
  unfold ReliableEndpoint.retransmitPhase
  split
  · exact ⟨h,rfl⟩
  · split
    · refine ⟨⟨?_,?_,h.limited,?_,h.ping⟩,rfl⟩
      · apply h.ids.of_ids
        rw [List.map_map]
        rfl
      · dsimp only
        rw [List.length_map]
        exact h.size
      · dsimp only
        rw [List.forall₂_map_left_iff]
        exact h.carried
    · exact ⟨h,rfl⟩

/-- Refilling moves payloads from the front of the queue into the window. -/
theorem SendSide.refill {limit : ℕ} (now : Instant) {queue : List Bytes}
    (hfit : ∀ payload ∈ queue, payload.length≤2035) {ep : ReliableEndpoint}
    {window : List Origin} (h : SendSide limit ep window) :
    ∃ taken, queue=taken++(ReliableEndpoint.refillLoop now queue ep).1.outbound ∧
      SendSide limit (ReliableEndpoint.refillLoop now queue ep).1
        (window++taken.map .queued) := by
  induction queue generalizing ep window with
  | nil =>
    refine ⟨[],rfl,?_⟩
    rw [List.map_nil,List.append_nil]
    exact h.of_core rfl rfl rfl
  | cons payload queue ih =>
    rw [ReliableEndpoint.refillLoop]
    split
    · rename_i hroom
      rw [h.limited] at hroom
      have hsent : SendSide limit (ep.sendReliable payload now).1 (window++[.queued payload]) :=
        h.send hroom (.queued payload) (hfit payload List.mem_cons_self) (Or.inl (by simp)) now
      obtain ⟨taken,hsplit,hside⟩ := ih (fun p hp => hfit p (List.mem_cons_of_mem _ hp)) hsent
      refine ⟨payload::taken,?_,?_⟩
      · dsimp only
        rw [List.cons_append,←hsplit]
      · rw [List.append_assoc] at hside
        exact hside
    · refine ⟨[],rfl,?_⟩
      rw [List.map_nil,List.append_nil]
      exact h.of_core rfl rfl rfl

/-- Refilling takes payloads from the front of the queue. -/
theorem refillLoop_suffix (now : Instant) (queue : List Bytes) (ep : ReliableEndpoint) :
    (ReliableEndpoint.refillLoop now queue ep).1.outbound<:+queue := by
  induction queue generalizing ep with
  | nil => exact List.suffix_rfl
  | cons payload queue ih =>
    rw [ReliableEndpoint.refillLoop]
    split
    · exact (ih _).trans (List.suffix_cons payload queue)
    · exact List.suffix_rfl

/-- A poll puts nothing into the outbound queue. -/
theorem pollOutbound_suffix (ep : ReliableEndpoint) (now elapsedAt ackAt : Instant) :
    (ep.pollOutbound now elapsedAt ackAt).1.outbound<:+ep.outbound := by
  have hrepeat : (ep.retransmitPhase now).1.outbound=ep.outbound := by
    unfold ReliableEndpoint.retransmitPhase
    split
    · rfl
    · split <;> rfl
  have hping : ∀ ep' : ReliableEndpoint, (ep'.pingPhase now).1.outbound=ep'.outbound := by
    intro ep'
    unfold ReliableEndpoint.pingPhase
    split <;> rfl
  have hrefill := refillLoop_suffix now (ep.retransmitPhase now).1.outbound
    (ep.retransmitPhase now).1
  unfold ReliableEndpoint.pollOutbound
  dsimp only
  rw [hping,(ackPhase_core _ elapsedAt ackAt).2.2.2,←hrepeat]
  exact hrefill

/-- A keepalive goes into an empty window only. -/
theorem SendSide.keepalive {limit : ℕ} (hlow : 1≤limit) {ep : ReliableEndpoint}
    {window : List Origin} (h : SendSide limit ep window) (now : Instant) :
    SendSide limit (ep.pingPhase now).1 (window++
      (if (ep.pingPhase now).1.inFlight.length=ep.inFlight.length then [] else [.keepalive])) ∧
      (ep.pingPhase now).1.outbound=ep.outbound := by
  unfold ReliableEndpoint.pingPhase
  split
  · rename_i hidle
    have hempty : window=[] := by
      have hlen := h.carried.length_eq
      rw [hidle.2.1,List.length_nil] at hlen
      exact List.length_eq_zero_iff.mp hlen.symm
    have hroom : ep.inFlight.length<limit := by
      rw [hidle.2.1,List.length_nil]
      omega
    have hsent : SendSide limit (ep.sendReliable [] now).1 (window++[.keepalive]) :=
      h.send hroom .keepalive (Nat.zero_le _) (Or.inr hempty) now
    have hgrown : (ep.sendReliable [] now).1.inFlight.length≠ep.inFlight.length := by
      unfold ReliableEndpoint.sendReliable
      dsimp only
      rw [List.length_append,List.length_singleton]
      omega
    dsimp only
    rw [if_neg hgrown]
    exact ⟨hsent.of_core rfl rfl rfl,rfl⟩
  · rw [if_pos rfl,List.append_nil]
    exact ⟨h,rfl⟩

/-- One poll keeps the send side, with the origins the ledger records, and
moves exactly their payloads out of the queue. -/
theorem SendSide.poll {limit : ℕ} (hlow : 1≤limit) {ep : ReliableEndpoint}
    {window : List Origin} (h : SendSide limit ep window)
    (hfit : ∀ payload ∈ ep.outbound, payload.length≤2035) (now elapsedAt ackAt : Instant) :
    SendSide limit (ep.pollOutbound now elapsedAt ackAt).1
        (window++SenderLedger.polledOrigins ep now elapsedAt ackAt) ∧
      ep.outbound=(SenderLedger.polledOrigins ep now elapsedAt ackAt).filterMap Origin.payload?++
        (ep.pollOutbound now elapsedAt ackAt).1.outbound := by
  obtain ⟨hrepeat,hout⟩ := h.retransmit now
  rw [←hout] at hfit
  obtain ⟨taken,hsplit,hrefill⟩ := hrepeat.refill now hfit
  obtain ⟨hwin,hnext,hconf,hrest⟩ := ackPhase_core (refilled ep now) elapsedAt ackAt
  have hacked : SendSide limit ((refilled ep now).ackPhase elapsedAt ackAt).1
      (window++taken.map .queued) := SendSide.of_core hrefill hwin hnext hconf
  obtain ⟨hping,hkept⟩ := hacked.keepalive hlow now
  have hqueue : ep.outbound=taken++(refilled ep now).outbound := hout.symm.trans hsplit
  have htaken : ep.outbound.take (ep.outbound.length-(refilled ep now).outbound.length)=
      taken := by
    rw [hqueue,List.length_append,Nat.add_sub_cancel,List.take_left]
  have hpoll : (ep.pollOutbound now elapsedAt ackAt).1=
      (((refilled ep now).ackPhase elapsedAt ackAt).1.pingPhase now).1 := rfl
  have horigins : SenderLedger.polledOrigins ep now elapsedAt ackAt=taken.map .queued++
      (if (((refilled ep now).ackPhase elapsedAt ackAt).1.pingPhase now).1.inFlight.length=
        ((refilled ep now).ackPhase elapsedAt ackAt).1.inFlight.length then []
        else [.keepalive]) := by
    unfold SenderLedger.polledOrigins
    dsimp only
    rw [htaken,hpoll,hwin]
  have hpings : ∀ c : Prop, [Decidable c] →
      (if c then [] else [Origin.keepalive]).filterMap Origin.payload?=[] := by
    intro c _
    split <;> rfl
  rw [hpoll,horigins,hkept,hrest,List.filterMap_append,hpings,List.append_nil]
  refine ⟨by rw [←List.append_assoc]; exact hping,?_⟩
  have hself : (taken.map Origin.queued).filterMap Origin.payload?=taken := by
    rw [List.filterMap_map]
    exact List.filterMap_some
  rw [hself,hqueue]

/-- Invariant of an endpoint with its ledger. -/
structure Sound (limit : ℕ) (l : SenderLedger) : Prop where
  /-- Window and its origins. -/
  side : SendSide limit l.endpoint l.window
  /-- Nothing queued is lost, repeated or reordered. -/
  conserved : (l.removed++l.window).filterMap Origin.payload?++l.endpoint.outbound=l.queued
  /-- Queued payloads fit into a datagram. -/
  fits : ∀ payload ∈ l.endpoint.outbound, payload.length≤2035

/-- Payloads put behind the queue are queued and nothing else happens. -/
theorem Sound.enqueue {limit : ℕ} {l : SenderLedger} (h : Sound limit l) {payloads : List Bytes}
    (hfit : ∀ payload ∈ payloads, payload.length≤2035) :
    Sound limit {l with
      endpoint := {l.endpoint with outbound := l.endpoint.outbound++payloads}
      queued := l.queued++payloads} where
  side := h.side.of_core rfl rfl rfl
  conserved := by
    dsimp only
    rw [←List.append_assoc,h.conserved]
  fits := by
    intro payload hm
    rcases List.mem_append.mp hm with hm | hm
    · exact h.fits payload hm
    · exact hfit payload hm

/-- An acknowledgement moves packets from the window to the removed ones. -/
theorem Sound.acknowledge {limit : ℕ} {l : SenderLedger} (h : Sound limit l) (ackId : UInt16) :
    Sound limit (l.call (.onAckId ackId)) := by
  obtain ⟨k,hk⟩ : ∃ k, l.endpoint.inFlight.length-
      (l.endpoint.onAckId ackId).inFlight.length=k := ⟨_,rfl⟩
  have hdrop : (l.endpoint.onAckId ackId).inFlight=l.endpoint.inFlight.drop k :=
    hk ▸ List.suffix_iff_eq_drop.mp (List.dropWhile_suffix _)
  have hside : SendSide limit (l.endpoint.onAckId ackId) (l.window.drop k) :=
    (h.side.drop k).of_core hdrop rfl rfl
  unfold SenderLedger.call
  dsimp only
  rw [hk]
  refine ⟨hside,?_,h.fits⟩
  dsimp only
  rw [List.append_assoc,List.take_append_drop]
  exact h.conserved

/-- Receiving changes nothing on the send side. -/
theorem acceptReliable_core (ep : ReliableEndpoint) (packetId : UInt16) (isRetransmit : Bool) :
    (ep.acceptReliable packetId isRetransmit).1.inFlight=ep.inFlight ∧
      (ep.acceptReliable packetId isRetransmit).1.nextSendId=ep.nextSendId ∧
      (ep.acceptReliable packetId isRetransmit).1.config=ep.config ∧
      (ep.acceptReliable packetId isRetransmit).1.outbound=ep.outbound := by
  unfold ReliableEndpoint.acceptReliable
  split
  · exact ⟨rfl,rfl,rfl,rfl⟩
  · rw [ite_self]
    exact ⟨rfl,rfl,rfl,rfl⟩

/-- Every call keeps the invariant. -/
theorem Sound.call {limit : ℕ} (hlow : 1≤limit) {l : SenderLedger} (h : Sound limit l)
    {c : EndpointCall} (hc : c.Fits) : Sound limit (l.call c) := by
  cases c with
  | queuePayload payload =>
    exact h.enqueue (fun p hp => by rw [List.mem_singleton.mp hp]; exact hc)
  | queueCommandsPacked cmds => exact h.enqueue (packCommands_length_le (by decide) hc)
  | onAckId ackId => exact h.acknowledge ackId
  | acceptReliable packetId isRetransmit =>
    obtain ⟨hw,hn,hconf,hout⟩ := acceptReliable_core l.endpoint packetId isRetransmit
    refine ⟨h.side.of_core hw hn hconf,?_,?_⟩
    · unfold SenderLedger.call
      dsimp only
      rw [hout]
      exact h.conserved
    · unfold SenderLedger.call
      dsimp only
      rw [hout]
      exact h.fits
  | pollOutbound now elapsedAt ackAt =>
    obtain ⟨hside,hsplit⟩ := h.side.poll hlow h.fits now elapsedAt ackAt
    refine ⟨hside,?_,?_⟩
    · have hc := h.conserved
      rw [hsplit] at hc
      unfold SenderLedger.call
      dsimp only
      rw [←hc,←List.append_assoc,List.filterMap_append,List.append_assoc]
    · intro payload hm
      have hfits := h.fits
      rw [hsplit] at hfits
      exact hfits payload (List.mem_append_right _ hm)
  | noteRecv clock => exact ⟨h.side.of_core rfl rfl rfl,h.conserved,h.fits⟩
  | opened flag => exact ⟨h.side.of_core rfl rfl rfl,h.conserved,h.fits⟩
  | sessionId sessionId => exact ⟨h.side.of_core rfl rfl rfl,h.conserved,h.fits⟩

/-- A whole run of calls keeps the invariant. -/
theorem Sound.calls {limit : ℕ} (hlow : 1≤limit) {l : SenderLedger} (h : Sound limit l)
    {calls : List EndpointCall} (hc : ∀ c ∈ calls, c.Fits) :
    Sound limit (calls.foldl SenderLedger.call l) := by
  induction calls generalizing l with
  | nil => exact h
  | cons c calls ih =>
    exact ih (h.call hlow (hc c List.mem_cons_self)) (fun d hd => hc d (List.mem_cons_of_mem _ hd))

/-- An endpoint that has not sent or queued anything. -/
theorem sound_start {limit : ℕ} {start : ReliableEndpoint}
    (hlimit : start.config.maxInFlight=limit) (hnext : start.nextSendId.toNat<2^15)
    (hwindow : start.inFlight=[]) (hqueue : start.outbound=[]) :
    Sound limit (SenderLedger.start start) := by
  refine ⟨⟨⟨hnext,?_⟩,?_,hlimit,?_,?_⟩,?_,?_⟩ <;>
    simp only [SenderLedger.start,hwindow,hqueue]
  · intro i entry he
    cases he
  · exact Nat.zero_le _
  · exact List.Forall₂.nil
  · exact fun _ ho => absurd ho List.not_mem_nil
  · rfl
  · exact fun _ hp => absurd hp List.not_mem_nil

/-- Sender window and conservation, for every endpoint that has not sent
or queued anything, every window limit below the number of ids, and every
run of calls: the ids in flight are distinct, consecutive and end just
before the next one, at most the limit many; every entry decodes to a
reliable packet with its id and original payload; removed, in-flight and
outbound payloads without keepalives are the queued ones in order; and
only the oldest packet in flight can be a keepalive. -/
theorem sender_window_conserves {start : ReliableEndpoint} {calls : List EndpointCall}
    (hnext : start.nextSendId.toNat<2^15) (hlow : 1 ≤ start.config.maxInFlight)
    (hhigh : start.config.maxInFlight<2^15) (hwindow : start.inFlight=[])
    (hqueue : start.outbound=[]) (hfits : ∀ c ∈ calls, c.Fits) :
    let l := calls.foldl SenderLedger.call (SenderLedger.start start)
    (Consecutive l.endpoint.inFlight l.endpoint.nextSendId ∧
      (l.endpoint.inFlight.map InFlightEntry.packetId).Nodup ∧
      l.endpoint.inFlight.length ≤ start.config.maxInFlight) ∧
    List.Forall₂ Carried l.endpoint.inFlight l.window ∧
    l.removed.filterMap Origin.payload?++l.window.filterMap Origin.payload?++
      l.endpoint.outbound=l.queued ∧
    (∀ origin ∈ l.window.tail, origin≠.keepalive) := by
  intro l
  have hstart := sound_start rfl hnext hwindow hqueue
  have h : Sound start.config.maxInFlight l := hstart.calls hlow hfits
  have hids := h.side.ids
  refine ⟨⟨hids,hids.nodup (lt_of_le_of_lt h.side.size hhigh),h.side.size⟩,h.side.carried,?_,
    h.side.ping⟩
  rw [←List.filterMap_append]
  exact h.conserved

/-- Endpoint about to use the last id of the ring. -/
def beforeWrap : ReliableEndpoint :=
  {ReliableEndpoint.new 7 {} 0 with nextSendId := 32767, opened := true}

/-- One payload, its acknowledgement and a keepalive. -/
def wrappingCalls : List EndpointCall :=
  [.queuePayload [1],.pollOutbound 0 0 0,.onAckId 32767,.pollOutbound 200 200 200]

/-- The keepalive behind the wrap has id zero and is the only packet left. -/
theorem sender_window_wraps :
    (wrappingCalls.foldl SenderLedger.call (SenderLedger.start beforeWrap)).window=[.keepalive] ∧
    Consecutive (wrappingCalls.foldl SenderLedger.call
      (SenderLedger.start beforeWrap)).endpoint.inFlight 1 ∧
    (wrappingCalls.foldl SenderLedger.call (SenderLedger.start beforeWrap)).removed=
      [.queued [1]] :=
  ⟨by decide +kernel,
    (@sender_window_conserves beforeWrap wrappingCalls (by decide) (by decide) (by decide) rfl
      rfl (by simp [wrappingCalls,EndpointCall.Fits])).1.1,by decide +kernel⟩

end AtemProxy.SenderLedgers
