import AtemProxy.SenderLedgers
import AtemProxy.AnswerRuns

/-!
# Runs of one endpoint, and what an acknowledgement removes

An endpoint is driven by calls in any order, and only polls emit datagrams.
A poll repeats what is in flight or leaves it alone, and then appends new
packets. The ids in flight therefore always count up to the next one, and
an acknowledgement, which may carry any id, is compared with the oldest of
them only: less than 256 ids ahead of it everything up to that id goes,
whether or not such a packet was ever sent.
-/

namespace AtemProxy.EndpointRuns

open BigEndian PacketCodec ReliableTransport ReliableWindow SenderLedgers AnswerRuns

/-- Endpoint after a call, and the datagrams that it emits. -/
def callAnswer (ep : ReliableEndpoint) : EndpointCall → ReliableEndpoint×List Bytes
  | .queuePayload payload => (ep.queuePayload payload,[])
  | .queueCommandsPacked cmds => (ep.queueCommandsPacked cmds,[])
  | .onAckId ackId => (ep.onAckId ackId,[])
  | .acceptReliable packetId isRetransmit => ((ep.acceptReliable packetId isRetransmit).1,[])
  | .pollOutbound now elapsedAt ackAt => ep.pollOutbound now elapsedAt ackAt
  | .noteRecv clock => (ep.noteRecv clock,[])
  | .opened flag => ({ep with opened := flag},[])
  | .sessionId sessionId => ({ep with sessionId := sessionId},[])

/-- Endpoint after a list of calls, and all datagrams that they emit. -/
def endpointRun (ep : ReliableEndpoint) (calls : List EndpointCall) :
    ReliableEndpoint×List Bytes := answers callAnswer ep calls

/-- The ids in flight count up to the next one, and there are at most thirty-two. -/
structure Numbered (ep : ReliableEndpoint) : Prop where
  /-- Ids of the window. -/
  ids : Consecutive ep.inFlight ep.nextSendId
  /-- Size of the window. -/
  size : ep.inFlight.length≤32
  /-- Window limit. -/
  limit : ep.config.maxInFlight=32

/-- Fields that the ids do not depend on. -/
theorem Numbered.of_core {ep ep' : ReliableEndpoint} (h : Numbered ep)
    (hw : ep'.inFlight.map InFlightEntry.packetId=ep.inFlight.map InFlightEntry.packetId)
    (hn : ep'.nextSendId=ep.nextSendId) (hc : ep'.config=ep.config) : Numbered ep' where
  ids := hn ▸ h.ids.of_ids hw
  size := by
    have hlen := congrArg List.length hw
    rw [List.length_map,List.length_map] at hlen
    rw [hlen]
    exact h.size
  limit := hc ▸ h.limit

/-- A transmission takes the next id. -/
theorem Numbered.send {ep : ReliableEndpoint} (h : Numbered ep) (hroom : ep.inFlight.length<32)
    (payload : Bytes) (now : Instant) : Numbered (ep.sendReliable payload now).1 where
  ids := h.ids.send rfl
  size := by
    simp only [ReliableEndpoint.sendReliable,List.length_append,List.length_singleton]
    omega
  limit := h.limit

/-- A retransmission keeps the ids. -/
theorem Numbered.retransmit {ep : ReliableEndpoint} (h : Numbered ep) (now : Instant) :
    Numbered (ep.retransmitPhase now).1 := by
  unfold ReliableEndpoint.retransmitPhase
  split
  · exact h
  · split
    · refine h.of_core ?_ rfl rfl
      rw [List.map_map]
      rfl
    · exact h

/-- What a phase makes of numbered packets is numbered again. -/
theorem phaseRule_numbered : PhaseRule (fun ep result => Numbered ep → Numbered result.1) where
  refl _ h := h
  fields hkeeps _ _ h := (hkeeps h).of_core rfl rfl rfl
  trans hfirst hsecond h := hsecond (hfirst h)

/-- So is what a transmission into a window with room makes of them. -/
theorem sends_numbered (now : Instant) :
    Sends (fun ep result => Numbered ep → Numbered result.1) now := by
  intro ep payload hroom h
  refine h.send ?_ payload now
  rcases hroom with hroom | hempty
  · rw [h.limit] at hroom
    exact hroom
  · rw [hempty]
    exact Nat.zero_lt_succ 31

/-- So does a whole poll. -/
theorem Numbered.poll {ep : ReliableEndpoint} (h : Numbered ep) (now elapsedAt ackAt : Instant) :
    Numbered (ep.pollOutbound now elapsedAt ackAt).1 := by
  have hack : ∀ ep : ReliableEndpoint,Numbered ep → Numbered (ep.ackPhase elapsedAt ackAt).1 := by
    intro ep h
    obtain ⟨hw,hn,hc,_⟩ := ackPhase_core ep elapsedAt ackAt
    exact h.of_core (congrArg _ hw) hn hc
  obtain ⟨_,_,hrest⟩ := phaseRule_numbered.poll (sends_numbered now) hack ep
  exact hrest (h.retransmit now)

/-- An acknowledgement removes the oldest ids. -/
theorem Numbered.onAckId {ep : ReliableEndpoint} (h : Numbered ep) (ackId : UInt16) :
    Numbered (ep.onAckId ackId) := by
  obtain ⟨front,hfront⟩ := onAckId_suffix ep ackId
  refine ⟨?_,(onAckId_suffix ep ackId).length_le.trans h.size,h.limit⟩
  have hdrop := h.ids.drop front.length
  rw [←hfront,List.drop_left] at hdrop
  exact hdrop

/-- Every call keeps the ids in order. -/
theorem Numbered.call {ep : ReliableEndpoint} (h : Numbered ep) (c : EndpointCall) :
    Numbered (callAnswer ep c).1 := by
  cases c with
  | queuePayload payload => exact h.of_core rfl rfl rfl
  | queueCommandsPacked cmds => exact h.of_core rfl rfl rfl
  | onAckId ackId => exact h.onAckId ackId
  | acceptReliable packetId isRetransmit =>
    obtain ⟨hw,hn,hc,_⟩ := acceptReliable_core ep packetId isRetransmit
    exact h.of_core (congrArg _ hw) hn hc
  | pollOutbound now elapsedAt ackAt => exact h.poll now elapsedAt ackAt
  | noteRecv clock => exact h.of_core rfl rfl rfl
  | opened flag => exact h.of_core rfl rfl rfl
  | sessionId sessionId => exact h.of_core rfl rfl rfl

/-- Every run from an empty window keeps the ids in order. -/
theorem numbered_run {start : ReliableEndpoint} (hempty : start.inFlight=[])
    (hnext : start.nextSendId.toNat<32768) (hlimit : start.config.maxInFlight=32)
    (calls : List EndpointCall) : Numbered (endpointRun start calls).1 := by
  have hstart : Numbered start := by
    refine ⟨⟨hnext,?_⟩,?_,hlimit⟩
    · intro i entry he
      rw [hempty] at he
      cases he
    · rw [hempty]
      exact Nat.zero_le _
  clear hempty hnext hlimit
  induction calls generalizing start with
  | nil => exact hstart
  | cons c calls ih => exact ih (hstart.call c)

/-- How far an acknowledged id, read in the ring, is ahead of a packet. -/
def aheadOf (packetId ackId : UInt16) : ℕ := (ackId.toNat%32768+32768-packetId.toNat)%32768

/-- The ids in flight count up from the oldest one. -/
theorem Numbered.entry_ahead {ep : ReliableEndpoint} (h : Numbered ep)
    {oldest entry : InFlightEntry} (holdest : ep.inFlight.head?=some oldest) {i : ℕ}
    (hi : ep.inFlight[i]?=some entry) :
    oldest.packetId.toNat<32768 ∧ entry.packetId.toNat=(oldest.packetId.toNat+i)%32768 := by
  rw [List.head?_eq_getElem?] at holdest
  obtain ⟨hlow,hfirst⟩ := h.ids.2 0 oldest holdest
  obtain ⟨hlow',hentry⟩ := h.ids.2 i entry hi
  have hlen := (List.getElem?_eq_some_iff.mp hi).1
  have hsize := h.size
  refine ⟨hlow,?_⟩
  omega

/-- Less than 256 ahead of the oldest packet, the distance says how many go. -/
theorem Numbered.onAckId_near {ep : ReliableEndpoint} (h : Numbered ep) {oldest : InFlightEntry}
    (holdest : ep.inFlight.head?=some oldest) {ackId : UInt16}
    (hnear : aheadOf oldest.packetId ackId<256) :
    (ep.onAckId ackId).inFlight=ep.inFlight.drop (aheadOf oldest.packetId ackId+1) := by
  have hsize := h.size
  unfold ReliableEndpoint.onAckId
  dsimp only
  apply dropWhile_eq_drop
  intro i entry hi
  obtain ⟨hlow,hentry⟩ := h.entry_ahead holdest hi
  have hlen := (List.getElem?_eq_some_iff.mp hi).1
  unfold aheadOf at hnear ⊢
  rw [isAckCovering_iff (by omega),hentry]
  omega

/-- Otherwise the oldest packet is not covered and the window stays. -/
theorem Numbered.onAckId_far {ep : ReliableEndpoint} (h : Numbered ep) {oldest : InFlightEntry}
    (holdest : ep.inFlight.head?=some oldest) {ackId : UInt16}
    (hfar : ¬aheadOf oldest.packetId ackId<256) : (ep.onAckId ackId).inFlight=ep.inFlight := by
  obtain ⟨others,hwindow⟩ := List.head?_eq_some_iff.mp holdest
  have hfirst : ep.inFlight[0]?=some oldest := by rw [hwindow]; rfl
  have hlow := (h.entry_ahead holdest hfirst).1
  have hno : ¬isAckCovering ackId oldest.packetId=true := by
    rw [isAckCovering_iff hlow]
    unfold aheadOf at hfar
    omega
  unfold ReliableEndpoint.onAckId
  dsimp only
  rw [hwindow]
  exact List.dropWhile_cons_of_neg hno

/-- In every state reached from an empty window, whatever is acknowledged: the
id of a packet in flight, read in the ring, removes exactly that packet and the
older ones; any other id empties the window if it is less than 256 ahead of the
oldest packet, and leaves it alone if not. -/
theorem acknowledgement_removes (start : ReliableEndpoint) (hempty : start.inFlight=[])
    (hnext : start.nextSendId.toNat<32768) (hlimit : start.config.maxInFlight=32)
    (calls : List EndpointCall) (ackId : UInt16) :
    (∀ i entry,(endpointRun start calls).1.inFlight[i]?=some entry →
      ackId.toNat%32768=entry.packetId.toNat →
      ((endpointRun start calls).1.onAckId ackId).inFlight=
        (endpointRun start calls).1.inFlight.drop (i+1)) ∧
    ((∀ entry∈(endpointRun start calls).1.inFlight,ackId.toNat%32768≠entry.packetId.toNat) →
      ∀ oldest,(endpointRun start calls).1.inFlight.head?=some oldest →
      ((endpointRun start calls).1.onAckId ackId).inFlight=
        if aheadOf oldest.packetId ackId<256 then []
        else (endpointRun start calls).1.inFlight) := by
  have h := numbered_run hempty hnext hlimit calls
  have hsize := h.size
  constructor
  · intro i entry hi hid
    have hlen := (List.getElem?_eq_some_iff.mp hi).1
    have hne := List.ne_nil_of_length_pos (Nat.zero_lt_of_lt hlen)
    obtain ⟨oldest,holdest⟩ : ∃ oldest,(endpointRun start calls).1.inFlight.head?=some oldest :=
      ⟨_,List.head?_eq_some_head hne⟩
    obtain ⟨hlow,hentry⟩ := h.entry_ahead holdest hi
    have hahead : aheadOf oldest.packetId ackId=i := by
      unfold aheadOf
      rw [hid,hentry]
      omega
    have hnear : aheadOf oldest.packetId ackId<256 := by omega
    rw [h.onAckId_near holdest hnear,hahead]
  · intro hother oldest holdest
    split_ifs with hnear
    · rw [h.onAckId_near holdest hnear]
      apply List.drop_eq_nil_of_le
      by_contra hinside
      -- the distance would be the index of a packet with that id
      have hindex : aheadOf oldest.packetId ackId<(endpointRun start calls).1.inFlight.length := by
        omega
      have hget := List.getElem?_eq_getElem hindex
      obtain ⟨hlow,hentry⟩ := h.entry_ahead holdest hget
      refine hother _ (List.getElem_mem hindex) ?_
      rw [hentry]
      unfold aheadOf
      omega
    · exact h.onAckId_far holdest hnear

/-- An endpoint that has sent two packets. -/
def twoInFlight : List EndpointCall :=
  [.queuePayload [1],.queuePayload [2],.pollOutbound 0 0 0]

/-- Acknowledging the first of two packets removes it. -/
theorem first_acknowledged :
    (((endpointRun (.new 32769 {} 0) twoInFlight).1.onAckId 0).inFlight).map
        InFlightEntry.packetId=[1] ∧
      ∀ i entry,(endpointRun (.new 32769 {} 0) twoInFlight).1.inFlight[i]?=some entry →
        (0 : UInt16).toNat%32768=entry.packetId.toNat →
        ((endpointRun (.new 32769 {} 0) twoInFlight).1.onAckId 0).inFlight=
          (endpointRun (.new 32769 {} 0) twoInFlight).1.inFlight.drop (i+1) :=
  ⟨by decide +kernel,(acknowledgement_removes (.new 32769 {} 0) rfl (by decide) rfl
    twoInFlight 0).1⟩

/-- An id that was never sent empties the window, and an id outside the ring
removes the packet that it stands for. -/
theorem unsent_id_acknowledges :
    (endpointRun (.new 32769 {} 0) twoInFlight).1.inFlight.map InFlightEntry.packetId=[0,1] ∧
      (endpointRun (.new 32769 {} 0) twoInFlight).1.nextSendId=2 ∧
      ((endpointRun (.new 32769 {} 0) twoInFlight).1.onAckId 200).inFlight=[] ∧
      (((endpointRun (.new 32769 {} 0) twoInFlight).1.onAckId 32768).inFlight).map
        InFlightEntry.packetId=[1] := by
  decide +kernel

end AtemProxy.EndpointRuns
