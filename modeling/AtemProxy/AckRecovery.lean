import AtemProxy.ReliableLink

/-!
# After a lost acknowledgement

One loss-free exchange: the left peer polls, the right peer processes every
datagram and polls, the left peer processes every reply. When all packets
of the window were accepted before, the repeated ones are refused and only
answered by retransmit requests, so the exchange empties the window exactly
when the right peer still owes an acknowledgement or accepts a new packet.
-/

namespace AtemProxy.AckRecovery

open BigEndian PacketCodec ReliableTransport ReliableWindow ReliableLink GuardedRuns

/-- Process datagrams one after the other and collect the replies. -/
def handleAll (clock : Instant) (dump : Option (List Bytes)) :
    List Bytes → Peer → Peer×List Bytes
  | [],p => (p,[])
  | bytes::batch,p =>
    let handled := p.handleDatagram clock dump bytes
    let others := handleAll clock dump batch handled.1
    (others.1,handled.2++others.2)

/-- Clock readings of one exchange, and what each side queues if it opens. -/
structure Exchange where
  /-- Time of the left peer's poll. -/
  now : Instant
  /-- Clock of its coalescing test. -/
  elapsedAt : Instant
  /-- Clock of its acknowledgement. -/
  ackAt : Instant
  /-- Clock of the right peer's receptions. -/
  heardAt : Instant
  /-- Time of the right peer's poll. -/
  replyNow : Instant
  /-- Clock of its coalescing test. -/
  replyElapsedAt : Instant
  /-- Clock of its acknowledgement. -/
  replyAckAt : Instant
  /-- Clock of the left peer's receptions. -/
  doneAt : Instant
  /-- Dump of the right peer. -/
  rightDump : Option (List Bytes)
  /-- Dump of the left peer. -/
  leftDump : Option (List Bytes)

/-- The left peer after a loss-free exchange. -/
def exchange (l : Link) (e : Exchange) : Peer :=
  let polled := l.left.pollOutbound e.now e.elapsedAt e.ackAt
  let handled := handleAll e.heardAt e.rightDump polled.2 l.right
  let replied := handled.1.pollOutbound e.replyNow e.replyElapsedAt e.replyAckAt
  (handleAll e.doneAt e.leftDump (handled.2++replied.2) polled.1).1

/-- The datagrams repeat packets already accepted, carry the next packet of
those sent, or acknowledge; the count of accepted packets moves from the
first number to the second. Repetitions are not older than the window. -/
inductive InOrder (low : ℕ) (sent : List Packet) : ℕ → List Bytes → ℕ → Prop
  /-- Nothing left. -/
  | done (n : ℕ) : InOrder low sent n [] n
  /-- A repetition. -/
  | old {n k m : ℕ} {packet : Packet} {bytes : Bytes} {batch : List Bytes} (hlow : low≤k)
      (hk : k<n) (hp : sent[k]?=some packet) (hc : Carries bytes packet)
      (others : InOrder low sent n batch m) : InOrder low sent n (bytes::batch) m
  /-- The next packet. -/
  | next {n m : ℕ} {packet : Packet} {bytes : Bytes} {batch : List Bytes}
      (hp : sent[n]?=some packet) (hc : Carries bytes packet)
      (others : InOrder low sent (n+1) batch m) : InOrder low sent n (bytes::batch) m
  /-- An acknowledgement of the opposite direction. -/
  | ack {n m : ℕ} {ackId : UInt16} {bytes : Bytes} {batch : List Bytes}
      (ha : Acknowledges bytes ackId) (others : InOrder low sent n batch m) :
      InOrder low sent n (bytes::batch) m

/-- Batches that follow each other. -/
theorem InOrder.append {low : ℕ} {sent : List Packet} {a b c : ℕ} {xs ys : List Bytes}
    (h : InOrder low sent a xs b) (h' : InOrder low sent b ys c) :
    InOrder low sent a (xs++ys) c := by
  induction h with
  | done n => exact h'
  | old hlow hk hp hc _ ih => exact .old hlow hk hp hc (ih h')
  | next hp hc _ ih => exact .next hp hc (ih h')
  | ack ha _ ih => exact .ack ha (ih h')

/-- More packets may have been sent meanwhile. -/
theorem InOrder.mono {low : ℕ} {sent sent' : List Packet} {a b : ℕ} {batch : List Bytes}
    (h : InOrder low sent a batch b) (hpre : sent<+:sent') : InOrder low sent' a batch b := by
  induction h with
  | done n => exact .done n
  | old hlow hk hp hc _ ih => exact .old hlow hk (getElem?_extended hpre hp) hc ih
  | next hp hc _ ih => exact .next (getElem?_extended hpre hp) hc ih
  | ack ha _ ih => exact .ack ha ih

/-- A batch that only repeats packets sent before. -/
theorem InOrder.of_old {low n : ℕ} {sent : List Packet} {batch : List Bytes}
    (h : ∀ bytes∈batch,∃ k packet,low≤k ∧ k<n ∧ sent[k]?=some packet ∧ Carries bytes packet) :
    InOrder low sent n batch n := by
  induction batch with
  | nil => exact .done n
  | cons bytes batch ih =>
    obtain ⟨k,packet,hlow,hk,hp,hc⟩ := h bytes List.mem_cons_self
    exact .old hlow hk hp hc (ih (fun b hb => h b (List.mem_cons_of_mem _ hb)))

/-- A retransmission repeats the window. -/
theorem retransmitPhase_inOrder {acked sent : List Packet} {ep : ReliableEndpoint}
    (hw : Windowed acked sent ep) (hf : AllFramed ep) (now : Instant) :
    InOrder acked.length sent sent.length (ep.retransmitPhase now).2 sent.length := by
  unfold ReliableEndpoint.retransmitPhase
  split
  · exact .done _
  · split
    · apply InOrder.of_old
      intro bytes hb
      obtain ⟨entry,hmem,rfl⟩ := List.mem_map.mp hb
      obtain ⟨i,hi⟩ := List.mem_iff_getElem?.mp hmem
      have hilt := (List.getElem?_eq_some_iff.mp hi).1
      refine ⟨acked.length+i,packetOf entry,Nat.le_add_right _ _,?_,
        (hw.entry_number hi).1,(hf entry hmem).patch_carries⟩
      rw [hw.length_eq]
      omega
    · exact .done _

/-- Sending emits the packet it appends. -/
theorem sendReliable_carries (ep : ReliableEndpoint) (payload : Bytes) (now : Instant) :
    Carries (ep.sendReliable payload now).2 ⟨ep.nextSendId,wirePayload payload⟩ :=
  ⟨_,decodePacket_encodePacket _ _,rfl,rfl,rfl,rfl⟩

/-- A phase that sends nothing is in order. -/
theorem inOrder_nothing {acked sent : List Packet} {ep : ReliableEndpoint}
    (hw : Windowed acked sent ep) (low : ℕ) :
    Windowed acked (sent++[]) ep ∧
      InOrder low (sent++[]) sent.length [] (sent++[]).length := by
  rw [List.append_nil]
  exact ⟨hw,.done _⟩

/-- A refill sends new packets in order, and none exactly when nothing
waits or the window is full. -/
theorem refillLoop_inOrder {acked sent : List Packet} {ep : ReliableEndpoint}
    (hw : Windowed acked sent ep) (low : ℕ) (now : Instant) (queue : List Bytes) :
    ∃ new, Windowed acked (sent++new) (ReliableEndpoint.refillLoop now queue ep).1 ∧
      InOrder low (sent++new) sent.length (ReliableEndpoint.refillLoop now queue ep).2
        (sent++new).length ∧
      (new≠[] ↔ queue≠[] ∧ ep.inFlight.length<32) := by
  induction queue generalizing sent ep with
  | nil =>
    have hkept : Windowed acked sent {ep with outbound := []} := hw.of_core rfl rfl rfl
    obtain ⟨hwindowed,horder⟩ := inOrder_nothing hkept low
    exact ⟨[],hwindowed,horder,fun h => absurd rfl h,fun h => absurd rfl h.1⟩
  | cons payload queue ih =>
    rw [ReliableEndpoint.refillLoop]
    split
    · rename_i hroom
      rw [hw.limit] at hroom
      obtain ⟨new,hw',horder,_⟩ := ih (hw.sendReliable hroom payload now)
      rw [List.length_append,List.length_singleton] at horder
      refine ⟨⟨ep.nextSendId,wirePayload payload⟩::new,?_,?_,?_⟩
      · rwa [←List.append_cons] at hw'
      · rw [←List.append_cons] at horder
        exact .next (by rw [List.getElem?_append_right (Nat.le_refl _),Nat.sub_self]; rfl)
          (sendReliable_carries ep payload now) horder
      · exact ⟨fun _ => ⟨List.cons_ne_nil _ _,hroom⟩,fun _ => List.cons_ne_nil _ _⟩
    · rename_i hfull
      rw [hw.limit] at hfull
      have hkept : Windowed acked sent {ep with outbound := payload::queue} :=
        hw.of_core rfl rfl rfl
      obtain ⟨hwindowed,horder⟩ := inOrder_nothing hkept low
      exact ⟨[],hwindowed,horder,fun h => absurd rfl h,fun h => absurd h.2 hfull⟩

/-- An acknowledgement carries no packet. -/
theorem ackPhase_inOrder (ep : ReliableEndpoint) (low n : ℕ) (sent : List Packet)
    (elapsedAt ackAt : Instant) : InOrder low sent n (ep.ackPhase elapsedAt ackAt).2 n := by
  unfold ReliableEndpoint.ackPhase ReliableEndpoint.buildAckPacket
  split
  · cases ep.ack.highestRecv with
    | none => exact .done n
    | some ackId => exact .ack (ackHeader_acknowledges _ _) (.done n)
  · exact .done n

/-- A keepalive is a new packet, and an idle window is its condition. -/
theorem pingPhase_inOrder {acked sent : List Packet} {ep : ReliableEndpoint}
    (hw : Windowed acked sent ep) (low : ℕ) (now : Instant) :
    ∃ new, Windowed acked (sent++new) (ep.pingPhase now).1 ∧
      InOrder low (sent++new) sent.length (ep.pingPhase now).2 (sent++new).length ∧
      (ep.inFlight≠[] → new=[]) := by
  unfold ReliableEndpoint.pingPhase
  split
  · rename_i hping
    have hroom : ep.inFlight.length<32 := by
      rw [hping.2.1]
      exact Nat.zero_lt_succ 31
    refine ⟨_,(hw.sendReliable hroom [] now).of_core rfl rfl rfl,?_,
      fun h => absurd hping.2.1 h⟩
    refine .next ?_ (sendReliable_carries ep [] now) ?_
    · rw [List.getElem?_append_right (Nat.le_refl _),Nat.sub_self]
      rfl
    · rw [List.length_append,List.length_singleton]
      exact .done _
  · refine ⟨[],?_,?_,fun _ => rfl⟩
    · rwa [List.append_nil]
    · rw [List.append_nil]
      exact .done _

/-- A retransmission leaves queue, numbering and packets alone. -/
theorem retransmitPhase_keeps (ep : ReliableEndpoint) (now : Instant) :
    (ep.retransmitPhase now).1.outbound=ep.outbound ∧
      (ep.retransmitPhase now).1.nextSendId=ep.nextSendId ∧
      (ep.retransmitPhase now).1.inFlight.map packetOf=ep.inFlight.map packetOf := by
  unfold ReliableEndpoint.retransmitPhase
  split
  · exact ⟨rfl,rfl,rfl⟩
  · split
    · exact ⟨rfl,rfl,map_packetOf_resent _ now⟩
    · exact ⟨rfl,rfl,rfl⟩

/-- One poll emits repetitions and then new packets, in order. While the
window is busy, new packets are sent exactly if some wait and fit. -/
theorem pollOutbound_inOrder {acked sent : List Packet} {ep : ReliableEndpoint}
    (hw : Windowed acked sent ep) (hf : AllFramed ep) (now elapsedAt ackAt : Instant) :
    ∃ new, Windowed acked (sent++new) (ep.pollOutbound now elapsedAt ackAt).1 ∧
      InOrder acked.length (sent++new) sent.length (ep.pollOutbound now elapsedAt ackAt).2
        (sent++new).length ∧
      (ep.inFlight≠[] → (new≠[] ↔ ep.outbound≠[] ∧ ep.inFlight.length<32)) := by
  obtain ⟨hout,hnext,hwindow⟩ := retransmitPhase_keeps ep now
  have hw₁ := hw.of_core hwindow hnext (retransmitPhase_ack ep now).2
  have hlen : (ep.retransmitPhase now).1.inFlight.length=ep.inFlight.length := by
    have hmap := congrArg List.length hwindow
    rwa [List.length_map,List.length_map] at hmap
  obtain ⟨new,hw₂,horder,hnew⟩ :=
    refillLoop_inOrder hw₁ acked.length now (ep.retransmitPhase now).1.outbound
  rw [hout,hlen] at hnew
  obtain ⟨hack,hacknext,hackconfig,_⟩ := ackPhase_core (refilled ep now) elapsedAt ackAt
  have hw₃ : Windowed acked (sent++new) ((refilled ep now).ackPhase elapsedAt ackAt).1 :=
    hw₂.of_core (by rw [hack]; rfl) hacknext hackconfig
  obtain ⟨new',hw₄,hping,hidle⟩ := pingPhase_inOrder hw₃ acked.length now
  refine ⟨new++new',by rw [←List.append_assoc]; exact hw₄,?_,?_⟩
  · rw [←List.append_assoc]
    have hpre : sent++new<+:sent++new++new' := List.prefix_append _ _
    have hrepeat := ((retransmitPhase_inOrder hw hf now).mono (List.prefix_append sent new)).mono
      hpre
    exact ((hrepeat.append (horder.mono hpre)).append
      (ackPhase_inOrder _ _ _ _ elapsedAt ackAt)).append hping
  · intro hbusy
    have hbusy' : ((refilled ep now).ackPhase elapsedAt ackAt).1.inFlight≠[] := by
      intro hnil
      have hsplit := hw₃.length_eq
      rw [hnil,List.length_nil,List.length_append,hw.length_eq] at hsplit
      have hpos := List.length_pos_of_ne_nil hbusy
      omega
    rw [hidle hbusy',List.append_nil]
    exact hnew

/-- What processing a batch does to a receiver: it has accepted `m` packets
in order, answered only by retransmit requests, and owes an acknowledgement
exactly if it did before or accepted something. -/
structure Handled (sent : List Packet) (m : ℕ) (p : Peer) (result : Peer×List Bytes) : Prop where
  /-- Receive side. -/
  receiving : Receiving sent result.1.accepted result.1.ep.ack
  /-- Packets accepted. -/
  count : result.1.accepted.length=m
  /-- Window framing. -/
  framed : AllFramed p.ep → AllFramed result.1.ep
  /-- Settings. -/
  config : result.1.ep.config=p.ep.config
  /-- No acknowledgement was sent. -/
  lastAck : result.1.ep.ack.lastAckSentAt=p.ep.ack.lastAckSentAt
  /-- Acknowledgement owed. -/
  owed : 0 < result.1.ep.ack.packetsSinceAck ↔
    0<p.ep.ack.packetsSinceAck ∨ p.accepted.length < m
  /-- Replies. -/
  replies : ∀ bytes∈result.2,Silent bytes

/-- Batches are handled one after the other. -/
theorem Handled.trans {sent : List Packet} {k m : ℕ} {p p₁ p₂ : Peer} {out out' : List Bytes}
    (h : Handled sent k p (p₁,out)) (h' : Handled sent m p₁ (p₂,out'))
    (hle : p.accepted.length≤k) (hle' : k ≤ m) : Handled sent m p (p₂,out++out') where
  receiving := h'.receiving
  count := h'.count
  framed hf := h'.framed (h.framed hf)
  config := h'.config.trans h.config
  lastAck := h'.lastAck.trans h.lastAck
  owed := by
    rw [h'.owed,h.owed,h.count]
    omega
  replies bytes hb := by
    rcases List.mem_append.mp hb with hb | hb
    · exact h.replies bytes hb
    · exact h'.replies bytes hb

/-- A datagram that leaves the receive side alone. -/
theorem handled_unchanged {sent : List Packet} {p p' : Peer} {out : List Bytes}
    (h : Receiving sent p.accepted p.ep.ack) (hacc : p'.accepted=p.accepted)
    (hack : p'.ep.ack=p.ep.ack) (hconfig : p'.ep.config=p.ep.config)
    (hwindow : p'.ep.inFlight⊆p.ep.inFlight) (hout : ∀ bytes∈out,Silent bytes) :
    Handled sent p.accepted.length p (p',out) where
  receiving := by
    dsimp only
    rw [hacc,hack]
    exact h
  count := congrArg List.length hacc
  framed hf entry hmem := hf entry (hwindow hmem)
  config := hconfig
  lastAck := congrArg AckState.lastAckSentAt hack
  owed := by
    dsimp only
    rw [hack]
    omega
  replies := hout

/-- A counter that was raised is not zero. -/
theorem saturatingSucc16_pos (n : ℕ) : 0 < saturatingSucc16 n := by
  unfold saturatingSucc16
  omega

/-- A repetition is refused. -/
theorem handleDatagram_old {low k : ℕ} {sent : List Packet} {packet : Packet} {bytes : Bytes}
    {p : Peer} (h : Receiving sent p.accepted p.ep.ack) (hnear : sent.length≤low+32)
    (hnum : packet.packetId.toNat=(k+1)%32768) (hlow : low≤k) (hk : k<p.accepted.length)
    (hc : Carries bytes packet) (clock : Instant) (dump : Option (List Bytes)) :
    Handled sent p.accepted.length p (p.handleDatagram clock dump bytes) := by
  obtain ⟨header,hid,heq⟩ := Peer.handleDatagram_of_carries hc p clock dump
  have hne : header.packetId≠(p.heard clock).ep.ack.expectedRecv := by
    intro hexp
    have he := h.expected
    have hle := h.inOrder.length_le
    rw [←show header.packetId=p.ep.ack.expectedRecv from hexp,hid,hnum] at he
    omega
  rw [heq,Peer.acceptReliable_of_ne hne]
  refine handled_unchanged h rfl rfl rfl (fun _ hm => hm) ?_
  intro reply hb
  rw [List.mem_singleton.mp hb]
  exact buildRetransmitRequest_silent _

/-- The next packet is accepted. -/
theorem handleDatagram_next {sent : List Packet} {packet : Packet} {bytes : Bytes} {p : Peer}
    (h : Receiving sent p.accepted p.ep.ack)
    (hnum : packet.packetId.toNat=(p.accepted.length+1)%32768)
    (hp : sent[p.accepted.length]?=some packet) (hc : Carries bytes packet) (clock : Instant)
    (dump : Option (List Bytes)) :
    Handled sent (p.accepted.length+1) p (p.handleDatagram clock dump bytes) := by
  obtain ⟨header,hid,heq⟩ := Peer.handleDatagram_of_carries hc p clock dump
  have hturn : packet.packetId=p.ep.ack.expectedRecv :=
    UInt16.toNat_inj.mp (hnum.trans h.expected.symm)
  have hr := h.acceptReliable hp hturn true
  unfold ReliableEndpoint.acceptReliable at hr
  rw [if_pos hturn] at hr
  have hexp : header.packetId=(p.heard clock).ep.ack.expectedRecv := hid.trans hturn
  rw [heq,Peer.acceptReliable_of_eq hexp]
  have hpk : (⟨header.packetId,packet.payload⟩ : Packet)=packet := by rw [hid]
  rw [hpk,hid]
  exact {
    receiving := hr
    count := by
      change (p.accepted++[packet]).length=_
      rw [List.length_append,List.length_singleton]
    framed := id
    config := rfl
    lastAck := rfl
    owed := ⟨fun _ => Or.inr (Nat.lt_succ_self _),fun _ => saturatingSucc16_pos _⟩
    replies := fun _ hb => absurd hb List.not_mem_nil }

/-- An acknowledgement of the opposite direction leaves the receive side alone. -/
theorem handleDatagram_ack {sent : List Packet} {ackId : UInt16} {bytes : Bytes} {p : Peer}
    (h : Receiving sent p.accepted p.ep.ack) (ha : Acknowledges bytes ackId) (clock : Instant)
    (dump : Option (List Bytes)) :
    Handled sent p.accepted.length p (p.handleDatagram clock dump bytes) := by
  rw [Peer.handleDatagram_of_acknowledges ha]
  obtain ⟨_,_,hacc,hack,hwindow,hconfig⟩ :=
    Peer.openWith_fields ((p.heard clock).onAckId ackId) dump
  refine handled_unchanged h hacc hack hconfig ?_ (fun _ hb => absurd hb List.not_mem_nil)
  rw [hwindow]
  exact (onAckId_suffix p.ep ackId).subset

/-- A batch never goes back. -/
theorem InOrder.le {low n m : ℕ} {sent : List Packet} {batch : List Bytes}
    (h : InOrder low sent n batch m) : n ≤ m := by
  induction h with
  | done n => exact Nat.le_refl n
  | old _ _ _ _ _ ih => exact ih
  | next _ _ _ ih => exact Nat.le_of_succ_le ih
  | ack _ _ ih => exact ih

/-- A batch in order is accepted as far as it goes. -/
theorem handleAll_inOrder {low n m : ℕ} {sent : List Packet} {batch : List Bytes}
    (horder : InOrder low sent n batch m) (hnear : sent.length≤low+32)
    (hnum : ∀ i packet,sent[i]?=some packet → packet.packetId.toNat=(i+1)%32768)
    (clock : Instant) (dump : Option (List Bytes)) {p : Peer} (hn : p.accepted.length=n)
    (h : Receiving sent p.accepted p.ep.ack) :
    Handled sent m p (handleAll clock dump batch p) := by
  induction horder generalizing p with
  | done n =>
    subst hn
    exact handled_unchanged h rfl rfl rfl (fun _ hm => hm)
      (fun _ hb => absurd hb List.not_mem_nil)
  | old hlow hk hp hc others ih =>
    subst hn
    have hfirst := handleDatagram_old h hnear (hnum _ _ hp) hlow hk hc clock dump
    exact hfirst.trans (ih hfirst.count hfirst.receiving) (Nat.le_refl _) others.le
  | next hp hc others ih =>
    subst hn
    have hfirst := handleDatagram_next h (hnum _ _ hp) hp hc clock dump
    exact hfirst.trans (ih hfirst.count hfirst.receiving) (Nat.le_succ _) others.le
  | ack ha others ih =>
    subst hn
    have hfirst := handleDatagram_ack h ha clock dump
    exact hfirst.trans (ih hfirst.count hfirst.receiving) (Nat.le_refl _) others.le

/-- Processing a datagram only shortens the window, from the front. -/
theorem handleDatagram_window (p : Peer) (clock : Instant) (dump : Option (List Bytes))
    (bytes : Bytes) :
    (p.handleDatagram clock dump bytes).1.ep.inFlight<:+p.ep.inFlight ∧
      (p.handleDatagram clock dump bytes).1.sent=p.sent := by
  have hacknowledged : ∀ (q : Peer) (header : PacketHeader),
      (q.acknowledged header dump).ep.inFlight<:+q.ep.inFlight ∧
        (q.acknowledged header dump).sent=q.sent := by
    intro q header
    unfold Peer.acknowledged
    split
    · obtain ⟨hsent,_,_,_,hwindow,_⟩ := Peer.openWith_fields (q.onAckId header.ackId) dump
      rw [hwindow,hsent]
      exact ⟨onAckId_suffix q.ep header.ackId,rfl⟩
    · exact ⟨List.suffix_rfl,rfl⟩
  unfold Peer.handleDatagram
  split
  · exact ⟨List.suffix_rfl,rfl⟩
  · rename_i header payload _
    have hq := hacknowledged {p with ep := p.ep.noteRecv clock} header
    dsimp only
    split
    · by_cases hid : header.packetId=
          (({p with ep := p.ep.noteRecv clock} : Peer).acknowledged header dump).ep.ack.expectedRecv
      · rw [Peer.acceptReliable_of_eq hid]
        exact hq
      · rw [Peer.acceptReliable_of_ne hid]
        exact hq
    · exact hq

/-- Handling datagrams only removes packets from the window, the oldest first. -/
theorem handleAll_window (clock : Instant) (dump : Option (List Bytes)) (batch : List Bytes)
    (p : Peer) :
    (handleAll clock dump batch p).1.ep.inFlight<:+p.ep.inFlight := by
  induction batch generalizing p with
  | nil => exact List.suffix_rfl
  | cons bytes batch ih =>
    exact (ih (p.handleDatagram clock dump bytes).1).trans
      (handleDatagram_window p clock dump bytes).1

/-- Replies without an acknowledgement leave the window as it is. -/
theorem handleAll_quiet {batch : List Bytes}
    (h : ∀ bytes∈batch,Silent bytes ∨ ∃ packet,Carries bytes packet) (clock : Instant)
    (dump : Option (List Bytes)) (p : Peer) :
    (handleAll clock dump batch p).1.ep.inFlight=p.ep.inFlight := by
  induction batch generalizing p with
  | nil => rfl
  | cons bytes batch ih =>
    have hfirst : (p.handleDatagram clock dump bytes).1.ep.inFlight=p.ep.inFlight := by
      rcases h bytes List.mem_cons_self with hsilent | ⟨packet,hc⟩
      · rw [Peer.handleDatagram_of_silent hsilent]
        rfl
      · obtain ⟨header,_,heq⟩ := Peer.handleDatagram_of_carries hc p clock dump
        rw [heq]
        by_cases hid : header.packetId=(p.heard clock).ep.ack.expectedRecv
        · rw [Peer.acceptReliable_of_eq hid]
          rfl
        · rw [Peer.acceptReliable_of_ne hid]
          rfl
    exact (ih (fun b hb => h b (List.mem_cons_of_mem _ hb)) _).trans hfirst

/-- An acknowledgement of the last packet sent empties the window. -/
theorem handleAll_acknowledged {batch : List Bytes} {bytes : Bytes} {ackId : UInt16}
    (hmem : bytes∈batch) (ha : Acknowledges bytes ackId) (clock : Instant)
    (dump : Option (List Bytes)) {p : Peer} (h : Sending p)
    (hid : ackId.toNat%32768=p.sent.length%32768) :
    (handleAll clock dump batch p).1.ep.inFlight=[] := by
  induction batch generalizing p with
  | nil => cases hmem
  | cons first batch ih =>
    rcases List.mem_cons.mp hmem with rfl | hmem
    · have hempty : (p.handleDatagram clock dump bytes).1.ep.inFlight=[] := by
        rw [Peer.handleDatagram_of_acknowledges ha]
        obtain ⟨_,_,_,_,hwindow,_⟩ :=
          Peer.openWith_fields ((p.heard clock).onAckId ackId) dump
        rw [hwindow]
        have hlen := h.windowed.length_eq
        have hdrop := h.windowed.onAckId_inFlight (Nat.le_refl _) (Nat.le_add_right _ _) hid
        change (p.ep.onAckId ackId).inFlight=[]
        rw [hdrop,List.drop_eq_nil_iff]
        omega
      have hsuffix := handleAll_window clock dump batch (p.handleDatagram clock dump bytes).1
      rw [hempty,List.suffix_nil] at hsuffix
      exact hsuffix
    · apply ih hmem (h.handleDatagram clock dump first)
      rw [(handleDatagram_window p clock dump first).2]
      exact hid

/-- With the coalescing time elapsed, an acknowledgement is due exactly if
a packet was accepted since the last one. -/
theorem shouldSendAck_iff {ep : ReliableEndpoint} {elapsedAt : Instant}
    (hcount : ep.config.ackCoalesceCount=16)
    (hpending : 0<ep.ack.packetsSinceAck → ep.ack.highestRecv≠none)
    (helapsed : ∀ t,ep.ack.lastAckSentAt=some t → ep.config.ackCoalesceAfter≤elapsedAt-t) :
    ep.shouldSendAck elapsedAt=true ↔ 0<ep.ack.packetsSinceAck := by
  unfold ReliableEndpoint.shouldSendAck
  rw [hcount]
  cases hhigh : ep.ack.highestRecv with
  | none =>
    have hzero : ¬0<ep.ack.packetsSinceAck := fun hpos => hpending hpos hhigh
    exact ⟨fun h => (by cases h),fun h => absurd h hzero⟩
  | some ackId =>
    dsimp only
    split
    · rename_i hmany
      exact ⟨fun _ => by omega,fun _ => rfl⟩
    · cases hlast : ep.ack.lastAckSentAt with
      | none => exact decide_eq_true_iff
      | some t =>
        dsimp only
        rw [decide_eq_true_iff]
        exact and_iff_left (helapsed t hlast)

/-- A due acknowledgement is among the datagrams of the poll. -/
theorem pollOutbound_acks {ep : ReliableEndpoint} {elapsedAt : Instant}
    (h : ep.shouldSendAck elapsedAt=true) {ackId : UInt16}
    (hhigh : ep.ack.highestRecv=some ackId) (now ackAt : Instant) :
    ∃ bytes∈(ep.pollOutbound now elapsedAt ackAt).2,Acknowledges bytes ackId := by
  refine ⟨encodePacket (ReliableEndpoint.ackHeader (refilled ep now).sessionId ackId) [],
    ?_,ackHeader_acknowledges _ _⟩
  have hack : ((refilled ep now).ackPhase elapsedAt ackAt).2=
      [encodePacket (ReliableEndpoint.ackHeader (refilled ep now).sessionId ackId) []] := by
    unfold ReliableEndpoint.ackPhase ReliableEndpoint.buildAckPacket
    rw [if_pos ((shouldSendAck_refilled ep now elapsedAt).trans h),(refilled_ack ep now).1,hhigh]
    rfl
  have hpoll : (ep.pollOutbound now elapsedAt ackAt).2=
      (ep.retransmitPhase now).2++((ep.retransmitPhase now).1.refillPhase now).2++
        ((refilled ep now).ackPhase elapsedAt ackAt).2++
          (((refilled ep now).ackPhase elapsedAt ackAt).1.pingPhase now).2 := rfl
  rw [hpoll,hack]
  exact List.mem_append_left _ (List.mem_append_right _ (List.mem_singleton_self _))

/-- The right peer after the datagrams of the left peer's poll. -/
def receiverAfter (l : Link) (e : Exchange) : Peer×List Bytes :=
  handleAll e.heardAt e.rightDump (l.left.pollOutbound e.now e.elapsedAt e.ackAt).2 l.right

/-- First half of an exchange: the left peer adds new packets to its window
and the right peer accepts all of them. -/
structure Delivered (l : Link) (e : Exchange) (new : List Packet) : Prop where
  /-- Sender after its poll. -/
  sending : Sending (l.left.pollOutbound e.now e.elapsedAt e.ackAt).1
  /-- Packets sent. -/
  sent : (l.left.pollOutbound e.now e.elapsedAt e.ackAt).1.sent=l.left.sent++new
  /-- Packets in the window. -/
  window : (l.left.pollOutbound e.now e.elapsedAt e.ackAt).1.ep.inFlight.length=
    l.left.ep.inFlight.length+new.length
  /-- With a window in use, only queued payloads are new. -/
  room : l.left.ep.inFlight≠[] →
    (new≠[] ↔ l.left.ep.outbound≠[] ∧ l.left.ep.inFlight.length<32)
  /-- Receiver. -/
  handled : Handled (l.left.sent++new) (l.left.sent++new).length l.right (receiverAfter l e)

/-- The first half of an exchange once all packets were accepted. -/
theorem exists_delivered {l : Link} (hl : Linked l) (hall : l.right.accepted=l.left.sent)
    (e : Exchange) : ∃ new,Delivered l e new := by
  obtain ⟨new,hw,horder,hnew⟩ := pollOutbound_inOrder hl.sending.windowed hl.sending.framed
    e.now e.elapsedAt e.ackAt
  have hlen := hw.length_eq
  have hlen₀ := hl.sending.windowed.length_eq
  rw [List.length_append,hlen₀] at hlen
  have hnear : (l.left.sent++new).length≤l.left.acked.length+32 := by
    have hbound := hw.bounded
    rw [List.length_append]
    omega
  have hcount : l.right.accepted.length=l.left.sent.length := congrArg List.length hall
  have hreceiving : Receiving (l.left.sent++new) l.right.accepted l.right.ep.ack :=
    {hl.receiving with inOrder := hl.receiving.inOrder.trans (List.prefix_append _ _)}
  refine ⟨new,hl.sending.pollOutbound e.now e.elapsedAt e.ackAt,hl.sending.pollOutbound_sent hw,
    ?_,hnew,handleAll_inOrder horder hnear hw.numbered e.heardAt e.rightDump hcount hreceiving⟩
  change (l.left.ep.pollOutbound e.now e.elapsedAt e.ackAt).1.inFlight.length=_
  omega

/-- The receiver's acknowledgement covers everything sent. -/
theorem Delivered.exchange_acknowledged {l : Link} {e : Exchange} {new : List Packet}
    (h : Delivered l e new) (howed : 0 < (receiverAfter l e).1.ep.ack.packetsSinceAck)
    (hdue : (receiverAfter l e).1.ep.shouldSendAck e.replyElapsedAt=true) :
    (exchange l e).ep.inFlight=[] := by
  have hack := h.handled.receiving.pending howed
  obtain ⟨ackId,hhigh⟩ := Option.ne_none_iff_exists'.mp hack
  obtain ⟨bytes,hmem,ha⟩ := pollOutbound_acks hdue hhigh e.replyNow e.replyAckAt
  have hid := h.handled.receiving.highest ackId hhigh
  rw [h.handled.count,←h.sent] at hid
  exact handleAll_acknowledged (List.mem_append_right _ hmem) ha e.doneAt e.leftDump h.sending hid

/-- Without an acknowledgement the window stays as the poll left it. -/
theorem Delivered.exchange_unacknowledged {l : Link} {e : Exchange} {new : List Packet}
    (h : Delivered l e new) (hframed : AllFramed l.right.ep)
    (hdue : (receiverAfter l e).1.ep.shouldSendAck e.replyElapsedAt=false) :
    (exchange l e).ep.inFlight=
      (l.left.pollOutbound e.now e.elapsedAt e.ackAt).1.ep.inFlight := by
  have hquiet := pollOutbound_quiet hdue e.replyNow e.replyAckAt
  apply handleAll_quiet
  intro bytes hb
  rcases List.mem_append.mp hb with hb | hb
  · exact Or.inl (h.handled.replies bytes hb)
  · rcases hquiet.emits (h.handled.framed hframed) bytes hb with ⟨entry,_,hc⟩ | ⟨_,hno,_⟩
    · exact Or.inr ⟨packetOf entry,hc⟩
    · cases hno

/-- Once every packet sent was accepted, an exchange empties the window
exactly if it is empty already, the receiver owes an acknowledgement, or the
sender has a queued payload and room to send it. Repetitions alone never
bring the lost acknowledgement back. -/
theorem exchange_empties_iff {l₀ l : Link} {actions : List Action} (h : Fresh l₀)
    (hrun : run step l₀ actions=some l) (hall : l.right.accepted=l.left.sent) (e : Exchange)
    (helapsed : ∀ t,l.right.ep.ack.lastAckSentAt=some t →
      l.right.ep.config.ackCoalesceAfter≤e.replyElapsedAt-t) :
    (exchange l e).ep.inFlight=[] ↔
      l.left.ep.inFlight=[] ∨ 0<l.right.ep.ack.packetsSinceAck ∨
        (l.left.ep.outbound≠[] ∧ l.left.ep.inFlight.length<32) := by
  have hl := linked_run h hrun
  obtain ⟨new,hd⟩ := exists_delivered hl hall e
  have hcount : l.right.accepted.length=l.left.sent.length := congrArg List.length hall
  have howed := hd.handled.owed
  rw [List.length_append,hcount] at howed
  have hdue := @shouldSendAck_iff _ e.replyElapsedAt
    (by rw [hd.handled.config]; exact hl.coalesce) hd.handled.receiving.pending
    (by rw [hd.handled.lastAck,hd.handled.config]; exact helapsed)
  -- The receiver's poll decides: it acknowledges exactly if something is owed.
  by_cases hpos : 0<l.right.ep.ack.packetsSinceAck ∨
      l.left.sent.length < l.left.sent.length+new.length
  · have hempty := hd.exchange_acknowledged (howed.mpr hpos) (hdue.mpr (howed.mpr hpos))
    refine ⟨fun _ => ?_,fun _ => hempty⟩
    rcases hpos with hpos | hpos
    · exact Or.inr (Or.inl hpos)
    · by_cases hbusy : l.left.ep.inFlight=[]
      · exact Or.inl hbusy
      · refine Or.inr (Or.inr ((hd.room hbusy).mp ?_))
        exact List.ne_nil_of_length_pos (by omega)
  · have hidle := Bool.eq_false_iff.mpr (fun hsend => hpos (howed.mp (hdue.mp hsend)))
    have hnone : new=[] := List.eq_nil_of_length_eq_zero (by omega)
    have hwindow := hd.window
    rw [hnone,List.length_nil,Nat.add_zero] at hwindow
    rw [hd.exchange_unacknowledged hl.framed hidle,←List.length_eq_zero_iff,hwindow,
      List.length_eq_zero_iff]
    refine ⟨Or.inl,?_⟩
    rintro (hempty | howing | hroom)
    · exact hempty
    · exact absurd (Or.inl howing) hpos
    · by_contra hbusy
      exact (hd.room hbusy).mpr hroom hnone

/-- A packet is accepted and its only acknowledgement is lost. -/
def lostAckRun : List Action :=
  [.queuePayload .left [7],.pollOutbound .left 0 0 0,.deliver .right 0 1 none,
    .pollOutbound .right 2 2 2,.lose .left 0]

/-- The link in that state. -/
def lostAckLink : Link :=
  (run step (linkStart (.forUpstream 1 0 0) (.forSession 1 0)) lostAckRun).getD
    (linkStart (.forUpstream 1 0 0) (.forSession 1 0))

/-- Clock readings long after the loss. -/
def laterExchange : Exchange := ⟨100,100,100,101,102,102,102,103,none,none⟩

/-- Every packet was accepted, nothing is under way, all timers expired, and
the exchange leaves the window as it was. -/
theorem lostAck_not_recovered :
    run step (linkStart (.forUpstream 1 0 0) (.forSession 1 0)) lostAckRun=some lostAckLink ∧
      lostAckLink.toLeft=[] ∧ lostAckLink.toRight=[] ∧
      lostAckLink.right.accepted=lostAckLink.left.sent ∧
      lostAckLink.left.ep.inFlight.map (fun entry => entry.sentAt)=[0] ∧
      lostAckLink.right.ep.ack.lastAckSentAt=some 2 ∧
      (exchange lostAckLink laterExchange).ep.inFlight≠[] := by
  decide +kernel

/-- A packet is accepted and its acknowledgement is still owed. -/
def owedAckRun : List Action :=
  [.queuePayload .left [7],.pollOutbound .left 0 0 0,.deliver .right 0 1 none]

/-- The link in that state. -/
def owedAckLink : Link :=
  (run step (linkStart (.forUpstream 1 0 0) (.forSession 1 0)) owedAckRun).getD
    (linkStart (.forUpstream 1 0 0) (.forSession 1 0))

/-- The owed acknowledgement empties the window. -/
theorem owedAck_recovered :
    owedAckLink.left.ep.inFlight≠[] ∧ (exchange owedAckLink laterExchange).ep.inFlight=[] :=
  ⟨by decide +kernel,(exchange_empties_iff (fresh_linkStart 1 0 0 0 rfl).1
    (show run step _ owedAckRun=some owedAckLink by decide +kernel) (by decide +kernel)
    laterExchange (fun t ht => by
      rw [show owedAckLink.right.ep.ack.lastAckSentAt=none by decide +kernel] at ht
      cases ht)).mpr (Or.inr (Or.inl (by decide +kernel)))⟩

end AtemProxy.AckRecovery
