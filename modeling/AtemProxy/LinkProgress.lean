import AtemProxy.AckRecovery

/-!
# Rounds without loss

A round is one loss-free exchange of a link: the left peer polls, its datagrams
reach the right peer in order, the right peer polls, and its replies reach the
left peer. Datagrams that were under way before stay under way. From every state
the link can reach, by whatever losses and repetitions, such rounds send everything
that waits and empty the window, thirty-two packets each, or they change nothing
that matters, however many there are.
-/

namespace AtemProxy.LinkProgress

open BigEndian PacketCodec ReliableTransport ReliableWindow ReliableLink GuardedRuns AckRecovery

/-- A peer changed and sent marked datagrams to the other end. -/
def answered (l : Link) (side : Side) (p : Peer) (replies : List Datagram) : Link :=
  match side with
  | .left => {l with left := p, toRight := l.toRight++replies}
  | .right => {l with right := p, toLeft := l.toLeft++replies}

/-- The datagrams are the replies, and an acknowledgement among them covers what
the peer had accepted before. -/
def Answers (p : Peer) (out : List Bytes) (replies : List Datagram) : Prop :=
  replies.map Datagram.bytes=out ∧
    ∀ d∈replies,∀ n,d.mark=.ack n → p.accepted.length≤n

/-- The next datagrams of the wire reach their end in order. -/
def deliverAll (side : Side) (i : ℕ) (clock : Instant) (dump : Option (List Bytes)) (n : ℕ) :
    List Action := List.replicate n (.deliver side i clock dump)

/-- Actions of one round. -/
def roundActions (l : Link) (e : Exchange) : List Action :=
  let polled := l.left.pollOutbound e.now e.elapsedAt e.ackAt
  let handled := handleAll e.heardAt e.rightDump polled.2 l.right
  let replied := handled.1.pollOutbound e.replyNow e.replyElapsedAt e.replyAckAt
  .pollOutbound .left e.now e.elapsedAt e.ackAt::
    (deliverAll .right l.toRight.length e.heardAt e.rightDump polled.2.length++
      .pollOutbound .right e.replyNow e.replyElapsedAt e.replyAckAt::
        deliverAll .left l.toLeft.length e.doneAt e.leftDump (handled.2++replied.2).length)

/-- Next state after a round. -/
def roundStep (l : Link) (e : Exchange) : Option Link := run step l (roundActions l e)

/-- An acknowledgement is marked with the number of accepted packets. -/
theorem markOf_ack {p : Peer} {bytes : Bytes} {n : ℕ} (h : p.markOf bytes=.ack n) :
    n=p.accepted.length := by
  unfold Peer.markOf at h
  split at h
  · cases h
  · split at h
    · split at h <;> cases h
    · split at h
      · exact (Mark.ack.inj h).symm
      · cases h

/-- Marking replies where they are sent. -/
theorem answers_stamp {p q : Peer} (h : q.accepted.length≤p.accepted.length)
    (out : List Bytes) : Answers q out (p.stamp out) := by
  constructor
  · unfold Peer.stamp
    rw [List.map_map]
    exact List.map_id out
  · intro d hd n hn
    obtain ⟨bytes,_,rfl⟩ := List.mem_map.mp hd
    rw [markOf_ack hn]
    exact h

/-- Replies that follow each other. -/
theorem Answers.append {p q : Peer} {out out' : List Bytes} {replies replies' : List Datagram}
    (h : Answers p out replies) (h' : Answers q out' replies')
    (hle : p.accepted.length≤q.accepted.length) : Answers p (out++out') (replies++replies') := by
  constructor
  · rw [List.map_append,h.1,h'.1]
  · intro d hd n hn
    rcases List.mem_append.mp hd with hd | hd
    · exact h.2 d hd n hn
    · exact hle.trans (h'.2 d hd n hn)

/-- What a peer accepted stays accepted. -/
theorem handleDatagram_accepted (p : Peer) (clock : Instant) (dump : Option (List Bytes))
    (bytes : Bytes) : p.accepted<+:(p.handleDatagram clock dump bytes).1.accepted := by
  have hacknowledged : ∀ (q : Peer) (header : PacketHeader),
      (q.acknowledged header dump).accepted=q.accepted := by
    intro q header
    unfold Peer.acknowledged
    split
    · exact (Peer.openWith_fields (q.onAckId header.ackId) dump).2.2.1
    · rfl
  unfold Peer.handleDatagram
  split
  · exact List.prefix_rfl
  · rename_i header payload _
    have hq := hacknowledged {p with ep := p.ep.noteRecv clock} header
    dsimp only
    split
    · by_cases hid : header.packetId=
          (({p with ep := p.ep.noteRecv clock} : Peer).acknowledged header dump).ep.ack.expectedRecv
      · rw [Peer.acceptReliable_of_eq hid]
        dsimp only
        rw [hq]
        exact List.prefix_append _ _
      · rw [Peer.acceptReliable_of_ne hid]
        exact hq.symm ▸ List.prefix_rfl
    · exact hq.symm ▸ List.prefix_rfl

/-- Handling datagrams only accepts more. -/
theorem handleAll_accepted (clock : Instant) (dump : Option (List Bytes)) (batch : List Bytes)
    (p : Peer) : p.accepted<+:(handleAll clock dump batch p).1.accepted := by
  induction batch generalizing p with
  | nil => exact List.prefix_rfl
  | cons bytes batch ih =>
    exact (handleDatagram_accepted p clock dump bytes).trans
      (ih (p.handleDatagram clock dump bytes).1)

/-- It sends no packet. -/
theorem handleAll_sent (clock : Instant) (dump : Option (List Bytes)) (batch : List Bytes)
    (p : Peer) : (handleAll clock dump batch p).1.sent=p.sent := by
  induction batch generalizing p with
  | nil => rfl
  | cons bytes batch ih =>
    exact (ih (p.handleDatagram clock dump bytes).1).trans
      (handleDatagram_window p clock dump bytes).2

/-- Freshness only reads what the left peer sent. -/
theorem fresh_congr {l l' : Link} (h : l'.left.sent=l.left.sent) (side : Side) (mark : Mark) :
    l'.fresh side mark=l.fresh side mark := by
  unfold Link.fresh
  rw [h]

/-- Delivering what one end of the wire holds is handling it in order. -/
theorem run_deliverAll (side : Side) {l : Link} (old ds : List Datagram)
    (hwire : l.wire side=old++ds) (hfresh : ∀ d∈ds,l.fresh side d.mark=true) (clock : Instant)
    (dump : Option (List Bytes)) :
    ∃ replies,
      Answers (l.peer side) (handleAll clock dump (ds.map Datagram.bytes) (l.peer side)).2
        replies ∧
      run step l (deliverAll side old.length clock dump ds.length)=
        some (answered (l.setWire side old) side
          (handleAll clock dump (ds.map Datagram.bytes) (l.peer side)).1 replies) := by
  induction ds generalizing l with
  | nil =>
    rw [List.append_nil] at hwire
    refine ⟨[],⟨rfl,fun _ hd => absurd hd List.not_mem_nil⟩,?_⟩
    subst hwire
    cases side
    · show some l=some {l with left := l.left, toLeft := l.toLeft, toRight := l.toRight++[]}
      rw [List.append_nil]
    · show some l=some {l with right := l.right, toRight := l.toRight, toLeft := l.toLeft++[]}
      rw [List.append_nil]
  | cons d ds ih =>
    have hget : (l.wire side)[old.length]?=some d := by
      rw [hwire,List.getElem?_append_right (Nat.le_refl _),Nat.sub_self]
      rfl
    have herase : (l.wire side).eraseIdx old.length=old++ds := by
      rw [hwire,List.eraseIdx_append_of_length_le (Nat.le_refl _),Nat.sub_self]
      rfl
    have hstep : step l (.deliver side old.length clock dump)=
        some ((l.setWire side (old++ds)).update side
          ((l.peer side).handleDatagram clock dump d.bytes)) := by
      simp only [step,hget,herase]
      rw [if_pos (hfresh d List.mem_cons_self)]
    obtain ⟨replies,hanswers,hrun⟩ := ih
      (l := (l.setWire side (old++ds)).update side
        ((l.peer side).handleDatagram clock dump d.bytes))
      (by cases side <;> rfl)
      (by
        intro d' hd'
        have hsent := (handleDatagram_window (l.peer side) clock dump d.bytes).2
        have hf := hfresh d' (List.mem_cons_of_mem _ hd')
        cases side
        · rw [fresh_congr hsent]
          exact hf
        · exact hf)
    have hpeer : ((l.setWire side (old++ds)).update side
        ((l.peer side).handleDatagram clock dump d.bytes)).peer side=
          ((l.peer side).handleDatagram clock dump d.bytes).1 := by cases side <;> rfl
    rw [hpeer] at hanswers hrun
    have hle := (handleDatagram_accepted (l.peer side) clock dump d.bytes).length_le
    refine ⟨((l.peer side).handleDatagram clock dump d.bytes).1.stamp
        ((l.peer side).handleDatagram clock dump d.bytes).2++replies,
      (answers_stamp hle _).append hanswers hle,?_⟩
    show run step l (.deliver side old.length clock dump::
      deliverAll side old.length clock dump ds.length)=_
    rw [run_cons,hstep]
    show run step _ (deliverAll side old.length clock dump ds.length)=_
    rw [hrun]
    cases side
    · simp only [answered,Link.update,Link.setWire,List.append_assoc]
      rfl
    · simp only [answered,Link.update,Link.setWire,List.append_assoc]
      rfl

/-- Packets of the window are fresh. -/
theorem fresh_right_stamp {l : Link} (h : Sending l.left) (out : List Bytes) :
    ∀ d∈l.left.stamp out,l.fresh .right d.mark=true := by
  intro d hd
  obtain ⟨bytes,_,rfl⟩ := List.mem_map.mp hd
  have hlen := h.windowed.length_eq
  have hbound := h.windowed.bounded
  cases hm : l.left.markOf bytes with
  | data n =>
    have hn : l.left.acked.length≤n := by
      unfold Peer.markOf at hm
      split at hm
      · cases hm
      · split at hm
        · split at hm
          · rw [←Mark.data.inj hm]
            omega
          · cases hm
        · split at hm <;> cases hm
    exact decide_eq_true (by omega)
  | ack n => rfl
  | plain => rfl

/-- Acknowledgements sent after the state are fresh. -/
theorem fresh_left_answers {l : Link} {p : Peer} {out : List Bytes} {replies : List Datagram}
    (h : Sending l.left) (hacked : l.left.acked.length≤p.accepted.length)
    (ha : Answers p out replies) : ∀ d∈replies,l.fresh .left d.mark=true := by
  intro d hd
  have hlen := h.windowed.length_eq
  have hbound := h.windowed.bounded
  cases hm : d.mark with
  | data n => rfl
  | ack n =>
    have hn := ha.2 d hd n hm
    exact decide_eq_true (by omega)
  | plain => rfl

/-- The right peer at the end of a round. -/
def replier (l : Link) (e : Exchange) : Peer×List Bytes :=
  (receiverAfter l e).1.pollOutbound e.replyNow e.replyElapsedAt e.replyAckAt

/-- A round is possible in every state, and leaves the left peer of the exchange. -/
theorem roundStep_eq {l : Link} (h : Linked l) (e : Exchange) :
    ∃ l',roundStep l e=some l' ∧ l'.left=exchange l e ∧ l'.right=(replier l e).1 := by
  obtain ⟨polled,hpolled⟩ : ∃ polled,polled=l.left.pollOutbound e.now e.elapsedAt e.ackAt :=
    ⟨_,rfl⟩
  have hsending : Sending polled.1 := hpolled ▸ h.sending.pollOutbound _ _ _
  have hbytes : ∀ (p : Peer) (out : List Bytes),(p.stamp out).map Datagram.bytes=out :=
    fun p out => (answers_stamp (Nat.le_refl _) out).1
  -- the datagrams of the poll reach the right peer
  obtain ⟨replies,hanswers,hright⟩ := run_deliverAll .right
    (l := l.update .left polled) l.toRight (polled.1.stamp polled.2) rfl
    (fresh_right_stamp (l := l.update .left polled) hsending polled.2) e.heardAt e.rightDump
  rw [hbytes] at hanswers hright
  have hreceiver : handleAll e.heardAt e.rightDump polled.2
      ((l.update .left polled).peer .right)=receiverAfter l e := by
    rw [hpolled]
    rfl
  rw [hreceiver] at hanswers hright
  have hlength : (polled.1.stamp polled.2).length=polled.2.length := List.length_map _
  rw [hlength] at hright
  -- the replies and the poll of the right peer reach the left peer
  have haccepted : l.right.accepted.length≤(replier l e).1.accepted.length :=
    (hreceiver ▸ handleAll_accepted _ _ _ _ : l.right.accepted<+:
      (receiverAfter l e).1.accepted).length_le
  have hall := hanswers.append (answers_stamp (Nat.le_refl _) (replier l e).2) haccepted
  have hacked : polled.1.acked.length≤l.right.accepted.length := by
    rw [hpolled]
    exact h.ackedAccepted
  obtain ⟨others,_,hleft⟩ := run_deliverAll .left
    (l := (answered ((l.update .left polled).setWire .right l.toRight) .right
      (receiverAfter l e).1 replies).update .right (replier l e)) l.toLeft
    (replies++(replier l e).1.stamp (replier l e).2)
    (List.append_assoc _ _ _) (fresh_left_answers hsending hacked hall) e.doneAt e.leftDump
  rw [hall.1,show (replies++(replier l e).1.stamp (replier l e).2).length=
    ((receiverAfter l e).2++(replier l e).2).length by rw [←hall.1,List.length_map]] at hleft
  have hrun : run step l (roundActions l e)=some (answered (((answered ((l.update .left
      polled).setWire .right l.toRight) .right (receiverAfter l e).1 replies).update .right
        (replier l e)).setWire .left l.toLeft) .left (exchange l e) others) := by
    show run step l (.pollOutbound .left e.now e.elapsedAt e.ackAt::
      (deliverAll .right l.toRight.length e.heardAt e.rightDump
        (l.left.pollOutbound e.now e.elapsedAt e.ackAt).2.length++
          .pollOutbound .right e.replyNow e.replyElapsedAt e.replyAckAt::
            deliverAll .left l.toLeft.length e.doneAt e.leftDump
              ((receiverAfter l e).2++(replier l e).2).length))=_
    rw [run_cons]
    show run step (l.update .left (l.left.pollOutbound e.now e.elapsedAt e.ackAt)) _=_
    rw [←hpolled,run_append,hright]
    show (run step _ (.pollOutbound .right _ _ _::_))=_
    rw [run_cons]
    refine Eq.trans hleft ?_
    rw [hpolled]
    rfl
  exact ⟨_,hrun,rfl,rfl⟩

/-- Repeating a window from a number that the receiver has reached or passed brings
it to the end of the window. -/
theorem inOrder_window {low k n : ℕ} {sent : List Packet} {window : List InFlightEntry}
    (hwindow : ∀ i entry,window[i]?=some entry → sent[k+i]?=some (packetOf entry))
    (hframed : ∀ entry∈window,Framed entry) (hlow : low≤k) (hkn : k ≤ n)
    (hn : n ≤ k+window.length) :
    InOrder low sent n (window.map (fun entry => patchRetransmit entry.bytes))
      (k+window.length) := by
  induction window generalizing k n with
  | nil =>
    have he : n=k := le_antisymm hn hkn
    subst he
    exact .done _
  | cons entry window ih =>
    have hp : sent[k]?=some (packetOf entry) := hwindow 0 entry rfl
    have hc := (hframed entry List.mem_cons_self).patch_carries
    have hlater : ∀ i later,window[i]?=some later → sent[k+1+i]?=some (packetOf later) := by
      intro i later hi
      rw [Nat.add_assoc,Nat.add_comm 1 i]
      exact hwindow (i+1) later hi
    have hothers : ∀ later∈window,Framed later :=
      fun later hm => hframed later (List.mem_cons_of_mem _ hm)
    rw [List.length_cons] at hn
    rw [List.map_cons,List.length_cons,show k+(window.length+1)=k+1+window.length by omega]
    rcases Nat.lt_or_ge k n with hlt | hge
    · exact .old hlow hlt hp hc (ih hlater hothers (Nat.le_succ_of_le hlow) hlt (by omega))
    · have he : n=k := le_antisymm hge hkn
      subst he
      exact .next hp hc (ih hlater hothers (Nat.le_succ_of_le hlow) (Nat.le_refl _) (by omega))

/-- The oldest packet of the window is old enough to be sent again. -/
def RetransmitDue (ep : ReliableEndpoint) (now : Instant) : Prop :=
  ∀ entry∈ep.inFlight.head?,ep.config.retransmitAfter≤now-entry.sentAt

/-- A due retransmission brings the receiver up to everything sent. -/
theorem retransmitPhase_catchesUp {acked sent : List Packet} {ep : ReliableEndpoint}
    (hw : Windowed acked sent ep) (hf : AllFramed ep) {now : Instant}
    (hdue : RetransmitDue ep now) {n : ℕ} (hlow : acked.length ≤ n) (hn : n ≤ sent.length) :
    InOrder acked.length sent n (ep.retransmitPhase now).2 sent.length := by
  have hlen := hw.length_eq
  have hwhole := inOrder_window (fun i entry hi => (hw.entry_number hi).1) hf
    (Nat.le_refl acked.length) hlow (hlen ▸ hn)
  rw [←hlen] at hwhole
  unfold ReliableEndpoint.retransmitPhase
  cases hwindow : ep.inFlight with
  | nil =>
    rw [hwindow] at hwhole
    exact hwhole
  | cons oldest window =>
    have hold : ep.config.retransmitAfter≤now-oldest.sentAt :=
      hdue oldest (by rw [hwindow]; rfl)
    dsimp only
    rw [if_pos hold,←hwindow]
    exact hwhole

/-- New packets continue the window and carry their numbers in order. -/
def Continues (ep : ReliableEndpoint) (result : ReliableEndpoint×List Bytes) : Prop :=
  ∀ (acked sent : List Packet) (low : ℕ),Windowed acked sent ep →
    ∃ new,Windowed acked (sent++new) result.1 ∧
      InOrder low (sent++new) sent.length result.2 (sent++new).length

/-- Phases of a poll send in order. -/
theorem phaseRule_continues : PhaseRule Continues where
  refl ep acked sent low hw := ⟨[],inOrder_nothing hw low⟩
  fields h outbound lastPingAt acked sent low hw := by
    obtain ⟨new,hw',horder⟩ := h acked sent low hw
    exact ⟨new,hw'.of_core rfl rfl rfl,horder⟩
  trans h h' acked sent low hw := by
    obtain ⟨new,hw',horder⟩ := h acked sent low hw
    obtain ⟨new',hw'',horder'⟩ := h' acked (sent++new) low hw'
    refine ⟨new++new',?_,?_⟩
    · rw [←List.append_assoc]
      exact hw''
    · rw [←List.append_assoc]
      exact (horder.mono (List.prefix_append _ _)).append horder'

/-- So do its transmissions. -/
theorem sends_continues (now : Instant) : Sends Continues now := by
  intro ep payload hroom acked sent low hw
  have hlt : ep.inFlight.length<32 := by
    rcases hroom with hroom | hempty
    · exact hw.limit ▸ hroom
    · rw [hempty]
      exact Nat.zero_lt_succ 31
  refine ⟨_,hw.sendReliable hlt payload now,.next ?_ (sendReliable_carries ep payload now) ?_⟩
  · rw [List.getElem?_append_right (Nat.le_refl _),Nat.sub_self]
    rfl
  · rw [List.length_append,List.length_singleton]
    exact .done _

/-- An acknowledgement sends no packet. -/
theorem ackPhase_continues (ep : ReliableEndpoint) (elapsedAt ackAt : Instant) :
    Continues ep (ep.ackPhase elapsedAt ackAt) := by
  intro acked sent low hw
  obtain ⟨hwindow,hnext,hconfig,_⟩ := ackPhase_core ep elapsedAt ackAt
  refine ⟨[],?_,?_⟩
  · rw [List.append_nil]
    exact hw.of_core (by rw [hwindow]) hnext hconfig
  · rw [List.append_nil]
    exact ackPhase_inOrder ep low sent.length sent elapsedAt ackAt

/-- The packets a poll sends are determined by the window it leaves. -/
theorem new_eq {acked sent new new' : List Packet} {ep : ReliableEndpoint}
    (h : Windowed acked (sent++new) ep) (h' : Windowed acked (sent++new') ep) : new=new' :=
  List.append_cancel_left (h.split.trans h'.split.symm)

/-- A poll with a due retransmission brings the receiver up to everything sent,
the new packets included. -/
theorem pollOutbound_catchesUp {acked sent : List Packet} {ep : ReliableEndpoint}
    (hw : Windowed acked sent ep) (hf : AllFramed ep) {now : Instant}
    (hdue : RetransmitDue ep now) {n : ℕ} (hlow : acked.length ≤ n) (hn : n ≤ sent.length)
    (elapsedAt ackAt : Instant) :
    ∃ new,Windowed acked (sent++new) (ep.pollOutbound now elapsedAt ackAt).1 ∧
      InOrder acked.length (sent++new) n (ep.pollOutbound now elapsedAt ackAt).2
        (sent++new).length ∧
      (ep.inFlight≠[] → (new≠[] ↔ ep.outbound≠[] ∧ ep.inFlight.length<32)) := by
  obtain ⟨later,hout,hlater⟩ := phaseRule_continues.poll (sends_continues now)
    (fun ep => ackPhase_continues ep elapsedAt ackAt) ep
  obtain ⟨_,hnext,hwindow⟩ := retransmitPhase_keeps ep now
  obtain ⟨new,hw',horder⟩ := hlater acked sent acked.length
    (hw.of_core hwindow hnext (retransmitPhase_ack ep now).2)
  obtain ⟨new',hw'',_,hnew⟩ := pollOutbound_inOrder hw hf now elapsedAt ackAt
  rw [new_eq hw'' hw'] at hnew
  refine ⟨new,hw',?_,hnew⟩
  rw [hout]
  exact ((retransmitPhase_catchesUp hw hf hdue hlow hn).mono (List.prefix_append _ _)).append
    horder

/-- The first half of an exchange with a due retransmission. -/
theorem exists_delivered_of_due {l : Link} (hl : Linked l) (e : Exchange)
    (hdue : RetransmitDue l.left.ep e.now) : ∃ new,Delivered l e new := by
  have hcount := hl.receiving.inOrder.length_le
  obtain ⟨new,hw,horder,hnew⟩ := pollOutbound_catchesUp hl.sending.windowed hl.sending.framed
    hdue hl.ackedAccepted hcount e.elapsedAt e.ackAt
  have hlen := hw.length_eq
  have hlen₀ := hl.sending.windowed.length_eq
  rw [List.length_append,hlen₀] at hlen
  have hnear : (l.left.sent++new).length≤l.left.acked.length+32 := by
    have hbound := hw.bounded
    rw [List.length_append]
    omega
  have hreceiving : Receiving (l.left.sent++new) l.right.accepted l.right.ep.ack :=
    {hl.receiving with inOrder := hl.receiving.inOrder.trans (List.prefix_append _ _)}
  refine ⟨new,hl.sending.pollOutbound e.now e.elapsedAt e.ackAt,hl.sending.pollOutbound_sent hw,
    ?_,hnew,handleAll_inOrder horder hnear hw.numbered e.heardAt e.rightDump rfl hreceiving⟩
  change (l.left.ep.pollOutbound e.now e.elapsedAt e.ackAt).1.inFlight.length=_
  omega

/-- The refill takes what fits into the window. -/
theorem refillLoop_outbound (now : Instant) (queue : List Bytes) (ep : ReliableEndpoint) :
    (ReliableEndpoint.refillLoop now queue ep).1.outbound=
      queue.drop (ep.config.maxInFlight-ep.inFlight.length) := by
  induction queue generalizing ep with
  | nil => exact List.drop_nil.symm
  | cons payload queue ih =>
    rw [ReliableEndpoint.refillLoop]
    split
    · rename_i hroom
      have hlen : (ep.sendReliable payload now).1.inFlight.length=ep.inFlight.length+1 :=
        List.length_append
      have hlimit : (ep.sendReliable payload now).1.config=ep.config := rfl
      rw [ih,hlen,hlimit,show ep.config.maxInFlight-ep.inFlight.length=
        ep.config.maxInFlight-(ep.inFlight.length+1)+1 by omega,List.drop_succ_cons]
    · rename_i hfull
      rw [Nat.sub_eq_zero_of_le (Nat.le_of_not_lt hfull)]
      rfl

/-- A keepalive takes nothing from the queue. -/
theorem pingPhase_outbound (ep : ReliableEndpoint) (now : Instant) :
    (ep.pingPhase now).1.outbound=ep.outbound := by
  unfold ReliableEndpoint.pingPhase
  split <;> rfl

/-- A poll takes from the queue what fits into the window. -/
theorem pollOutbound_outbound (ep : ReliableEndpoint) (now elapsedAt ackAt : Instant) :
    (ep.pollOutbound now elapsedAt ackAt).1.outbound=
      ep.outbound.drop (ep.config.maxInFlight-ep.inFlight.length) := by
  obtain ⟨hqueue,_,hwindow⟩ := retransmitPhase_keeps ep now
  have hlen := congrArg List.length hwindow
  rw [List.length_map,List.length_map] at hlen
  calc (ep.pollOutbound now elapsedAt ackAt).1.outbound
      = ((refilled ep now).ackPhase elapsedAt ackAt).1.outbound := pingPhase_outbound _ now
    _ = (refilled ep now).outbound := (ackPhase_core _ elapsedAt ackAt).2.2.2
    _ = ep.outbound.drop (ep.config.maxInFlight-ep.inFlight.length) := by
      unfold refilled ReliableEndpoint.refillPhase
      rw [refillLoop_outbound,hqueue,hlen,(retransmitPhase_ack ep now).2]

/-- A peer that is open, or opens without a dump, queues nothing by itself. -/
theorem handleDatagram_outbound {p : Peer} {dump : Option (List Bytes)}
    (h : dump=none ∨ p.ep.opened=true) (clock : Instant) (bytes : Bytes) :
    (p.handleDatagram clock dump bytes).1.ep.outbound=p.ep.outbound ∧
      (p.handleDatagram clock dump bytes).1.ep.opened=p.ep.opened := by
  have hacknowledged : ∀ (q : Peer) (header : PacketHeader),q.ep.opened=p.ep.opened →
      (q.acknowledged header dump).ep.outbound=q.ep.outbound ∧
        (q.acknowledged header dump).ep.opened=q.ep.opened := by
    intro q header hq
    unfold Peer.acknowledged Peer.openWith
    split
    · rcases h with rfl | hopen
      · exact ⟨rfl,rfl⟩
      · cases dump with
        | none => exact ⟨rfl,rfl⟩
        | some cmds =>
          dsimp only
          rw [if_pos (show (q.onAckId header.ackId).ep.opened=true from hq.trans hopen)]
          exact ⟨rfl,rfl⟩
    · exact ⟨rfl,rfl⟩
  unfold Peer.handleDatagram
  split
  · exact ⟨rfl,rfl⟩
  · rename_i header payload _
    have hq := hacknowledged {p with ep := p.ep.noteRecv clock} header rfl
    dsimp only
    split
    · by_cases hid : header.packetId=
          (({p with ep := p.ep.noteRecv clock} : Peer).acknowledged header dump).ep.ack.expectedRecv
      · rw [Peer.acceptReliable_of_eq hid]
        exact hq
      · rw [Peer.acceptReliable_of_ne hid]
        exact hq
    · exact hq

/-- An open peer queues nothing when it hears. -/
theorem handleAll_outbound {p : Peer} {dump : Option (List Bytes)}
    (h : dump=none ∨ p.ep.opened=true) (clock : Instant) (batch : List Bytes) :
    (handleAll clock dump batch p).1.ep.outbound=p.ep.outbound := by
  induction batch generalizing p with
  | nil => rfl
  | cons bytes batch ih =>
    obtain ⟨houtbound,hopen⟩ := handleDatagram_outbound h clock bytes
    exact (ih (h.imp_right (hopen.trans ·))).trans houtbound

/-- The timers of the round have expired, and the left peer does not queue a dump in it. -/
structure Timely (l : Link) (e : Exchange) : Prop where
  /-- The window is sent again. -/
  due : RetransmitDue l.left.ep e.now
  /-- The coalescing time of the right peer has passed. -/
  elapsed : ∀ t∈l.right.ep.ack.lastAckSentAt,
    l.right.ep.config.ackCoalesceAfter≤e.replyElapsedAt-t
  /-- The left peer is open, or opens without a dump. -/
  quiet : e.leftDump=none ∨ l.left.ep.opened=true

/-- Everything sent was accepted, nothing is owed for it, the window is in use and
no new packet can be sent. -/
structure Stalled (l : Link) : Prop where
  /-- Nothing sent is missing. -/
  accepted : l.right.accepted=l.left.sent
  /-- Packets still wait for their acknowledgement. -/
  busy : l.left.ep.inFlight≠[]
  /-- The right peer acknowledged all it accepted. -/
  silent : l.right.ep.ack.packetsSinceAck=0
  /-- Nothing waits, or nothing fits. -/
  blocked : l.left.ep.outbound=[] ∨ l.left.ep.inFlight.length=32

/-- What a round leaves of a link. -/
structure Advanced (l l' : Link) : Prop where
  /-- Joint invariant. -/
  linked : Linked l'
  /-- Everything sent was accepted. -/
  accepted : l'.right.accepted=l'.left.sent
  /-- What fitted into the window was sent. -/
  outbound : l'.left.ep.outbound=l.left.ep.outbound.drop (32-l.left.ep.inFlight.length)
  /-- The window is empty unless the link was stalled, and then it still is. -/
  progress : (l'.left.ep.inFlight=[] ∧ ¬Stalled l) ∨ (Stalled l' ∧ Stalled l)

/-- The replies of the right peer keep what it accepted. -/
theorem replier_accepted (l : Link) (e : Exchange) :
    (replier l e).1.accepted=(receiverAfter l e).1.accepted := rfl

/-- The queue of the left peer after a round. -/
theorem exchange_outbound {l : Link} (h : Linked l) {e : Exchange} (ht : Timely l e) :
    (exchange l e).ep.outbound=l.left.ep.outbound.drop (32-l.left.ep.inFlight.length) := by
  have hquiet : e.leftDump=none ∨
      (l.left.pollOutbound e.now e.elapsedAt e.ackAt).1.ep.opened=true :=
    ht.quiet.imp_right ((pollOutbound_opened l.left.ep e.now e.elapsedAt e.ackAt).trans ·)
  refine (handleAll_outbound hquiet e.doneAt _).trans ?_
  refine (pollOutbound_outbound l.left.ep e.now e.elapsedAt e.ackAt).trans ?_
  rw [h.sending.windowed.limit]

/-- One timely round. -/
theorem round_advances {l : Link} (h : Linked l) {e : Exchange} (ht : Timely l e) :
    ∃ l',roundStep l e=some l' ∧ Advanced l l' := by
  obtain ⟨l',hstep,hleft,hright⟩ := roundStep_eq h e
  obtain ⟨new,hd⟩ := exists_delivered_of_due h e ht.due
  have hlinked : Linked l' := run_invariant step (fun _ _ _ => linked_step) h hstep
  have hsent : (exchange l e).sent=l.left.sent++new :=
    (handleAll_sent e.doneAt e.leftDump _ _).trans hd.sent
  have haccepted : l'.right.accepted=l'.left.sent := by
    rw [hright,hleft,hsent,replier_accepted]
    exact hd.handled.receiving.inOrder.eq_of_length hd.handled.count
  have houtbound := exchange_outbound h ht
  refine ⟨l',hstep,hlinked,haccepted,by rw [hleft]; exact houtbound,?_⟩
  have howed := hd.handled.owed
  have hdue := @shouldSendAck_iff _ e.replyElapsedAt
    (by rw [hd.handled.config]; exact h.coalesce) hd.handled.receiving.pending
    (by rw [hd.handled.lastAck,hd.handled.config]; exact ht.elapsed)
  rw [List.length_append] at howed
  have hlow := h.receiving.inOrder.length_le
  by_cases hpos : 0<(receiverAfter l e).1.ep.ack.packetsSinceAck
  · -- the poll of the right peer acknowledges everything
    refine Or.inl ⟨by rw [hleft]; exact hd.exchange_acknowledged hpos (hdue.mpr hpos),?_⟩
    intro hstalled
    have hcount := congrArg List.length hstalled.accepted
    have hnew : new≠[] := by
      rcases howed.mp hpos with howing | hlt
      · rw [hstalled.silent] at howing
        exact absurd howing (Nat.lt_irrefl 0)
      · exact List.ne_nil_of_length_pos (by omega)
    obtain ⟨hwaiting,hroom⟩ := (hd.room hstalled.busy).mp hnew
    rcases hstalled.blocked with hempty | hfull
    · exact hwaiting hempty
    · omega
  · -- nothing was accepted or owed, and the window stays as the poll left it
    have hnothing : ¬(0<l.right.ep.ack.packetsSinceAck ∨
        l.right.accepted.length < l.left.sent.length+new.length) := fun hor => hpos (howed.mpr hor)
    have hnone : new=[] := List.eq_nil_of_length_eq_zero (by omega)
    have hall : l.right.accepted=l.left.sent :=
      h.receiving.inOrder.eq_of_length (by
        rw [hnone,List.length_nil] at hnothing
        omega)
    have hidle := Bool.eq_false_iff.mpr (fun hsend => hpos (hdue.mp hsend))
    have hwindow := hd.window
    rw [hnone,List.length_nil,Nat.add_zero] at hwindow
    have hkept := hd.exchange_unacknowledged h.framed hidle
    by_cases hbusy : l.left.ep.inFlight=[]
    · refine Or.inl ⟨?_,fun hstalled => hstalled.busy hbusy⟩
      rw [hleft,hkept,←List.length_eq_zero_iff,hwindow,hbusy]
      rfl
    · have hblocked : l.left.ep.outbound=[] ∨ l.left.ep.inFlight.length=32 := by
        by_contra hroom
        push Not at hroom
        have hbound := h.sending.windowed.bounded
        exact (hd.room hbusy).mpr ⟨hroom.1,by omega⟩ hnone
      have hlength : l'.left.ep.inFlight.length=l.left.ep.inFlight.length := by
        rw [hleft,hkept,hwindow]
      refine Or.inr ⟨⟨haccepted,?_,?_,?_⟩,⟨hall,hbusy,by omega,hblocked⟩⟩
      · exact fun hempty => hbusy (List.eq_nil_of_length_eq_zero (by rw [←hlength,hempty]; rfl))
      · have hsince := (pollOutbound_phase (receiverAfter l e).1.ep e.replyNow e.replyElapsedAt
          e.replyAckAt).sinceAck
        rw [hright]
        show ((receiverAfter l e).1.ep.pollOutbound _ _ _).1.ack.packetsSinceAck=0
        omega
      · rcases hblocked with hempty | hfull
        · left
          rw [hleft,houtbound,hempty,List.drop_nil]
        · exact Or.inr (hlength.trans hfull)

/-- Rounds of a link that is not stalled send thirty-two packets each, counting the
window they find; a stalled link stays stalled. -/
theorem rounds_advance {l : Link} (h : Linked l) {e : Exchange} {es : List Exchange}
    (ht : Meets roundStep Timely l (e::es)) :
    ∃ l',run roundStep l (e::es)=some l' ∧ Linked l' ∧ l'.right.accepted=l'.left.sent ∧
      ((Stalled l ∧ Stalled l') ∨ (¬Stalled l ∧ l'.left.ep.inFlight=[] ∧
        l'.left.ep.outbound=
          l.left.ep.outbound.drop (32*(e::es).length-l.left.ep.inFlight.length))) := by
  induction es generalizing l e with
  | nil =>
    obtain ⟨l',hstep,hadv⟩ := round_advances h ht.1
    refine ⟨l',run_cons_eq_some roundStep |>.mpr ⟨l',hstep,rfl⟩,hadv.linked,hadv.accepted,?_⟩
    rcases hadv.progress with ⟨hempty,hmoving⟩ | ⟨hstalled',hstalled⟩
    · exact Or.inr ⟨hmoving,hempty,hadv.outbound⟩
    · exact Or.inl ⟨hstalled,hstalled'⟩
  | cons e' es ih =>
    obtain ⟨mid,hstep,hadv⟩ := round_advances h ht.1
    obtain ⟨l',hrun,hlinked,haccepted,hcases⟩ := ih hadv.linked (ht.2 mid hstep)
    refine ⟨l',run_cons_eq_some roundStep |>.mpr ⟨mid,hstep,hrun⟩,hlinked,haccepted,?_⟩
    rcases hadv.progress with ⟨hempty,hmoving⟩ | ⟨hstalled',hstalled⟩
    · rcases hcases with ⟨hmid,_⟩ | ⟨_,hempty',houtbound⟩
      · exact absurd hempty hmid.busy
      · refine Or.inr ⟨hmoving,hempty',?_⟩
        have hbound := h.sending.windowed.bounded
        rw [houtbound,hadv.outbound,List.drop_drop,hempty,List.length_nil]
        congr 1
        simp only [List.length_cons]
        omega
    · rcases hcases with ⟨_,hend⟩ | ⟨hmoving,_⟩
      · exact Or.inl ⟨hstalled,hend⟩
      · exact absurd hstalled' hmoving

/-- Nothing waits for transmission or acknowledgement, and every queued payload was
accepted once and in order. -/
def Drained (l : Link) : Prop :=
  l.left.ep.inFlight=[] ∧ l.left.ep.outbound=[] ∧
    nonEmpty (l.right.accepted.map Packet.payload)=nonEmpty (l.left.queued.map wirePayload)

/-- From every state that losses, repetitions and delays can lead to, timely rounds
drain the link exactly if it is not stalled and its queue fits: thirty-two packets for
each round, those of the window included. -/
theorem rounds_drain_iff {l₀ l : Link} {actions : List Action} (h : Fresh l₀)
    (hrun : run step l₀ actions=some l) {es : List Exchange} (hne : es≠[])
    (ht : Meets roundStep Timely l es) :
    ∃ l',run roundStep l es=some l' ∧
      (Drained l' ↔ ¬Stalled l ∧
        l.left.ep.outbound.length+l.left.ep.inFlight.length≤32*es.length) := by
  obtain ⟨e,es,rfl⟩ := List.exists_cons_of_ne_nil hne
  have hl := linked_run h hrun
  obtain ⟨l',hrun',hlinked,haccepted,hcases⟩ := rounds_advance hl ht
  refine ⟨l',hrun',?_⟩
  have hbound := hl.sending.windowed.bounded
  rcases hcases with ⟨hstalled,hstalled'⟩ | ⟨hmoving,hempty,houtbound⟩
  · exact ⟨fun hd => absurd hd.1 hstalled'.busy,fun hc => absurd hstalled hc.1⟩
  · have hfits : l'.left.ep.outbound=[] ↔
        l.left.ep.outbound.length+l.left.ep.inFlight.length≤32*(e::es).length := by
      rw [houtbound,List.drop_eq_nil_iff,List.length_cons]
      omega
    constructor
    · exact fun hd => ⟨hmoving,hfits.mp hd.2.1⟩
    · rintro ⟨_,hroom⟩
      have hnone := hfits.mpr hroom
      refine ⟨hempty,hnone,?_⟩
      have haccounted := hlinked.sending.accounted
      rw [hnone,List.map_nil,List.append_nil] at haccounted
      rw [haccepted,haccounted]

/-- A payload is sent and lost, and another one waits. -/
def lostPayloadRun : List Action :=
  [.queuePayload .left [7],.pollOutbound .left 0 0 0,.lose .right 0,.queuePayload .left [8]]

/-- The link in that state. -/
def lostPayloadLink : Link :=
  (run step (linkStart (.forUpstream 1 0 0) (.forSession 1 0)) lostPayloadRun).getD
    (linkStart (.forUpstream 1 0 0) (.forSession 1 0))

/-- The timers of that round have expired. -/
theorem lostPayload_timely : Meets roundStep Timely lostPayloadLink [laterExchange] :=
  ⟨⟨(fun entry hentry => by cases hentry; decide),(fun t ht => by cases ht),Or.inl rfl⟩,
    fun _ _ => trivial⟩

/-- One round brings both payloads. -/
theorem lostPayload_drains :
    ∃ l',run roundStep lostPayloadLink [laterExchange]=some l' ∧ Drained l' := by
  obtain ⟨l',hrun,hiff⟩ := rounds_drain_iff (fresh_linkStart 1 0 0 0 rfl).1
    (show run step _ lostPayloadRun=some lostPayloadLink from rfl)
    (List.cons_ne_nil laterExchange []) lostPayload_timely
  exact ⟨l',hrun,hiff.mpr ⟨fun hstalled => absurd hstalled.accepted (by decide +kernel),
    by decide +kernel⟩⟩

end AtemProxy.LinkProgress
