import AtemProxy.Retransmissions
import AtemProxy.SpacedTimes
import AtemProxy.UnconfirmedClients

/-!
# What polling an endpoint can cost up to a deadline

However often an endpoint is polled, its timers limit what it sends. The window is
sent again only when its oldest packet has waited for the pause of the repetitions, a
keepalive only after the pause of the keepalives, a payload once, and an
acknowledgement only for accepted packets. Each poll pays for what it sends out of
the firings that the two timers have left before the deadline.
-/

namespace AtemProxy.EndpointBudgets

open BigEndian PacketCodec ReliableTransport SenderLedgers PacketStamps SpacedTimes
open Retransmissions (retransmitPhase_of_stale retransmitPhase_of_not_stale)
open UnconfirmedClients (accepted_of_shouldSendAck)

/-- No limit of the configuration is zero. -/
structure Timed (config : ReliableConfig) : Prop where
  /-- Window. -/
  window : 0<config.maxInFlight
  /-- Pause between repetitions. -/
  repeats : 0<config.retransmitAfter
  /-- Accepted packets for an acknowledgement. -/
  acks : 0<config.ackCoalesceCount
  /-- Pause between keepalives. -/
  pings : 0<config.pingInterval

/-- Times before which the timers do not fire again. -/
structure Earliest where
  /-- The window is sent again. -/
  burst : Instant
  /-- A keepalive is sent. -/
  ping : Instant

/-- State of an endpoint that is polled at this time or later: its timers fire no earlier
than they may. -/
structure Resting (now : Instant) (e : Earliest) (ep : ReliableEndpoint) : Prop where
  /-- Configuration. -/
  timed : Timed ep.config
  /-- Size of the window. -/
  size : ep.inFlight.length ≤ ep.config.maxInFlight
  /-- A packet sent now waits for the next repetition. -/
  soon : e.burst ≤ now+ep.config.retransmitAfter
  /-- No packet of the window is due before. -/
  window : ∀ entry∈ep.inFlight,e.burst ≤ now ∨ e.burst ≤ entry.sentAt+ep.config.retransmitAfter
  /-- No keepalive is due before. -/
  ping : e.ping ≤ now ∨ e.ping ≤ ep.lastPingAt+ep.config.pingInterval

/-- Timers that may not fire yet may fire later. -/
theorem Resting.mono {now later : Instant} {e : Earliest} {ep : ReliableEndpoint}
    (h : Resting now e ep) (hle : now ≤ later) : Resting later e ep where
  timed := h.timed
  size := h.size
  soon := h.soon.trans (Nat.add_le_add_right hle _)
  window := fun entry hm => (h.window entry hm).imp_left (fun hnow => hnow.trans hle)
  ping := h.ping.imp_left (fun hnow => hnow.trans hle)

/-- Datagrams that an endpoint can send until the deadline without new payloads and
without accepting packets. -/
def budget (deadline : Instant) (e : Earliest) (ep : ReliableEndpoint) : ℕ :=
  ep.outbound.length+ep.ack.packetsSinceAck+
    ep.config.maxInFlight*firings ep.config.retransmitAfter deadline e.burst+
    firings ep.config.pingInterval deadline e.ping

/-- A phase of a poll is paid for. -/
structure Spends (deadline now : Instant) (e : Earliest) (ep : ReliableEndpoint) (e' : Earliest)
    (result : ReliableEndpoint×List Bytes) : Prop where
  /-- The timers stay in step. -/
  resting : Resting now e' result.1
  /-- What is sent leaves less for later. -/
  cost : result.2.length+budget deadline e' result.1 ≤ budget deadline e ep

/-- A phase that does nothing. -/
theorem Spends.refl {deadline now : Instant} {e : Earliest} {ep : ReliableEndpoint}
    (h : Resting now e ep) : Spends deadline now e ep e (ep,[]) where
  resting := h
  cost := Nat.le_of_eq (Nat.zero_add _)

/-- Phases one after the other. -/
theorem Spends.trans {deadline now : Instant} {e e' e'' : Earliest} {ep : ReliableEndpoint}
    {first second : ReliableEndpoint×List Bytes} (h : Spends deadline now e ep e' first)
    (h' : Spends deadline now e' first.1 e'' second) :
    Spends deadline now e ep e'' (second.1,first.2++second.2) where
  resting := h'.resting
  cost := by
    have hfirst := h.cost
    have hsecond := h'.cost
    rw [List.length_append]
    dsimp only
    omega

/-- The repetitions cost a firing of their timer for the whole window. -/
theorem Resting.retransmitPhase {deadline now : Instant} {e : Earliest} {ep : ReliableEndpoint}
    (h : Resting now e ep) (hnow : now ≤ deadline) :
    ∃ e',Spends deadline now e ep e' (ep.retransmitPhase now) := by
  by_cases hs : Stale ep now
  · obtain ⟨oldest,hhead,hage⟩ := hs
    have hpause := h.timed.repeats
    have hdue : e.burst ≤ now := by
      have holdest := h.window oldest (List.mem_of_head? hhead)
      have hsent := add_le_of_pause hpause hage
      exact holdest.elim id (fun hentry => hentry.trans hsent)
    have hfire := firings_fire hpause hdue hnow
    have hspent : ep.config.maxInFlight+
        ep.config.maxInFlight*firings ep.config.retransmitAfter deadline
          (now+ep.config.retransmitAfter) ≤
        ep.config.maxInFlight*firings ep.config.retransmitAfter deadline e.burst := by
      have hmul := Nat.mul_le_mul_left ep.config.maxInFlight hfire
      rwa [Nat.mul_add,Nat.mul_one] at hmul
    refine ⟨⟨now+ep.config.retransmitAfter,e.ping⟩,?_⟩
    rw [retransmitPhase_of_stale ⟨oldest,hhead,hage⟩]
    refine ⟨⟨h.timed,?_,Nat.le_refl _,fun entry hm => ?_,h.ping⟩,?_⟩
    · dsimp only
      rw [List.length_map]
      exact h.size
    · obtain ⟨old,_,rfl⟩ := List.mem_map.mp hm
      exact Or.inr (Nat.le_refl _)
    · have hsize := h.size
      rw [List.length_map]
      unfold budget
      dsimp only
      omega
  · rw [retransmitPhase_of_not_stale hs]
    exact ⟨e,.refl h⟩

/-- A transmission into a window with room starts no timer. -/
theorem Resting.send {now : Instant} {e : Earliest} {ep : ReliableEndpoint} (h : Resting now e ep)
    (hroom : ep.inFlight.length<ep.config.maxInFlight) (payload : Bytes) :
    Resting now e (ep.sendReliable payload now).1 where
  timed := h.timed
  size := by
    simp only [ReliableEndpoint.sendReliable,List.length_append,List.length_singleton]
    omega
  soon := h.soon
  window := by
    intro entry hm
    rcases List.mem_append.mp hm with hm | hm
    · exact h.window entry hm
    · rw [List.mem_singleton.mp hm]
      exact Or.inr h.soon
  ping := h.ping

/-- New packets are paid for by the queue. -/
theorem Resting.refillLoop {now : Instant} {e : Earliest} (queue : List Bytes)
    {ep : ReliableEndpoint} (h : Resting now e ep) :
    Resting now e (ReliableEndpoint.refillLoop now queue ep).1 ∧
      (ReliableEndpoint.refillLoop now queue ep).2.length+
          (ReliableEndpoint.refillLoop now queue ep).1.outbound.length=queue.length ∧
      (ReliableEndpoint.refillLoop now queue ep).1.config=ep.config ∧
      (ReliableEndpoint.refillLoop now queue ep).1.ack=ep.ack := by
  induction queue generalizing ep with
  | nil => exact ⟨⟨h.timed,h.size,h.soon,h.window,h.ping⟩,rfl,rfl,rfl⟩
  | cons payload queue ih =>
    simp only [ReliableEndpoint.refillLoop]
    split
    · rename_i hroom
      obtain ⟨hrest,hlength,hconfig,hack⟩ := ih (h.send hroom payload)
      refine ⟨hrest,?_,hconfig,hack⟩
      simp only [List.length_cons]
      omega
    · refine ⟨⟨h.timed,h.size,h.soon,h.window,h.ping⟩,?_,rfl,rfl⟩
      simp only [List.length_nil,List.length_cons,Nat.zero_add]

/-- The refill pays with what is queued. -/
theorem Resting.refillPhase {deadline now : Instant} {e : Earliest} {ep : ReliableEndpoint}
    (h : Resting now e ep) : Spends deadline now e ep e (ep.refillPhase now) := by
  obtain ⟨hrest,hlength,hconfig,hack⟩ := h.refillLoop ep.outbound
  refine ⟨hrest,?_⟩
  unfold budget ReliableEndpoint.refillPhase
  rw [hconfig,hack]
  omega

/-- An acknowledgement is paid for by the packets it acknowledges. -/
theorem Resting.ackPhase {deadline now : Instant} {e : Earliest} {ep : ReliableEndpoint}
    (h : Resting now e ep) (elapsedAt ackAt : Instant) :
    Spends deadline now e ep e (ep.ackPhase elapsedAt ackAt) := by
  unfold ReliableEndpoint.ackPhase
  split
  · rename_i hdue
    have hpos := accepted_of_shouldSendAck h.timed.acks hdue
    unfold ReliableEndpoint.buildAckPacket
    split
    · exact .refl h
    · refine ⟨⟨h.timed,h.size,h.soon,h.window,h.ping⟩,?_⟩
      simp only [budget,Option.toList_some,List.length_singleton]
      omega
  · exact .refl h

/-- A keepalive costs a firing of its timer. -/
theorem Resting.pingPhase {deadline now : Instant} {e : Earliest} {ep : ReliableEndpoint}
    (h : Resting now e ep) (hnow : now ≤ deadline) :
    ∃ e',Spends deadline now e ep e' (ep.pingPhase now) := by
  unfold ReliableEndpoint.pingPhase
  split
  · rename_i hdue
    obtain ⟨_,hempty,_,hage⟩ := hdue
    have hpause := h.timed.pings
    have hready : e.ping ≤ now := by
      have hsent := add_le_of_pause hpause hage
      exact h.ping.elim id (fun hlast => hlast.trans hsent)
    have hfire := firings_fire hpause hready hnow
    have hroom : ep.inFlight.length<ep.config.maxInFlight := by
      rw [hempty]
      exact h.timed.window
    have hsent := h.send hroom []
    refine ⟨⟨e.burst,now+ep.config.pingInterval⟩,
      ⟨hsent.timed,hsent.size,hsent.soon,hsent.window,Or.inr (Nat.le_refl _)⟩,?_⟩
    simp only [budget,ReliableEndpoint.sendReliable,List.length_singleton]
    omega
  · exact ⟨e,.refl h⟩

/-- A poll before the deadline is paid for. -/
theorem Resting.poll {deadline now : Instant} {e : Earliest} {ep : ReliableEndpoint}
    (h : Resting now e ep) (hnow : now ≤ deadline) (elapsedAt ackAt : Instant) :
    ∃ e',Spends deadline now e ep e' (ep.pollOutbound now elapsedAt ackAt) := by
  obtain ⟨_,hrepeated⟩ := h.retransmitPhase hnow
  have hrefilled := hrepeated.trans hrepeated.resting.refillPhase
  have hacked := hrefilled.trans (hrefilled.resting.ackPhase elapsedAt ackAt)
  obtain ⟨e',hpinged⟩ := hacked.resting.pingPhase hnow
  exact ⟨e',hacked.trans hpinged⟩

/-- What a phase of a poll writes: window, queue, acknowledgements, the next id and the
time of the keepalive. -/
def Writes (ep : ReliableEndpoint) (result : ReliableEndpoint×List Bytes) : Prop :=
  ∃ nextSendId inFlight outbound ack lastPingAt,result.1={ep with
    nextSendId := nextSendId
    inFlight := inFlight
    outbound := outbound
    ack := ack
    lastPingAt := lastPingAt}

/-- Phases of a poll write nothing else. -/
theorem phaseRule_writes : PhaseRule Writes where
  refl ep := ⟨ep.nextSendId,ep.inFlight,ep.outbound,ep.ack,ep.lastPingAt,rfl⟩
  fields := by
    rintro ep result ⟨n,w,q,a,p,heq⟩ outbound lastPingAt
    exact ⟨n,w,outbound,a,lastPingAt,by rw [heq]⟩
  trans := by
    rintro ep first second ⟨n,w,q,a,p,heq⟩ ⟨n',w',q',a',p',heq'⟩
    exact ⟨n',w',q',a',p',by rw [heq',heq]⟩

/-- Nor does an acknowledgement. -/
theorem ackPhase_writes (ep : ReliableEndpoint) (elapsedAt ackAt : Instant) :
    Writes ep (ep.ackPhase elapsedAt ackAt) := by
  unfold ReliableEndpoint.ackPhase ReliableEndpoint.buildAckPacket
  split
  · split
    · exact phaseRule_writes.refl ep
    · exact ⟨_,_,_,_,_,rfl⟩
  · exact phaseRule_writes.refl ep

/-- A poll does not change when the peer was heard last. -/
theorem pollOutbound_lastRecvAt (ep : ReliableEndpoint) (now elapsedAt ackAt : Instant) :
    (ep.pollOutbound now elapsedAt ackAt).1.lastRecvAt=ep.lastRecvAt := by
  have hsend : Sends Writes now := fun ep payload _ => ⟨_,_,_,ep.ack,_,rfl⟩
  obtain ⟨_,_,n,w,q,a,p,heq⟩ := phaseRule_writes.poll hsend
    (fun ep => ackPhase_writes ep elapsedAt ackAt) ep
  rw [heq]
  unfold ReliableEndpoint.retransmitPhase
  split
  · rfl
  · split <;> rfl

/-- An endpoint whose timers may fire from this time on. -/
theorem resting_now {ep : ReliableEndpoint} (htimed : Timed ep.config)
    (hsize : ep.inFlight.length ≤ ep.config.maxInFlight) (now : Instant) :
    Resting now ⟨now,now⟩ ep :=
  ⟨htimed,hsize,Nat.le_add_right _ _,fun _ _ => Or.inl (Nat.le_refl now),Or.inl (Nat.le_refl now)⟩

end AtemProxy.EndpointBudgets
