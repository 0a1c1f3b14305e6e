import AtemProxy.GhostOwners
import AtemProxy.LateJoiners
import Mathlib.Data.List.TakeWhile

/-!
# Datagrams of an earlier session after a new HELLO

A session is found by the address of its client; the session id of a
datagram is never compared with the one assigned at the HELLO. Packet ids of
both sessions start at one, so an old acknowledgement or an old reliable
packet acts on the new session exactly when its ids fit there.
-/

namespace AtemProxy.StaleDatagrams

open BigEndian PacketCodec CommandFrames KeyedMaps LockStores TransferLanes CommandPolicy
  LateJoinCache ReliableTransport ServerSessions UpstreamEvents BroadcastQueues GuardedRuns
  ProxyTasks

open GhostOwners (clientJoined)

open LateJoiners (denyingStart)

/-- A datagram that decodes reaches the idle handler and finds a session whose
assigned id is another one. -/
structure Stale (s : Proxy) (addr : SocketAddr) (data : Bytes) (header : PacketHeader)
    (payload : Bytes) (t : Tracked) : Prop where
  /-- No datagram is being handled. -/
  idle : s.handler=.idle
  /-- Contents of the datagram. -/
  decoded : decodePacket data=.ok (header,payload)
  /-- Session of its address. -/
  session : s.sessions.get? addr=some t
  /-- The session ids differ. -/
  differs : header.sessionId≠t.session.rel.sessionId

/-- The session is not opened, loses no packet in flight, expects the same
packet as before, and no command of it reaches the filter. -/
def Untouched (t : Tracked) (addr : SocketAddr) (s : Proxy) : Prop :=
  ∃ after, s.sessions.get? addr=some after ∧ after.session.opened=t.session.opened ∧
    after.session.rel.inFlight=t.session.rel.inFlight ∧
    after.session.rel.ack.expectedRecv=t.session.rel.ack.expectedRecv ∧
    ∀ cmds actions, s.handler≠.filtering addr cmds actions

/-- The ids of the datagram fit nowhere: it is a HELLO, or it neither
acknowledges into an unopened session or the oldest packet in flight, nor is
the reliable packet that the session expects next. -/
def Harmless (t : Tracked) (header : PacketHeader) : Prop :=
  isHandshakePacket header.flags=true ∨
    ((ClientSession.acknowledges header=true → t.session.opened=true ∧
        ∀ entry, t.session.rel.inFlight.head?=some entry →
          isAckCovering header.ackId entry.packetId=false) ∧
      (header.flags.ackRequest=true → header.packetId≠t.session.rel.ack.expectedRecv))

/-- Acknowledgement part of a datagram: what it opens and removes. -/
theorem onHeader_effect (sess : ClientSession) (header : PacketHeader) (dump : List Bytes)
    (clock : Instant) :
    (sess.onHeader header dump clock).opened=(sess.opened || ClientSession.acknowledges header) ∧
      (sess.onHeader header dump clock).rel.inFlight=
        (if ClientSession.acknowledges header=true then
          sess.rel.inFlight.dropWhile (fun entry => isAckCovering header.ackId entry.packetId)
        else sess.rel.inFlight) ∧
      (sess.onHeader header dump clock).rel.ack=sess.rel.ack := by
  simp only [ClientSession.onHeader]
  cases ClientSession.acknowledges header with
  | false =>
    simp only [Bool.false_eq_true,if_false,Bool.or_false,true_and]
    exact ⟨rfl,rfl⟩
  | true =>
    simp only [if_true,Bool.or_true,ClientSession.openWith]
    split
    · rename_i hopen
      exact ⟨hopen,rfl,rfl⟩
    · split <;> exact ⟨rfl,rfl,rfl⟩

/-- No id follows itself. -/
theorem nextPacketId_ne (id : UInt16) : nextPacketId id≠id := by
  intro he
  have hnat := congrArg UInt16.toNat he
  rw [nextPacketId_toNat] at hnat
  omega

/-- Reliable part of a datagram: only the expected packet is accepted, and
only then a payload is handed on. -/
theorem onReliable_effect (sess : ClientSession) (header : PacketHeader) (payload : Bytes) :
    (sess.onReliable header payload).session.opened=sess.opened ∧
      (sess.onReliable header payload).session.rel.inFlight=sess.rel.inFlight ∧
      ((sess.onReliable header payload).session.rel.ack.expectedRecv=sess.rel.ack.expectedRecv ↔
        (header.flags.ackRequest=true → header.packetId≠sess.rel.ack.expectedRecv)) ∧
      ((header.flags.ackRequest=true → header.packetId≠sess.rel.ack.expectedRecv) →
        (sess.onReliable header payload).payload=none) := by
  simp only [ClientSession.onReliable]
  cases header.flags.ackRequest with
  | false => simp
  | true =>
    simp only [if_true,true_implies]
    by_cases he : header.packetId=sess.rel.ack.expectedRecv
    · simp only [ReliableEndpoint.acceptReliable,he,if_true,ne_eq,not_true_eq_false,
        false_implies,iff_false,and_true,true_and]
      exact nextPacketId_ne _
    · simp only [ReliableEndpoint.acceptReliable_of_ne he,Bool.false_eq_true,if_false,ne_eq,he,
        not_false_eq_true,and_self,true_implies]

/-- A front part is dropped exactly when the first element is. -/
theorem dropWhile_eq_self_iff_head {α : Type} (p : α → Bool) (l : List α) :
    l.dropWhile p=l ↔ ∀ x, l.head?=some x → p x=false := by
  rw [List.dropWhile_eq_self_iff]
  cases l with
  | nil => simp
  | cons x l => simp

/-- A HELLO leaves the session of its address alone. -/
theorem untouched_of_handshake {s : Proxy} {addr : SocketAddr} {data : Bytes}
    {header : PacketHeader} {payload : Bytes} {t : Tracked}
    (h : Stale s addr data header payload t) (hhello : isHandshakePacket header.flags=true)
    (clock : Instant) : Untouched t addr (s.receiveDatagram addr data clock) := by
  simp only [Proxy.receiveDatagram,h.decoded,hhello,if_true]
  split
  · exact ⟨t,h.session,rfl,rfl,rfl,fun _ _ hf => by cases hf⟩
  · refine ⟨t,h.session,rfl,rfl,rfl,fun _ _ hf => ?_⟩
    rw [h.idle] at hf
    cases hf

/-- The session after any other datagram, and whether the filter is reached. -/
theorem receiveDatagram_effect {s : Proxy} {addr : SocketAddr} {data : Bytes}
    {header : PacketHeader} {payload : Bytes} {t : Tracked}
    (h : Stale s addr data header payload t) (hdata : isHandshakePacket header.flags=false)
    (clock : Instant) :
    ∃ after, (s.receiveDatagram addr data clock).sessions.get? addr=some after ∧
      after.session=((t.session.onHeader header s.cache.dump clock).onReliable header
        payload).session ∧
      (((t.session.onHeader header s.cache.dump clock).onReliable header payload).payload=none →
        (s.receiveDatagram addr data clock).handler=.idle) := by
  simp only [Proxy.receiveDatagram,h.decoded,hdata,Bool.false_eq_true,if_false,h.session,
    Proxy.beginDatagram]
  split
  · exact ⟨_,OrderedMap.get?_insert_self _ _ _,rfl,fun _ => h.idle⟩
  · rename_i accepted haccepted
    have hsome : ((t.session.onHeader header s.cache.dump clock).onReliable header
        payload).payload=some accepted := haccepted
    split <;>
    · refine ⟨_,OrderedMap.get?_insert_self _ _ _,rfl,fun hnone => ?_⟩
      rw [hsome] at hnone
      cases hnone

/-- A datagram of another session leaves the session alone exactly when its
ids fit nowhere. -/
theorem untouched_iff_harmless {s : Proxy} {addr : SocketAddr} {data : Bytes}
    {header : PacketHeader} {payload : Bytes} {t : Tracked}
    (h : Stale s addr data header payload t) (clock : Instant) :
    Untouched t addr (s.receiveDatagram addr data clock) ↔ Harmless t header := by
  cases hhello : isHandshakePacket header.flags with
  | true => exact iff_of_true (untouched_of_handshake h hhello clock) (Or.inl hhello)
  | false =>
    obtain ⟨after,hafter,hsession,hhandler⟩ := receiveDatagram_effect h hhello clock
    obtain ⟨hopened,hwindow,hack⟩ := onHeader_effect t.session header s.cache.dump clock
    obtain ⟨hropened,hrwindow,hexpected,hnone⟩ :=
      onReliable_effect (t.session.onHeader header s.cache.dump clock) header payload
    rw [hack] at hexpected hnone
    have hfacts : (after.session.opened=t.session.opened ∧
        after.session.rel.inFlight=t.session.rel.inFlight) ↔
        (ClientSession.acknowledges header=true → t.session.opened=true ∧
          ∀ entry, t.session.rel.inFlight.head?=some entry →
            isAckCovering header.ackId entry.packetId=false) := by
      rw [hsession,hropened,hrwindow,hopened,hwindow]
      cases ClientSession.acknowledges header with
      | false => simp
      | true =>
        simp only [Bool.or_true,if_true,true_implies,dropWhile_eq_self_iff_head]
        exact and_congr_left fun _ => eq_comm
    have hharmless : Harmless t header ↔
        (after.session.opened=t.session.opened ∧
          after.session.rel.inFlight=t.session.rel.inFlight) ∧
        after.session.rel.ack.expectedRecv=t.session.rel.ack.expectedRecv := by
      unfold Harmless
      rw [hhello,hfacts,hsession,hexpected]
      simp only [Bool.false_eq_true,false_or]
    rw [hharmless]
    constructor
    · rintro ⟨other,hother,ho,hw,he,_⟩
      rw [hafter,Option.some.injEq] at hother
      subst hother
      exact ⟨⟨ho,hw⟩,he⟩
    · rintro ⟨⟨ho,hw⟩,he⟩
      refine ⟨after,hafter,ho,hw,he,fun cmds actions hf => ?_⟩
      rw [hsession,hexpected] at he
      rw [hhandler (hnone he)] at hf
      cases hf

/-- Handling a datagram of another session leaves the present one alone. -/
def Isolates (s : Proxy) : Action → Prop
  | .datagram addr data clock => ∀ header payload t, Stale s addr data header payload t →
      Untouched t addr (s.receiveDatagram addr data clock)
  | _ => True

/-- A datagram of another session has no ids that fit the present one. -/
def StaleIdsFitNowhere (s : Proxy) : Action → Prop
  | .datagram addr data _ => ∀ header payload t, Stale s addr data header payload t →
      Harmless t header
  | _ => True

/-- A step isolates the sessions exactly if stale ids fit nowhere. -/
theorem isolates_iff (s : Proxy) (a : Action) : Isolates s a ↔ StaleIdsFitNowhere s a := by
  cases a with
  | datagram addr data clock =>
    exact forall_congr' fun _ => forall_congr' fun _ => forall_congr' fun _ =>
      forall_congr' fun h => untouched_iff_harmless h clock
  | _ => exact Iff.rfl

/-- In every run the datagrams of earlier sessions leave the present one alone
exactly when the ids of none of them fit there. -/
theorem stale_datagrams_isolated_iff (policy : FilterPolicy) (idle : ℕ) (actions : List Action) :
    Meets step Isolates (Proxy.start policy idle) actions ↔
      Meets step StaleIdsFitNowhere (Proxy.start policy idle) actions :=
  meets_congr step isolates_iff

/-- Acknowledgement that carries the id of the first session. -/
def staleAck : Bytes := encodePacket (ReliableEndpoint.ackHeader (serverSessionId 1) 1) []

/-- Reliable lock request of the first session, sent again. -/
def staleCommand : Bytes :=
  let lock := serializeCommand (tag 'L' 'O' 'C' 'K') [0,1,1,0]
  encodePacket {ReliableEndpoint.dataHeader (serverSessionId 1) 1 lock with
    flags := {ackRequest := true, isRetransmit := true}} lock

/-- A client joins and sends a second HELLO. -/
def rejoined : List Action :=
  clientJoined++[.datagram ⟨1,1⟩ helloData 1,.handler 1 true,.handler 1 true]

/-- The proxy after the second HELLO. -/
def rejoinedProxy : Proxy := (run step denyingStart rejoined).getD denyingStart

/-- An old acknowledgement opens the new session, and an old reliable packet
is taken for the first one of the new session. -/
theorem stale_datagrams_act_on_new_session :
    ¬Meets step Isolates denyingStart (rejoined++[.datagram ⟨1,1⟩ staleAck 2]) ∧
      ¬Meets step Isolates denyingStart (rejoined++[.datagram ⟨1,1⟩ staleCommand 2]) := by
  have hrun : run step denyingStart rejoined=some rejoinedProxy := rfl
  obtain ⟨t,ht,hid,hopened,hexpected⟩ : ∃ t, rejoinedProxy.sessions.get? ⟨1,1⟩=some t ∧
      t.session.rel.sessionId=serverSessionId 2 ∧ t.session.opened=false ∧
      t.session.rel.ack.expectedRecv=1 := ⟨_,rfl,by decide +kernel,rfl,rfl⟩
  have hacted : ∀ data header payload, decodePacket data=.ok (header,payload) →
      header.sessionId=serverSessionId 1 → ¬Harmless t header →
      ¬Meets step Isolates denyingStart (rejoined++[.datagram ⟨1,1⟩ data 2]) := by
    intro data header payload hdecode hold hharm h
    have hlast := (((meets_append step).mp h).2 rejoinedProxy hrun).1
    have hstale : Stale rejoinedProxy ⟨1,1⟩ data header payload t :=
      ⟨rfl,hdecode,ht,by rw [hold,hid]; decide⟩
    exact hharm ((untouched_iff_harmless hstale 2).mp (hlast header payload t hstale))
  constructor
  · refine hacted staleAck _ _ rfl rfl ?_
    rintro (hhello | ⟨hack,_⟩)
    · cases hhello
    · have hopen := (hack rfl).1
      rw [hopened] at hopen
      cases hopen
  · refine hacted staleCommand _ _ rfl rfl ?_
    rintro (hhello | ⟨_,hpacket⟩)
    · cases hhello
    · exact hpacket rfl hexpected.symm

end AtemProxy.StaleDatagrams
