import AtemProxy.AttachedSwitcher
import AtemProxy.CommandProducers
import Mathlib.Algebra.BigOperators.Ring.List

/-!
# What the proxy sends before an address confirms itself

The source address of a datagram may be forged. Until something acknowledges for an
address, its session stays closed: nothing is queued to it and nothing awaits an
acknowledgement. Every answer to such an address is paid for by a datagram that
arrived from it: a HELLO pays for its reply, an accepted packet for its
acknowledgement and any other packet for a retransmit request.
-/

namespace AtemProxy.UnconfirmedClients

open BigEndian PacketCodec KeyedMaps LockStores CommandPolicy ReliableTransport ServerSessions
  GuardedRuns ProxyTasks SessionOrigins
open AttachedSwitcher (buildServerHandshakeReply)
open ClientSession (acknowledges)
open CommandProducers (handles handler_of_step)

/-- Datagrams that a step receives from the address. -/
def receives (addr : SocketAddr) (_ : Proxy) : Action → List Bytes
  | .datagram other data _ => if other=addr then [data] else []
  | _ => []

/-- Datagrams that a step sends to the address: retransmit requests, HELLO replies and
what the tick polls. -/
def sends (addr : SocketAddr) (s : Proxy) : Action → List Bytes
  | .datagram other data clock =>
    if other=addr then (s.retransmit other data clock).toList else []
  | .handler _ replied =>
    match s.handler with
    | .insert other sid =>
      if other=addr ∧ replied=true then [buildServerHandshakeReply (serverSessionId sid)] else []
    | _ => []
  | .tick now clocks =>
    match s.sessions.get? addr with
    | none => []
    | some t =>
      if t.session.expired s.idle now=true then []
      else (t.session.rel.pollOutbound now (clocks addr).elapsedAt (clocks addr).ackAt).2
  | _ => []

/-- Bytes of these datagrams. -/
def size (datagrams : List Bytes) : ℕ := (datagrams.map List.length).sum

/-- No datagrams. -/
theorem size_nil : size []=0 := rfl

/-- One datagram. -/
theorem size_singleton (datagram : Bytes) : size [datagram]=datagram.length := by
  rw [size,List.map_singleton,List.sum_singleton]

/-- A datagram of the address is undecodable, a HELLO, or acknowledges nothing. -/
def Unconfirmed (addr : SocketAddr) : Action → Prop
  | .datagram other data _ => other=addr → ∀ header payload,
    decodePacket data=.ok (header,payload) →
      isHandshakePacket header.flags=true ∨ acknowledges header=false
  | _ => True

/-- Nothing was acknowledged, nothing is queued and nothing awaits an acknowledgement. -/
structure Shut (sess : ClientSession) : Prop where
  /-- The session is not opened. -/
  closed : sess.opened=false
  /-- Neither is its endpoint. -/
  silent : sess.rel.opened=false
  /-- Window. -/
  window : sess.rel.inFlight=[]
  /-- Queue. -/
  outbound : sess.rel.outbound=[]
  /-- An acknowledgement needs an accepted packet. -/
  coalesces : 0<sess.rel.config.ackCoalesceCount

/-- A session that was just inserted is shut. -/
theorem shut_hello (sid : UInt16) (clock : Instant) : Shut (.hello sid clock) :=
  ⟨rfl,rfl,rfl,rfl,Nat.succ_pos 15⟩

/-- What a closed session may still send, a third of a byte as the unit. -/
def owed (sess : ClientSession) : ℕ := 36*sess.rel.ack.packetsSinceAck

/-- A HELLO reply, or a datagram without payload. -/
def Bare (bytes : Bytes) : Prop :=
  (∃ sid,bytes=buildServerHandshakeReply sid) ∨ ∃ header,bytes=encodePacket header []

/-- A datagram without payload has twelve bytes. -/
theorem length_encodePacket_nil (header : PacketHeader) : (encodePacket header []).length=12 := by
  rw [encodePacket_length]
  rfl

/-- A HELLO reply has twenty bytes. -/
theorem length_buildServerHandshakeReply (sid : UInt16) :
    (buildServerHandshakeReply sid).length=20 := by
  rw [buildServerHandshakeReply,encodePacket_length]
  rfl

/-- Effect of some operation on a closed session, with the datagrams it sends. -/
structure Pays (charge : ℕ) (sess next : ClientSession) (out : List Bytes) : Prop where
  /-- The session stays closed. -/
  shut : Shut next
  /-- What is sent and still owed was owed before or is charged now. -/
  balance : 3*size out+owed next ≤ charge+owed sess
  /-- Nothing of the switcher is sent. -/
  bare : ∀ bytes∈out,Bare bytes

/-- With nothing queued and nothing in flight a closed endpoint only acknowledges. -/
theorem pollOutbound_eq_ackPhase {ep : ReliableEndpoint} (hclosed : ep.opened=false)
    (hwindow : ep.inFlight=[]) (hout : ep.outbound=[]) (now elapsedAt ackAt : Instant) :
    ep.pollOutbound now elapsedAt ackAt=ep.ackPhase elapsedAt ackAt := by
  have hrepeat : ep.retransmitPhase now=(ep,[]) := by
    rw [ReliableEndpoint.retransmitPhase,hwindow]
  have hrefill : ep.refillPhase now=(ep,[]) := by
    rw [ReliableEndpoint.refillPhase,hout,ReliableEndpoint.refillLoop,←hout]
  have hopened : (ep.ackPhase elapsedAt ackAt).1.opened=false := by
    unfold ReliableEndpoint.ackPhase ReliableEndpoint.buildAckPacket
    split
    · split <;> exact hclosed
    · exact hclosed
  have hping : (ep.ackPhase elapsedAt ackAt).1.pingPhase now=((ep.ackPhase elapsedAt ackAt).1,[]) := by
    rw [ReliableEndpoint.pingPhase,hopened]
    exact if_neg (fun hc => absurd hc.1 Bool.false_ne_true)
  simp only [ReliableEndpoint.pollOutbound,hrepeat,hrefill,hping,List.nil_append,List.append_nil]

/-- An acknowledgement is sent for at least one accepted packet. -/
theorem accepted_of_shouldSendAck {ep : ReliableEndpoint} (hcount : 0<ep.config.ackCoalesceCount)
    {clock : Instant} (h : ep.shouldSendAck clock=true) : 0<ep.ack.packetsSinceAck := by
  unfold ReliableEndpoint.shouldSendAck at h
  split at h
  · cases h
  · split at h
    · omega
    · split at h <;> simp only [decide_eq_true_eq] at h <;> omega

/-- Only a due acknowledgement can be sent by a poll. -/
theorem Shut.pollOutbound {sess : ClientSession} (h : Shut sess) (now elapsedAt ackAt : Instant) :
    Pays 0 sess {sess with rel := (sess.rel.pollOutbound now elapsedAt ackAt).1}
      (sess.rel.pollOutbound now elapsedAt ackAt).2 := by
  rw [pollOutbound_eq_ackPhase h.silent h.window h.outbound]
  unfold ReliableEndpoint.ackPhase
  split
  · rename_i hdue
    have hpos := accepted_of_shouldSendAck h.coalesces hdue
    unfold ReliableEndpoint.buildAckPacket
    split
    · exact ⟨h,Nat.le_of_eq (by rfl),fun _ hm => absurd hm List.not_mem_nil⟩
    · refine ⟨⟨h.closed,h.silent,h.window,h.outbound,h.coalesces⟩,?_,?_⟩
      · show 3*size [encodePacket _ []]+36*0 ≤ 0+36*sess.rel.ack.packetsSinceAck
        rw [size_singleton,length_encodePacket_nil]
        omega
      · intro bytes hm
        exact Or.inr ⟨_,List.mem_singleton.mp hm⟩
  · exact ⟨h,Nat.le_of_eq (by rfl),fun _ hm => absurd hm List.not_mem_nil⟩

/-- A packet that acknowledges nothing is accepted, or answered with a request. -/
theorem Shut.onReliable {sess : ClientSession} (h : Shut sess) (header : PacketHeader)
    (payload : Bytes) :
    Pays 36 sess (sess.onReliable header payload).session
      (sess.onReliable header payload).request.toList := by
  unfold ClientSession.onReliable
  split
  · by_cases hnext : header.packetId=sess.rel.ack.expectedRecv
    · have haccept : sess.rel.acceptReliable header.packetId header.flags.isRetransmit=
          ({sess.rel with ack := {sess.rel.ack with
            expectedRecv := nextPacketId sess.rel.ack.expectedRecv
            highestRecv := some header.packetId
            packetsSinceAck := saturatingSucc16 sess.rel.ack.packetsSinceAck}},true) := by
        unfold ReliableEndpoint.acceptReliable
        exact if_pos hnext
      rw [haccept]
      refine ⟨⟨h.closed,h.silent,h.window,h.outbound,h.coalesces⟩,?_,
        fun _ hm => absurd hm List.not_mem_nil⟩
      show 0+36*saturatingSucc16 sess.rel.ack.packetsSinceAck ≤
        36+36*sess.rel.ack.packetsSinceAck
      have hle : saturatingSucc16 sess.rel.ack.packetsSinceAck ≤ sess.rel.ack.packetsSinceAck+1 :=
        Nat.min_le_left _ _
      omega
    · rw [ReliableEndpoint.acceptReliable_of_ne hnext]
      refine ⟨h,?_,?_⟩
      · show 3*size [encodePacket _ []]+owed sess ≤ 36+owed sess
        rw [size_singleton,length_encodePacket_nil]
      · intro bytes hm
        exact Or.inr ⟨_,List.mem_singleton.mp hm⟩
  · refine ⟨h,?_,fun _ hm => absurd hm List.not_mem_nil⟩
    show 0+owed sess ≤ 36+owed sess
    omega

/-- A header that acknowledges nothing only notes the time. -/
theorem onHeader_of_unconfirmed (sess : ClientSession) {header : PacketHeader}
    (hquiet : acknowledges header=false) (dump : List Bytes) (clock : Instant) :
    sess.onHeader header dump clock={sess with rel := sess.rel.noteRecv clock} := by
  rw [ClientSession.onHeader,hquiet]
  rfl

/-- Price of the reply that the handler still owes to a HELLO of the address. -/
def awaited (addr : SocketAddr) : Handler → ℕ
  | .checkReady other => if other=addr then 60 else 0
  | .insert other _ => if other=addr then 60 else 0
  | _ => 0

/-- What the session of the address, if there is one, still owes. -/
def owedBy : Option Tracked → ℕ
  | none => 0
  | some t => owed t.session

/-- What may still be sent to the address for datagrams that already arrived. -/
def credit (addr : SocketAddr) (s : Proxy) : ℕ :=
  awaited addr s.handler+owedBy (s.sessions.get? addr)

/-- The session of the address, if there is one, is closed. -/
def ShutAt (addr : SocketAddr) (s : Proxy) : Prop :=
  ∀ t,s.sessions.get? addr=some t → Shut t.session

/-- A step keeps the session closed and is paid for. -/
structure Settles (addr : SocketAddr) (s t : Proxy) (sent received : List Bytes) : Prop where
  /-- The session stays closed. -/
  shut : ShutAt addr t
  /-- What is sent was paid for. -/
  balance : 3*size sent+credit addr t ≤ 5*size received+credit addr s
  /-- Nothing of the switcher is sent. -/
  bare : ∀ bytes∈sent,Bare bytes

/-- Steps that send nothing to the address and owe it no more. -/
theorem settles_of_le {addr : SocketAddr} {s t : Proxy} (received : List Bytes)
    (hshut : ShutAt addr t) (hhandler : awaited addr t.handler ≤ awaited addr s.handler)
    (hsession : owedBy (t.sessions.get? addr) ≤ owedBy (s.sessions.get? addr)) :
    Settles addr s t [] received where
  shut := hshut
  balance := by
    rw [size_nil]
    unfold credit
    omega
  bare := fun _ hm => absurd hm List.not_mem_nil

/-- The tasks without a datagram, an answer or a poll. -/
theorem settles_silent {addr : SocketAddr} {s t : Proxy} {a : Action} (hs : ShutAt addr s)
    (ha : handles a=false) (htick : ∀ now clocks,a≠.tick now clocks) (h : step s a=some t) :
    Settles addr s t [] [] := by
  have hkind := sessionStep_of_step addr h
  have hhandler := Nat.le_of_eq (congrArg (awaited addr) (handler_of_step ha h))
  unfold ShutAt at hs
  generalize hbefore : s.sessions.get? addr=before at hkind hs
  generalize hafter : t.sessions.get? addr=after at hkind
  suffices hsame : after=none ∨ after=before by
    rcases hsame with hnone | hsame
    · refine settles_of_le [] (fun u hu => ?_) hhandler ?_
      · rw [hafter,hnone] at hu
        cases hu
      · rw [hafter,hnone]
        exact Nat.zero_le _
    · refine settles_of_le [] (fun u hu => hs u ?_) hhandler ?_
      · rw [←hsame,←hafter,hu]
      · rw [hafter,hbefore,hsame]
  cases hkind with
  | kept _ _ => exact Or.inr rfl
  | handed handout _ u => exact Or.inr (congrArg some (record_unopened handout addr (hs u rfl).closed))
  | heard data header payload clock u => cases ha
  | decided clock replied actions u => cases ha
  | polled now clocks u => exact absurd rfl (htick now clocks)
  | removed _ _ => exact Or.inl rfl
  | inserted sid clock hwaits _ => cases ha

/-- The tick removes the session of an address when it expired, and polls it otherwise. -/
theorem get?_tick (s : Proxy) (now : Instant) (clocks : SocketAddr → PollClocks)
    (addr : SocketAddr) :
    (s.tick now clocks).sessions.get? addr=(s.sessions.get? addr).bind (fun t =>
      if t.session.expired s.idle now=true then none
      else some (t.keep (fun sess => {sess with
        rel := (sess.rel.pollOutbound now (clocks addr).elapsedAt (clocks addr).ackAt).1}))) := by
  have hget : (s.tick now clocks).sessions.get? addr=
      if addr∈deadAddrs s.plain s.idle now then none
      else (s.sessions.get? addr).map
        (.keep (.poll s.idle now (clocks addr).elapsedAt (clocks addr).ackAt)) := by
    simp only [Proxy.tick,OrderedMap.get?_eraseAll,OrderedMap.get?_mapValues]
  rw [hget]
  cases ht : s.sessions.get? addr with
  | none => exact ite_self none
  | some t =>
    have hdead : addr∈deadAddrs s.plain s.idle now ↔ t.session.expired s.idle now=true := by
      rw [mem_deadAddrs_iff,Proxy.plain,OrderedMap.get?_mapValues,ht]
      constructor
      · rintro ⟨sess,hsess,hexp⟩
        have hsame : t.session=sess := Option.some.inj hsess
        exact hsame ▸ hexp
      · exact fun hexp => ⟨t.session,rfl,hexp⟩
    rw [Option.bind_some,Option.map_some]
    by_cases hexp : t.session.expired s.idle now=true
    · rw [if_pos (hdead.mpr hexp),if_pos hexp]
    · rw [if_neg (fun hm => hexp (hdead.mp hm)),if_neg hexp,Tracked.keep,ClientSession.poll,
        if_neg hexp]
      rfl

/-- The tick sends what the session of the address owes, or removes the session. -/
theorem settles_tick {addr : SocketAddr} {s : Proxy} (hs : ShutAt addr s) (now : Instant)
    (clocks : SocketAddr → PollClocks) :
    Settles addr s (s.tick now clocks) (sends addr s (.tick now clocks)) [] := by
  have hget := get?_tick s now clocks addr
  have hgone : (s.tick now clocks).sessions.get? addr=none →
      Settles addr s (s.tick now clocks) [] [] := by
    intro hnone
    refine settles_of_le [] (fun u hu => ?_) Nat.le.refl ?_
    · cases hnone.symm.trans hu
    · rw [hnone]
      exact Nat.zero_le _
  unfold sends
  cases ht : s.sessions.get? addr with
  | none =>
    rw [ht] at hget
    exact hgone hget
  | some t =>
    rw [ht,Option.bind_some] at hget
    dsimp only
    by_cases hexp : t.session.expired s.idle now=true
    · rw [if_pos hexp] at hget ⊢
      exact hgone hget
    · rw [if_neg hexp] at hget ⊢
      have hpays := (hs t ht).pollOutbound now (clocks addr).elapsedAt (clocks addr).ackAt
      refine ⟨fun u hu => ?_,?_,hpays.bare⟩
      · rw [hget,Option.some.injEq] at hu
        exact hu ▸ hpays.shut
      · have hbalance := hpays.balance
        unfold credit
        rw [hget,ht]
        rw [size_nil]
        dsimp only [owedBy,Proxy.tick,Tracked.keep]
        omega

/-- A datagram that waits for the filter, or is done, awaits no reply. -/
theorem awaited_beginDatagram (addr : SocketAddr) {s : Proxy} (hidle : s.handler=.idle)
    (t : Tracked) (header : PacketHeader) (payload : Bytes) (clock : Instant) :
    awaited addr (s.beginDatagram addr t header payload clock).handler=0 ∧
      (s.beginDatagram addr t header payload clock).sessions.get? addr=
        some (heardBy t header payload s.cache.dump clock) := by
  unfold Proxy.beginDatagram
  dsimp only
  split
  · exact ⟨congrArg (awaited addr) hidle,OrderedMap.get?_insert_self _ _ _⟩
  · split <;> exact ⟨rfl,OrderedMap.get?_insert_self _ _ _⟩

/-- A datagram of the address pays for its own answer, a HELLO for the reply to come. -/
theorem settles_datagram_self {addr : SocketAddr} {s : Proxy} (hs : ShutAt addr s)
    (hidle : s.handler=.idle) {data : Bytes} {clock : Instant}
    (hquiet : Unconfirmed addr (.datagram addr data clock)) :
    Settles addr s (s.receiveDatagram addr data clock) (s.retransmit addr data clock).toList
      [data] := by
  unfold Proxy.receiveDatagram Proxy.retransmit
  cases hdecode : decodePacket data with
  | error e => exact settles_of_le [data] hs Nat.le.refl Nat.le.refl
  | ok decoded =>
    obtain ⟨header,payload⟩ := decoded
    have hlong : 12 ≤ data.length := by
      obtain ⟨hmin,hmax,_⟩ := decodePacket_ok hdecode
      exact hmin.trans hmax
    have hnothing : awaited addr s.handler=0 := by
      rw [hidle]
      rfl
    dsimp only
    by_cases hhello : isHandshakePacket header.flags=true
    · rw [if_pos hhello,if_pos hhello]
      split
      · refine ⟨hs,?_,fun _ hm => absurd hm List.not_mem_nil⟩
        have hreply : awaited addr (.checkReady addr)=60 := if_pos rfl
        show 3*size []+(awaited addr (.checkReady addr)+owedBy (s.sessions.get? addr)) ≤ _
        rw [hreply,size_nil,size_singleton]
        unfold credit
        omega
      · exact settles_of_le [data] hs Nat.le.refl Nat.le.refl
    · rw [if_neg hhello,if_neg hhello]
      cases ht : s.sessions.get? addr with
      | none => exact settles_of_le [data] hs Nat.le.refl Nat.le.refl
      | some t =>
        have hsilent : acknowledges header=false :=
          (hquiet rfl header payload hdecode).resolve_left hhello
        obtain ⟨hafter,hget⟩ := awaited_beginDatagram addr hidle t header payload clock
        have hshut := hs t ht
        have hheader := onHeader_of_unconfirmed t.session hsilent s.cache.dump clock
        have hheard : Shut (t.session.onHeader header s.cache.dump clock) := by
          rw [hheader]
          exact ⟨hshut.closed,hshut.silent,hshut.window,hshut.outbound,hshut.coalesces⟩
        have howed : owed (t.session.onHeader header s.cache.dump clock)=owed t.session := by
          rw [hheader]
          rfl
        have hpays := hheard.onReliable header payload
        refine ⟨fun u hu => ?_,?_,hpays.bare⟩
        · rw [hget,Option.some.injEq] at hu
          exact hu ▸ hpays.shut
        · have hbalance := hpays.balance
          rw [size_singleton]
          unfold credit
          rw [hafter,hget,hnothing,ht]
          dsimp only [owedBy,heardBy,Tracked.record]
          omega

/-- A datagram of somebody else leaves the session of the address alone. -/
theorem settles_datagram_other {addr other : SocketAddr} (hne : addr≠other) {s : Proxy}
    (hs : ShutAt addr s) (hidle : s.handler=.idle) (data : Bytes) (clock : Instant) :
    Settles addr s (s.receiveDatagram other data clock) [] [] := by
  have hnothing : awaited addr s.handler=0 := by
    rw [hidle]
    rfl
  rcases s.receiveDatagram_cases other data clock with
    heq | heq | ⟨before,header,payload,handler,_,hhandler,heq⟩
  · rw [heq]
    exact settles_of_le [] hs Nat.le.refl Nat.le.refl
  · rw [heq]
    have hreply : awaited addr (.checkReady other)=0 := if_neg (Ne.symm hne)
    exact settles_of_le [] hs (hreply.trans_le (Nat.zero_le _)) Nat.le.refl
  · have hsame : (s.receiveDatagram other data clock).sessions.get? addr=s.sessions.get? addr := by
      rw [heq]
      exact OrderedMap.get?_insert_of_ne _ hne _
    refine settles_of_le [] (fun u hu => hs u (hsame ▸ hu)) ?_ (Nat.le_of_eq (by rw [hsame]))
    rw [heq]
    rcases hhandler with rfl | ⟨cmds,actions,rfl⟩
    · exact Nat.le.refl
    · exact Nat.zero_le _

/-- The handler answers a HELLO, and its session starts owing nothing. -/
theorem settles_handler {addr : SocketAddr} {s t : Proxy} (hs : ShutAt addr s) {clock : Instant}
    {replied : Bool} (h : s.handlerStep clock replied=some t) :
    Settles addr s t (sends addr s (.handler clock replied)) [] := by
  unfold Proxy.handlerStep at h
  unfold sends
  cases hwaits : s.handler with
  | idle =>
    rw [hwaits] at h
    cases h
  | checkReady other =>
    rw [hwaits] at h
    dsimp only at h ⊢
    split at h
    · cases h
      refine settles_of_le [] hs ?_ Nat.le.refl
      rw [hwaits]
      exact Nat.le.refl
    · cases h
      exact settles_of_le [] hs (Nat.zero_le _) Nat.le.refl
  | insert other sid =>
    rw [hwaits] at h
    dsimp only at h ⊢
    split at h
    · rename_i hreplied
      cases h
      by_cases he : other=addr
      · subst he
        rw [if_pos ⟨rfl,hreplied⟩]
        have hnew : (s.sessions.insert other ⟨.hello (serverSessionId sid) clock,[]⟩).get? other=
            some ⟨.hello (serverSessionId sid) clock,[]⟩ := OrderedMap.get?_insert_self _ _ _
        refine ⟨fun u hu => ?_,?_,fun bytes hm => Or.inl ⟨_,List.mem_singleton.mp hm⟩⟩
        · rw [hnew,Option.some.injEq] at hu
          exact hu ▸ shut_hello _ _
        · have hreply : awaited other (.insert other sid)=60 := if_pos rfl
          unfold credit
          rw [hnew,hwaits,hreply,size_singleton,length_buildServerHandshakeReply]
          show 3*20+(0+36*0) ≤ _
          omega
      · rw [if_neg (fun hc => he hc.1)]
        have hsame := OrderedMap.get?_insert_of_ne s.sessions (Ne.symm he)
          (⟨.hello (serverSessionId sid) clock,[]⟩ : Tracked)
        exact settles_of_le [] (fun u hu => hs u (hsame ▸ hu)) (Nat.zero_le _)
          (Nat.le_of_eq (congrArg owedBy hsame))
    · rename_i hlost
      cases h
      rw [if_neg (fun hc => hlost hc.2)]
      exact settles_of_le [] hs (Nat.zero_le _) Nat.le.refl
  | filtering other cmds actions =>
    rw [hwaits] at h
    dsimp only
    cases cmds with
    | cons cmd cmds =>
      cases h
      exact settles_of_le [] hs (Nat.zero_le _) Nat.le.refl
    | nil =>
      cases h
      have hrel : ∀ u : Tracked,
          (if addr=other then u.keep (fun sess => sess.applyActions actions) else u).session.rel=
              u.session.rel ∧
            (if addr=other then u.keep (fun sess => sess.applyActions actions)
              else u).session.opened=u.session.opened := by
        intro u
        obtain ⟨hopened,_,hrel⟩ := u.session.applyActions_keeps actions
        split
        · exact ⟨hrel,hopened⟩
        · exact ⟨rfl,rfl⟩
      refine settles_of_le [] (fun u hu => ?_) (Nat.zero_le _) ?_
      · rw [OrderedMap.get?_mapValues] at hu
        obtain ⟨v,hv,rfl⟩ := Option.map_eq_some_iff.mp hu
        have hshut := hs v hv
        exact ⟨(hrel v).2.trans hshut.closed,(congrArg ReliableEndpoint.opened (hrel v).1).trans
            hshut.silent,(congrArg ReliableEndpoint.inFlight (hrel v).1).trans hshut.window,
          (congrArg ReliableEndpoint.outbound (hrel v).1).trans hshut.outbound,
          hshut.coalesces.trans_eq (congrArg
            (fun rel : ReliableEndpoint => rel.config.ackCoalesceCount) (hrel v).1.symm)⟩
      · rw [OrderedMap.get?_mapValues]
        cases s.sessions.get? addr with
        | none => exact Nat.le.refl
        | some v =>
          exact Nat.le_of_eq (congrArg (fun rel : ReliableEndpoint => 36*rel.ack.packetsSinceAck)
            (hrel v).1)

/-- Every step of the tasks is paid for. -/
theorem settles_of_step {addr : SocketAddr} {s t : Proxy} {a : Action} (hs : ShutAt addr s)
    (ha : Unconfirmed addr a) (h : step s a=some t) :
    Settles addr s t (sends addr s a) (receives addr s a) := by
  cases a with
  | datagram other data clock =>
    cases taken_of_step h with
    | datagram _ _ _ hidle =>
      by_cases he : other=addr
      · subst he
        simp only [sends,receives,if_true]
        exact settles_datagram_self hs hidle ha
      · simp only [sends,receives,if_neg he]
        exact settles_datagram_other (Ne.symm he) hs hidle data clock
  | handler clock replied => exact settles_handler hs h
  | tick now clocks =>
    cases taken_of_step h with
    | tick _ _ _ _ => exact settles_tick hs now clocks
  | _ => exact settles_silent hs rfl (fun _ _ he => by cases he) h

/-- The datagram is a HELLO. -/
def IsHello (data : Bytes) : Prop :=
  ∃ header payload,decodePacket data=.ok (header,payload) ∧ isHandshakePacket header.flags=true

/-- The address has no session and awaits no reply. -/
structure Stranger (addr : SocketAddr) (s : Proxy) : Prop where
  /-- No session. -/
  unknown : s.sessions.get? addr=none
  /-- No reply. -/
  unanswered : awaited addr s.handler=0

/-- A stranger is sent nothing. -/
theorem Stranger.sends_nil {addr : SocketAddr} {s : Proxy} (h : Stranger addr s) (a : Action) :
    sends addr s a=[] := by
  cases a with
  | datagram other data clock =>
    simp only [sends]
    split
    · rename_i he
      subst he
      unfold Proxy.retransmit
      rw [h.unknown]
      split
      · rfl
      · split <;> rfl
    · rfl
  | handler clock replied =>
    simp only [sends]
    split
    · rename_i other sid hwaits
      have hnone := h.unanswered
      rw [hwaits] at hnone
      refine if_neg (fun hc => ?_)
      rw [awaited,if_pos hc.1] at hnone
      cases hnone
    · rfl
  | tick now clocks => rw [sends,h.unknown]
  | _ => rfl

/-- Only a HELLO ends that. -/
theorem stranger_step {addr : SocketAddr} {s t : Proxy} {a : Action} (h : Stranger addr s)
    (ha : ∀ data∈receives addr s a,¬IsHello data) (hstep : step s a=some t) :
    Stranger addr t where
  unknown := by
    have hkind := sessionStep_of_step addr hstep
    rw [h.unknown] at hkind
    generalize t.sessions.get? addr=after at hkind ⊢
    cases hkind with
    | kept _ _ => rfl
    | removed _ _ => rfl
    | inserted sid clock hwaits _ =>
      have hnone := h.unanswered
      rw [hwaits,awaited,if_pos rfl] at hnone
      cases hnone
  unanswered := by
    cases taken_of_step hstep with
    | datagram other data clock hidle =>
      unfold Proxy.receiveDatagram
      split
      · exact h.unanswered
      · rename_i header payload hdecode
        by_cases he : other=addr
        · subst he
          have hplain : ¬isHandshakePacket header.flags=true := fun hhello =>
            ha data (by rw [receives,if_pos rfl]; exact List.mem_singleton_self data)
              ⟨header,payload,hdecode,hhello⟩
          rw [if_neg hplain,h.unknown]
          exact h.unanswered
        · split
          · split
            · exact if_neg he
            · exact h.unanswered
          · split
            · exact h.unanswered
            · rename_i u _
              unfold Proxy.beginDatagram
              dsimp only
              split
              · exact h.unanswered
              · split <;> rfl
    | handler clock replied t hdone =>
      have hnone := h.unanswered
      cases hdone with
      | answered other waits =>
        rw [waits] at hnone
        exact hnone
      | refused => rfl
      | inserted other sid waits => rfl
      | decided other cmd cmds actions waits => rfl
      | finished other actions waits => rfl
    | tick now clocks _ _ => exact h.unanswered
    | payload payload _ => exact h.unanswered
    | disconnect _ => exact h.unanswered
    | receive received events _ _ => exact h.unanswered
    | upstream op ops hnext => rw [handler_of_step rfl hstep]; exact h.unanswered
    | fanout op ops t hnext hdone => rw [handler_of_step rfl hstep]; exact h.unanswered
    | cleanup op ops hnext => rw [handler_of_step rfl hstep]; exact h.unanswered

/-- There are no sessions at the start. -/
theorem shutAt_start (policy : FilterPolicy) (idle : ℕ) (addr : SocketAddr) :
    ShutAt addr (Proxy.start policy idle) := fun _ ht => nomatch ht

/-- Nobody has said anything at the start. -/
theorem stranger_start (policy : FilterPolicy) (idle : ℕ) (addr : SocketAddr) :
    Stranger addr (Proxy.start policy idle) := ⟨rfl,rfl⟩

/-- Without a HELLO nothing is ever sent. -/
theorem stranger_run {addr : SocketAddr} {s t : Proxy} {acts : List Action} (h : Stranger addr s)
    (hacts : ∀ data∈outputs step (receives addr) s acts,¬IsHello data)
    (hrun : run step s acts=some t) :
    outputs step (sends addr) s acts=[] := by
  induction acts generalizing s with
  | nil => rfl
  | cons a acts ih =>
    obtain ⟨u,hu,hrun⟩ := (run_cons_eq_some step).mp hrun
    rw [outputs_cons step hu] at hacts
    have hnext := stranger_step h (fun data hm => hacts data (List.mem_append_left _ hm)) hu
    rw [outputs_cons step hu,h.sends_nil a,List.nil_append]
    exact ih hnext (fun data hm => hacts data (List.mem_append_right _ hm)) hrun

/-- Scaling the bytes scales their sum. -/
theorem sum_scaled (k : ℕ) (datagrams : List Bytes) :
    (datagrams.map (fun datagram => k*datagram.length)).sum=k*size datagrams :=
  List.sum_map_mul_left datagrams List.length k

/-- In every run of the tasks in which no datagram of an address acknowledges anything,
at most five bytes are sent to it for every three that arrived from it, nothing of the
switcher is among them, and without a HELLO of the address nothing is sent to it. -/
theorem unconfirmed_traffic_bounded (policy : FilterPolicy) (idle : ℕ) (addr : SocketAddr)
    {acts : List Action} {s : Proxy} (hquiet : ∀ a∈acts,Unconfirmed addr a)
    (hrun : run step (Proxy.start policy idle) acts=some s) :
    3*size (outputs step (sends addr) (Proxy.start policy idle) acts) ≤
        5*size (outputs step (receives addr) (Proxy.start policy idle) acts) ∧
      (∀ bytes∈outputs step (sends addr) (Proxy.start policy idle) acts,Bare bytes) ∧
      (outputs step (sends addr) (Proxy.start policy idle) acts≠[] →
        ∃ data∈outputs step (receives addr) (Proxy.start policy idle) acts,IsHello data) := by
  have hstart := shutAt_start policy idle addr
  refine ⟨?_,?_,fun hsent => ?_⟩
  · have hbalance := run_balance step (sends addr) (receives addr)
      (fun datagram : Bytes => 3*datagram.length) (fun datagram : Bytes => 5*datagram.length)
      (credit addr) (Unconfirmed addr) (ShutAt addr) (fun s a t ha hs h => by
        have hpaid := settles_of_step hs ha h
        rw [sum_scaled,sum_scaled]
        exact ⟨hpaid.shut,hpaid.balance⟩) hquiet hstart hrun
    rw [sum_scaled,sum_scaled] at hbalance
    have hnothing : credit addr (Proxy.start policy idle)=0 := rfl
    omega
  · have hkept := run_outputs step (Unconfirmed addr)
      (fun s sent => ShutAt addr s ∧ ∀ bytes∈sent,Bare bytes)
      (fun s a t sent ha hs h => by
        have hpaid := settles_of_step hs.1 ha h
        refine ⟨hpaid.shut,fun bytes hm => ?_⟩
        rcases List.mem_append.mp hm with hold | hnew
        · exact hs.2 bytes hold
        · exact hpaid.bare bytes hnew)
      hquiet ⟨hstart,fun _ hm => absurd hm List.not_mem_nil⟩ hrun
    exact hkept.2
  · by_contra hnone
    refine hsent (stranger_run (stranger_start policy idle addr) (fun data hm hhello => ?_) hrun)
    exact hnone ⟨data,hm,hhello⟩

/-- A HELLO of twelve bytes to a ready proxy. -/
def forgedHello : List Action :=
  [.payload GhostOwners.initPayload,.upstream,.upstream,.upstream,.receive,
    .datagram ⟨1,1⟩ (encodePacket (.new {handshake := true} 0 12) []) 0,.handler 0 true,
    .handler 0 true,.tick 5 (fun _ => ⟨5,5⟩)]

/-- The proxy after that. -/
def greeted : Proxy :=
  (run step (Proxy.start ⟨.deny,.new,.new {}⟩ 5000) forgedHello).getD
    (Proxy.start ⟨.deny,.new,.new {}⟩ 5000)

/-- Twelve bytes are answered with twenty, and the bound is reached. -/
theorem forgedHello_reaches_bound :
    size (outputs step (sends ⟨1,1⟩) (Proxy.start ⟨.deny,.new,.new {}⟩ 5000) forgedHello)=20 ∧
      size (outputs step (receives ⟨1,1⟩) (Proxy.start ⟨.deny,.new,.new {}⟩ 5000) forgedHello)=12 ∧
      (∃ data∈outputs step (receives ⟨1,1⟩) (Proxy.start ⟨.deny,.new,.new {}⟩ 5000) forgedHello,
        IsHello data) := by
  have hquiet : ∀ a∈forgedHello,Unconfirmed ⟨1,1⟩ a := by
    intro a ha
    simp only [forgedHello,List.mem_cons,List.not_mem_nil,or_false] at ha
    rcases ha with rfl | rfl | rfl | rfl | rfl | rfl | rfl | rfl | rfl
    case inr.inr.inr.inr.inr.inl =>
      intro _ header payload hdecode
      rw [decodePacket_encodePacket,Except.ok.injEq,Prod.mk.injEq] at hdecode
      exact Or.inl (hdecode.1 ▸ rfl)
    all_goals exact trivial
  have hbound := unconfirmed_traffic_bounded ⟨.deny,.new,.new {}⟩ 5000 ⟨1,1⟩ hquiet
    (show run step (Proxy.start ⟨.deny,.new,.new {}⟩ 5000) forgedHello=some greeted from rfl)
  have hsize : size (outputs step (sends ⟨1,1⟩) (Proxy.start ⟨.deny,.new,.new {}⟩ 5000)
      forgedHello)=20 := rfl
  refine ⟨hsize,rfl,hbound.2.2 (fun hnone => ?_)⟩
  rw [hnone] at hsize
  cases hsize

end AtemProxy.UnconfirmedClients
