import AtemProxy.PacketStamps
import AtemProxy.SessionOrigins
import AtemProxy.GhostOwners

/-!
# Ids of the sessions in the map

Every answered HELLO takes the next value of a wrapping counter, and the
session id is that value without its top bit. Numbering the answered HELLOs
without a bound, the id of a session is its number modulo the size of the id
space, and ids of live sessions stay distinct exactly as long as no session
is inserted while another one is live whose number is the same modulo that
size.
-/

namespace AtemProxy.SessionIds

open BigEndian PacketCodec CommandFrames KeyedMaps LockStores CommandPolicy ReliableTransport
  PacketStamps ServerSessions UpstreamEvents ProxyTasks GuardedRuns SessionOrigins

/-- The id of a counter value keeps its low fifteen bits. -/
theorem serverSessionId_toNat (index : UInt16) :
    (serverSessionId index).toNat=32768+index.toNat%32768 := by
  have hlow : index.toNat &&& 32767=index.toNat%32768 := Nat.and_two_pow_sub_one_eq_mod _ 15
  have hlt : index.toNat%32768<2^15 := Nat.mod_lt _ (by decide)
  have hor := Nat.two_pow_add_eq_or_of_lt hlt 1
  rw [Nat.mul_one] at hor
  rw [serverSessionId,UInt16.toNat_or,UInt16.toNat_and]
  exact (congrArg (32768 ||| ·) hlow).trans hor.symm

/-- Two numbers have the same id when they agree modulo the size of the id space. -/
theorem serverSessionId_eq_iff (m n : ℕ) :
    serverSessionId (UInt16.ofNat m)=serverSessionId (UInt16.ofNat n) ↔ m%32768=n%32768 := by
  rw [←UInt16.toNat_inj,serverSessionId_toNat,serverSessionId_toNat,UInt16.toNat_ofNat',
    UInt16.toNat_ofNat']
  omega

/-- A reliable packet keeps the id of the session. -/
theorem onReliable_sessionId (sess : ClientSession) (header : PacketHeader) (payload : Bytes) :
    (sess.onReliable header payload).session.rel.sessionId=sess.rel.sessionId := by
  unfold ClientSession.onReliable
  dsimp only
  split_ifs
  · exact acceptReliable_sessionId _ _ _
  · exact acceptReliable_sessionId _ _ _
  · exact acceptReliable_sessionId _ _ _
  · rfl

/-- So does a datagram. -/
theorem heardBy_sessionId (t : Tracked) (header : PacketHeader) (payload : Bytes)
    (dump : List Bytes) (clock : Instant) :
    (heardBy t header payload dump clock).session.rel.sessionId=t.session.rel.sessionId := by
  have hheader := (t.session.onHeader_core header dump clock).1
  exact (onReliable_sessionId _ header payload).trans hheader

/-- So does what the session is handed. -/
theorem update_sessionId (h : Handout) (addr : SocketAddr) (sess : ClientSession) :
    (h.update addr sess).rel.sessionId=sess.rel.sessionId := by
  cases h <;>
    simp only [Handout.update,ClientSession.queueState,ClientSession.queueAudio,
      ClientSession.queueTransfer,ClientSession.queueResync] <;>
    split <;> rfl

/-- A session keeps its id until it is replaced. -/
theorem sessionId_of_step {s t : Proxy} {a : Action} (h : step s a=some t) {addr : SocketAddr}
    {u : Tracked} (hu : t.sessions.get? addr=some u) :
    (∃ before,s.sessions.get? addr=some before ∧
      u.session.rel.sessionId=before.session.rel.sessionId ∧
      ¬∃ clock sid,a=.handler clock true ∧ s.handler=.insert addr sid) ∨
    ∃ clock sid,a=.handler clock true ∧ s.handler=.insert addr sid ∧
      u.session.rel.sessionId=serverSessionId sid := by
  by_cases hinsert : ∃ clock sid,a=.handler clock true ∧ s.handler=.insert addr sid
  · right
    obtain ⟨clock,sid,rfl,hwaits⟩ := hinsert
    simp only [step,Proxy.handlerStep,hwaits,if_true,Option.some.injEq] at h
    subst h
    rw [OrderedMap.get?_insert_self,Option.some.injEq] at hu
    exact ⟨clock,sid,rfl,hwaits,by rw [←hu]; rfl⟩
  · left
    have hstep := sessionStep_of_step addr h
    rw [hu] at hstep
    generalize hbefore : s.sessions.get? addr=before at hstep
    cases hstep with
    | kept _ _ => exact ⟨u,rfl,rfl,hinsert⟩
    | handed handout _ v => exact ⟨v,rfl,update_sessionId handout addr v.session,hinsert⟩
    | heard data header payload clock v =>
      exact ⟨v,rfl,heardBy_sessionId v header payload s.cache.dump clock,hinsert⟩
    | decided clock replied actions v =>
      exact ⟨v,rfl,by rw [Tracked.keep,(v.session.applyActions_keeps actions).2.2],hinsert⟩
    | polled now clocks v =>
      refine ⟨v,rfl,?_,hinsert⟩
      simp only [Tracked.keep,ClientSession.poll]
      split
      · rfl
      · exact pollOutbound_sessionId _ _ _ _
    | inserted sid clock hwaits _ => exact absurd ⟨clock,sid,rfl,hwaits⟩ hinsert

/-- The proxy with the numbers of its answered HELLOs. -/
structure Numbered where
  /-- The proxy itself. -/
  proxy : Proxy
  /-- HELLOs answered so far. -/
  handed : ℕ
  /-- Number of the HELLO that created the session of an address. -/
  number : SocketAddr → ℕ

/-- The handler is about to insert a session for this address, and does so. -/
def Inserts (s : Proxy) (a : Action) (addr : SocketAddr) : Prop :=
  ∃ clock sid,a=.handler clock true ∧ s.handler=.insert addr sid

namespace Numbered

/-- The proxy before the first datagram. -/
def start (policy : FilterPolicy) (idle : ℕ) : Numbered := ⟨Proxy.start policy idle,0,fun _ => 0⟩

/-- Answered HELLOs after a step. -/
def handedAfter (x : Numbered) : Action → ℕ
  | .handler _ _ =>
    match x.proxy.handler with
    | .checkReady _ => if x.proxy.cache.ready=true then x.handed+1 else x.handed
    | _ => x.handed
  | _ => x.handed

/-- Numbers after a step; a new session gets the number of its HELLO. -/
def numberAfter (x : Numbered) : Action → SocketAddr → ℕ
  | .handler _ true =>
    match x.proxy.handler with
    | .insert addr _ => Function.update x.number addr x.handed
    | _ => x.number
  | _ => x.number

end Numbered

/-- One step of the proxy with its numbers. -/
def numberStep (x : Numbered) (a : Action) : Option Numbered :=
  (step x.proxy a).map (fun t => ⟨t,x.handedAfter a,x.numberAfter a⟩)

/-- A numbered step is a step of the tasks. -/
theorem numberStep_eq_some {x y : Numbered} {a : Action} (h : numberStep x a=some y) :
    ∃ t,step x.proxy a=some t ∧ y=⟨t,x.handedAfter a,x.numberAfter a⟩ := by
  obtain ⟨t,ht,hy⟩ := Option.map_eq_some_iff.mp h
  exact ⟨t,ht,hy.symm⟩

/-- An inserted session gets the number handed out last. -/
theorem numberAfter_insert {x : Numbered} {a : Action} {addr : SocketAddr}
    (h : Inserts x.proxy a addr) : x.numberAfter a addr=x.handed := by
  obtain ⟨clock,sid,rfl,hwaits⟩ := h
  simp only [Numbered.numberAfter,hwaits,Function.update_self]

/-- Every other session keeps its number. -/
theorem numberAfter_other {x : Numbered} {a : Action} {addr : SocketAddr}
    (h : ¬Inserts x.proxy a addr) : x.numberAfter a addr=x.number addr := by
  unfold Numbered.numberAfter
  split
  · rename_i clock
    cases hwaits : x.proxy.handler with
    | insert target sid =>
      have he : addr≠target := by
        rintro rfl
        exact h ⟨clock,sid,rfl,hwaits⟩
      exact Function.update_of_ne he _ _
    | _ => rfl
  · rfl

/-- Counter, waiting HELLO and session ids all follow the numbers. -/
structure Numbers (x : Numbered) : Prop where
  /-- Counter. -/
  counter : x.proxy.nextSid=UInt16.ofNat (x.handed+1)
  /-- Answered HELLO whose session is inserted next. -/
  waiting : ∀ addr sid,x.proxy.handler=.insert addr sid → sid=UInt16.ofNat x.handed
  /-- Session ids. -/
  ids : ∀ addr t,x.proxy.sessions.get? addr=some t →
    t.session.rel.sessionId=serverSessionId (UInt16.ofNat (x.number addr))

/-- Only the handler takes counter values. -/
theorem counter_kept {s t : Proxy} {a : Action} (h : step s a=some t)
    (ha : ∀ clock replied,a≠.handler clock replied) :
    t.nextSid=s.nextSid ∧ ∀ addr sid,t.handler=.insert addr sid → s.handler=.insert addr sid := by
  cases taken_of_step h with
  | payload payload _ => exact ⟨rfl,fun _ _ => id⟩
  | disconnect _ => exact ⟨rfl,fun _ _ => id⟩
  | upstream op ops _ =>
    rw [(Proxy.upstreamStep_frame _ op).2.2]
    refine ⟨?_,fun _ _ => id⟩
    cases op with
    | swapConnected =>
      simp only [Proxy.upstreamStep]
      split <;> rfl
    | _ => rfl
  | receive received events _ _ => exact ⟨rfl,fun _ _ => id⟩
  | fanout op ops t _ hdone => cases hdone <;> exact ⟨rfl,fun _ _ => id⟩
  | datagram target data clock _ =>
    rcases s.receiveDatagram_cases target data clock with
      heq | heq | ⟨_,_,_,handler,_,hhandler,heq⟩
    · rw [heq]
      exact ⟨rfl,fun _ _ => id⟩
    · rw [heq]
      exact ⟨rfl,fun _ _ hwaits => Handler.noConfusion hwaits⟩
    · rw [heq]
      refine ⟨rfl,fun addr sid hwaits => ?_⟩
      rcases hhandler with hsame | ⟨cmds,actions,hfilter⟩
      · exact hsame.symm.trans hwaits
      · exact absurd (hfilter.symm.trans hwaits) Handler.noConfusion
  | handler clock replied t _ => exact absurd rfl (ha clock replied)
  | tick now clocks _ _ => exact ⟨rfl,fun _ _ => id⟩
  | cleanup op ops _ => cases op <;> exact ⟨rfl,fun _ _ => id⟩

/-- The handler takes one counter value for each HELLO it answers. -/
theorem counter_handler {x : Numbered} {t : Proxy} {clock : Instant} {replied : Bool}
    (h : Numbers x) (hstep : x.proxy.handlerStep clock replied=some t) :
    t.nextSid=UInt16.ofNat (x.handedAfter (.handler clock replied)+1) ∧
      ∀ addr sid,t.handler=.insert addr sid →
        sid=UInt16.ofNat (x.handedAfter (.handler clock replied)) := by
  simp only [Proxy.handlerStep] at hstep
  cases hwait : x.proxy.handler with
  | idle =>
    rw [hwait] at hstep
    cases hstep
  | checkReady addr =>
    simp only [hwait] at hstep
    simp only [Numbered.handedAfter,hwait]
    split at hstep
    · rename_i hready
      cases hstep
      rw [if_pos hready]
      refine ⟨?_,fun _ sid heq => ?_⟩
      · rw [UInt16.ofNat_add (x.handed+1) 1,←h.counter]
        rfl
      · injection heq with _ hsid
        rw [←hsid,h.counter]
    · rename_i hready
      cases hstep
      rw [if_neg hready]
      exact ⟨h.counter,fun _ _ heq => Handler.noConfusion heq⟩
  | insert addr sid =>
    simp only [hwait] at hstep
    simp only [Numbered.handedAfter,hwait]
    split at hstep <;> cases hstep <;>
      exact ⟨h.counter,fun _ _ heq => Handler.noConfusion heq⟩
  | filtering addr cmds actions =>
    simp only [Numbered.handedAfter,hwait]
    cases cmds with
    | nil =>
      simp only [hwait,Option.some.injEq] at hstep
      cases hstep
      exact ⟨h.counter,fun _ _ heq => Handler.noConfusion heq⟩
    | cons cmd cmds =>
      simp only [hwait,Option.some.injEq] at hstep
      cases hstep
      exact ⟨h.counter,fun _ _ heq => Handler.noConfusion heq⟩

/-- Every step keeps numbers and ids together. -/
theorem numbers_step {x y : Numbered} {a : Action} (h : Numbers x)
    (hstep : numberStep x a=some y) : Numbers y := by
  obtain ⟨t,ht,rfl⟩ := numberStep_eq_some hstep
  have hids : ∀ addr u,t.sessions.get? addr=some u →
      u.session.rel.sessionId=serverSessionId (UInt16.ofNat (x.numberAfter a addr)) := by
    intro addr u hu
    rcases sessionId_of_step ht hu with ⟨before,hbefore,hsame,hno⟩ | ⟨clock,sid,rfl,hwaits,hsid⟩
    · rw [numberAfter_other hno,hsame]
      exact h.ids addr before hbefore
    · rw [numberAfter_insert ⟨clock,sid,rfl,hwaits⟩,hsid,h.waiting addr sid hwaits]
  by_cases hh : ∃ clock replied,a=.handler clock replied
  · obtain ⟨clock,replied,rfl⟩ := hh
    obtain ⟨hcounter,hwaiting⟩ := counter_handler h ht
    exact ⟨hcounter,hwaiting,hids⟩
  · have hother : ∀ clock replied,a≠.handler clock replied :=
      fun clock replied he => hh ⟨clock,replied,he⟩
    obtain ⟨hcounter,hwaiting⟩ := counter_kept ht hother
    have hhanded : x.handedAfter a=x.handed := by
      unfold Numbered.handedAfter
      split
      · rename_i clock replied
        exact absurd rfl (hother clock replied)
      · rfl
    refine ⟨?_,?_,hids⟩
    · rw [hhanded]
      exact hcounter.trans h.counter
    · rw [hhanded]
      exact fun addr sid hwaits => h.waiting addr sid (hwaiting addr sid hwaits)

/-- Nobody has a number at the start. -/
theorem numbers_start (policy : FilterPolicy) (idle : ℕ) : Numbers (.start policy idle) where
  counter := rfl
  waiting := fun _ _ h => Handler.noConfusion h
  ids := by
    intro addr t h
    cases h

/-- Sessions at different addresses have different ids. -/
def UniqueIds (s : Proxy) : Prop := ∀ addr other t u,addr≠other → s.sessions.get? addr=some t →
  s.sessions.get? other=some u → t.session.rel.sessionId≠u.session.rel.sessionId

/-- A session that is inserted now differs in its number from every session at
another address, modulo the size of the id space. -/
def FreshNumber (x : Numbered) (a : Action) : Prop := ∀ addr,Inserts x.proxy a addr →
  ∀ other u,other≠addr → x.proxy.sessions.get? other=some u →
    x.number other%32768≠x.handed%32768

/-- A step keeps the ids distinct exactly when it inserts no session whose
number another one has modulo the size of the id space. -/
theorem uniqueIds_step {x y : Numbered} {a : Action} (hnumbers : Numbers x)
    (hunique : UniqueIds x.proxy) (hstep : numberStep x a=some y) :
    UniqueIds y.proxy ↔ FreshNumber x a := by
  have hnext := numbers_step hnumbers hstep
  obtain ⟨t,ht,rfl⟩ := numberStep_eq_some hstep
  have hdiffer : ∀ {addr other u v},t.sessions.get? addr=some u → t.sessions.get? other=some v →
      (u.session.rel.sessionId=v.session.rel.sessionId ↔
        x.numberAfter a addr%32768=x.numberAfter a other%32768) := by
    intro addr other u v hu hv
    rw [hnext.ids addr u hu,hnext.ids other v hv,serverSessionId_eq_iff]
  constructor
  · rintro h addr hinsert other u hne hu
    obtain ⟨clock,sid,rfl,hwaits⟩ := hinsert
    simp only [step,Proxy.handlerStep,hwaits,if_true,Option.some.injEq] at ht
    subst ht
    have hget : (x.proxy.sessions.insert addr
        ⟨.hello (serverSessionId sid) clock,[]⟩).get? other=some u := by
      rw [OrderedMap.get?_insert_of_ne _ hne]
      exact hu
    have hself := x.proxy.sessions.get?_insert_self addr
      ⟨.hello (serverSessionId sid) clock,[]⟩
    have hids := h other addr u _ hne hget hself
    rw [ne_eq,hdiffer hget hself] at hids
    have hadd : Inserts x.proxy (.handler clock true) addr := ⟨clock,sid,rfl,hwaits⟩
    have hother : ¬Inserts x.proxy (.handler clock true) other := by
      rintro ⟨_,sid',_,hwaits'⟩
      rw [hwaits] at hwaits'
      cases hwaits'
      exact hne rfl
    rw [numberAfter_insert hadd,numberAfter_other hother] at hids
    exact hids
  · intro hfresh addr other u v hne hu hv
    rw [ne_eq,hdiffer hu hv]
    rcases sessionId_of_step ht hu with ⟨bu,hbu,_,hnu⟩ | ⟨clock,sid,rfl,hwaits,_⟩
    · rcases sessionId_of_step ht hv with ⟨bv,hbv,_,hnv⟩ | ⟨clock,sid,rfl,hwaits,_⟩
      · have hold := hunique addr other bu bv hne hbu hbv
        rw [ne_eq,hnumbers.ids addr bu hbu,hnumbers.ids other bv hbv,
          serverSessionId_eq_iff] at hold
        rw [numberAfter_other hnu,numberAfter_other hnv]
        exact hold
      · have hinsert : Inserts x.proxy (.handler clock true) other := ⟨clock,sid,rfl,hwaits⟩
        rw [numberAfter_insert hinsert,numberAfter_other hnu]
        exact hfresh other hinsert addr bu hne hbu
    · have hinsert : Inserts x.proxy (.handler clock true) addr := ⟨clock,sid,rfl,hwaits⟩
      rcases sessionId_of_step ht hv with ⟨bv,hbv,_,hnv⟩ | ⟨_,sid',_,hwaits',_⟩
      · rw [numberAfter_insert hinsert,numberAfter_other hnv]
        exact (hfresh addr hinsert other bv hne.symm hbv).symm
      · rw [hwaits] at hwaits'
        cases hwaits'
        exact absurd rfl hne

/-- Session ids are unique in every state of a run exactly when no session is
inserted while one at another address is live whose HELLO was answered a
multiple of the size of the id space before. -/
theorem session_ids_unique_iff (policy : FilterPolicy) (idle : ℕ) (actions : List Action) :
    Always numberStep (fun x => UniqueIds x.proxy) (.start policy idle) actions ↔
      Meets numberStep (fun x a => ∀ y,numberStep x a=some y → FreshNumber x a)
        (.start policy idle) actions := by
  refine always_iff_meets_of_invariant numberStep (fun _ _ _ => numbers_step)
    (fun _ _ _ => uniqueIds_step) (numbers_start policy idle) ?_
  intro addr other t u _ ht
  cases ht

/-- A client sends a HELLO that is answered. -/
def rejoin (addr : SocketAddr) : List Action :=
  [.datagram addr helloData 0,.handler 0 true,.handler 0 true]

/-- HELLOs are answered and none is being handled. -/
structure Answering (s : Proxy) : Prop where
  /-- Connection flag. -/
  connected : s.connected=true
  /-- Cache. -/
  ready : s.cache.ready=true
  /-- Handler. -/
  idle : s.handler=.idle

/-- What one answered HELLO does. -/
theorem run_rejoin {s : Proxy} (h : Answering s) (addr : SocketAddr) :
    run step s (rejoin addr)=some {s with
      nextSid := s.nextSid+1
      sessions := s.sessions.insert addr ⟨.hello (serverSessionId s.nextSid) 0,[]⟩
      handler := .idle} := by
  have hdecode : decodePacket helloData=
      .ok (PacketHeader.new {handshake := true} 0 20,[1,0,0,0,0,0,0,0]) := by decide +kernel
  have hshake : isHandshakePacket
      (PacketHeader.new {handshake := true} 0 20).flags=true := by decide
  have htaken : step s (.datagram addr helloData 0)=some {s with handler := .checkReady addr} := by
    simp only [step,h.idle,Proxy.receiveDatagram,hdecode,hshake,h.connected,if_true]
  have hanswered : step {s with handler := .checkReady addr} (.handler 0 true)=some {s with
      nextSid := s.nextSid+1
      handler := .insert addr s.nextSid} := if_pos h.ready
  rw [rejoin,run_cons,htaken,Option.bind_some,run_cons,hanswered]
  rfl

/-- What several answered HELLOs of one client do. -/
theorem run_rejoins (k : ℕ) {s : Proxy} (h : Answering s) (addr : SocketAddr) :
    ∃ t,run step s (List.replicate (k+1) (rejoin addr)).flatten=some t ∧
      t.sessions.get? addr=some ⟨.hello (serverSessionId (s.nextSid+UInt16.ofNat k)) 0,[]⟩ ∧
      ∀ other,other≠addr → t.sessions.get? other=s.sessions.get? other := by
  induction k generalizing s with
  | zero =>
    have hone := run_rejoin h addr
    rw [←List.flatten_singleton (l := rejoin addr)] at hone
    refine ⟨_,hone,?_,?_⟩
    · have hzero : s.nextSid+UInt16.ofNat 0=s.nextSid := UInt16.add_zero s.nextSid
      rw [OrderedMap.get?_insert_self,hzero]
    · exact fun other hne => OrderedMap.get?_insert_of_ne _ hne _
  | succ k ih =>
    obtain ⟨t,hrun,hself,hothers⟩ := @ih {s with
      nextSid := s.nextSid+1
      sessions := s.sessions.insert addr ⟨.hello (serverSessionId s.nextSid) 0,[]⟩
      handler := .idle} ⟨h.connected,h.ready,rfl⟩
    refine ⟨t,?_,?_,?_⟩
    · rw [List.replicate_succ,List.flatten_cons,run_append,run_rejoin h addr]
      exact hrun
    · rw [hself,Nat.add_comm k 1,UInt16.ofNat_add,←UInt16.add_assoc]
      rfl
    · intro other hne
      rw [hothers other hne]
      exact OrderedMap.get?_insert_of_ne _ hne _

/-- The proxy with its first client. -/
def firstClient : Proxy :=
  (run step GhostOwners.singleOwnerStart GhostOwners.clientJoined).getD GhostOwners.singleOwnerStart

/-- While the first client stays, another one reconnects 32768 times and ends
up with the session id of the first. -/
theorem reconnecting_client_shares_id :
    ∃ s,run step GhostOwners.singleOwnerStart
        (GhostOwners.clientJoined++(List.replicate 32768 (rejoin ⟨2,1⟩)).flatten)=some s ∧
      ¬UniqueIds s := by
  have hjoined : run step GhostOwners.singleOwnerStart GhostOwners.clientJoined=
      some firstClient := rfl
  have hfirst : (firstClient.sessions.get? ⟨1,1⟩).map (fun t => t.session.rel.sessionId)=
      some (serverSessionId 1) := by
    decide +kernel
  obtain ⟨t,ht,hid⟩ := Option.map_eq_some_iff.mp hfirst
  obtain ⟨s,hrun,hself,hothers⟩ :=
    run_rejoins 32767 (⟨rfl,rfl,rfl⟩ : Answering firstClient) ⟨2,1⟩
  have hcount : 32768=32767+1 := rfl
  refine ⟨s,?_,fun hunique => ?_⟩
  · rw [run_append,hjoined,Option.bind_some,hcount]
    exact hrun
  · have hsame : serverSessionId (firstClient.nextSid+UInt16.ofNat 32767)=serverSessionId 1 := by
      decide +kernel
    refine hunique ⟨2,1⟩ ⟨1,1⟩ _ t (by decide) hself ((hothers _ (by decide)).trans ht) ?_
    rw [hid]
    exact hsame

end AtemProxy.SessionIds
