import AtemProxy.EndpointBudgets
import AtemProxy.OrderedFanouts

/-!
# A client that falls silent

A client may vanish without a word. The tick keeps polling its session until the idle
limit, and then removes it. In between the session is sent what was and what is queued
to it, one acknowledgement for what it had sent, and what its timers allow until then,
however often the tick fires.
-/

namespace AtemProxy.VanishedClients

open BigEndian LockStores CommandPolicy ReliableTransport SenderLedgers ServerSessions ProxyTasks
  GuardedRuns SessionOrigins SpacedTimes EndpointRuns EndpointBudgets OrderedFanouts
open Retransmissions (callAnswer_config)
open UnconfirmedClients (sends awaited get?_tick)

/-- Some calls lead from one endpoint to the other. -/
def Driven (ep ep' : ReliableEndpoint) : Prop :=
  ∃ calls : List EndpointCall,ep'=(endpointRun ep calls).1

/-- No calls. -/
theorem Driven.refl (ep : ReliableEndpoint) : Driven ep ep := ⟨[],rfl⟩

/-- One more call. -/
theorem Driven.call {ep ep' : ReliableEndpoint} (h : Driven ep ep') (c : EndpointCall) :
    Driven ep (callAnswer ep' c).1 := by
  obtain ⟨calls,rfl⟩ := h
  refine ⟨calls++[c],?_⟩
  unfold endpointRun
  rw [AnswerRuns.answers_append]
  rfl

/-- A handout is a call, or none. -/
theorem driven_update (h : Handout) (addr : SocketAddr) (sess : ClientSession) :
    Driven sess.rel (h.update addr sess).rel := by
  cases hopen : sess.opened with
  | false => rw [update_unopened h addr hopen]; exact .refl _
  | true =>
    rw [update_eq h addr hopen]
    split
    · cases h with
      | state payload => exact (Driven.refl sess.rel).call (.queuePayload payload)
      | audio payload => exact (Driven.refl sess.rel).call (.queuePayload payload)
      | transfer owner payload => exact (Driven.refl sess.rel).call (.queuePayload payload)
      | resync dump => exact (Driven.refl sess.rel).call (.queueCommandsPacked dump)
    · exact .refl _

/-- So is what a datagram does. -/
theorem driven_heardBy (t : Tracked) (header : PacketCodec.PacketHeader) (payload : Bytes)
    (dump : List Bytes) (clock : Instant) :
    Driven t.session.rel (heardBy t header payload dump clock).session.rel := by
  have hnoted := (Driven.refl t.session.rel).call (.noteRecv clock)
  have hheader : Driven t.session.rel (t.session.onHeader header dump clock).rel := by
    unfold ClientSession.onHeader
    dsimp only
    split
    · have hacked := hnoted.call (.onAckId header.ackId)
      unfold ClientSession.openWith
      split
      · exact hacked
      · split
        · exact hacked.call (.opened true)
        · exact (hacked.call (.opened true)).call (.queueCommandsPacked dump)
    · exact hnoted
  have hreliable := hheader.call (.acceptReliable header.packetId header.flags.isRetransmit)
  unfold heardBy Tracked.record ClientSession.onReliable
  dsimp only
  split
  · split <;> exact hreliable
  · exact hheader

/-- The endpoint of a session in any reachable state was made for it and is driven since. -/
def Made (ep : ReliableEndpoint) : Prop :=
  ∃ sid clock,Driven (.forSession sid clock) ep

/-- Calls keep how the endpoint was made. -/
theorem Made.driven {ep ep' : ReliableEndpoint} (h : Made ep) (hd : Driven ep ep') : Made ep' := by
  obtain ⟨sid,clock,calls,rfl⟩ := h
  obtain ⟨calls',rfl⟩ := hd
  refine ⟨sid,clock,calls++calls',?_⟩
  unfold endpointRun
  rw [AnswerRuns.answers_append]

/-- Every step drives the endpoints of the sessions, or makes new ones. -/
theorem made_step {s t : Proxy} {a : Action}
    (h : ∀ addr u,s.sessions.get? addr=some u → Made u.session.rel) (hstep : step s a=some t) :
    ∀ addr u,t.sessions.get? addr=some u → Made u.session.rel := by
  intro addr u hu
  have hkind := sessionStep_of_step addr hstep
  have hbefore := h addr
  rw [hu] at hkind
  generalize s.sessions.get? addr=before at hkind hbefore
  cases hkind with
  | kept _ _ => exact hbefore u rfl
  | handed handout _ v => exact (hbefore v rfl).driven (driven_update handout addr v.session)
  | heard data header payload clock v =>
    exact (hbefore v rfl).driven (driven_heardBy v header payload s.cache.dump clock)
  | decided clock replied actions v =>
    obtain ⟨_,_,hrel⟩ := v.session.applyActions_keeps actions
    rw [Tracked.keep,hrel]
    exact hbefore v rfl
  | polled now clocks v =>
    refine (hbefore v rfl).driven ?_
    rw [Tracked.keep]
    unfold ClientSession.poll
    split
    · exact .refl _
    · exact (Driven.refl v.session.rel).call
        (.pollOutbound now (clocks addr).elapsedAt (clocks addr).ackAt)
  | inserted sid clock _ _ => exact ⟨serverSessionId sid,clock,.refl _⟩

/-- So every session has an endpoint that was made and driven. -/
theorem made_run (policy : FilterPolicy) (idle : ℕ) {acts : List Action} {s : Proxy}
    (hrun : run step (Proxy.start policy idle) acts=some s) {addr : SocketAddr} {t : Tracked}
    (ht : s.sessions.get? addr=some t) : Made t.session.rel :=
  @run_invariant _ _ step (fun s => ∀ addr u,s.sessions.get? addr=some u → Made u.session.rel)
    (fun _ _ _ h hstep => made_step h hstep) _ _ _ (fun _ _ h => by cases h) hrun addr t ht

/-- Such an endpoint has the configuration of a session, and at most a window in flight. -/
theorem Made.timed {ep : ReliableEndpoint} (h : Made ep) :
    ep.config={idleTimeout := 5000} ∧ Timed ep.config ∧
      ep.inFlight.length ≤ ep.config.maxInFlight := by
  obtain ⟨sid,clock,calls,rfl⟩ := h
  have hconfig : ∀ (calls : List EndpointCall) (start : ReliableEndpoint),
      (endpointRun start calls).1.config=start.config := by
    intro calls
    induction calls with
    | nil => exact fun _ => rfl
    | cons c calls ih => exact fun start => (ih _).trans (callAnswer_config start c)
  have hsame : (endpointRun (.forSession sid clock) calls).1.config={idleTimeout := 5000} :=
    hconfig calls (.forSession sid clock)
  have hfirst : (ReliableEndpoint.forSession sid clock).nextSendId.toNat<32768 := by
    show (1 : UInt16).toNat<32768
    decide
  have hnumbered := @numbered_run (.forSession sid clock) rfl hfirst rfl calls
  rw [hnumbered.limit,hsame]
  exact ⟨rfl,⟨by decide,by decide,by decide,by decide⟩,hnumbered.size⟩

/-- The step is no datagram of the address. -/
def Quiet (addr : SocketAddr) : Action → Prop
  | .datagram other _ _ => other≠addr
  | _ => True

/-- Time of a tick. -/
def tickTime? : Action → Option Instant
  | .tick now _ => some now
  | _ => none

/-- Times of the ticks among the steps. -/
def tickTimes (acts : List Action) : List Instant := acts.filterMap tickTime?

/-- Reply of the handler to an earlier HELLO, as long as the address is quiet. -/
theorem awaited_step {addr : SocketAddr} {s t : Proxy} {a : Action} (ha : Quiet addr a)
    (hnone : awaited addr s.handler=0) (hstep : step s a=some t) : awaited addr t.handler=0 := by
  cases taken_of_step hstep with
  | datagram other data clock hidle =>
    rcases s.receiveDatagram_cases other data clock with
      heq | heq | ⟨_,_,_,handler,_,hhandler,heq⟩
    · rw [heq]
      exact hnone
    · rw [heq]
      exact if_neg ha
    · rw [heq]
      rcases hhandler with rfl | ⟨cmds,actions,rfl⟩
      · exact hnone
      · rfl
  | handler clock replied t hdone =>
    cases hdone with
    | answered other waits =>
      rw [waits] at hnone
      exact hnone
    | _ => rfl
  | tick now clocks _ _ => exact hnone
  | payload payload _ => exact hnone
  | disconnect _ => exact hnone
  | receive received events _ _ => exact hnone
  | upstream op ops hnext => rw [CommandProducers.handler_of_step rfl hstep]; exact hnone
  | fanout op ops t hnext hdone => rw [CommandProducers.handler_of_step rfl hstep]; exact hnone
  | cleanup op ops hnext => rw [CommandProducers.handler_of_step rfl hstep]; exact hnone

/-- The session of a silent client, if it is still there: nobody replaces it, and its
timers fire no earlier than they may. -/
structure Silent (addr : SocketAddr) (deadline now : Instant) (e : Earliest) (s : Proxy) :
    Prop where
  /-- No reply to a HELLO is awaited. -/
  unanswered : awaited addr s.handler=0
  /-- Timers, and the time of the last datagram. -/
  session : ∀ t,s.sessions.get? addr=some t →
    Resting now e t.session.rel ∧ t.session.rel.lastRecvAt+s.idle=deadline

/-- What may be sent to the address until the deadline. -/
def budgetAt (addr : SocketAddr) (deadline : Instant) (e : Earliest) (s : Proxy) : ℕ :=
  match s.sessions.get? addr with
  | none => 0
  | some t => budget deadline e t.session.rel

/-- Payloads that a step hands to the address. -/
def handedTo (addr : SocketAddr) (s : Proxy) (a : Action) : List Bytes :=
  (handed addr s a).flatMap Handout.payloads

/-- The limit never changes. -/
theorem idle_of_step {s t : Proxy} {a : Action} (hstep : step s a=some t) : t.idle=s.idle := by
  cases taken_of_step hstep with
  | upstream op ops _ =>
    cases op with
    | swapConnected =>
      simp only [Proxy.upstreamStep]
      split <;> rfl
    | _ => rfl
  | fanout op ops t _ hdone => cases hdone <;> rfl
  | datagram other data clock _ => rw [s.receiveDatagram_eq other data clock]
  | handler clock replied t hdone => cases hdone <;> rfl
  | cleanup op ops _ => cases op <;> rfl
  | _ => rfl

/-- What the fan-out hands to a session is queued at most. -/
theorem handed_of_head {addr : SocketAddr} {s : Proxy} {t : Tracked} (h : Handout)
    (hnext : s.fanout.head?=some h.op) (hget : s.sessions.get? addr=some t) :
    handedTo addr s .fanout=if takes addr t.session h=true then h.payloads else [] := by
  have hone : handoutOf h.op=some h := by cases h <;> rfl
  rw [handedTo,handed_eq .fanout hget,handouts,hnext,Option.bind_some,hone,Option.toList_some]
  split
  · rename_i htakes
    rw [List.filter_cons_of_pos htakes,List.filter_nil,List.flatMap_singleton]
  · rename_i htakes
    rw [List.filter_cons_of_neg htakes,List.filter_nil,List.flatMap_nil]

/-- A handout touches the queue only. -/
theorem resting_update {deadline now : Instant} {e : Earliest} (h : Handout) (addr : SocketAddr)
    {sess : ClientSession} (hrest : Resting now e sess.rel) :
    Resting now e (h.update addr sess).rel ∧
      (h.update addr sess).rel.lastRecvAt=sess.rel.lastRecvAt ∧
      budget deadline e (h.update addr sess).rel ≤ budget deadline e sess.rel+
        (if takes addr sess h=true then h.payloads else []).length := by
  cases hopen : sess.opened with
  | false =>
    rw [update_unopened h addr hopen]
    exact ⟨hrest,rfl,Nat.le_add_right _ _⟩
  | true =>
    rw [update_eq h addr hopen]
    split
    · refine ⟨⟨hrest.timed,hrest.size,hrest.soon,hrest.window,hrest.ping⟩,rfl,?_⟩
      simp only [budget,List.length_append]
      omega
    · exact ⟨hrest,rfl,Nat.le_add_right _ _⟩

/-- Without a HELLO no session is inserted at the address. -/
theorem inserts_of_unanswered {addr : SocketAddr} {s : Proxy} (h : awaited addr s.handler=0)
    (a : Action) : SessionFeeds.inserts s addr a=false := by
  cases a with
  | handler clock replied =>
    cases replied with
    | false => rfl
    | true =>
      simp only [SessionFeeds.inserts]
      split
      · rename_i target sid hwaits
        refine decide_eq_false (fun he => ?_)
        rw [hwaits,awaited,if_pos he] at h
        cases h
      · rfl
  | _ => rfl

/-- Nothing but a tick sends anything to a silent client. -/
theorem sends_of_quiet {addr : SocketAddr} {s : Proxy} (h : awaited addr s.handler=0) {a : Action}
    (ha : Quiet addr a) (htick : tickTime? a=none) : sends addr s a=[] := by
  cases a with
  | datagram other data clock => exact if_neg ha
  | handler clock replied =>
    simp only [sends]
    split
    · rename_i other sid hwaits
      refine if_neg (fun hc => ?_)
      rw [hwaits,awaited,if_pos hc.1] at h
      cases h
    · rfl
  | tick now clocks => cases htick
  | _ => rfl

/-- Steps other than ticks send nothing and queue what they hand out. -/
theorem silent_step {addr : SocketAddr} {deadline now : Instant} {e : Earliest} {s t : Proxy}
    {a : Action} (h : Silent addr deadline now e s) (ha : Quiet addr a) (htick : tickTime? a=none)
    (hstep : step s a=some t) :
    Silent addr deadline now e t ∧
      budgetAt addr deadline e t ≤ budgetAt addr deadline e s+(handedTo addr s a).length := by
  have hnone := awaited_step ha h.unanswered hstep
  have hold := inserts_of_unanswered h.unanswered a
  have hidle := idle_of_step hstep
  have hkind := sessionStep_of_step addr hstep
  have hsession := h.session
  unfold budgetAt
  rw [←hidle] at hsession
  -- What becomes of the session decides the rest.
  suffices hgoal : ∀ u,t.sessions.get? addr=some u → ∃ v,s.sessions.get? addr=some v ∧
      (Resting now e u.session.rel ∧ u.session.rel.lastRecvAt=v.session.rel.lastRecvAt) ∧
      budget deadline e u.session.rel ≤
        budget deadline e v.session.rel+(handedTo addr s a).length by
    refine ⟨⟨hnone,fun u hu => ?_⟩,?_⟩
    · obtain ⟨v,hv,⟨hrest,hlast⟩,_⟩ := hgoal u hu
      exact ⟨hrest,hlast ▸ (hsession v hv).2⟩
    · cases hu : t.sessions.get? addr with
      | none => exact Nat.zero_le _
      | some u =>
        obtain ⟨v,hv,_,hcost⟩ := hgoal u hu
        rw [hv]
        exact hcost
  intro u hu
  have hsame : s.sessions.get? addr=some u → ∃ v,s.sessions.get? addr=some v ∧
      (Resting now e u.session.rel ∧ u.session.rel.lastRecvAt=v.session.rel.lastRecvAt) ∧
      budget deadline e u.session.rel ≤
        budget deadline e v.session.rel+(handedTo addr s a).length :=
    fun hget => ⟨u,hget,⟨(hsession u hget).1,rfl⟩,Nat.le_add_right _ _⟩
  rw [hu] at hkind
  generalize hbefore : s.sessions.get? addr=before at hkind hsame hsession
  cases hkind with
  | kept _ _ => exact hsame rfl
  | handed handout hnext v =>
    rw [handed_of_head handout hnext hbefore]
    obtain ⟨hrest,hlast,hcost⟩ := resting_update handout addr (hsession v rfl).1
    exact ⟨v,rfl,⟨hrest,hlast⟩,hcost⟩
  | heard data header payload clock v => exact absurd rfl ha
  | decided clock replied actions v =>
    obtain ⟨_,_,hrel⟩ := v.session.applyActions_keeps actions
    rw [Tracked.keep,hrel]
    exact ⟨v,rfl,⟨(hsession v rfl).1,rfl⟩,Nat.le_add_right _ _⟩
  | polled time clocks v => cases htick
  | inserted sid clock hwaits _ =>
    simp only [SessionFeeds.inserts,hwaits,decide_true,Bool.true_eq_false] at hold

/-- A tick sends what the timers allow, and removes the session after the deadline. -/
theorem silent_tick {addr : SocketAddr} {deadline last now : Instant} {e : Earliest} {s : Proxy}
    (h : Silent addr deadline last e s) (hle : last ≤ now) (clocks : SocketAddr → PollClocks) :
    ∃ e',Silent addr deadline now e' (s.tick now clocks) ∧
      (sends addr s (.tick now clocks)).length+budgetAt addr deadline e' (s.tick now clocks) ≤
        budgetAt addr deadline e s ∧
      (deadline<now → (s.tick now clocks).sessions.get? addr=none) := by
  have hget := get?_tick s now clocks addr
  have hgone : (s.tick now clocks).sessions.get? addr=none → ∃ e',
      Silent addr deadline now e' (s.tick now clocks) ∧
        0+budgetAt addr deadline e' (s.tick now clocks) ≤ budgetAt addr deadline e s ∧
        (deadline<now → (s.tick now clocks).sessions.get? addr=none) := by
    intro hnone
    refine ⟨e,⟨h.unanswered,fun t ht => ?_⟩,?_,fun _ => hnone⟩
    · cases hnone.symm.trans ht
    · have hnothing : budgetAt addr deadline e (s.tick now clocks)=0 := by
        rw [budgetAt,hnone]
      rw [hnothing]
      exact Nat.zero_le _
  unfold sends
  cases ht : s.sessions.get? addr with
  | none =>
    rw [ht] at hget
    exact hgone hget
  | some t =>
    rw [ht,Option.bind_some] at hget
    dsimp only
    by_cases hexp : t.session.expired s.idle now=true
    · rw [if_pos hexp] at hget ⊢
      exact hgone hget
    · rw [if_neg hexp] at hget ⊢
      obtain ⟨hrest,hlast⟩ := h.session t ht
      have hnow : now ≤ deadline := by
        have hage : now-t.session.rel.lastRecvAt ≤ s.idle :=
          Nat.le_of_not_lt (fun hlate => hexp (decide_eq_true hlate))
        rw [←hlast,Nat.add_comm]
        exact Nat.sub_le_iff_le_add.mp hage
      obtain ⟨e',hspent⟩ := (hrest.mono hle).poll hnow (clocks addr).elapsedAt (clocks addr).ackAt
      refine ⟨e',⟨h.unanswered,fun u hu => ?_⟩,?_,fun hlate => absurd hnow (Nat.not_le_of_lt hlate)⟩
      · rw [hget,Option.some.injEq] at hu
        rw [←hu]
        exact ⟨hspent.resting,(congrArg (fun time => time+s.idle)
          (pollOutbound_lastRecvAt t.session.rel now _ _)).trans hlast⟩
      · have hcost := hspent.cost
        unfold budgetAt
        rw [hget,ht]
        exact hcost

/-- Nobody is at the address, and no HELLO of it is answered. -/
structure Gone (addr : SocketAddr) (s : Proxy) : Prop where
  /-- Session. -/
  session : s.sessions.get? addr=none
  /-- No reply to a HELLO is awaited. -/
  unanswered : awaited addr s.handler=0

/-- A session that is gone stays gone, and nothing is sent to the address any more. -/
theorem gone_step {addr : SocketAddr} {s t : Proxy} {a : Action} (h : Gone addr s)
    (ha : Quiet addr a) (hstep : step s a=some t) : Gone addr t ∧ sends addr s a=[] := by
  have hold := inserts_of_unanswered h.unanswered a
  have hrun : run step s [a]=some t := by rw [run_cons,hstep,Option.bind_some,run_nil]
  refine ⟨⟨absent_run hrun ⟨hold,fun _ _ => trivial⟩ h.session,
    awaited_step ha h.unanswered hstep⟩,?_⟩
  cases htick : tickTime? a with
  | none => exact sends_of_quiet h.unanswered ha htick
  | some now =>
    cases a with
    | tick time clocks =>
      unfold sends
      rw [h.session]
    | _ => cases htick

/-- The same for whole runs. -/
theorem gone_run {addr : SocketAddr} {s u : Proxy} {acts : List Action} (h : Gone addr s)
    (hquiet : ∀ a∈acts,Quiet addr a) (hrun : run step s acts=some u) :
    Gone addr u ∧ outputs step (sends addr) s acts=[] :=
  run_outputs step (Quiet addr) (fun s so => Gone addr s ∧ so=[])
    (fun _ _ _ _ ha hs hstep => by
      obtain ⟨hgone,rfl⟩ := hs
      obtain ⟨hlater,hnothing⟩ := gone_step hgone ha hstep
      exact ⟨hlater,by rw [hnothing,List.append_nil]⟩)
    hquiet ⟨h,rfl⟩ hrun

/-- What a run sends to a silent client was queued, is handed out meanwhile, or is allowed
by the timers; the session is gone when a tick fires after the deadline. -/
theorem silent_run {addr : SocketAddr} {deadline last : Instant} {e : Earliest} {s u : Proxy}
    {acts : List Action} (h : Silent addr deadline last e s) (hquiet : ∀ a∈acts,Quiet addr a)
    (hclock : (last::tickTimes acts).Pairwise (·≤·)) (hrun : run step s acts=some u) :
    (outputs step (sends addr) s acts).length ≤
        budgetAt addr deadline e s+(outputs step (handedTo addr) s acts).length ∧
      ((∃ now∈tickTimes acts,deadline<now) → Gone addr u) := by
  induction acts generalizing last e s with
  | nil => exact ⟨Nat.zero_le _,fun ⟨_,hm,_⟩ => absurd hm List.not_mem_nil⟩
  | cons a acts ih =>
    obtain ⟨t,ht,hrun⟩ := (run_cons_eq_some step).mp hrun
    have ha := hquiet a List.mem_cons_self
    have hacts : ∀ b∈acts,Quiet addr b := fun b hb => hquiet b (List.mem_cons_of_mem _ hb)
    rw [outputs_cons step ht,outputs_cons step ht,List.length_append,List.length_append]
    cases htick : tickTime? a with
    | none =>
      have htimes : tickTimes (a::acts)=tickTimes acts := List.filterMap_cons_none htick
      rw [htimes] at hclock ⊢
      obtain ⟨hnext,hcost⟩ := silent_step h ha htick ht
      obtain ⟨hlater,hgone⟩ := ih hnext hacts hclock hrun
      rw [sends_of_quiet h.unanswered ha htick,List.length_nil]
      exact ⟨by omega,hgone⟩
    | some now =>
      cases a with
      | tick time clocks =>
        cases htick
        have htimes : tickTimes (.tick now clocks::acts)=now::tickTimes acts := rfl
        rw [htimes] at hclock ⊢
        have hlast : last ≤ now := (List.pairwise_cons.mp hclock).1 now List.mem_cons_self
        cases taken_of_step ht with
        | tick _ _ _ _ =>
          obtain ⟨e',hnext,hcost,hremoved⟩ := silent_tick h hlast clocks
          obtain ⟨hlater,hgone⟩ := ih hnext hacts (List.pairwise_cons.mp hclock).2 hrun
          refine ⟨by omega,?_⟩
          rintro ⟨late,hm,hlate⟩
          rcases List.mem_cons.mp hm with rfl | hm
          · exact (gone_run ⟨hremoved hlate,hnext.unanswered⟩ hacts hrun).1
          · exact hgone ⟨late,hm,hlate⟩
      | _ => cases htick

/-- A vanished client costs a bounded number of datagrams and is forgotten. From any
reachable state in which its HELLO is answered, in every run without a datagram of its
address whose ticks read a clock that does not go back: what is sent to it was queued
already, is handed to its session meanwhile, acknowledges packets it sent, or is one of the
repetitions and keepalives that fit between the first reading and the idle limit after its
last datagram; and a tick later than that limit leaves no session, nor is anything sent to
the address in any run from there without a datagram of it. -/
theorem vanished_client_bounded (policy : FilterPolicy) (idle : ℕ) {acts later : List Action}
    {s u : Proxy} {addr : SocketAddr} {t : Tracked} {first : Instant}
    (hreach : run step (Proxy.start policy idle) acts=some s)
    (ht : s.sessions.get? addr=some t) (hanswered : awaited addr s.handler=0)
    (hquiet : ∀ a∈later,Quiet addr a) (hclock : (first::tickTimes later).Pairwise (·≤·))
    (hrun : run step s later=some u) :
    (outputs step (sends addr) s later).length ≤
        t.session.rel.outbound.length+(outputs step (handedTo addr) s later).length+
          t.session.rel.ack.packetsSinceAck+
          32*((t.session.rel.lastRecvAt+idle-first)/30+1)+
          ((t.session.rel.lastRecvAt+idle-first)/100+1) ∧
      ((∃ now∈tickTimes later,t.session.rel.lastRecvAt+idle<now) →
        u.sessions.get? addr=none ∧
          ∀ after v,(∀ a∈after,Quiet addr a) → run step u after=some v →
            v.sessions.get? addr=none ∧ outputs step (sends addr) u after=[]) := by
  have hidle : s.idle=idle :=
    @run_invariant _ _ step (fun x => x.idle=idle)
      (fun _ _ _ hsame hstep => (idle_of_step hstep).trans hsame) _ _ _ rfl hreach
  obtain ⟨hconfig,htimed,hsize⟩ := (made_run policy idle hreach ht).timed
  have hsilent : Silent addr (t.session.rel.lastRecvAt+idle) first ⟨first,first⟩ s := by
    refine ⟨hanswered,fun v hv => ?_⟩
    rw [ht,Option.some.injEq] at hv
    rw [←hv,hidle]
    exact ⟨resting_now htimed hsize first,rfl⟩
  obtain ⟨hcost,hgone⟩ := silent_run hsilent hquiet hclock hrun
  refine ⟨hcost.trans ?_,fun hlate => ⟨(hgone hlate).session,fun after v hafter hmore => ?_⟩⟩
  · have hrepeats := @firings_le 30 (by decide) (t.session.rel.lastRecvAt+idle) first
    have hpings := @firings_le 100 (by decide) (t.session.rel.lastRecvAt+idle) first
    unfold budgetAt budget
    rw [ht]
    dsimp only
    rw [hconfig]
    dsimp only
    omega
  · obtain ⟨hstill,hnothing⟩ := gone_run (hgone hlate) hafter hmore
    exact ⟨hstill.session,hnothing⟩

/-- Ticks after the last datagram of a client, the last one beyond the idle limit. -/
def silence : List Action :=
  [.tick 6 (fun _ => ⟨6,6⟩),.tick 40 (fun _ => ⟨40,40⟩),.tick 5002 (fun _ => ⟨5002,5002⟩)]

/-- The dump is sent and repeated, and then the session is gone. -/
theorem listening_vanishes :
    ∃ t u,LiveDelivery.listening.sessions.get? ⟨1,1⟩=some t ∧
      run step LiveDelivery.listening silence=some u ∧
      (outputs step (sends ⟨1,1⟩) LiveDelivery.listening silence).length ≤ 5396 ∧
      u.sessions.get? ⟨1,1⟩=none := by
  have hreach : run step (.start ⟨.deny,.new,.new {}⟩ 5000) LiveDelivery.clientOpens=
      some LiveDelivery.listening := rfl
  have hfields : (LiveDelivery.listening.sessions.get? ⟨1,1⟩).map (fun t =>
      (t.session.rel.outbound.length,t.session.rel.ack.packetsSinceAck,
        t.session.rel.lastRecvAt))=some (1,0,1) := by decide +kernel
  obtain ⟨t,ht,hvalues⟩ := Option.map_eq_some_iff.mp hfields
  obtain ⟨hqueue,hacks,hlast⟩ : t.session.rel.outbound.length=1 ∧
      t.session.rel.ack.packetsSinceAck=0 ∧ t.session.rel.lastRecvAt=1 := by
    simpa only [Prod.mk.injEq] using hvalues
  have hsome : (run step LiveDelivery.listening silence).isSome=true := by decide +kernel
  obtain ⟨u,hrun⟩ := Option.isSome_iff_exists.mp hsome
  have hquiet : ∀ a∈silence,Quiet ⟨1,1⟩ a := by
    intro a ha
    simp only [silence,List.mem_cons,List.not_mem_nil,or_false] at ha
    rcases ha with rfl | rfl | rfl <;> exact trivial
  obtain ⟨hbound,hgone⟩ := @vanished_client_bounded _ 5000 _ _ _ _ ⟨1,1⟩ t 1 hreach ht rfl hquiet
    (by decide) hrun
  have hhanded : (outputs step (handedTo ⟨1,1⟩) LiveDelivery.listening silence).length=0 := by
    decide +kernel
  rw [hqueue,hacks,hlast,hhanded] at hbound
  rw [hlast] at hgone
  exact ⟨t,u,ht,hrun,hbound,(hgone ⟨5002,by decide,by decide⟩).1⟩

end AtemProxy.VanishedClients
