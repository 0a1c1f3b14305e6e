import AtemProxy.SessionOrigins
import AtemProxy.GhostOwners

/-!
# Sessions and lane owners from before an upstream disconnect

The disconnects announced to the fan-out are numbered, and every session and
lane owner is stamped with the number announced before it came to be. An
announcement shares the bounded event queue with all other events; when it
is overwritten, the fan-out only learns that it lagged and keeps what the
announcement should have ended.
-/

namespace AtemProxy.SessionEpochs

open BigEndian PacketCodec CommandFrames KeyedMaps LockStores TransferLanes CommandPolicy
  LateJoinCache ReliableTransport ServerSessions UpstreamEvents BroadcastQueues GuardedRuns
  ProxyTasks SessionOrigins

open GhostOwners (receiveDatagram_fanout continued_fanout clientJoined
  connectionLost)

/-- The proxy with the stamps of its sessions and its lane owner. -/
structure Stamped where
  /-- The proxy itself. -/
  proxy : Proxy
  /-- Disconnects announced so far. -/
  ended : ℕ
  /-- Announcements overwritten since the receiver last heard of a lag. -/
  lost : ℕ
  /-- Disconnects announced before the session of an address was created. -/
  born : SocketAddr → ℕ
  /-- Disconnects announced before the lane got its present owner. -/
  laneBorn : ℕ

/-- Event that the upstream task sends next. -/
def nextEvent : List UpstreamOp → Option UpstreamEvent
  | .send event::_ => some event
  | _ => none

/-- One when the step announces a disconnect. -/
def announces (s : Proxy) : Action → ℕ
  | .upstream => if nextEvent s.upstream=some .disconnected then 1 else 0
  | _ => 0

/-- The next event pushes an unread announcement out of a full queue. -/
def Overwrites (s : Proxy) : Prop :=
  nextEvent s.upstream≠none ∧ eventCapacity ≤ s.events.items.length ∧
    s.events.items.head?=some .disconnected

instance : DecidablePred Overwrites := fun _ => inferInstanceAs (Decidable (_ ∧ _ ∧ _))

namespace Stamped

/-- The proxy before the first datagram. -/
def start (policy : FilterPolicy) (idle : ℕ) : Stamped :=
  ⟨Proxy.start policy idle,0,0,fun _ => 0,0⟩

/-- Overwritten announcements after a step; a lag notice makes them known. -/
def lostAfter (x : Stamped) : Action → ℕ
  | .upstream => if Overwrites x.proxy then x.lost+1 else x.lost
  | .receive => if x.proxy.events.missed=true then 0 else x.lost
  | _ => x.lost

/-- Stamps of the addresses after a step; a new session is stamped anew. -/
def bornAfter (x : Stamped) : Action → SocketAddr → ℕ
  | .handler _ true =>
    match x.proxy.handler with
    | .insert addr _ => Function.update x.born addr x.ended
    | _ => x.born
  | _ => x.born

/-- Stamps after a step of the proxy. -/
def stamp (x : Stamped) (a : Action) (t : Proxy) : Stamped where
  proxy := t
  ended := x.ended+announces x.proxy a
  lost := x.lostAfter a
  born := x.bornAfter a
  laneBorn := if t.lane.currentOwner=x.proxy.lane.currentOwner then x.laneBorn else x.ended

/-- Announcements the fan-out has consumed: neither unread nor part of a lag
it has not been told of. -/
def consumed (x : Stamped) : ℕ :=
  x.ended-(x.lost+x.proxy.events.items.count .disconnected)

end Stamped

/-- One step of the proxy with its stamps. -/
def stampStep (x : Stamped) (a : Action) : Option Stamped := (step x.proxy a).map (x.stamp a)

/-- Whenever the fan-out is between two events, no session and no lane owner
is older than an announcement it has consumed. -/
def EndsSessions (x : Stamped) : Prop :=
  x.proxy.fanout=[] →
    (∀ addr u, x.proxy.sessions.get? addr=some u → x.consumed≤x.born addr) ∧
      ∀ owner, x.proxy.lane.currentOwner=some owner → x.consumed≤x.laneBorn

/-- No event is sent into a full queue whose oldest event is an announcement. -/
def KeepsAnnouncements (x : Stamped) : Action → Prop
  | .upstream => ¬Overwrites x.proxy
  | _ => True

instance (x : Stamped) : DecidablePred (KeepsAnnouncements x)
  | .upstream => inferInstanceAs (Decidable (¬_))
  | .payload _ => isTrue trivial
  | .disconnect => isTrue trivial
  | .receive => isTrue trivial
  | .fanout => isTrue trivial
  | .datagram _ _ _ => isTrue trivial
  | .handler _ _ => isTrue trivial
  | .tick _ _ => isTrue trivial
  | .cleanup => isTrue trivial

/-- Announcements that have yet to be acted on by this fan-out operation:
the unread ones and the one being handled. -/
def outstanding (c : FanoutOp) (s : Proxy) : ℕ :=
  s.events.items.count .disconnected+if c ∈ s.fanout then 1 else 0

/-- Steps that touch neither the events nor the fan-out. -/
theorem outstanding_frame {c : FanoutOp} {s t : Proxy} (hevents : t.events=s.events)
    (hfanout : t.fanout=s.fanout) : outstanding c s≤outstanding c t := by
  simp only [outstanding,hevents,hfanout,Nat.le_refl]

/-- Only a send changes the events. -/
theorem upstreamStep_events (s : Proxy) {op : UpstreamOp} (h : nextEvent [op]=none) :
    (s.upstreamStep op).events=s.events := by
  cases op with
  | send event => cases h
  | swapConnected =>
    simp only [Proxy.upstreamStep]
    split <;> rfl
  | _ => rfl

/-- A sent event is counted unless it pushes an announcement out. -/
theorem outstanding_upstream {s : Proxy} {c : FanoutOp} {op : UpstreamOp} {ops : List UpstreamOp}
    (hnext : s.upstream=op::ops) (hkeeps : ¬Overwrites s) :
    outstanding c s+announces s .upstream≤
      outstanding c (Proxy.upstreamStep {s with upstream := ops} op) := by
  simp only [outstanding,(Proxy.upstreamStep_frame _ op).2.1,announces,hnext]
  cases hop : nextEvent [op] with
  | none =>
    have hnone : nextEvent (op::ops)=none := by
      cases op with
      | send event => cases hop
      | _ => rfl
    rw [upstreamStep_events _ hop,hnone]
    simp only [reduceCtorEq,if_false,Nat.add_zero,Nat.le_refl]
  | some event =>
    have hsend : op=.send event := by
      cases op with
      | send other => exact congrArg UpstreamOp.send (Option.some.inj hop)
      | _ => cases hop
    subst hsend
    have hroom : ¬(eventCapacity ≤ s.events.items.length ∧
        s.events.items.head?=some .disconnected) := by
      intro hfull
      refine hkeeps ⟨?_,hfull⟩
      rw [hnext]
      exact Option.some_ne_none event
    have hcount := Broadcast.count_send (by decide) hroom event
    simp only [Proxy.upstreamStep,nextEvent,Option.some.injEq,hcount]
    omega

/-- A received announcement becomes the two operations that act on it. -/
theorem outstanding_receive {s : Proxy} {c : FanoutOp} (hc : c=.clearSessions ∨ c=.clearLane)
    {received : Received UpstreamEvent} {events : Broadcast UpstreamEvent}
    (hidle : s.fanout=[]) (hnext : s.events.recv=some (received,events)) :
    outstanding c s≤outstanding c {s with events := events, fanout := fanoutOps received} := by
  simp only [outstanding,hidle,List.not_mem_nil,if_false,Nat.add_zero]
  rcases Broadcast.recv_cases hnext with ⟨_,_,rfl⟩ | ⟨event,items,rfl,_,hitems,rfl⟩
  · exact Nat.le_add_right _ _
  · rw [hitems]
    by_cases he : event=.disconnected
    · subst he
      have hmem : c ∈ fanoutOps (.item .disconnected) := by
        rcases hc with rfl | rfl <;> decide
      rw [if_pos hmem,List.count_cons_self]
    · rw [List.count_cons_of_ne he]
      exact Nat.le_add_right _ _

/-- An executed operation is no longer outstanding, all others still are. -/
theorem outstanding_fanout {s t : Proxy} {c op : FanoutOp} {ops : List FanoutOp}
    (hnext : s.fanout=op::ops) (hdone : Fanned {s with fanout := ops} op t) (hne : op≠c) :
    outstanding c s≤outstanding c t := by
  have hmem : c ∈ s.fanout → c ∈ ops := by
    rw [hnext]
    exact fun hm => (List.mem_cons.mp hm).resolve_left (fun he => hne he.symm)
  have hops : t.events=s.events ∧ (c ∈ ops → c ∈ t.fanout) := by
    cases hdone with
    | routed payload owner => exact ⟨rfl,List.mem_cons_of_mem _⟩
    | takeDump => exact ⟨rfl,List.mem_cons_of_mem _⟩
    | _ => exact ⟨rfl,id⟩
  simp only [outstanding,hops.1]
  apply Nat.add_le_add_left
  by_cases hc : c ∈ s.fanout
  · rw [if_pos (hops.2 (hmem hc))]
    split <;> omega
  · rw [if_neg hc]
    exact Nat.zero_le _

/-- Every announcement stays outstanding until the operation that acts on it
is executed. -/
theorem outstanding_step {s t : Proxy} {a : Action} {c : FanoutOp}
    (hc : c=.clearSessions ∨ c=.clearLane) (hkeeps : a=.upstream → ¬Overwrites s)
    (h : Taken s a t) :
    (a=.fanout ∧ s.fanout.head?=some c) ∨ outstanding c s+announces s a≤outstanding c t := by
  cases h with
  | payload payload _ => exact Or.inr (outstanding_frame rfl rfl)
  | disconnect _ => exact Or.inr (outstanding_frame rfl rfl)
  | upstream op ops hnext => exact Or.inr (outstanding_upstream hnext (hkeeps rfl))
  | receive received events hidle hnext => exact Or.inr (outstanding_receive hc hidle hnext)
  | fanout op ops t hnext hdone =>
    by_cases he : op=c
    · exact Or.inl ⟨rfl,by rw [hnext,he]; rfl⟩
    · exact Or.inr (outstanding_fanout hnext hdone he)
  | datagram addr data clock _ =>
    refine Or.inr (outstanding_frame ?_ (receiveDatagram_fanout s addr data clock))
    rw [s.receiveDatagram_eq addr data clock]
  | handler clock replied t hdone =>
    refine Or.inr (outstanding_frame ?_ (continued_fanout hdone))
    cases hdone <;> rfl
  | tick now clocks _ _ => exact Or.inr (outstanding_frame rfl rfl)
  | cleanup op ops _ =>
    cases op <;> exact Or.inr (outstanding_frame rfl rfl)

/-- The stamp of an address is renewed when its session is inserted. -/
theorem stamp_born_insert {x : Stamped} {addr : SocketAddr} {sid : UInt16}
    (h : x.proxy.handler=.insert addr sid) (clock : Instant) (t : Proxy) :
    (x.stamp (.handler clock true) t).born addr=x.ended := by
  simp only [Stamped.stamp,Stamped.bornAfter,h,Function.update_self]

/-- A stamp is kept or renewed. -/
theorem stamp_born_cases (x : Stamped) (a : Action) (t : Proxy) (addr : SocketAddr) :
    (x.stamp a t).born addr=x.ended ∨ (x.stamp a t).born addr=x.born addr := by
  by_cases hinsert : ∃ clock other sid, a=.handler clock true ∧ x.proxy.handler=.insert other sid
  · obtain ⟨clock,other,sid,rfl,hwaits⟩ := hinsert
    simp only [Stamped.stamp,Stamped.bornAfter,hwaits]
    by_cases he : addr=other
    · subst he
      exact Or.inl (Function.update_self _ _ _)
    · exact Or.inr (Function.update_of_ne he _ _)
  · refine Or.inr (congrFun ?_ addr)
    simp only [Stamped.stamp,Stamped.bornAfter]
    split
    · split
      · rename_i other sid hwaits
        exact absurd ⟨_,other,sid,rfl,hwaits⟩ hinsert
      · rfl
    · rfl

/-- Sessions and lane owners are younger than everything already acted on. -/
structure Epochs (x : Stamped) : Prop where
  /-- No announcement was overwritten. -/
  lost : x.lost=0
  /-- Sessions. -/
  sessions : ∀ addr u, x.proxy.sessions.get? addr=some u →
    x.ended≤x.born addr+outstanding .clearSessions x.proxy
  /-- Lane owner. -/
  lane : ∀ owner, x.proxy.lane.currentOwner=some owner →
    x.ended≤x.laneBorn+outstanding .clearLane x.proxy

/-- Executing the operations of an announcement leaves nothing to outlive it. -/
theorem fanout_acts {s t : Proxy} {c : FanoutOp} (hhead : s.fanout.head?=some c)
    (h : Taken s .fanout t) :
    (c=.clearSessions → t.sessions=OrderedMap.empty) ∧
      (c=.clearLane → t.lane.currentOwner=none) := by
  cases h with
  | fanout op ops t hnext hdone =>
    rw [hnext,List.head?_cons,Option.some.injEq] at hhead
    subst hhead
    cases hdone <;> exact ⟨fun hc => by cases hc <;> rfl,fun hc => by cases hc <;> rfl⟩

/-- A step that keeps announcements loses none. -/
theorem lost_of_stamp {x : Stamped} {a : Action} (h : x.lost=0) (hok : KeepsAnnouncements x a)
    (t : Proxy) : (x.stamp a t).lost=0 := by
  cases a with
  | upstream =>
    simp only [Stamped.stamp,Stamped.lostAfter]
    rw [if_neg hok]
    exact h
  | receive =>
    simp only [Stamped.stamp,Stamped.lostAfter]
    split
    · rfl
    · exact h
  | _ => exact h

/-- A step that overwrites no announcement keeps the stamps ahead. -/
theorem epochs_step {x y : Stamped} {a : Action} (h : Epochs x) (hok : KeepsAnnouncements x a)
    (hstep : stampStep x a=some y) : Epochs y := by
  obtain ⟨t,ht,rfl⟩ := Option.map_eq_some_iff.mp hstep
  have htaken := taken_of_step ht
  have hkeeps : a=.upstream → ¬Overwrites x.proxy := by
    rintro rfl
    exact hok
  refine ⟨lost_of_stamp h.lost hok t,?_,?_⟩
  · intro addr u hu
    rcases outstanding_step (Or.inl rfl) hkeeps htaken with ⟨rfl,hhead⟩ | hcount
    · have hempty := (fanout_acts hhead htaken).1 rfl
      have hnone : t.sessions.get? addr=none := by rw [hempty]; rfl
      exact absurd (hnone.symm.trans hu) (Option.some_ne_none u).symm
    · change x.ended+announces x.proxy a ≤ _+outstanding .clearSessions t
      rcases originates_of_step ht hu with ⟨before,hbefore,_⟩ | ⟨sid,clock,hinsert,rfl⟩
      · have hold := h.sessions addr before hbefore
        rcases stamp_born_cases x a t addr with hborn | hborn <;> rw [hborn] <;> omega
      · rw [stamp_born_insert hinsert]
        omega
  · intro owner howner
    rcases outstanding_step (Or.inr rfl) hkeeps htaken with ⟨rfl,hhead⟩ | hcount
    · have hnone := (fanout_acts hhead htaken).2 rfl
      exact absurd (hnone.symm.trans howner) (Option.some_ne_none owner).symm
    · change x.ended+announces x.proxy a ≤
        (if t.lane.currentOwner=x.proxy.lane.currentOwner then x.laneBorn else x.ended)+
          outstanding .clearLane t
      split
      · rename_i hsame
        have hold := h.lane owner (hsame.symm.trans howner)
        omega
      · omega

/-- Nothing has happened at the start. -/
theorem epochs_start (policy : FilterPolicy) (idle : ℕ) : Epochs (Stamped.start policy idle) where
  lost := rfl
  sessions := fun _ _ _ => Nat.zero_le _
  lane := fun _ _ => Nat.zero_le _

/-- Between two events of the fan-out nothing is outstanding but what is unread. -/
theorem Epochs.endsSessions {x : Stamped} (h : Epochs x) : EndsSessions x := by
  intro hidle
  have hout : ∀ c, outstanding c x.proxy=x.proxy.events.items.count .disconnected := by
    intro c
    simp only [outstanding,hidle,List.not_mem_nil,if_false,Nat.add_zero]
  have hlost := h.lost
  constructor
  · intro addr u hu
    have hold := h.sessions addr u hu
    rw [hout] at hold
    unfold Stamped.consumed
    omega
  · intro owner howner
    have hold := h.lane owner howner
    rw [hout] at hold
    unfold Stamped.consumed
    omega

/-- In every run that overwrites no announcement, the sessions and the lane
owner from before a disconnect are gone once the fan-out has consumed it. -/
theorem disconnects_end_sessions (policy : FilterPolicy) (idle : ℕ) (actions : List Action)
    (hmeets : Meets stampStep KeepsAnnouncements (Stamped.start policy idle) actions) :
    Always stampStep EndsSessions (Stamped.start policy idle) actions :=
  Always.mono stampStep (fun _ => Epochs.endsSessions)
    (always_of_meets stampStep (fun _ _ _ => epochs_step) (epochs_start policy idle) hmeets)

/-- Audio levels of the switcher. -/
def levels : Bytes := serializeCommand (tag 'A' 'M' 'L' 'v') [0,0,0,0]

/-- So many payloads with audio levels, each handled by the upstream task. -/
def levelBurst (count : ℕ) : List Action :=
  (List.replicate count [.payload levels,.upstream]).flatten

/-- Proxy that denies lock requests. -/
def stampedStart : Stamped := .start ⟨.deny,.new,.new {}⟩ 5000

/-- The announcement is received and acted on. -/
def announced : List Action := clientJoined++connectionLost++[.receive,.fanout,.fanout]

/-- A disconnect that is announced ends the sessions. -/
theorem announced_ends_session :
    Meets stampStep KeepsAnnouncements stampedStart announced ∧
      Always stampStep EndsSessions stampedStart announced ∧
      ∃ x, run stampStep stampedStart announced=some x ∧ x.proxy.fanout=[] ∧ x.consumed=1 := by
  have hmeets : Meets stampStep KeepsAnnouncements stampedStart announced := by decide +kernel
  exact ⟨hmeets,disconnects_end_sessions ⟨.deny,.new,.new {}⟩ 5000 announced hmeets,_,rfl,rfl,rfl⟩

/-- The announcement is followed by more events than the queue holds before
the fan-out looks at it. -/
def overrun : List Action :=
  clientJoined++connectionLost++levelBurst eventCapacity++[.receive,.fanout,.fanout]

/-- The session from before the disconnect survives its overwritten
announcement. -/
theorem overrun_keeps_session : ¬Always stampStep EndsSessions stampedStart overrun := by
  intro h
  have hrun : (run stampStep stampedStart overrun).map (fun x =>
      (x.proxy.fanout,x.consumed,x.born ⟨1,1⟩,(x.proxy.sessions.get? ⟨1,1⟩).isSome))=
      some ([],1,0,true) := by decide +kernel
  obtain ⟨x,hx,hfacts⟩ := Option.map_eq_some_iff.mp hrun
  simp only [Prod.mk.injEq] at hfacts
  obtain ⟨hidle,hconsumed,hborn,hsession⟩ := hfacts
  obtain ⟨u,hu⟩ := Option.isSome_iff_exists.mp hsession
  have hyounger := (h.last stampStep hx hidle).1 ⟨1,1⟩ u hu
  rw [hconsumed,hborn] at hyounger
  omega

end AtemProxy.SessionEpochs
