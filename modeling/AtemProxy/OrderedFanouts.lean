import AtemProxy.SessionFeeds
import AtemProxy.LiveDelivery

/-!
# One order of the fan-out for every client

The fan-out hands out one thing after the other, each to all sessions at
once. A session that stays open is queued a selection of these handouts in
their order, and nothing else; state payloads and the dumps after a lag go to
all of them. Two clients thus never see two changes of state in different
orders, whatever the order of the tasks and also across a lag. Without a lag
the state payloads handed out are those of the switcher, in its order.
-/

namespace AtemProxy.OrderedFanouts

open BigEndian CommandFrames KeyedMaps LockStores LateJoinCache ServerSessions UpstreamEvents
  BroadcastQueues ProxyTasks GuardedRuns PayloadFanouts LiveDelivery SessionOrigins SessionFeeds

/-- What a fan-out operation hands to the sessions. -/
def handoutOf : FanoutOp → Option Handout
  | .queueState payload => some (.state payload)
  | .queueAudio payload => some (.audio payload)
  | .queueTransfer owner payload => some (.transfer owner payload)
  | .queueResync dump => some (.resync dump)
  | _ => none

/-- What a step hands to the sessions. -/
def handouts (s : Proxy) : Action → List Handout
  | .fanout => (s.fanout.head?.bind handoutOf).toList
  | _ => []

/-- Handouts for every opened session. -/
def forAll : Handout → Bool
  | .state _ => true
  | .audio _ => false
  | .transfer _ _ => false
  | .resync _ => true

/-- An opened session of this address takes the handout. -/
def takes (addr : SocketAddr) (sess : ClientSession) : Handout → Bool
  | .state _ => true
  | .audio _ => sess.audio
  | .transfer owner _ => decide (addr=owner)
  | .resync _ => true

/-- What a step hands to the session of one address. -/
def handed (addr : SocketAddr) (s : Proxy) (a : Action) : List Handout :=
  match s.sessions.get? addr with
  | none => []
  | some t => (handouts s a).filter (takes addr t.session)

/-- A session is handed what it takes. -/
theorem handed_eq {addr : SocketAddr} {s : Proxy} {t : Tracked} (a : Action)
    (h : s.sessions.get? addr=some t) :
    handed addr s a=(handouts s a).filter (takes addr t.session) := by
  rw [handed,h]

/-- The guard of a handout, read off what an opened session takes. -/
theorem update_eq (h : Handout) (addr : SocketAddr) {sess : ClientSession}
    (hopen : sess.opened=true) :
    h.update addr sess=
      if takes addr sess h=true then
        {sess with rel := {sess.rel with outbound := sess.rel.outbound++h.payloads}}
      else sess := by
  by_cases htakes : takes addr sess h=true
  · rw [if_pos htakes]
    cases h with
    | state payload => exact if_pos hopen
    | audio payload => exact if_pos ⟨hopen,htakes⟩
    | transfer owner payload => exact if_pos ⟨of_decide_eq_true htakes,hopen⟩
    | resync dump => exact if_pos hopen
  · rw [if_neg htakes]
    cases h with
    | state payload => exact absurd rfl htakes
    | audio payload => exact if_neg (fun hboth => htakes hboth.2)
    | transfer owner payload => exact if_neg (fun hboth => htakes (decide_eq_true hboth.1))
    | resync dump => exact absurd rfl htakes

/-- An opened session is queued what it takes. -/
theorem update_outbound (h : Handout) (addr : SocketAddr) {sess : ClientSession}
    (hopen : sess.opened=true) :
    (h.update addr sess).rel.outbound=
      sess.rel.outbound++if takes addr sess h=true then h.payloads else [] := by
  rw [update_eq h addr hopen]
  split
  · rfl
  · exact (List.append_nil _).symm

/-- A fan-out operation on a session that is open and stays. -/
theorem open_fanned {s t : Proxy} {op : FanoutOp} {ops : List FanoutOp} {addr : SocketAddr}
    {before after : Tracked} (hnext : s.fanout=op::ops) (hdone : Fanned {s with fanout := ops} op t)
    (hbefore : s.sessions.get? addr=some before) (hopen : before.session.opened=true)
    (hafter : t.sessions.get? addr=some after) :
    after.session.opened=true ∧
      after.queued=before.queued++(handed addr s .fanout).flatMap Handout.payloads := by
  have hhanded : handed addr s .fanout=
      (handoutOf op).toList.filter (takes addr before.session) := by
    rw [handed_eq .fanout hbefore,handouts,hnext]
    rfl
  -- Operations without a handout leave the sessions alone.
  have hquiet : handoutOf op=none → t.sessions=s.sessions → after.session.opened=true ∧
      after.queued=before.queued++(handed addr s .fanout).flatMap Handout.payloads := by
    intro hnone hsame
    rw [hsame,hbefore,Option.some.injEq] at hafter
    rw [←hafter,hhanded,hnone]
    exact ⟨hopen,(List.append_nil _).symm⟩
  have hgiven : ∀ h,handoutOf op=some h →
      t.sessions=s.sessions.mapValues (fun a => .record (h.update a)) →
      after.session.opened=true ∧
        after.queued=before.queued++(handed addr s .fanout).flatMap Handout.payloads := by
    intro h hsome hmap
    rw [hmap,OrderedMap.get?_mapValues,hbefore,Option.map_some,Option.some.injEq] at hafter
    have hqueued := record_queued before (update_outbound h addr hopen)
    have hpayloads : (handed addr s .fanout).flatMap Handout.payloads=
        if takes addr before.session h=true then h.payloads else [] := by
      rw [hhanded,hsome,Option.toList_some]
      split
      · rename_i htakes
        rw [List.filter_cons_of_pos htakes,List.filter_nil,List.flatMap_singleton]
      · rename_i htakes
        rw [List.filter_cons_of_neg htakes,List.filter_nil,List.flatMap_nil]
    rw [←hafter,hpayloads]
    exact ⟨(h.hands addr before.session).opened.trans hopen,hqueued⟩
  cases hdone with
  | clearSessions _ => cases hafter
  | clearLane => exact hquiet rfl rfl
  | queueState payload => exact hgiven (.state payload) rfl rfl
  | queueAudio payload => exact hgiven (.audio payload) rfl rfl
  | unrouted payload => exact hquiet rfl rfl
  | routed payload owner => exact hquiet rfl rfl
  | queueTransfer owner payload => exact hgiven (.transfer owner payload) rfl rfl
  | takeDump => exact hquiet rfl rfl
  | queueResync dump => exact hgiven (.resync dump) rfl rfl

/-- A session that is open and stays is queued what the step hands to it. -/
theorem open_step {s t : Proxy} {a : Action} {addr : SocketAddr} {before after : Tracked}
    (hstep : step s a=some t) (hold : inserts s addr a=false)
    (hbefore : s.sessions.get? addr=some before) (hopen : before.session.opened=true)
    (hafter : t.sessions.get? addr=some after) :
    after.session.opened=true ∧
      after.queued=before.queued++(handed addr s a).flatMap Handout.payloads := by
  by_cases hfanout : a=.fanout
  · subst hfanout
    cases taken_of_step hstep with
    | fanout op ops t hnext hdone => exact open_fanned hnext hdone hbefore hopen hafter
  · have hnone : handed addr s a=[] := by
      rw [handed_eq a hbefore]
      cases a with
      | fanout => exact absurd rfl hfanout
      | _ => rfl
    have hkind := sessionStep_of_step addr hstep
    rw [hbefore,hafter] at hkind
    rw [hnone,List.flatMap_nil,List.append_nil]
    cases hkind with
    | kept _ _ => exact ⟨hopen,rfl⟩
    | handed h hnext _ => exact absurd rfl hfanout
    | heard data header payload clock _ =>
      rcases heardBy_cases before header payload s.cache.dump clock with
        ⟨hsame,_,_,hqueued⟩ | ⟨hclosed,_⟩
      · exact ⟨hsame.trans hopen,hqueued⟩
      · rw [hopen] at hclosed
        cases hclosed
    | decided clock replied actions _ =>
      exact ⟨(before.session.applyActions_keeps actions).1.trans hopen,rfl⟩
    | polled now clocks _ =>
      have hflags := before.session.poll_flags s.idle now (clocks addr).elapsedAt
        (clocks addr).ackAt
      exact ⟨hflags.1.trans hopen,rfl⟩
    | inserted sid clock hwaits _ =>
      simp only [inserts,hwaits,decide_true,Bool.true_eq_false] at hold

/-- No session comes back without being inserted. -/
theorem absent_run {s u : Proxy} {acts : List Action} {addr : SocketAddr}
    (hrun : run step s acts=some u) (hkept : Meets step (fun s a => inserts s addr a=false) s acts)
    (hnone : s.sessions.get? addr=none) : u.sessions.get? addr=none := by
  induction acts generalizing s with
  | nil =>
    rw [run_nil,Option.some.injEq] at hrun
    exact hrun ▸ hnone
  | cons a acts ih =>
    obtain ⟨t,ht,hrun⟩ := (run_cons_eq_some step).mp hrun
    refine ih hrun (hkept.2 t ht) ?_
    have hkind := sessionStep_of_step addr ht
    have hold := hkept.1
    rw [hnone] at hkind
    generalize t.sessions.get? addr=later at hkind
    cases hkind with
    | kept _ _ => rfl
    | removed _ _ => rfl
    | inserted sid clock hwaits _ =>
      simp only [inserts,hwaits,decide_true,Bool.true_eq_false] at hold

/-- What a run hands to one address is a selection of its handouts. -/
theorem handed_selection (addr : SocketAddr) {s : Proxy} {t : Tracked} (a : Action)
    (h : s.sessions.get? addr=some t) :
    (handed addr s a).Sublist (handouts s a) ∧
      (handed addr s a).filter forAll=(handouts s a).filter forAll := by
  rw [handed_eq a h]
  refine ⟨List.filter_sublist,?_⟩
  rw [List.filter_filter]
  refine List.filter_congr (fun x _ => ?_)
  cases x <;> rfl

/-- A session that is open and stays through a run is queued the selection for
its address. -/
theorem open_run {s u : Proxy} {acts : List Action} {addr : SocketAddr} {before after : Tracked}
    (hrun : run step s acts=some u) (hkept : Meets step (fun s a => inserts s addr a=false) s acts)
    (hbefore : s.sessions.get? addr=some before) (hopen : before.session.opened=true)
    (hafter : u.sessions.get? addr=some after) :
    after.queued=before.queued++
        (outputs step (handed addr) s acts).flatMap Handout.payloads ∧
      (outputs step (handed addr) s acts).Sublist (outputs step handouts s acts) ∧
      (outputs step (handed addr) s acts).filter forAll=
        (outputs step handouts s acts).filter forAll := by
  induction acts generalizing s before with
  | nil =>
    rw [run_nil,Option.some.injEq] at hrun
    subst hrun
    rw [hbefore,Option.some.injEq] at hafter
    rw [hafter]
    exact ⟨(List.append_nil _).symm,List.Sublist.refl _,rfl⟩
  | cons a acts ih =>
    obtain ⟨t,ht,hrun⟩ := (run_cons_eq_some step).mp hrun
    cases hmid : t.sessions.get? addr with
    | none =>
      rw [absent_run hrun (hkept.2 t ht) hmid] at hafter
      cases hafter
    | some mid =>
      obtain ⟨hmidOpen,hqueued⟩ := open_step ht hkept.1 hbefore hopen hmid
      obtain ⟨hlater,hsub,hfilter⟩ := ih hrun (hkept.2 t ht) hmid hmidOpen
      obtain ⟨hnowSub,hnowFilter⟩ := handed_selection addr a hbefore
      rw [outputs_cons step ht,outputs_cons step ht]
      refine ⟨?_,hnowSub.append hsub,?_⟩
      · rw [hlater,hqueued,List.flatMap_append,List.append_assoc]
      · rw [List.filter_append,List.filter_append,hnowFilter,hfilter]

/-- State payload that is handed out. -/
def stateOf : Handout → Option Bytes
  | .state payload => some payload
  | _ => none

/-- State payload of a fan-out operation. -/
def opState : FanoutOp → Option Bytes
  | .queueState payload => some payload
  | _ => none

/-- State payload of an event. -/
def eventState : UpstreamEvent → Option Bytes
  | .statePayload payload => some payload
  | _ => none

/-- State payloads still to be handed out, oldest first. -/
def stateDue (s : Proxy) : List Bytes :=
  s.fanout.filterMap opState++(underWay s).filterMap eventState

/-- State part of a payload of the switcher: its state chunk, or all of it when
it cannot be parsed. -/
def statePart (payload : Bytes) : List Bytes :=
  match parseCommands payload with
  | .error _ => [payload]
  | .ok cmds => if chunkBytes .state cmds=[] then [] else [chunkBytes .state cmds]

/-- State parts that a step takes from the switcher. -/
def announcedState (_ : Proxy) : Action → List Bytes
  | .payload payload => statePart payload
  | _ => []

/-- The state events of a payload carry its state part. -/
theorem sentBy_state (connected : Bool) (payload : Bytes) :
    (sentBy connected (handleUpstreamPayload payload)).filterMap eventState=statePart payload := by
  unfold statePart
  cases hparse : parseCommands payload with
  | error e =>
    rw [handleUpstreamPayload,hparse]
    rfl
  | ok cmds =>
    have hannounce : (announcement connected cmds).filterMap eventState=[] := by
      unfold announcement
      split <;> rfl
    have haudio : (partEvent .audioLevels (chunkBytes .audio cmds)).filterMap eventState=[] := by
      unfold partEvent
      split <;> rfl
    have htransfer :
        (partEvent .transferPayload (chunkBytes .transfer cmds)).filterMap eventState=[] := by
      unfold partEvent
      split <;> rfl
    rw [sentBy_handleUpstreamPayload hparse,payloadEvents,List.filterMap_append,
      List.filterMap_append,List.filterMap_append,hannounce,haudio,htransfer,List.append_nil,
      List.append_nil,List.append_nil]
    unfold partEvent
    dsimp only
    split <;> rfl

/-- An operation of the upstream task that overwrites nothing keeps what is under way. -/
theorem underWay_kept {s : Proxy} {op : UpstreamOp} {ops : List UpstreamOp}
    (hops : s.upstream=op::ops)
    (hcurrent : (Proxy.upstreamStep {s with upstream := ops} op).events.missed=false) :
    underWay (Proxy.upstreamStep {s with upstream := ops} op)=underWay s := by
  unfold underWay
  rw [hops]
  cases op with
  | send event =>
    simp only [Proxy.upstreamStep] at hcurrent ⊢
    rcases s.events.send_cases eventCapacity event with hsend | ⟨oldest,items,_,hsend⟩
    · rw [hsend,sentBy,List.append_assoc,List.singleton_append]
    · rw [hsend] at hcurrent
      cases hcurrent
  | swapConnected =>
    simp only [Proxy.upstreamStep,sentBy]
    split
    · rename_i hc
      dsimp only
      rw [hc]
    · rfl
  | _ => rfl

/-- One step hands out the oldest state payload due, or none, and what it takes
from the switcher is due last. -/
theorem state_step {s t : Proxy} {a : Action} (hstep : step s a=some t)
    (hbefore : s.events.missed=false) (hafter : t.events.missed=false) :
    (handouts s a).filterMap stateOf++stateDue t=stateDue s++announcedState s a := by
  have hframe : ∀ u : Proxy,u.fanout=s.fanout → underWay u=underWay s → handouts s a=[] →
      announcedState s a=[] →
      (handouts s a).filterMap stateOf++stateDue u=stateDue s++announcedState s a := by
    intro u hfanout hway hnone hannounced
    rw [hnone,hannounced,stateDue,hfanout,hway,List.append_nil]
    rfl
  cases taken_of_step hstep with
  | payload payload hidle =>
    have hway : underWay s=s.events.items := by
      rw [underWay,hidle]
      exact List.append_nil _
    have hstate := sentBy_state s.connected payload
    rw [stateDue,stateDue,hway]
    simp only [underWay,handouts,announcedState,List.filterMap_append,List.filterMap_nil,
      List.nil_append,List.append_assoc,hstate]
  | disconnect hidle =>
    have hway : underWay s=s.events.items := by
      rw [underWay,hidle]
      exact List.append_nil _
    rw [stateDue,stateDue,hway]
    simp only [underWay,handouts,announcedState,List.filterMap_append,List.filterMap_nil,
      List.nil_append,List.append_nil]
    exact congrArg _ (List.append_nil _)
  | upstream op ops hops =>
    exact hframe _ (Proxy.upstreamStep_frame _ op).2.1 (underWay_kept hops hafter) rfl rfl
  | receive received events hidle hnext =>
    rcases Broadcast.recv_cases hnext with ⟨_,hmissed,_⟩ | ⟨e,items,rfl,_,hitems,rfl⟩
    · rw [hbefore] at hmissed
      cases hmissed
    · have hway : underWay s=e::underWay {s with
          events := ⟨items,false⟩, fanout := fanoutOps (.item e)} := by
        simp only [underWay,hitems,List.cons_append]
      have hops : (fanoutOps (.item e)).filterMap opState=(eventState e).toList := by
        cases e <;> rfl
      rw [stateDue,stateDue,hidle,hway,hops]
      cases e <;> exact (List.append_nil _).symm
  | fanout op ops t hnext hdone =>
    have hdue : stateDue s=(opState op).toList++stateDue {s with fanout := ops} := by
      rw [stateDue,hnext,stateDue]
      cases op <;> rfl
    have hhanded : (handouts s .fanout).filterMap stateOf=(opState op).toList := by
      rw [handouts,hnext]
      cases op <;> rfl
    have hrest : stateDue t=stateDue {s with fanout := ops} := by
      cases hdone <;> rfl
    rw [hhanded,hdue,hrest]
    exact (List.append_nil _).symm
  | datagram addr data clock _ =>
    rw [s.receiveDatagram_eq addr data clock]
    exact hframe _ rfl rfl rfl rfl
  | handler clock replied t hdone => cases hdone <;> exact hframe _ rfl rfl rfl rfl
  | tick now clocks _ _ => exact hframe _ rfl rfl rfl rfl
  | cleanup op ops _ => cases op <;> exact hframe _ rfl rfl rfl rfl

/-- Nothing is lost or reordered from the switcher to the handouts. -/
theorem state_run {s u : Proxy} {acts : List Action} (hrun : run step s acts=some u)
    (hcurrent : Always step (fun s => s.events.missed=false) s acts) :
    (outputs step handouts s acts).filterMap stateOf++stateDue u=
      stateDue s++outputs step announcedState s acts := by
  rw [←outputs_filterMap]
  have hstep : ∀ x a t,step x a=some t → x.events.missed=false → t.events.missed=false →
      (handouts x a).filterMap stateOf++stateDue t=stateDue x++announcedState x a :=
    fun _ _ _ ht hbefore hafter => state_step ht hbefore hafter
  exact run_conserves step hstep hcurrent hrun

/-- State payloads are for every opened session. -/
theorem filterMap_stateOf_forAll (l : List Handout) :
    (l.filter forAll).filterMap stateOf=l.filterMap stateOf := by
  rw [List.filterMap_filter]
  refine List.filterMap_congr (fun h _ => ?_)
  cases h <;> rfl

/-- The session of an address is open, and neither removed nor replaced in a run. -/
structure StaysOpen (addr : SocketAddr) (s : Proxy) (acts : List Action) (u : Proxy) : Prop where
  /-- It is open. -/
  opened : (s.sessions.get? addr).map (fun t => t.session.opened)=some true
  /-- It is not replaced. -/
  kept : Meets step (fun s a => inserts s addr a=false) s acts
  /-- It is there at the end. -/
  last : (u.sessions.get? addr).isSome=true

/-- One order for every client: in every run each client that stays open is
queued a selection of what the fan-out hands out, in its order, and of what is
for everyone all of it. Unless events are lost, the state payloads among it,
followed by those still due, are those due before, followed by those of the
switcher in its order. -/
theorem fanout_total_order {s u : Proxy} {acts : List Action} (hrun : run step s acts=some u)
    {addr : SocketAddr} (hstays : StaysOpen addr s acts u) :
    ∃ got : List Handout,
      appended s u addr=got.flatMap Handout.payloads ∧
      got.Sublist (outputs step handouts s acts) ∧
      got.filter forAll=(outputs step handouts s acts).filter forAll ∧
      (Always step (fun x => x.events.missed=false) s acts →
        got.filterMap stateOf++stateDue u=stateDue s++outputs step announcedState s acts) := by
  obtain ⟨before,hbefore,hopen⟩ := Option.map_eq_some_iff.mp hstays.opened
  obtain ⟨after,hafter⟩ := Option.isSome_iff_exists.mp hstays.last
  obtain ⟨hqueued,hsub,hfilter⟩ := open_run hrun hstays.kept hbefore hopen hafter
  refine ⟨_,appended_eq hbefore hafter hqueued,hsub,hfilter,fun hcurrent => ?_⟩
  rw [←filterMap_stateOf_forAll,hfilter,filterMap_stateOf_forAll]
  exact state_run hrun hcurrent

/-- A second client opens its session. -/
def secondOpens : List Action :=
  [.datagram ⟨2,1⟩ helloData 2,.handler 2 true,.handler 2 true,
    .datagram ⟨2,1⟩ LateJoiners.openingData 3]

/-- The proxy with two clients. -/
def listeners : Proxy := (run step listening secondOpens).getD listening

/-- Two changes of the program input, the second taken while the first is handed out. -/
def twoChanges : List Action :=
  [.payload (LateJoiners.programSource 2).raw,.upstream,.upstream,.upstream,.receive,
    .payload (LateJoiners.programSource 3).raw,.upstream,.upstream,.fanout,.upstream,.receive,
    .fanout]

/-- The proxy after them. -/
def changed : Proxy := (run step listeners twoChanges).getD listeners

/-- Both clients are handed both changes in their order. -/
theorem listeners_agree :
    ∃ first second : List Handout,
      appended listeners changed ⟨1,1⟩=first.flatMap Handout.payloads ∧
      appended listeners changed ⟨2,1⟩=second.flatMap Handout.payloads ∧
      first.filter forAll=second.filter forAll ∧
      first.filterMap stateOf=
        [(LateJoiners.programSource 2).raw,(LateJoiners.programSource 3).raw] := by
  have hrun : run step listeners twoChanges=some changed := rfl
  have hone : StaysOpen ⟨1,1⟩ listeners twoChanges changed :=
    ⟨by decide +kernel,by decide +kernel,by decide +kernel⟩
  have htwo : StaysOpen ⟨2,1⟩ listeners twoChanges changed :=
    ⟨by decide +kernel,by decide +kernel,by decide +kernel⟩
  have hmeets : Meets step
      (fun s a => ((step s a).map (fun t => t.events.missed)).getD false=false)
      listeners twoChanges := by decide +kernel
  have hcurrent : Always step (fun x => x.events.missed=false) listeners twoChanges := by
    refine always_of_meets step (fun s a t _ hok ht => ?_) (by decide +kernel) hmeets
    rwa [ht,Option.map_some,Option.getD_some] at hok
  obtain ⟨first,hfirst,_,hall,hstate⟩ := fanout_total_order hrun hone
  obtain ⟨second,hsecond,_,hall',_⟩ := fanout_total_order hrun htwo
  refine ⟨first,second,hfirst,hsecond,hall.trans hall'.symm,?_⟩
  have horder := hstate hcurrent
  have hdue : stateDue changed=[] := by decide +kernel
  rw [hdue,List.append_nil] at horder
  rw [horder]
  decide +kernel

end AtemProxy.OrderedFanouts
