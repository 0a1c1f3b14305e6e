import AtemProxy.AttachedClients
import AtemProxy.AttachedSwitcher
import AtemProxy.PayloadFanouts

/-!
# A proxy behind a proxy

Towards its switcher a proxy is a client, and towards its clients it is a switcher, so
one proxy can be the switcher of another one. A session of the near proxy and the
upstream session of the far one are then the two ends of one link. Every run of the pair
is a run of the near proxy with a client and a run of the far proxy with a switcher, and
what holds of these holds of the pair: when nothing is under way, everything cached by
the near proxy is cached by the far one.
-/

namespace AtemProxy.ProxyCascades

open BigEndian PacketCodec CommandFrames KeyedMaps LastWrites LateJoinCache CommandPolicy
  ReliableTransport ReliableWindow ServerSessions UpstreamEvents UpstreamSessions GuardedRuns
  ProxyTasks PayloadFanouts ProxySystem PayloadBounds DuplexLinks LinkTraffic SwitcherLinks
open ReliableLink (Peer Link)
open AttachedClients (Attached Aligned Attends Joined FitsMove FitsAction)
open AttachedSwitcher (Wired Wires join joinedLink)
open LateJoiners (Settled payloadWrites)
open LockStores (SocketAddr)

/-- The near proxy with one of its sessions, the far proxy, and the datagrams between
them. -/
structure Cascade where
  /-- The near proxy; its client is the record of the far one. -/
  near : Attached
  /-- The far proxy. -/
  far : System

/-- The far proxy as one end of a link. -/
def Cascade.wired (x : Cascade) (t : Tracked) : Wired := ⟨x.far,x.near.link t⟩

/-- What can happen. -/
inductive Move where
  /-- The near proxy acts or hears a datagram, or the network loses or repeats one. -/
  | near (m : AttachedClients.Move)
  /-- The far proxy acts or hears a datagram. -/
  | far (m : AttachedSwitcher.Move)

/-- The client of the near proxy does not act by itself. -/
def nearby : AttachedClients.Move → Bool
  | .client e => inside e
  | _ => true

/-- Nor does the switcher of the far proxy. -/
def faraway : AttachedSwitcher.Move → Bool
  | .switcher _ => false
  | _ => true

/-- Next state; none when the move is not possible or ends one of the two sessions. -/
def move (addr : SocketAddr) (x : Cascade) : Move → Option Cascade
  | .near m =>
    if nearby m=true then
      (AttachedClients.move addr x.near m).map (fun y => {x with near := y})
    else none
  | .far m =>
    match x.near.proxy.sessions.get? addr with
    | none => none
    | some t =>
      if faraway m=true then
        (AttachedSwitcher.move (x.wired t) m).map (fun w => ⟨x.near.takeLink w.link,w.system⟩)
      else none

/-- The near proxy inserts the session whose HELLO it answered, and the far proxy connects
with the answer. -/
def meet (addr : SocketAddr) (s : Proxy) (b : System) (clock farClock : Instant) :
    Option Cascade :=
  match s.handler with
  | .insert other sid =>
    match step s (.handler clock true),join b (serverSessionId sid) farClock clock with
    | some t,some w =>
      if other=addr then
        some ⟨⟨t,[],[],[],w.link.right,w.link.toLeft,w.link.toRight⟩,w.system⟩
      else none
    | _,_ => none
  | _ => none

/-- Events of a client are moves of the near proxy. -/
theorem run_client {addr : SocketAddr} {events : List Event} {x : Attached} {t : Tracked}
    {l : Link} (ht : x.proxy.sessions.get? addr=some t) (he : ∀ e∈events,outside e=true)
    (hrun : run eventStep (x.link t) events=some l) :
    run (AttachedClients.move addr) x (events.map .client)=some (x.takeLink l) := by
  induction events generalizing x with
  | nil =>
    rw [run_nil,Option.some.injEq] at hrun
    subst hrun
    rfl
  | cons e events ih =>
    obtain ⟨next,hnext,hrun⟩ := (run_cons_eq_some eventStep).mp hrun
    have hout := he e List.mem_cons_self
    have hleft : next.left=x.peer t := outside_left hout hnext
    have hlink : (x.takeLink next).link t=next := by
      show (⟨x.peer t,next.right,next.toLeft,next.toRight⟩ : Link)=next
      rw [←hleft]
    have hmove : AttachedClients.move addr x (.client e)=some (x.takeLink next) := by
      dsimp only [AttachedClients.move]
      rw [ht]
      dsimp only
      rw [if_pos hout,hnext,Option.map_some]
    rw [List.map_cons,run_cons,hmove,Option.bind_some]
    exact ih ht (fun e' he' => he e' (List.mem_cons_of_mem _ he')) (by rw [hlink]; exact hrun)

/-- Events of a switcher are moves of the far proxy. -/
theorem run_switcher {events : List Event} {z : System} {l l' : Link}
    (he : ∀ e∈events,inside e=true) (hrun : run eventStep l events=some l') :
    run AttachedSwitcher.move ⟨z,l⟩ (events.map .switcher)=some ⟨z,l'⟩ := by
  induction events generalizing l with
  | nil =>
    rw [run_nil,Option.some.injEq] at hrun
    subst hrun
    rfl
  | cons e events ih =>
    obtain ⟨next,hnext,hrun⟩ := (run_cons_eq_some eventStep).mp hrun
    have hmove : AttachedSwitcher.move ⟨z,l⟩ (.switcher e)=some ⟨z,next⟩ := by
      dsimp only [AttachedSwitcher.move]
      rw [if_pos (he e List.mem_cons_self),hnext,Option.map_some]
    rw [List.map_cons,run_cons,hmove,Option.bind_some]
    exact ih (fun e' he' => he e' (List.mem_cons_of_mem _ he')) hrun

/-- A move of the far proxy is made of events of its end of the link. -/
theorem events_of_far {id : UInt16} {x y : Wired} {u : UpstreamSession}
    {m : AttachedSwitcher.Move} (h : Wires id x u) (hm : faraway m=true)
    (hmove : AttachedSwitcher.move x m=some y) :
    ∃ events,(∀ e∈events,outside e=true) ∧ run eventStep x.link events=some y.link := by
  cases m with
  | system a =>
    dsimp only [AttachedSwitcher.move] at hmove
    rw [h.present] at hmove
    cases hz : systemStep x.system a with
    | none =>
      rw [hz] at hmove
      cases hmove
    | some z =>
      rw [hz] at hmove
      dsimp only at hmove
      split at hmove
      · rename_i hdeaf
        obtain ⟨v,hv,rfl⟩ := Option.map_eq_some_iff.mp hmove
        obtain ⟨w,hw,events,hevents,hfollows⟩ := follows_step h.present h.high hdeaf hz
        rw [hv,Option.some.injEq] at hw
        subst hw
        exact ⟨events,hevents,hfollows x.link h.mirrors⟩
      · cases hmove
  | hear i clock =>
    dsimp only [AttachedSwitcher.move] at hmove
    cases hd : x.link.toRight[i]? with
    | none =>
      rw [hd] at hmove
      cases hmove
    | some d =>
      rw [hd] at hmove
      dsimp only at hmove
      split at hmove
      · rename_i htime
        cases hz : systemStep x.system (.switcher d.bytes clock) with
        | none =>
          rw [hz] at hmove
          cases hmove
        | some z =>
          rw [hz] at hmove
          obtain ⟨v,hv,rfl⟩ := Option.map_eq_some_iff.mp hmove
          obtain ⟨hsession,_⟩ := AttachedSwitcher.wires_hear h hd htime hz
          rw [hv,Option.some.injEq] at hsession
          subst hsession
          obtain ⟨_,hdeliver,_⟩ := AttachedSwitcher.hear_delivers h hd htime
          refine ⟨[.act (.deliver .right i clock none)],fun e he => ?_,?_⟩
          · rw [List.mem_singleton.mp he]
            rfl
          · rw [run_cons,hdeliver,Option.bind_some,run_nil]
      · cases hmove
  | switcher e => cases hm

/-- Both sessions last, and are the ends of one link. -/
structure Joins (addr : SocketAddr) (id : UInt16) (x : Cascade) (t : Tracked)
    (u : UpstreamSession) : Prop where
  /-- Session of the near proxy. -/
  session : x.near.proxy.sessions.get? addr=some t
  /-- Its flags. -/
  aligned : Aligned t
  /-- The near proxy and its client. -/
  attends : Attends addr x.near
  /-- The far proxy and its switcher. -/
  wires : Wires id (x.wired t) u

/-- Moves of the near proxy that fit, and their counterparts. -/
def FitsNear : Move → Prop
  | .near m => FitsMove m
  | .far _ => True

/-- Every move of the pair is a run of the near proxy with a client and a run of the far
proxy with a switcher. -/
theorem views_of_move {addr : SocketAddr} {id : UInt16} {x y : Cascade} {t : Tracked}
    {u : UpstreamSession} {m : Move} (h : Joins addr id x t u) (hfits : FitsNear m)
    (hm : move addr x m=some y) :
    ∃ t' nears fars,y.near.proxy.sessions.get? addr=some t' ∧ Aligned t' ∧
      (∀ n∈nears,FitsMove n) ∧ run (AttachedClients.move addr) x.near nears=some y.near ∧
      run AttachedSwitcher.move (x.wired t) fars=some (y.wired t') := by
  cases m with
  | near m =>
    dsimp only [move] at hm
    split at hm
    · rename_i hnear
      obtain ⟨n,hn,rfl⟩ := Option.map_eq_some_iff.mp hm
      obtain ⟨t',ht',haligned,events,hevents,hrun⟩ :=
        AttachedClients.linking_of_move h.attends h.session h.aligned hn
      have hinside : ∀ e∈events,inside e=true := by
        intro e he
        have hconsists := hevents e he
        cases m with
        | client own =>
          rw [show e=own from hconsists]
          exact hnear
        | task a => exact hconsists
        | hear i clock => exact hconsists
      refine ⟨t',[m],events.map .switcher,ht',haligned,fun n hn => ?_,?_,?_⟩
      · rw [List.mem_singleton.mp hn]
        exact hfits
      · rw [run_cons,hn,Option.bind_some,run_nil]
      · exact run_switcher hinside hrun
    · cases hm
  | far m =>
    dsimp only [move] at hm
    rw [h.session] at hm
    dsimp only at hm
    split at hm
    · rename_i hfar
      obtain ⟨w,hw,rfl⟩ := Option.map_eq_some_iff.mp hm
      obtain ⟨events,hevents,hrun⟩ := events_of_far h.wires hfar hw
      have hleft : w.link.left=x.near.peer t := outside_run_left hevents hrun
      have hlink : (x.near.takeLink w.link).link t=w.link := by
        show (⟨x.near.peer t,w.link.right,w.link.toLeft,w.link.toRight⟩ : Link)=w.link
        rw [←hleft]
      refine ⟨t,events.map .client,[m],h.session,h.aligned,fun n hn => ?_,
        run_client h.session hevents hrun,?_⟩
      · obtain ⟨e,_,rfl⟩ := List.mem_map.mp hn
        intro payload he
        cases he
      · rw [run_cons,hw,Option.bind_some,run_nil]
        show some w=some (⟨w.system,(x.near.takeLink w.link).link t⟩ : Wired)
        rw [hlink]
    · cases hm

/-- So is every run of the pair. -/
theorem views_of_run {addr : SocketAddr} {id : UInt16} {moves : List Move} {x y : Cascade}
    {t : Tracked} {u : UpstreamSession} (h : Joins addr id x t u)
    (hfits : ∀ m∈moves,FitsNear m) (hrun : run (move addr) x moves=some y) :
    ∃ t' v nears fars,Joins addr id y t' v ∧ (∀ n∈nears,FitsMove n) ∧
      run (AttachedClients.move addr) x.near nears=some y.near ∧
      run AttachedSwitcher.move (x.wired t) fars=some (y.wired t') := by
  induction moves generalizing x t u with
  | nil =>
    rw [run_nil,Option.some.injEq] at hrun
    subst hrun
    exact ⟨t,u,[],[],h,fun _ hn => absurd hn List.not_mem_nil,rfl,rfl⟩
  | cons m moves ih =>
    obtain ⟨z,hz,hrun⟩ := (run_cons_eq_some (move addr)).mp hrun
    obtain ⟨s,nears,fars,hs,haligned,hnears,hnear,hfar⟩ :=
      views_of_move h (hfits m List.mem_cons_self) hz
    have hattends : Attends addr z.near :=
      run_invariant (AttachedClients.move addr)
        (fun _ _ _ ha hm => AttachedClients.attends_move ha hm) h.attends hnear
    obtain ⟨w,hwires⟩ := AttachedSwitcher.wires_run h.wires hfar
    obtain ⟨t',v,nears',fars',hjoins,hnears',hnear',hfar'⟩ :=
      ih ⟨hs,haligned,hattends,hwires⟩ (fun m' hm' => hfits m' (List.mem_cons_of_mem _ hm')) hrun
    refine ⟨t',v,nears++nears',fars++fars',hjoins,fun n hn => ?_,?_,?_⟩
    · rcases List.mem_append.mp hn with hn | hn
      · exact hnears n hn
      · exact hnears' n hn
    · rw [run_append,hnear]
      exact hnear'
    · rw [run_append,hfar]
      exact hfar'

/-- The cache once the remaining operations of the upstream task are done. -/
def eventual (s : Proxy) : StateCache := s.upstream.foldl cacheAfter s.cache

/-- Connection flag once they are done. -/
def eventuallyConnected (s : Proxy) : Bool := s.upstream.foldl connectedAfter s.connected

/-- An operation that is executed counts before those that are left. -/
theorem upstreamStep_eventual (s : Proxy) (op : UpstreamOp) :
    eventual (s.upstreamStep op)=s.upstream.foldl cacheAfter (cacheAfter s.cache op) ∧
      eventuallyConnected (s.upstreamStep op)=
        s.upstream.foldl connectedAfter (connectedAfter s.connected op) := by
  cases op with
  | swapConnected =>
    unfold Proxy.upstreamStep
    dsimp only
    split
    · rename_i hconnected
      unfold eventual eventuallyConnected
      rw [hconnected]
      exact ⟨rfl,rfl⟩
    · exact ⟨rfl,rfl⟩
  | _ => exact ⟨rfl,rfl⟩

/-- Steps other than a new payload or the end of the session lead to the same cache and
connection. -/
theorem eventual_step {s t : Proxy} {a : ProxyTasks.Action} (h : step s a=some t)
    (hpayload : ∀ payload,a≠.payload payload) (hend : a≠.disconnect) :
    eventual t=eventual s ∧ eventuallyConnected t=eventuallyConnected s := by
  cases taken_of_step h with
  | payload payload _ => exact absurd rfl (hpayload payload)
  | disconnect _ => exact absurd rfl hend
  | upstream op ops hnext =>
    obtain ⟨hcache,hconnected⟩ := upstreamStep_eventual {s with upstream := ops} op
    rw [hcache,hconnected]
    unfold eventual eventuallyConnected
    rw [hnext]
    exact ⟨rfl,rfl⟩
  | fanout op ops t _ hdone => cases hdone <;> exact ⟨rfl,rfl⟩
  | datagram addr data clock _ =>
    rw [s.receiveDatagram_eq addr data clock]
    exact ⟨rfl,rfl⟩
  | handler clock replied t hdone => cases hdone <;> exact ⟨rfl,rfl⟩
  | cleanup op ops _ => cases op <;> exact ⟨rfl,rfl⟩
  | _ => exact ⟨rfl,rfl⟩

/-- Some command of the payload completes the initialization. -/
def completing (payload : Bytes) : Bool := completes (parsedCommands payload)

/-- A payload leads to the cache that has taken it. -/
theorem eventual_payload {s t : Proxy} {payload : Bytes} (h : step s (.payload payload)=some t) :
    (eventual t).map=insertAll (eventual s).map (cacheWrites (parsedCommands payload)) ∧
      (eventual t).ready=((eventual s).ready || completing payload) ∧
      eventuallyConnected t=(eventuallyConnected s || completing payload) := by
  cases taken_of_step h with
  | payload _ hidle =>
    unfold eventual eventuallyConnected completing
    rw [hidle]
    dsimp only [List.foldl_nil]
    cases hparse : parseCommands payload with
    | error e =>
      have hops : handleUpstreamPayload payload=
          [.ingest payload,.send (.statePayload payload)] := by
        unfold handleUpstreamPayload
        rw [hparse]
      have hnone : parsedCommands payload=[] := by
        unfold parsedCommands
        rw [hparse]
      rw [hops,hnone]
      refine ⟨?_,?_,(Bool.or_false _).symm⟩
      · show (s.cache.ingestPayload payload).map=_
        rw [ingestPayload_map,hnone]
      · show (s.cache.ingestPayload payload).ready=_
        rw [ingestPayload_ready s.cache (by rw [hnone]; exact fun _ hm => absurd hm List.not_mem_nil)]
        exact (Bool.or_false _).symm
    | ok cmds =>
      rw [cacheAfter_handleUpstreamPayload hparse,connectedAfter_handleUpstreamPayload hparse,
        parsedCommands_of_ok hparse]
      have hmap : (s.cache.ingestPayload (chunkBytes .state cmds)).map=
          insertAll s.cache.map (cacheWrites cmds) := by
        rw [ingestPayload_map,parsedCommands_chunkBytes,cacheWrites_state_chunk]
      have hready : (s.cache.ingestPayload (chunkBytes .state cmds)).ready=s.cache.ready := by
        refine ingestPayload_ready s.cache (fun cmd hmem hinit => ?_)
        rw [parsedCommands_chunkBytes] at hmem
        have hstate := of_decide_eq_true (List.mem_filter.mp hmem).2
        rw [(chunkOf_eq_none_iff cmd.name).mpr hinit] at hstate
        cases hstate
      refine ⟨?_,?_,rfl⟩
      · split <;> exact hmap
      · split
        · rename_i hcompletes
          rw [hcompletes,Bool.or_true]
          rfl
        · rename_i hcompletes
          rw [eq_false_of_ne_true hcompletes,Bool.or_false]
          exact hready

/-- What a step of the far proxy that hears nothing leads to. -/
theorem eventual_deaf {x y : System} {a : SystemAction} (ha : deaf a=true)
    (h : systemStep x a=some y) :
    eventual y.proxy=eventual x.proxy ∧
      eventuallyConnected y.proxy=eventuallyConnected x.proxy := by
  cases moved_of_systemStep h with
  | upstream t done =>
    exact eventual_step done (fun _ => ProxyTasks.Action.noConfusion)
      ProxyTasks.Action.noConfusion
  | quiet a t done hserves =>
    refine eventual_step done (fun payload he => ?_) (fun he => ?_)
    · rw [he] at hserves
      cases hserves
    · rw [he] at hserves
      cases hserves
  | handler clock replied t done =>
    exact eventual_step done (fun _ => ProxyTasks.Action.noConfusion)
      ProxyTasks.Action.noConfusion
  | cleanup t done =>
    exact eventual_step done (fun _ => ProxyTasks.Action.noConfusion)
      ProxyTasks.Action.noConfusion
  | connect reply clock v _ _ _ => cases ha
  | endSession t _ => cases ha
  | heard v data clock _ => cases ha
  | handled v data clock payload t _ _ _ => cases ha
  | _ => exact ⟨rfl,rfl⟩

/-- What a datagram of its switcher leads to. -/
theorem eventual_heard {x y : System} {u : UpstreamSession} {data : Bytes} {clock : Instant}
    (hu : x.session=some u) (h : systemStep x (.switcher data clock)=some y) :
    (eventual y.proxy).map=insertAll (eventual x.proxy).map
        (cacheWrites ((u.onDatagram data clock).2.toList.flatMap parsedCommands)) ∧
      (eventual y.proxy).ready=
        ((eventual x.proxy).ready || (u.onDatagram data clock).2.toList.any completing) ∧
      eventuallyConnected y.proxy=
        (eventuallyConnected x.proxy || (u.onDatagram data clock).2.toList.any completing) := by
  dsimp only [systemStep] at h
  rw [hu] at h
  dsimp only at h
  split at h
  · unfold System.switcherStep at h
    dsimp only at h
    cases hpayload : (u.onDatagram data clock).2 with
    | none =>
      rw [hpayload] at h
      cases h
      exact ⟨rfl,(Bool.or_false _).symm,(Bool.or_false _).symm⟩
    | some payload =>
      rw [hpayload] at h
      obtain ⟨t,ht,rfl⟩ := Option.map_eq_some_iff.mp h
      obtain ⟨hcache,hready,hconnected⟩ := eventual_payload ht
      refine ⟨?_,?_,?_⟩
      · rw [Option.toList_some,List.flatMap_singleton]
        exact hcache
      · rw [Option.toList_some,List.any_cons,List.any_nil,Bool.or_false]
        exact hready
      · rw [Option.toList_some,List.any_cons,List.any_nil,Bool.or_false]
        exact hconnected
  · cases h

/-- The far proxy has taken in these payloads since it had this cache and connection. -/
structure Absorbs (base : StateCache) (connected : Bool) (s : Proxy) (so : List Bytes) :
    Prop where
  /-- Stored frames. -/
  stored : (eventual s).map=insertAll base.map (cacheWrites (so.flatMap parsedCommands))
  /-- Readiness. -/
  ready : (eventual s).ready=(base.ready || so.any completing)
  /-- Connection. -/
  connected : eventuallyConnected s=(connected || so.any completing)

/-- More payloads are taken in. -/
theorem Absorbs.append {base : StateCache} {connected : Bool} {s t : Proxy}
    {so next : List Bytes} (h : Absorbs base connected s so)
    (hstored : (eventual t).map=
      insertAll (eventual s).map (cacheWrites (next.flatMap parsedCommands)))
    (hready : (eventual t).ready=((eventual s).ready || next.any completing))
    (hconnected : eventuallyConnected t=(eventuallyConnected s || next.any completing)) :
    Absorbs base connected t (so++next) where
  stored := by
    rw [hstored,h.stored,←insertAll_append,←cacheWrites_append,List.flatMap_append]
  ready := by
    rw [hready,h.ready,List.any_append,Bool.or_assoc]
  connected := by
    rw [hconnected,h.connected,List.any_append,Bool.or_assoc]

/-- Every move of the far proxy takes in what is handed to its upstream task. -/
theorem absorbs_move {id : UInt16} {base : StateCache} {connected : Bool}
    {x y : Wired} {u : UpstreamSession} {m : AttachedSwitcher.Move} {so : List Bytes}
    (hwires : Wires id x u) (h : Absorbs base connected x.system.proxy so)
    (hm : AttachedSwitcher.move x m=some y) :
    Absorbs base connected y.system.proxy (so++AttachedSwitcher.handsIn x m) := by
  cases m with
  | system a =>
    dsimp only [AttachedSwitcher.move] at hm
    rw [hwires.present] at hm
    cases hz : systemStep x.system a with
    | none =>
      rw [hz] at hm
      cases hm
    | some z =>
      rw [hz] at hm
      dsimp only at hm
      split at hm
      · rename_i hdeaf
        obtain ⟨v,_,rfl⟩ := Option.map_eq_some_iff.mp hm
        obtain ⟨hcache,hconnected⟩ := eventual_deaf hdeaf hz
        refine h.append ?_ ?_ (hconnected.trans (Bool.or_false _).symm)
        · rw [hcache]
          rfl
        · rw [hcache]
          exact (Bool.or_false _).symm
      · cases hm
  | hear i clock =>
    dsimp only [AttachedSwitcher.move] at hm
    cases hd : x.link.toRight[i]? with
    | none =>
      rw [hd] at hm
      cases hm
    | some d =>
      rw [hd] at hm
      dsimp only at hm
      split at hm
      · cases hz : systemStep x.system (.switcher d.bytes clock) with
        | none =>
          rw [hz] at hm
          cases hm
        | some z =>
          rw [hz] at hm
          obtain ⟨v,_,rfl⟩ := Option.map_eq_some_iff.mp hm
          obtain ⟨hcache,hready,hconnected⟩ := eventual_heard hwires.present hz
          have hhands : AttachedSwitcher.handsIn x (.hear i clock)=
              (u.onDatagram d.bytes clock).2.toList := by
            dsimp only [AttachedSwitcher.handsIn]
            rw [hwires.present,hd]
          rw [hhands]
          exact h.append hcache hready hconnected
      · cases hm
  | switcher e =>
    dsimp only [AttachedSwitcher.move] at hm
    split at hm
    · obtain ⟨l,_,rfl⟩ := Option.map_eq_some_iff.mp hm
      exact h.append rfl (Bool.or_false _).symm (Bool.or_false _).symm
    · cases hm

/-- Whole runs of the far proxy: it has taken in, in order, exactly what its end of the
link accepted. -/
theorem absorbs_run {id : UInt16} {x y : Wired} {u : UpstreamSession}
    {moves : List AttachedSwitcher.Move} (h : Wires id x u)
    (hnone : x.link.right.accepted=[])
    (hrun : run AttachedSwitcher.move x moves=some y) :
    Absorbs (eventual x.system.proxy) (eventuallyConnected x.system.proxy) y.system.proxy
      (nonEmpty (y.link.right.accepted.map Packet.payload)) := by
  have hstart : (∃ v,Wires id x v) ∧
      Absorbs (eventual x.system.proxy) (eventuallyConnected x.system.proxy) x.system.proxy [] :=
    ⟨⟨u,h⟩,rfl,(Bool.or_false _).symm,(Bool.or_false _).symm⟩
  have hend := run_outputs AttachedSwitcher.move (fun _ => True)
    (fun z so => (∃ v,Wires id z v) ∧
      Absorbs (eventual x.system.proxy) (eventuallyConnected x.system.proxy) z.system.proxy so)
    (fun s m t so _ hs hm => by
      obtain ⟨⟨v,hv⟩,habsorbs⟩ := hs
      obtain ⟨w,hw,_⟩ := AttachedSwitcher.wires_move hv hm
      exact ⟨⟨w,hw⟩,absorbs_move hv habsorbs hm⟩)
    (fun _ _ => trivial) hstart hrun
  obtain ⟨_,_,hhanded⟩ := AttachedSwitcher.handing_run ⟨u,h,by rw [hnone]; rfl⟩ hrun
  rw [hhanded]
  exact hend.2

/-- HELLO of a client. -/
def buildClientHandshake (sessionId : UInt16) : Bytes :=
  encodePacket {PacketHeader.new {handshake := true} sessionId 20 with unknown := 0x0068}
    [0x01,0x00,0x00,0x08,0x00,0x00,0x00,0x00]

/-- What two proxies look like when they meet. -/
theorem meet_cases {addr : SocketAddr} {s : Proxy} {b : System} {clock farClock : Instant}
    {x : Cascade} (h : meet addr s b clock farClock=some x) :
    ∃ sid t w,s.handler=.insert addr sid ∧ step s (.handler clock true)=some t ∧
      join b (serverSessionId sid) farClock clock=some w ∧
      x=⟨⟨t,[],[],[],w.link.right,w.link.toLeft,w.link.toRight⟩,w.system⟩ := by
  unfold meet at h
  split at h
  · rename_i other sid hinsert
    split at h
    · rename_i t w ht hw
      split at h
      · rename_i haddr
        cases h
        exact ⟨sid,t,w,haddr ▸ hinsert,ht,hw,rfl⟩
      · cases h
    · cases h
  · cases h

/-- The near proxy as the far one finds it, before the HELLO reply is acknowledged. -/
def greeted (t : Proxy) (sid : UInt16) (farClock : Instant) : Attached :=
  ⟨t,[],[],[],.start (.forUpstream (serverSessionId sid) 0 farClock),[],[]⟩

/-- The handshake leaves both proxies joined; the far one has acknowledged the reply. -/
theorem joins_of_meet {addr : SocketAddr} {s : Proxy} {b : System} {clock farClock : Instant}
    {x : Cascade} (hbounded : SystemBounded b) (h : meet addr s b clock farClock=some x) :
    ∃ id t u start,Joins addr id x t u ∧ x.near.client.accepted=[] ∧
      step s (.handler clock true)=some start.proxy ∧ Joined addr start ∧
      AttachedClients.move addr start (.client (.act (.buildAckPacket .right farClock)))=
        some x.near := by
  obtain ⟨sid,t,w,hinsert,ht,hw,rfl⟩ := meet_cases h
  obtain ⟨u,hwires,_,hnone⟩ := AttachedSwitcher.wires_join hbounded hw
  have hsession : t.sessions.get? addr=some ⟨.hello (serverSessionId sid) clock,[]⟩ := by
    dsimp only [step,Proxy.handlerStep] at ht
    rw [hinsert] at ht
    cases ht
    exact OrderedMap.get?_insert_self _ _ _
  have hjoined : Joined addr (greeted t sid farClock) :=
    ⟨⟨_,clock,farClock,hsession,rfl⟩,⟨rfl,rfl,rfl⟩,⟨rfl,rfl⟩⟩
  have hlink : w.link=joinedLink (serverSessionId sid) farClock clock := by
    obtain ⟨_,_,rfl⟩ := Option.map_eq_some_iff.mp hw
    rfl
  have hmove : AttachedClients.move addr (greeted t sid farClock)
      (.client (.act (.buildAckPacket .right farClock)))=
        some ⟨t,[],[],[],w.link.right,w.link.toLeft,w.link.toRight⟩ := by
    have hsame : (greeted t sid farClock).proxy.sessions.get? addr=
        some ⟨.hello (serverSessionId sid) clock,[]⟩ := hsession
    dsimp only [AttachedClients.move]
    rw [hsame,hlink]
    rfl
  have hattends : Attends addr ⟨t,[],[],[],w.link.right,w.link.toLeft,w.link.toRight⟩ :=
    AttachedClients.attends_move (AttachedClients.attends_of_joined hjoined) hmove
  refine ⟨serverSessionId sid,⟨.hello (serverSessionId sid) clock,[]⟩,u,
    greeted t sid farClock,⟨hsession,⟨rfl,fun _ => rfl⟩,hattends,?_⟩,hnone,ht,hjoined,hmove⟩
  have hwired : (⟨w.system,⟨(⟨t,[],[],[],w.link.right,w.link.toLeft,w.link.toRight⟩ :
      Attached).peer ⟨.hello (serverSessionId sid) clock,[]⟩,w.link.right,w.link.toLeft,
        w.link.toRight⟩⟩ : Wired)=w := by
    have hleft : w.link.left=Peer.start (.forSession (serverSessionId sid) clock) := by
      rw [hlink]
      rfl
    have hpeer : (⟨t,[],[],[],w.link.right,w.link.toLeft,w.link.toRight⟩ :
        Attached).peer ⟨.hello (serverSessionId sid) clock,[]⟩=w.link.left := by
      rw [hleft]
      rfl
    rw [hpeer]
  exact hwired.symm ▸ hwires

/-- A run of the tasks is one with its feeds. -/
theorem run_fed {acts : List ProxyTasks.Action} {x : SessionFeeds.Fed} {s : Proxy}
    (h : run step x.proxy acts=some s) :
    ∃ y,run SessionFeeds.feedStep x acts=some y ∧ y.proxy=s := by
  induction acts generalizing x with
  | nil =>
    rw [run_nil,Option.some.injEq] at h
    exact ⟨x,rfl,h⟩
  | cons a acts ih =>
    obtain ⟨z,hz,hrun⟩ := (run_cons_eq_some step).mp h
    have hfed : SessionFeeds.feedStep x a=some ⟨z,x.feedsAfter a z⟩ := by
      unfold SessionFeeds.feedStep
      rw [hz,Option.map_some]
    have hlater : run step (⟨z,x.feedsAfter a z⟩ : SessionFeeds.Fed).proxy acts=some s := hrun
    obtain ⟨y,hy,hproxy⟩ := ih hlater
    exact ⟨y,by rw [run_cons,hfed,Option.bind_some,hy],hproxy⟩

/-- An opened session was queued a payload that completes the initialization. -/
theorem completing_queued {policy : FilterPolicy} {idle : ℕ} {acts : List ProxyTasks.Action}
    {s : Proxy} (h : run step (Proxy.start policy idle) acts=some s) {addr : SocketAddr}
    {t : Tracked} (ht : s.sessions.get? addr=some t) (hopen : t.session.opened=true) :
    ∃ payload∈t.queued,completing payload=true := by
  have hfed : run step (SessionFeeds.Fed.start policy idle).proxy acts=some s := h
  obtain ⟨y,hy,rfl⟩ := run_fed hfed
  have hfirst := (SessionFeeds.sessions_fed_dump_first policy idle acts).last
    SessionFeeds.feedStep hy addr t ht
  obtain ⟨cache,live,hfeeds,⟨_,hlast⟩,_⟩ := hfirst.opened hopen
  have hmem : initCompleteRef∈(packCommands cache.dump).flatMap parsedCommands :=
    List.mem_of_getLast? hlast
  obtain ⟨payload,hpayload,hcmd⟩ := List.mem_flatMap.mp hmem
  refine ⟨payload,?_,(completes_iff _).mpr ⟨initCompleteRef,hcmd,rfl⟩⟩
  rw [hfirst.queued,hfeeds,List.flatMap_cons]
  exact List.mem_append_left _ hpayload

/-- The cache keeps the last write of a cacheable key. -/
theorem lastFor_stored {key : CacheKey} (h : isCacheable key.name=true) (payloads : List Bytes) :
    lastFor key (cacheWrites (payloads.flatMap parsedCommands))=
      lastFor key (payloads.flatMap payloadWrites) := by
  rw [lastFor_cacheWrites h]
  unfold keyedWrites
  rw [List.map_flatMap]
  rfl

/-- An idle proxy caches the last value it took in. -/
theorem Absorbs.value {base : StateCache} {connected : Bool} {s : Proxy} {so : List Bytes}
    (h : Absorbs base connected s so) (hidle : s.upstream=[]) {key : CacheKey} {value : Bytes}
    (hkey : isCacheable key.name=true) (hlast : lastFor key (so.flatMap payloadWrites)=some value) :
    s.cache.map.get? key=some value := by
  have hcache : eventual s=s.cache := by
    unfold eventual
    rw [hidle]
    rfl
  have hstored := h.stored
  rw [hcache] at hstored
  rw [hstored,get?_insertAll,lastFor_stored hkey,hlast,Option.some_or]

/-- It is connected and ready once it took in a payload that completes the
initialization. -/
theorem Absorbs.completed {base : StateCache} {connected : Bool} {s : Proxy} {so : List Bytes}
    (h : Absorbs base connected s so) (hidle : s.upstream=[]) {payload : Bytes}
    (hmem : payload∈so) (hcompleting : completing payload=true) :
    s.connected=true ∧ s.cache.ready=true := by
  have hany : so.any completing=true := List.any_eq_true.mpr ⟨payload,hmem,hcompleting⟩
  have hconnected := h.connected
  have hready := h.ready
  unfold eventuallyConnected at hconnected
  unfold eventual at hready
  rw [hidle,hany,Bool.or_true] at hconnected hready
  exact ⟨hconnected,hready⟩

/-- A chain of two proxies converges: over every run of both from their starts, their
handshake and everything that happens afterwards, whenever nothing is on its way inside
the near proxy, its session has nothing left to send or to be acknowledged, and the
upstream task of the far proxy is idle, every value cached by the near proxy is cached
by the far one, and the far one is connected and ready for clients of its own. -/
theorem cascade_converges {policy policy' : FilterPolicy} {idle idle' : ℕ} {addr : SocketAddr}
    {before : List ProxyTasks.Action} {before' : List SystemAction} {s : Proxy} {b : System}
    {clock farClock : Instant} {moves : List Move} {x y : Cascade} {t : Tracked}
    (hnear : run step (Proxy.start policy idle) before=some s)
    (hbefore : ∀ a∈before,FitsAction a)
    (hfar : run systemStep (System.start policy' idle') before'=some b)
    (hmeet : meet addr s b clock farClock=some x) (hrun : run (move addr) x moves=some y)
    (hmoves : ∀ m∈moves,FitsNear m) (hsettled : Settled y.near.proxy)
    (ht : y.near.proxy.sessions.get? addr=some t) (hopen : t.session.opened=true)
    (hempty : t.session.rel.outbound=[] ∧ t.session.rel.inFlight=[])
    (hidle : y.far.proxy.upstream=[]) :
    (∀ key value,y.near.proxy.cache.map.get? key=some value →
      y.far.proxy.cache.map.get? key=some value) ∧
        y.far.proxy.connected=true ∧ y.far.proxy.cache.ready=true := by
  have hbounded : SystemBounded b :=
    run_invariant systemStep (fun _ _ _ hx hstep => SystemBounded.step hx hstep)
      (systemBounded_start policy' idle') hfar
  obtain ⟨id,t₀,u,start,hjoins,hnone,hstart,hjoined,hack⟩ := joins_of_meet hbounded hmeet
  obtain ⟨t',v,nears,fars,hjoins',hnears,hnearRun,hfarRun⟩ := views_of_run hjoins hmoves hrun
  -- The near proxy with its client, from the insertion of the session.
  have hreach : run step (Proxy.start policy idle) (before++[.handler clock true])=
      some start.proxy := by
    rw [run_append,hnear,Option.bind_some,run_cons,hstart,Option.bind_some,run_nil]
  have hfitsBefore : ∀ a∈before++[.handler clock true],FitsAction a := by
    intro a ha
    rcases List.mem_append.mp ha with ha | ha
    · exact hbefore a ha
    · rw [List.mem_singleton.mp ha]
      intro payload he
      cases he
  have hattached : run (AttachedClients.move addr) start
      (.client (.act (.buildAckPacket .right farClock))::nears)=some y.near := by
    rw [run_cons,hack,Option.bind_some,hnearRun]
  have hfitsMoves : ∀ m∈AttachedClients.Move.client (.act (.buildAckPacket .right farClock))::
      nears,FitsMove m := by
    intro m hm
    rcases List.mem_cons.mp hm with rfl | hm
    · intro payload he
      cases he
    · exact hnears m hm
  -- What the client accepted is what the far proxy took in.
  have habsorbs : Absorbs (eventual x.far.proxy) (eventuallyConnected x.far.proxy) y.far.proxy
      (nonEmpty (y.near.client.accepted.map Packet.payload)) :=
    absorbs_run hjoins.wires hnone hfarRun
  refine ⟨fun key value hget => ?_,?_⟩
  · obtain ⟨hfollowing,_⟩ := AttachedClients.steady_run hreach hfitsBefore hattached hfitsMoves
    have hlast := AttachedClients.attached_client_converges hreach hfitsBefore hjoined hattached
      hfitsMoves hsettled ht hopen hempty hget
    rw [←AttachedClients.flatMap_writes_nonEmpty] at hlast
    exact habsorbs.value hidle (hfollowing.follows.coherent.name_isCacheable hget) hlast
  · obtain ⟨acts,hacts⟩ := AttachedClients.tasks_of_run hattached
    have hwhole : run step (Proxy.start policy idle) (before++[.handler clock true]++acts)=
        some y.near.proxy := by
      rw [run_append,hreach,Option.bind_some,hacts]
    obtain ⟨payload,hqueued,hcompleting⟩ := completing_queued hwhole ht hopen
    have haccepted := AttachedClients.attached_accepted_everything hreach hfitsBefore hjoined
      hattached hfitsMoves ht hempty
    refine habsorbs.completed hidle (show payload∈_ from ?_) hcompleting
    rw [haccepted]
    refine List.mem_filter.mpr ⟨hqueued,decide_eq_true (fun hempty => ?_)⟩
    rw [hempty] at hcompleting
    cases hcompleting

/-- The near proxy announced a program input and answered the HELLO of the far one. -/
def helloTaken : List ProxyTasks.Action :=
  [.payload ((LateJoiners.programSource 1).raw++syntheticInitComplete),.upstream,.upstream,
    .upstream,.upstream,.upstream,.upstream,.receive,.fanout,.receive,
    .datagram ⟨1,1⟩ (buildClientHandshake 5) 0,.handler 0 true]

/-- The near proxy after that. -/
def helloProxy : Proxy :=
  (run step LateJoiners.denyingStart helloTaken).getD LateJoiners.denyingStart

/-- Both proxies after the handshake. -/
def met : Cascade :=
  (meet ⟨1,1⟩ helloProxy (System.start ⟨.deny,.new,.new {}⟩ 5000) 0 0).getD
    ⟨greeted helloProxy 1 0,System.start ⟨.deny,.new,.new {}⟩ 5000⟩

/-- The session opens, its dump is sent, duplicated, taken in and acknowledged. -/
def dumpTaken : List Move :=
  [.near (.hear 0 1),.near (.task (.tick 2 (AttachedClients.clocksAt 2))),
    .near (.client (.act (.duplicate .right 0))),.far (.hear 0 3),
    .far (.system (.server .upstream)),.far (.system (.server .upstream)),
    .far (.system (.server .upstream)),.far (.system (.server .upstream)),
    .far (.system (.server .upstream)),.far (.system (.server .upstream)),.far (.hear 0 4),
    .far (.system (.tick 10 10 10 10)),.near (.hear 0 11),.near (.hear 0 11),.near (.hear 0 11)]

/-- Both proxies after that. -/
def agreed : Cascade := (run (move ⟨1,1⟩) met dumpTaken).getD met

/-- The session of the near proxy after that. -/
def agreedSession : Tracked :=
  (agreed.near.proxy.sessions.get? ⟨1,1⟩).getD ⟨.hello 0x8001 0,[]⟩

/-- The payload of the switcher fits into a datagram. -/
theorem helloTaken_fits : ∀ a∈helloTaken,FitsAction a := by
  intro a ha payload he
  subst he
  simp only [helloTaken,List.mem_cons,reduceCtorEq,List.not_mem_nil,or_false,
    ProxyTasks.Action.payload.injEq] at ha
  subst ha
  show _≤2035
  decide

/-- While the dump is taken, the switcher of the near proxy says nothing. -/
theorem dumpTaken_fits : ∀ m∈dumpTaken,FitsNear m := by
  intro m hm
  cases m with
  | far _ => trivial
  | near n =>
    intro payload he
    subst he
    simp only [dumpTaken,List.mem_cons,reduceCtorEq,List.not_mem_nil,or_false,
      Move.near.injEq,AttachedClients.Move.task.injEq] at hm

/-- The far proxy has the program input, and is ready. -/
theorem agreed_converges :
    agreed.near.proxy.cache.map.get? (cacheKey (LateJoiners.programSource 1))=
        some (LateJoiners.programSource 1).raw ∧
      (∀ key value,agreed.near.proxy.cache.map.get? key=some value →
        agreed.far.proxy.cache.map.get? key=some value) ∧
      agreed.far.proxy.connected=true ∧ agreed.far.proxy.cache.ready=true :=
  ⟨rfl,cascade_converges
    (show run step (Proxy.start ⟨.deny,.new,.new {}⟩ 5000) helloTaken=some helloProxy from rfl)
    helloTaken_fits
    (show run systemStep (System.start ⟨.deny,.new,.new {}⟩ 5000) []=
      some (System.start ⟨.deny,.new,.new {}⟩ 5000) from rfl)
    (show meet ⟨1,1⟩ helloProxy (System.start ⟨.deny,.new,.new {}⟩ 5000) 0 0=some met from rfl)
    (show run (move ⟨1,1⟩) met dumpTaken=some agreed from rfl) dumpTaken_fits
    ⟨fun _ h => absurd h List.not_mem_nil,⟨rfl,rfl⟩,rfl⟩
    (show agreed.near.proxy.sessions.get? ⟨1,1⟩=some agreedSession from rfl) rfl ⟨rfl,rfl⟩ rfl⟩

end AtemProxy.ProxyCascades
