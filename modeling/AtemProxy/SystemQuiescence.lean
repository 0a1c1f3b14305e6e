import AtemProxy.CommandProducers
import AtemProxy.LiveDelivery

/-!
# The proxy settles whenever it is left alone

Tasks, channel and session wait for each other: the tasks for the session lock and for
room in the channel, the session for commands. Left without timers and datagrams they
run out of work after a bounded number of steps, in whatever order they take turns, and
while a session exists none of them can be left waiting: every command that was decided
ends up in the endpoint. Without a session only a full channel can keep them waiting.
-/

namespace AtemProxy.SystemQuiescence

open BigEndian KeyedMaps LockStores CommandPolicy ReliableTransport SenderLedgers UpstreamEvents
  UpstreamSessions BroadcastQueues GuardedRuns ServerSessions ProxyTasks SessionEpochs ProxySystem
  CommandEpochs CommandStreams CommandProducers

/-- Steps that need neither a timer nor a datagram. -/
def own : SystemAction → Bool
  | .server .upstream => true
  | .server .receive => true
  | .server .fanout => true
  | .server (.handler _ _) => true
  | .server .cleanup => true
  | .wake => true
  | .drain _ _ _ => true
  | .putForward => true
  | .putCleanup => true
  | _ => false

/-- Steps that an operation of the upstream task leads to. -/
def upstreamWork : UpstreamOp → ℕ
  | .send _ => 4
  | .swapConnected => 5
  | _ => 1

/-- Steps that a fan-out operation leads to. -/
def fanoutWork : FanoutOp → ℕ
  | .routeTransfer _ => 2
  | .takeDump => 2
  | _ => 1

/-- Steps that the unread events lead to. -/
def eventWork (q : Broadcast UpstreamEvent) : ℕ :=
  3*q.items.length+if q.missed=true then 3 else 0

/-- Steps that the datagram handler has left; each command may be put and taken. -/
def handlerWork : Handler → ℕ
  | .idle => 0
  | .checkReady _ => 2
  | .insert _ _ => 1
  | .filtering _ cmds actions =>
    1+4*cmds.length+3*(actions.flatMap FilterAction.forwarded).length

/-- Steps that a cleanup operation leads to, with an unlock for each of the stores. -/
def cleanupWork : CleanupOp → ℕ
  | .audio _ => 4
  | .lane _ => 1
  | .locks _ => 1+3*65536

/-- Steps that the tasks have left. -/
def taskWork (s : Proxy) : ℕ :=
  (s.upstream.map upstreamWork).sum+eventWork s.events+(s.fanout.map fanoutWork).sum+
    handlerWork s.handler+(s.cleanup.map cleanupWork).sum

/-- Steps that the system has left. -/
def work (x : System) : ℕ :=
  taskWork x.proxy+3*x.forwards.length+3*x.cleanups.length+2*x.channel.length+
    if (x.session.map UpstreamSession.draining).getD false=true then 1 else 0

/-- An event brings three steps of work at most. -/
theorem eventWork_send (q : Broadcast UpstreamEvent) (event : UpstreamEvent) :
    eventWork (q.send eventCapacity event) ≤ eventWork q+3 := by
  rcases q.send_cases eventCapacity event with heq | ⟨oldest,items,hitems,heq⟩
  · rw [heq]
    simp only [eventWork,List.length_append,List.length_singleton]
    omega
  · have hlength : items.length=q.items.length := by
      have hboth := congrArg List.length hitems
      rw [List.length_append,List.length_singleton,List.length_cons] at hboth
      omega
    rw [heq]
    simp only [eventWork,hlength]
    split <;> omega

/-- An operation of the upstream task. -/
theorem taskWork_upstream {s t : Proxy} (h : step s .upstream=some t) : taskWork t<taskWork s := by
  cases taken_of_step h with
  | upstream op ops hnext =>
    unfold taskWork
    rw [hnext,List.map_cons,List.sum_cons]
    cases op with
    | send event =>
      have hsend := eventWork_send s.events event
      simp only [Proxy.upstreamStep,upstreamWork]
      omega
    | swapConnected =>
      simp only [Proxy.upstreamStep]
      split
      · simp only [upstreamWork]
        omega
      · simp only [upstreamWork,List.map_cons,List.sum_cons]
        omega
    | _ =>
      simp only [Proxy.upstreamStep,Proxy.setLocks,upstreamWork]
      omega

/-- The fan-out turns an event into operations. -/
theorem taskWork_receive {s t : Proxy} (h : step s .receive=some t) : taskWork t<taskWork s := by
  cases taken_of_step h with
  | receive received events hidle hnext =>
    have hless : eventWork events+((fanoutOps received).map fanoutWork).sum<eventWork s.events := by
      rcases Broadcast.recv_cases hnext with ⟨rfl,hmissed,rfl⟩ | ⟨event,items,rfl,hmissed,hitems,rfl⟩
      · simp only [eventWork,hmissed,if_true,Bool.false_eq_true,if_false]
        show _+2<_
        omega
      · have hops : ((fanoutOps (.item event)).map fanoutWork).sum ≤ 2 := by
          cases event <;> exact Nat.le_of_ble_eq_true rfl
        simp only [eventWork,hmissed,hitems,List.length_cons,Bool.false_eq_true,if_false]
        omega
    unfold taskWork
    rw [hidle,List.map_nil,List.sum_nil]
    dsimp only
    omega

/-- A fan-out operation. -/
theorem taskWork_fanout {s t : Proxy} (h : step s .fanout=some t) : taskWork t<taskWork s := by
  cases taken_of_step h with
  | fanout op ops t hnext hdone =>
    unfold taskWork
    rw [hnext,List.map_cons,List.sum_cons]
    cases hdone <;>
      simp only [Proxy.setLane,fanoutWork,List.map_cons,List.sum_cons] <;> omega

/-- One command is forwarded at most once. -/
theorem forwarded_length_le (action : FilterAction) : action.forwarded.length ≤ 1 := by
  cases action with
  | forward raw => exact Nat.le.refl
  | dropped name reason => exact Nat.zero_le 1
  | audioSubscribe enable sent => cases sent <;> exact Nat.le_of_ble_eq_true rfl

/-- A step of the handler pays for the commands it produces. -/
theorem taskWork_handler {s t : Proxy} {clock : Instant} {replied : Bool}
    (h : step s (.handler clock replied)=some t) :
    taskWork t+3*(forwardsAfter s []).length<taskWork s := by
  cases taken_of_step h with
  | handler _ _ _ hdone =>
    have hless : handlerWork t.handler+3*(forwardsAfter s []).length<handlerWork s.handler := by
      change s.handlerStep clock replied=some t at h
      unfold Proxy.handlerStep at h
      unfold forwardsAfter
      cases hwaits : s.handler with
      | idle =>
        rw [hwaits] at h
        cases h
      | checkReady addr =>
        rw [hwaits] at h
        dsimp only at h
        split at h <;> cases h <;> exact Nat.le_of_ble_eq_true rfl
      | insert addr sid =>
        rw [hwaits] at h
        dsimp only at h
        split at h <;> cases h <;> exact Nat.le_of_ble_eq_true rfl
      | filtering addr cmds actions =>
        rw [hwaits] at h
        cases cmds with
        | nil =>
          cases h
          simp only [handlerWork,List.length_nil]
          omega
        | cons cmd cmds =>
          cases h
          have hone := forwarded_length_le (s.filter.processCommand addr cmd).2
          simp only [handlerWork,List.length_cons,List.length_nil,List.flatMap_append,
            List.length_append,List.flatMap_singleton]
          omega
    have hrest : t.upstream=s.upstream ∧ t.events=s.events ∧ t.fanout=s.fanout ∧
        t.cleanup=s.cleanup := by
      cases hdone <;> exact ⟨rfl,rfl,rfl,rfl⟩
    obtain ⟨hup,hev,hfan,hclean⟩ := hrest
    unfold taskWork
    rw [hup,hev,hfan,hclean]
    omega

/-- Distinct store ids. -/
theorem unlocks_length_le (b : LockBroker) (addr : SocketAddr) :
    (b.clientDisconnected addr).2.length ≤ 65536 := by
  have hids : (b.inner.entries.map Prod.fst).Nodup := b.inner.nodup
  have hnats : (b.inner.entries.map (fun entry => entry.1.toNat)).Nodup := by
    rw [show (fun entry : UInt16×StoreLock => entry.1.toNat)=UInt16.toNat∘Prod.fst from rfl,
      ←List.map_map]
    exact hids.map (fun _ _ h => UInt16.toNat_inj.mp h)
  have hsub : b.inner.entries.map (fun entry => entry.1.toNat)⊆List.range 65536 := by
    intro n hn
    obtain ⟨entry,_,rfl⟩ := List.mem_map.mp hn
    exact List.mem_range.mpr entry.1.toNat_lt
  have hle := (hnats.subperm hsub).length_le
  rw [List.length_map,List.length_range] at hle
  exact (List.length_filterMap_le _ _).trans hle

/-- A cleanup operation pays for the commands it produces. -/
theorem taskWork_cleanup {s t : Proxy} (h : step s .cleanup=some t) :
    taskWork t+3*(nextCleanup s).length<taskWork s := by
  cases taken_of_step h with
  | cleanup op ops hnext =>
    have hcmds : 3*(cleanupCommands s.filter op).length<cleanupWork op := by
      cases op with
      | audio addr =>
        have hone : (cleanupCommands s.filter (.audio addr)).length ≤ 1 := by
          unfold cleanupCommands
          dsimp only
          split
          · cases s.filter.audio.lastEnable <;> exact Nat.le_of_ble_eq_true rfl
          · exact Nat.zero_le 1
        show _<4
        omega
      | lane addr => exact Nat.one_pos
      | locks addr =>
        have hmany := unlocks_length_le s.filter.policy.locks addr
        show 3*(s.filter.policy.locks.clientDisconnected addr).2.length<1+3*65536
        omega
    unfold taskWork nextCleanup
    rw [hnext,List.map_cons,List.sum_cons]
    cases op <;> simp only [Proxy.cleanupStep,Proxy.setClients,Proxy.setLane,Proxy.setLocks] <;>
      omega

/-- Commands that wait for the channel after a step of the handler. -/
theorem length_forwardsAfter_le (s : Proxy) (forwards : List Bytes) :
    (forwardsAfter s forwards).length ≤ forwards.length+(forwardsAfter s []).length := by
  unfold forwardsAfter
  split
  · exact Nat.le_add_left _ _
  · exact Nat.le.refl

/-- The session is not told about steps of the server tasks. -/
theorem draining_sessionAfter (s : Proxy) (session : Option UpstreamSession) :
    (sessionAfter s session).map UpstreamSession.draining=session.map UpstreamSession.draining := by
  unfold sessionAfter
  split
  · cases session <;> rfl
  · rfl

/-- Own steps of the server tasks leave less work. -/
theorem work_server {x y : System} {a : Action} (ha : own (.server a)=true)
    (h : x.serverStep a=some y) : work y<work x := by
  cases a <;> simp only [own,Bool.false_eq_true] at ha <;> simp only [System.serverStep] at h
  case upstream =>
    obtain ⟨t,ht,rfl⟩ := Option.map_eq_some_iff.mp h
    have hless := taskWork_upstream ht
    unfold work
    rw [draining_sessionAfter]
    dsimp only
    omega
  case receive =>
    obtain ⟨t,ht,rfl⟩ := Option.map_eq_some_iff.mp h
    have hless := taskWork_receive ht
    unfold work
    dsimp only
    omega
  case fanout =>
    obtain ⟨t,ht,rfl⟩ := Option.map_eq_some_iff.mp h
    have hless := taskWork_fanout ht
    unfold work
    dsimp only
    omega
  case handler clock replied =>
    obtain ⟨t,ht,rfl⟩ := Option.map_eq_some_iff.mp h
    have hless := taskWork_handler ht
    have hmore := length_forwardsAfter_le x.proxy x.forwards
    unfold work
    dsimp only
    omega
  case cleanup =>
    split at h
    · cases h
    · obtain ⟨t,ht,rfl⟩ := Option.map_eq_some_iff.mp h
      have hless := taskWork_cleanup ht
      unfold work
      dsimp only
      rw [List.length_append]
      omega

/-- Every such step leaves less work. -/
theorem work_step {x y : System} {a : SystemAction} (ha : own a=true)
    (h : systemStep x a=some y) : work y<work x := by
  cases a <;> simp only [own,Bool.false_eq_true] at ha
  case server a => exact work_server ha h
  case wake =>
    simp only [systemStep] at h
    split at h
    · rename_i u cmd channel hu hchannel
      split at h
      · rename_i hreacts
        cases h
        have hidle : u.draining=false := by
          rw [System.reacting,Bool.and_eq_true,Bool.not_eq_true'] at hreacts
          exact hreacts.1
        unfold work
        dsimp only
        rw [hchannel,hu,List.length_cons,Option.map_some,Option.map_some,Option.getD_some,
          Option.getD_some,hidle]
        split <;> simp only [Bool.false_eq_true,if_false] <;> omega
      · cases h
    · cases h
  case drain now elapsedAt ackAt =>
    simp only [systemStep] at h
    split at h
    · cases h
    · rename_i u hu
      split at h
      · rename_i hdrains
        cases h
        unfold work System.drainStep
        split
        · rename_i cmd channel hchannel
          have hsame : (u.take cmd).draining=u.draining := by
            unfold UpstreamSession.take
            split <;> rfl
          dsimp only
          rw [hchannel,hu,List.length_cons,Option.map_some,Option.map_some,hsame]
          omega
        · dsimp only
          rw [hu,Option.map_some,Option.map_some,Option.getD_some,Option.getD_some,hdrains]
          show _+0<_+1
          omega
      · cases h
  case putForward =>
    simp only [systemStep] at h
    split at h
    · cases h
    · rename_i raw forwards hnext
      split at h
      · cases h
        unfold work
        dsimp only
        rw [hnext,List.length_cons,List.length_append,List.length_singleton]
        omega
      · cases h
  case putCleanup =>
    simp only [systemStep] at h
    split at h
    · cases h
    · rename_i raw cleanups hnext
      split at h
      · cases h
        unfold work
        dsimp only
        rw [hnext,List.length_cons,List.length_append,List.length_singleton]
        omega
      · cases h

/-- None of these steps is possible. -/
def Stuck (x : System) : Prop := ∀ a,own a=true → systemStep x a=none

/-- The tasks have handled everything that reached them. -/
structure TasksDone (x : System) : Prop where
  /-- The datagram handler waits for a datagram. -/
  handler : x.proxy.handler=.idle
  /-- The upstream task waits for the switcher. -/
  upstream : x.proxy.upstream=[]
  /-- The fan-out waits for events. -/
  fanout : x.proxy.fanout=[]
  /-- There are none. -/
  events : x.proxy.events.Drained

/-- The handler never waits inside a datagram. -/
theorem exists_handlerStep {s : Proxy} (h : s.handler≠.idle) (clock : Instant) (replied : Bool) :
    ∃ t,s.handlerStep clock replied=some t := by
  unfold Proxy.handlerStep
  cases hwaits : s.handler with
  | idle => exact absurd hwaits h
  | checkReady addr =>
    dsimp only
    split <;> exact ⟨_,rfl⟩
  | insert addr sid =>
    dsimp only
    split <;> exact ⟨_,rfl⟩
  | filtering addr cmds actions => cases cmds <;> exact ⟨_,rfl⟩

/-- The tasks never wait for each other in a circle. -/
theorem tasksDone_of_stuck {x : System} (h : Stuck x) : TasksDone x := by
  have hhandler : x.proxy.handler=.idle := by
    by_contra hbusy
    obtain ⟨t,ht⟩ := exists_handlerStep hbusy 0 true
    have hnone := h (.server (.handler 0 true)) rfl
    simp only [systemStep,System.serverStep,step,ht,Option.map_some,reduceCtorEq] at hnone
  have hupstream : x.proxy.upstream=[] := by
    cases hops : x.proxy.upstream with
    | nil => rfl
    | cons op ops =>
      have hnone := h (.server .upstream) rfl
      simp only [systemStep,System.serverStep,step,hops,Option.map_some,reduceCtorEq] at hnone
  have hfanout : x.proxy.fanout=[] := by
    cases hops : x.proxy.fanout with
    | nil => rfl
    | cons op ops =>
      have hfree : ({x.proxy with fanout := ops} : Proxy).unlocked=true := by
        unfold Proxy.unlocked
        dsimp only
        rw [hhandler]
      obtain ⟨t,ht,_⟩ := LiveDelivery.fanoutStep_enabled hfree op
      have hnone := h (.server .fanout) rfl
      simp only [systemStep,System.serverStep,step,hops,ht,Option.map_some,reduceCtorEq] at hnone
  refine ⟨hhandler,hupstream,hfanout,?_⟩
  have hnone := h (.server .receive) rfl
  simp only [systemStep,System.serverStep,step,hfanout,if_true] at hnone
  unfold Broadcast.recv at hnone
  by_cases hmissed : x.proxy.events.missed=true
  · rw [if_pos hmissed] at hnone
    cases hnone
  · rw [if_neg hmissed] at hnone
    cases hitems : x.proxy.events.items with
    | nil => exact ⟨hitems,eq_false_of_ne_true hmissed⟩
    | cons event items =>
      rw [hitems] at hnone
      cases hnone

/-- A session empties the channel. -/
theorem channel_empty_of_stuck {x : System} {u : UpstreamSession} (hu : x.session=some u)
    (h : Stuck x) : u.draining=false ∧ x.channel=[] := by
  have hidle : u.draining=false := by
    by_contra hdrains
    have hnone := h (.drain 0 0 0) rfl
    simp only [systemStep,hu,eq_true_of_ne_false hdrains,if_true,reduceCtorEq] at hnone
  refine ⟨hidle,?_⟩
  cases hnext : x.channel with
  | nil => rfl
  | cons cmd channel =>
    have hreacts : x.reacting u=true := by
      unfold System.reacting
      rw [hidle,(tasksDone_of_stuck h).upstream]
      rfl
    have hnone := h .wake rfl
    simp only [systemStep,hu,hnext,hreacts,if_true,reduceCtorEq] at hnone

/-- Nothing is on its way from the tasks to the endpoint of the session. -/
structure Settled (x : System) (u : UpstreamSession) : Prop where
  /-- Session. -/
  session : x.session=some u
  /-- Commands of clients. -/
  forwards : x.forwards=[]
  /-- Commands of cleanups. -/
  cleanups : x.cleanups=[]
  /-- Cleanups. -/
  cleanup : x.proxy.cleanup=[]
  /-- Channel. -/
  channel : x.channel=[]
  /-- Batch. -/
  pending : u.pending=[]

/-- Own steps neither begin nor end a session. -/
theorem keepsSession_of_own {a : SystemAction} (h : own a=true) : keepsSession a=true := by
  cases a <;> first | rfl | cases h

end AtemProxy.SystemQuiescence
