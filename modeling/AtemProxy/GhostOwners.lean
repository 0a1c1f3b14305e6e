import AtemProxy.ProxyTasks

/-!
# Owners without a session

Every store owner and the owner of the lane should have a live session. A
client that expires is cleaned up address by address; an upstream disconnect
clears the broker in one task and the sessions and the lane in another. In
between every owner is accounted for by a pending operation, except for a
store taken after the broker was cleared and before the sessions are.
-/

namespace AtemProxy.GhostOwners

open BigEndian PacketCodec CommandFrames KeyedMaps LockStores TransferLanes ProxyConfig
  CommandPolicy LateJoinCache ReliableTransport ServerSessions UpstreamEvents BroadcastQueues
  GuardedRuns ProxyTasks

/-- The address has a session. -/
def HasSession (s : Proxy) (addr : SocketAddr) : Prop := s.sessions.get? addr≠none

/-- Every owner has a session or is the object of a pending operation. -/
structure Attributed (s : Proxy) : Prop where
  /-- Store owners. -/
  stores : ∀ store addr,s.locks.ownerOf store=some addr →
    HasSession s addr ∨ .locks addr∈s.cleanup
  /-- Lane owner. -/
  lane : ∀ addr,s.lane.currentOwner=some addr →
    HasSession s addr ∨ .lane addr∈s.cleanup ∨ .clearLane∈s.fanout
  /-- The client whose commands are being filtered. -/
  handler : ∀ addr cmds actions,s.handler=.filtering addr cmds actions → HasSession s addr

/-- Steps that add no owner, keep the sessions and keep what is pending. -/
theorem Attributed.mono {s s' : Proxy} (h : Attributed s)
    (hlocks : ∀ store addr,s'.locks.ownerOf store=some addr → s.locks.ownerOf store=some addr)
    (hlane : ∀ addr,s'.lane.currentOwner=some addr → s.lane.currentOwner=some addr)
    (hsess : ∀ addr,HasSession s addr → HasSession s' addr)
    (hclean : s'.cleanup=s.cleanup) (hfan : .clearLane∈s.fanout → .clearLane∈s'.fanout)
    (hhandler : ∀ addr cmds actions,s'.handler=.filtering addr cmds actions →
      HasSession s' addr) : Attributed s' where
  stores store addr ho := by
    rw [hclean]
    exact (h.stores store addr (hlocks store addr ho)).imp_left (hsess addr)
  lane addr ho := by
    rw [hclean]
    exact (h.lane addr (hlane addr ho)).imp (hsess addr) (Or.imp_right hfan)
  handler := hhandler

/-- Steps that touch neither owners nor sessions nor what is pending. -/
theorem Attributed.frame {s s' : Proxy} (h : Attributed s) (hlocks : s'.locks=s.locks)
    (hlane : s'.lane=s.lane) (hsess : s'.sessions=s.sessions) (hclean : s'.cleanup=s.cleanup)
    (hfan : s'.fanout=s.fanout)
    (hhandler : ∀ addr cmds actions,s'.handler=.filtering addr cmds actions →
      s.handler=.filtering addr cmds actions) : Attributed s' := by
  have hsame : ∀ addr,HasSession s addr → HasSession s' addr := by
    intro addr hs
    rw [HasSession,hsess]
    exact hs
  refine h.mono ?_ ?_ hsame hclean ?_ ?_
  · intro store addr ho
    rw [←hlocks]
    exact ho
  · intro addr ho
    rw [←hlane]
    exact ho
  · rw [hfan]
    exact id
  · exact fun addr cmds actions hh => hsame addr (h.handler addr cmds actions (hhandler _ _ _ hh))

/-- Updated sessions are still there. -/
theorem hasSession_mapValues {s : Proxy} {update : SocketAddr → Tracked → Tracked}
    {addr : SocketAddr} (h : HasSession s addr) :
    (s.sessions.mapValues update).get? addr≠none := by
  rw [OrderedMap.get?_mapValues]
  intro hnone
  exact h (Option.map_eq_none_iff.mp hnone)

/-- Sessions stay when another one is inserted. -/
theorem hasSession_insert {s : Proxy} {addr other : SocketAddr} {t : Tracked}
    (h : HasSession s other) : (s.sessions.insert addr t).get? other≠none := by
  by_cases ho : other=addr
  · rw [ho,OrderedMap.get?_insert_self]
    exact Option.some_ne_none t
  · rw [s.sessions.get?_insert_of_ne ho]
    exact h

/-- A command makes nobody but its sender an owner of a store or the lane. -/
theorem processCommand_owners (f : CommandFilter) (sender : SocketAddr) (cmd : CommandRef)
    {addr : SocketAddr} :
    (∀ store,(f.processCommand sender cmd).1.policy.locks.ownerOf store=some addr →
        f.policy.locks.ownerOf store=some addr ∨ addr=sender) ∧
      ((f.processCommand sender cmd).1.policy.transfer.currentOwner=some addr →
        f.policy.transfer.currentOwner=some addr ∨ addr=sender) := by
  simp only [CommandFilter.processCommand]
  split
  · simp only [CommandFilter.processLock]
    split
    · exact ⟨fun _ => Or.inl,Or.inl⟩
    · exact ⟨fun _ ho => LockBroker.ownerOf_clientLockRequest ho,Or.inl⟩
  · split
    · simp only [CommandFilter.processTransfer]
      split
      · exact ⟨fun _ => Or.inl,Or.inl⟩
      · exact ⟨fun _ => Or.inl,fun ho => TransferLane.clientTransfer_currentOwner _ _ _ _ _ ho⟩
    · split
      · exact ⟨fun _ => Or.inl,Or.inl⟩
      · exact ⟨fun _ => Or.inl,Or.inl⟩

/-- When the fan-out clears the sessions, no store belongs to a client with
a live session, unless that client is being cleaned up. -/
def ClearsNoOwner (s : Proxy) : Action → Prop
  | .fanout => ∀ ops,s.fanout=.clearSessions::ops →
      ∀ store addr,s.locks.ownerOf store=some addr → HasSession s addr → .locks addr∈s.cleanup
  | _ => True

/-- Operations of the upstream task give no store away. -/
theorem attributed_upstream {s : Proxy} (h : Attributed s) (op : UpstreamOp) :
    Attributed (s.upstreamStep op) := by
  cases op with
  | lockStatus chunk =>
    exact h.mono (fun _ _ => LockBroker.ownerOf_onUpstreamLockStatus) (fun _ ho => ho)
      (fun _ hs => hs) rfl id h.handler
  | clearLocks =>
    refine h.mono (fun store addr ho => ?_) (fun _ ho => ho) (fun _ hs => hs) rfl id h.handler
    cases ho
  | swapConnected =>
    simp only [Proxy.upstreamStep]
    split
    · exact h
    · exact h.frame rfl rfl rfl rfl rfl (fun _ _ _ => id)
  | _ => exact h.frame rfl rfl rfl rfl rfl (fun _ _ _ => id)

/-- Operations that only queue payloads. -/
theorem attributed_queue {s : Proxy} (h : Attributed s)
    (update : SocketAddr → Tracked → Tracked) :
    Attributed {s with sessions := s.sessions.mapValues update} :=
  h.mono (fun _ _ ho => ho) (fun _ ho => ho) (fun _ hs => hasSession_mapValues hs) rfl id
    (fun addr cmds actions hh => hasSession_mapValues (h.handler addr cmds actions hh))

/-- Clearing the sessions is harmless when no live client owns a store. -/
theorem attributed_clearSessions {s : Proxy} (h : Attributed s) {ops : List FanoutOp}
    (hops : .clearLane∈ops) (hunlocked : s.unlocked=true)
    (hclear : ∀ store addr,s.locks.ownerOf store=some addr → HasSession s addr →
      .locks addr∈s.cleanup) :
    Attributed {s with sessions := OrderedMap.empty, fanout := ops} where
  stores store addr ho := by
    rcases h.stores store addr ho with hs | hp
    · exact Or.inr (hclear store addr ho hs)
    · exact Or.inr hp
  lane _ _ := Or.inr (Or.inr hops)
  handler addr cmds actions hh := by
    have hlocked : s.handler=.filtering addr cmds actions := hh
    simp only [Proxy.unlocked,hlocked,Bool.false_eq_true] at hunlocked

/-- Nobody owns an idle lane. -/
theorem attributed_clearLane {s : Proxy} (h : Attributed s) (ops : List FanoutOp) :
    Attributed (Proxy.setLane {s with fanout := ops} s.lane.clear) where
  stores := h.stores
  lane addr ho := by cases ho
  handler := h.handler

/-- The lane is cleared after the sessions. -/
def LaneFollows (ops : List FanoutOp) : Prop :=
  ∀ before after,ops=before++.clearSessions::after → .clearLane∈after

/-- The sessions are cleared before the lane. -/
theorem laneFollows_fanoutOps (received : Received UpstreamEvent) :
    LaneFollows (fanoutOps received) := by
  intro before after heq
  have hmem : FanoutOp.clearSessions∈fanoutOps received := by
    rw [heq]
    exact List.mem_append_right _ List.mem_cons_self
  match received with
  | .lagged => simp only [fanoutOps,List.mem_singleton,reduceCtorEq] at hmem
  | .item .connected => exact absurd hmem List.not_mem_nil
  | .item (.statePayload _) => simp only [fanoutOps,List.mem_singleton,reduceCtorEq] at hmem
  | .item (.audioLevels _) => simp only [fanoutOps,List.mem_singleton,reduceCtorEq] at hmem
  | .item (.transferPayload _) => simp only [fanoutOps,List.mem_singleton,reduceCtorEq] at hmem
  | .item .disconnected =>
    cases before with
    | nil =>
      simp only [fanoutOps,List.nil_append,List.cons.injEq,true_and] at heq
      rw [←heq]
      exact List.mem_singleton_self _
    | cons op before =>
      simp only [fanoutOps,List.cons_append,List.cons.injEq] at heq
      have hin : FanoutOp.clearSessions∈[FanoutOp.clearLane] := by
        rw [heq.2]
        exact List.mem_append_right _ List.mem_cons_self
      simp only [List.mem_singleton,reduceCtorEq] at hin

/-- What is left to do keeps that order. -/
theorem LaneFollows.tail {op : FanoutOp} {ops : List FanoutOp} (h : LaneFollows (op::ops)) :
    LaneFollows ops := fun before after heq => h (op::before) after (by rw [heq]; rfl)

/-- So does one more operation in front, unless it clears the sessions. -/
theorem LaneFollows.cons {op : FanoutOp} {ops : List FanoutOp} (h : LaneFollows ops)
    (hop : op≠.clearSessions) : LaneFollows (op::ops) := by
  intro before after heq
  cases before with
  | nil => exact absurd (List.cons.inj heq).1 hop
  | cons first before => exact h before after (List.cons.inj heq).2

/-- Fan-out operations, each under its guard. -/
theorem attributed_fanout {s t : Proxy} (h : Attributed s) {op : FanoutOp} {ops : List FanoutOp}
    (hfan : s.fanout=op::ops) (hfollow : LaneFollows (op::ops))
    (hclear : op=.clearSessions → ∀ store addr,s.locks.ownerOf store=some addr →
      HasSession s addr → .locks addr∈s.cleanup)
    (hdone : Fanned {s with fanout := ops} op t) : Attributed t := by
  have hkeep : op≠.clearLane → Attributed {s with fanout := ops} := by
    intro hop
    refine h.mono (fun _ _ ho => ho) (fun _ ho => ho) (fun _ hs => hs) rfl ?_ h.handler
    intro hmem
    rw [hfan] at hmem
    exact (List.mem_cons.mp hmem).resolve_left (fun he => hop he.symm)
  cases hdone with
  | clearSessions hunlocked =>
    exact attributed_clearSessions h (hfollow [] ops rfl) hunlocked (hclear rfl)
  | clearLane => exact attributed_clearLane h ops
  | queueState payload => exact attributed_queue (hkeep FanoutOp.noConfusion) _
  | queueAudio payload => exact attributed_queue (hkeep FanoutOp.noConfusion) _
  | unrouted payload => exact hkeep FanoutOp.noConfusion
  | routed payload owner =>
    exact (hkeep FanoutOp.noConfusion).mono (fun _ _ ho => ho) (fun _ ho => ho)
      (fun _ hs => hs) rfl (List.mem_cons_of_mem _) h.handler
  | queueTransfer owner payload => exact attributed_queue (hkeep FanoutOp.noConfusion) _
  | takeDump =>
    exact (hkeep FanoutOp.noConfusion).mono (fun _ _ ho => ho) (fun _ ho => ho)
      (fun _ hs => hs) rfl (List.mem_cons_of_mem _) h.handler
  | queueResync dump => exact attributed_queue (hkeep FanoutOp.noConfusion) _

/-- The first half of a datagram keeps or creates the session it works on. -/
theorem attributed_datagram {s : Proxy} (h : Attributed s) (hidle : s.handler=.idle)
    (addr : SocketAddr) (data : Bytes) (clock : Instant) :
    Attributed (s.receiveDatagram addr data clock) := by
  rcases s.receiveDatagram_cases addr data clock with
    heq | heq | ⟨t,header,payload,handler,_,hhandler,heq⟩
  · rw [heq]
    exact h
  · rw [heq]
    refine h.frame rfl rfl rfl rfl rfl (fun other cmds actions hh => ?_)
    cases hh
  · rw [heq]
    refine h.mono (fun _ _ ho => ho) (fun _ ho => ho) (fun _ hs => hasSession_insert hs) rfl id ?_
    intro other cmds actions hh
    have hfilters : handler=.filtering other cmds actions := hh
    have hother : other=addr := by
      rcases hhandler with hsame | ⟨_,_,hnew⟩
      · rw [hsame,hidle] at hfilters
        cases hfilters
      · rw [hnew] at hfilters
        cases hfilters
        rfl
    rw [HasSession,hother,OrderedMap.get?_insert_self]
    exact Option.some_ne_none _

/-- One command of a payload gives ownership to a client with a session. -/
theorem attributed_command {s : Proxy} (h : Attributed s) {addr : SocketAddr} {cmd : CommandRef}
    {cmds : List CommandRef} {actions : List FilterAction}
    (hh : s.handler=.filtering addr (cmd::cmds) actions) (done : List FilterAction) :
    Attributed {s with
      filter := (s.filter.processCommand addr cmd).1
      handler := .filtering addr cmds done} where
  stores store owner ho := by
    rcases (processCommand_owners s.filter addr cmd).1 store ho with hold | hnew
    · exact h.stores store owner hold
    · rw [hnew]
      exact Or.inl (h.handler addr _ _ hh)
  lane owner ho := by
    rcases (processCommand_owners s.filter addr cmd).2 ho with hold | hnew
    · exact h.lane owner hold
    · rw [hnew]
      exact Or.inl (h.handler addr _ _ hh)
  handler other cmds' actions' he := by
    cases he
    exact h.handler addr _ _ hh

/-- The datagram handler keeps owners among the clients it serves. -/
theorem attributed_handler {s t : Proxy} (h : Attributed s) {clock : Instant}
    (hdone : Continued s clock t) : Attributed t := by
  have hidle : Attributed {s with handler := .idle} := by
    refine h.frame rfl rfl rfl rfl rfl (fun other cmds actions hh => ?_)
    cases hh
  cases hdone with
  | answered addr _ =>
    refine h.frame rfl rfl rfl rfl rfl (fun other cmds actions hh => ?_)
    cases hh
  | refused => exact hidle
  | inserted addr sid _ =>
    exact hidle.mono (fun _ _ ho => ho) (fun _ ho => ho) (fun _ hs => hasSession_insert hs)
      rfl id (fun _ _ _ hh => by cases hh)
  | decided addr cmd cmds actions hwait => exact attributed_command h hwait _
  | finished addr actions _ => exact attributed_queue hidle _

/-- A tick replaces each removed session by a pending cleanup. -/
theorem attributed_tick {s : Proxy} (h : Attributed s) (hclean : s.cleanup=[])
    (hunlocked : s.unlocked=true) (now : Instant) (clocks : SocketAddr → PollClocks) :
    Attributed (s.tick now clocks) := by
  have hsess : ∀ addr,HasSession s addr →
      HasSession (s.tick now clocks) addr ∨ addr∈deadAddrs s.plain s.idle now := by
    intro addr hs
    by_cases hd : addr∈deadAddrs s.plain s.idle now
    · exact Or.inr hd
    · left
      simp only [HasSession,Proxy.tick,OrderedMap.get?_eraseAll,if_neg hd]
      exact hasSession_mapValues hs
  have hops : ∀ addr∈deadAddrs s.plain s.idle now,
      CleanupOp.locks addr∈cleanupOps (deadAddrs s.plain s.idle now) ∧
        CleanupOp.lane addr∈cleanupOps (deadAddrs s.plain s.idle now) := by
    intro addr hd
    simp only [cleanupOps,List.mem_flatMap]
    exact ⟨⟨addr,hd,by simp⟩,⟨addr,hd,by simp⟩⟩
  constructor
  · intro store addr ho
    rcases h.stores store addr ho with hs | hp
    · exact (hsess addr hs).imp_right (fun hd => (hops addr hd).1)
    · rw [hclean] at hp
      exact absurd hp List.not_mem_nil
  · intro addr ho
    rcases h.lane addr ho with hs | hp | hp
    · exact (hsess addr hs).imp_right (fun hd => Or.inl (hops addr hd).2)
    · rw [hclean] at hp
      exact absurd hp List.not_mem_nil
    · exact Or.inr (Or.inr hp)
  · intro addr cmds actions hh
    have hlocked : s.handler=.filtering addr cmds actions := hh
    simp only [Proxy.unlocked,hlocked,Bool.false_eq_true] at hunlocked

/-- A cleanup operation takes away what it accounted for. -/
theorem attributed_cleanup {s : Proxy} (h : Attributed s) {op : CleanupOp} {ops : List CleanupOp}
    (hops : s.cleanup=op::ops) : Attributed (Proxy.cleanupStep {s with cleanup := ops} op) := by
  have hstill : ∀ other,other∈s.cleanup → other≠op → other∈ops := by
    intro other hmem hne
    rw [hops] at hmem
    exact (List.mem_cons.mp hmem).resolve_left hne
  cases op with
  | audio addr =>
    exact {
      stores := fun store owner ho =>
        (h.stores store owner ho).imp_right (fun hp => hstill _ hp CleanupOp.noConfusion)
      lane := fun owner ho => (h.lane owner ho).imp_right
        (Or.imp_left (fun hp => hstill _ hp CleanupOp.noConfusion))
      handler := h.handler }
  | lane addr =>
    refine {
      stores := fun store owner ho =>
        (h.stores store owner ho).imp_right (fun hp => hstill _ hp CleanupOp.noConfusion)
      lane := fun owner ho => ?_
      handler := h.handler }
    have hcases : (s.lane.clientDisconnected addr).currentOwner=some owner := ho
    simp only [TransferLane.clientDisconnected] at hcases
    split at hcases
    · cases hcases
    · rename_i hne
      refine (h.lane owner hcases).imp_right (Or.imp_left (fun hp => hstill _ hp ?_))
      intro he
      cases he
      exact hne hcases
  | locks addr =>
    refine {
      stores := fun store owner ho => ?_
      lane := fun owner ho => (h.lane owner ho).imp_right
        (Or.imp_left (fun hp => hstill _ hp CleanupOp.noConfusion))
      handler := h.handler }
    obtain ⟨hold,hne⟩ := LockBroker.ownerOf_clientDisconnected
      (show (s.locks.clientDisconnected addr).1.ownerOf store=some owner from ho)
    refine (h.stores store owner hold).imp_right (fun hp => hstill _ hp ?_)
    intro he
    cases he
    exact hne rfl

/-- Owners are accounted for, and the lane is cleared after the sessions. -/
structure Accounted (s : Proxy) : Prop where
  /-- Owners. -/
  attributed : Attributed s
  /-- Pending fan-out operations. -/
  follows : LaneFollows s.fanout

/-- The fan-out program keeps its order. -/
theorem laneFollows_fanned {s t : Proxy} {op : FanoutOp} (h : LaneFollows s.fanout)
    (hdone : Fanned s op t) : LaneFollows t.fanout := by
  cases hdone with
  | routed payload owner => exact h.cons FanoutOp.noConfusion
  | takeDump => exact h.cons FanoutOp.noConfusion
  | _ => exact h

/-- A datagram gives the fan-out nothing to do. -/
theorem receiveDatagram_fanout (s : Proxy) (addr : SocketAddr) (data : Bytes) (clock : Instant) :
    (s.receiveDatagram addr data clock).fanout=s.fanout := by
  rw [s.receiveDatagram_eq addr data clock]

/-- Nor does its handler. -/
theorem continued_fanout {s t : Proxy} {clock : Instant} (h : Continued s clock t) :
    t.fanout=s.fanout := by cases h <;> rfl

/-- Every step under its condition keeps owners accounted for. -/
theorem accounted_step {s t : Proxy} {action : Action} (h : Accounted s)
    (hok : ClearsNoOwner s action) (hstep : step s action=some t) : Accounted t := by
  obtain ⟨ha,hf⟩ := h
  have hsame : ∀ upstream : List UpstreamOp,Attributed {s with upstream := upstream} :=
    fun _ => ha.frame rfl rfl rfl rfl rfl (fun _ _ _ => id)
  cases taken_of_step hstep with
  | payload payload _ => exact ⟨hsame _,hf⟩
  | disconnect _ => exact ⟨hsame _,hf⟩
  | upstream op ops _ =>
    refine ⟨attributed_upstream (hsame ops) op,?_⟩
    rw [(Proxy.upstreamStep_frame _ op).2.1]
    exact hf
  | receive received events hidle _ =>
    refine ⟨ha.mono (fun _ _ ho => ho) (fun _ ho => ho) (fun _ hs => hs) rfl ?_ ha.handler,
      laneFollows_fanoutOps received⟩
    intro hmem
    rw [hidle] at hmem
    exact absurd hmem List.not_mem_nil
  | fanout op ops _ hnext hdone =>
    rw [hnext] at hf
    have hrest : LaneFollows ({s with fanout := ops} : Proxy).fanout := hf.tail
    refine ⟨attributed_fanout ha hnext hf (fun hop => ?_) hdone,laneFollows_fanned hrest hdone⟩
    rw [hop] at hnext
    exact hok ops hnext
  | datagram addr data clock hidle =>
    refine ⟨attributed_datagram ha hidle addr data clock,?_⟩
    rw [receiveDatagram_fanout]
    exact hf
  | handler clock replied _ hdone =>
    refine ⟨attributed_handler ha hdone,?_⟩
    rw [continued_fanout hdone]
    exact hf
  | tick now clocks hidle hunlocked => exact ⟨attributed_tick ha hidle hunlocked now clocks,hf⟩
  | cleanup op ops hnext =>
    refine ⟨attributed_cleanup ha hnext,?_⟩
    cases op <;> exact hf

/-- Every event is consumed and no handler is in progress. -/
structure Quiet (s : Proxy) : Prop where
  /-- No event is unread. -/
  drained : s.events.Drained
  /-- The fan-out is idle. -/
  fanout : s.fanout=[]
  /-- No datagram is being handled. -/
  handler : s.handler=.idle
  /-- No cleanup is under way. -/
  cleanup : s.cleanup=[]

/-- Every store owner and the owner of the lane have a session. -/
structure NoGhost (s : Proxy) : Prop where
  /-- Store owners. -/
  stores : ∀ store addr,s.locks.ownerOf store=some addr → HasSession s addr
  /-- Lane owner. -/
  lane : ∀ addr,s.lane.currentOwner=some addr → HasSession s addr

/-- At rest nothing is pending that could account for an owner. -/
theorem Attributed.noGhost {s : Proxy} (h : Attributed s) (hquiet : Quiet s) : NoGhost s where
  stores store addr ho := by
    rcases h.stores store addr ho with hs | hp
    · exact hs
    · rw [hquiet.cleanup] at hp
      exact absurd hp List.not_mem_nil
  lane addr ho := by
    rcases h.lane addr ho with hs | hp | hp
    · exact hs
    · rw [hquiet.cleanup] at hp
      exact absurd hp List.not_mem_nil
    · rw [hquiet.fanout] at hp
      exact absurd hp List.not_mem_nil

/-- Nobody owns anything at the start. -/
theorem accounted_start (mode : LockMode) (media : MediaConfig) (idle : ℕ) :
    Accounted (Proxy.start ⟨mode,.new,.new media⟩ idle) where
  attributed := {
    stores := fun _ _ ho => by cases ho
    lane := fun _ ho => by cases ho
    handler := fun _ _ _ hh => by cases hh }
  follows := by
    intro before after heq
    have hlen := congrArg List.length heq
    simp only [Proxy.start,List.length_nil,List.length_append,List.length_cons] at hlen
    omega

/-- In every run in which the fan-out never takes the session of a store
owner away, no state at rest has an owner without a session. -/
theorem quiet_without_ghosts (mode : LockMode) (media : MediaConfig) (idle : ℕ)
    (actions : List Action)
    (hmeets : Meets step ClearsNoOwner (Proxy.start ⟨mode,.new,.new media⟩ idle) actions) :
    Always step (fun s => Quiet s → NoGhost s) (Proxy.start ⟨mode,.new,.new media⟩ idle)
      actions := by
  have haccounted := always_of_meets step
    (fun _ _ _ h hok hstep => accounted_step h hok hstep)
    (accounted_start mode media idle) hmeets
  exact Always.mono step (fun s h hquiet => h.attributed.noGhost hquiet) haccounted

/-- Commands of a switcher that completed its initialization. -/
def initPayload : Bytes := syntheticInitComplete

/-- A lock request for store one as the first reliable packet of a client. -/
def lockData : Bytes :=
  encodePacket (ReliableEndpoint.dataHeader 0 1 (serializeCommand (tag 'L' 'O' 'C' 'K') [0,1,1,0]))
    (serializeCommand (tag 'L' 'O' 'C' 'K') [0,1,1,0])

/-- A client that locks a store in a single-owner proxy. -/
def lockRequest : List Action :=
  [.datagram ⟨1,1⟩ lockData 1,.handler 1 true,.handler 1 true]

/-- The switcher is ready and the client has a session. -/
def clientJoined : List Action :=
  [.payload initPayload,.upstream,.upstream,.upstream,.receive,
    .datagram ⟨1,1⟩ helloData 0,.handler 0 true,.handler 0 true]

/-- The upstream task ends its session. -/
def connectionLost : List Action := [.disconnect,.upstream,.upstream,.upstream,.upstream]

/-- Single-owner proxy with media disabled. -/
def singleOwnerStart : Proxy := .start ⟨.singleOwner,.new,.new {}⟩ 5000

/-- The request is handled before the broker is cleared. -/
def requestFirst : List Action := clientJoined++lockRequest++connectionLost++[.receive]

/-- The request is handled after the broker and before the sessions are cleared. -/
def requestBetween : List Action :=
  clientJoined++connectionLost++lockRequest++[.receive,.fanout,.fanout]

/-- The proxy after the late request. -/
def ghostly : Proxy := (run step singleOwnerStart requestBetween).getD singleOwnerStart

/-- Without owners there is nobody to forget. -/
theorem clearsNoOwner_of_new {s : Proxy} (h : s.locks=.new) (action : Action) :
    ClearsNoOwner s action := by
  cases action with
  | fanout =>
    intro ops _ store addr ho
    rw [h] at ho
    cases ho
  | _ => trivial

/-- A request that is handled before the disconnect leaves no ghost. -/
theorem lockRequest_first_leaves_no_ghost :
    Meets step ClearsNoOwner singleOwnerStart (requestFirst++[.fanout]++[.fanout]) ∧
      Always step (fun s => Quiet s → NoGhost s) singleOwnerStart
        (requestFirst++[.fanout]++[.fanout]) ∧
      ∃ s,run step singleOwnerStart (requestFirst++[.fanout]++[.fanout])=some s ∧ Quiet s := by
  have hlast : ∀ before,(run step singleOwnerStart before).map Proxy.locks=some .new →
      Meets step ClearsNoOwner singleOwnerStart before →
        Meets step ClearsNoOwner singleOwnerStart (before++[.fanout]) := by
    intro before hlocks hbefore
    refine (meets_append step).mpr ⟨hbefore,fun t ht => ?_⟩
    rw [ht,Option.map_some,Option.some.injEq] at hlocks
    exact ⟨clearsNoOwner_of_new hlocks _,fun _ _ => trivial⟩
  have hfirst : Meets step ClearsNoOwner singleOwnerStart requestFirst := by
    refine meets_of_forall step (fun action hmem s => ?_) _
    have hne : action≠.fanout := by
      intro he
      rw [he] at hmem
      simp [requestFirst,clientJoined,lockRequest,connectionLost] at hmem
    cases action with
    | fanout => exact absurd rfl hne
    | _ => trivial
  have hmeets := hlast _ (by decide +kernel) (hlast _ (by decide +kernel) hfirst)
  refine ⟨hmeets,quiet_without_ghosts .singleOwner {} 5000 _ hmeets,?_⟩
  exact ⟨_,rfl,⟨rfl,rfl⟩,rfl,rfl,rfl⟩

/-- The late request survives as an owner whose session is gone. -/
theorem lockRequest_between_clears_leaves_ghost :
    ∃ s,run step singleOwnerStart requestBetween=some s ∧ Quiet s ∧
      s.locks.ownerOf 1=some ⟨1,1⟩ ∧ ¬HasSession s ⟨1,1⟩ ∧ ¬NoGhost s := by
  have hrun : run step singleOwnerStart requestBetween=some ghostly := rfl
  have howner : ghostly.locks.ownerOf 1=some ⟨1,1⟩ := by decide +kernel
  have hgone : ¬HasSession ghostly ⟨1,1⟩ := fun h => h rfl
  have hquiet : Quiet ghostly := ⟨⟨rfl,rfl⟩,rfl,rfl,rfl⟩
  exact ⟨ghostly,hrun,hquiet,howner,hgone,fun h => hgone (h.stores 1 ⟨1,1⟩ howner)⟩

end AtemProxy.GhostOwners
