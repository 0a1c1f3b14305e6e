import AtemProxy.LaneOwners

/-!
# Exclusive stores over whole broker histories

The broker is driven by four operations in any order. A store that was
granted to a client stays with it until an operation frees it, and while
it does every request of another client for that store is refused. Two
grants of one store to different clients are therefore separated by an
operation that frees it. A notice of the switcher that a lock was obtained is
read like a report of its state, and may free a store when its body is short.
-/

namespace AtemProxy.BrokerHistories

open BigEndian CommandFrames LockStores GuardedRuns

/-- Operations of the broker. -/
inductive BrokerOp where
  /-- Command of a client. -/
  | clientLockRequest (sender : SocketAddr) (name : CommandName) (body : Bytes)
  /-- Payload of the switcher. -/
  | onUpstreamLockStatus (payload : Bytes)
  /-- Disconnect of a client. -/
  | clientDisconnected (addr : SocketAddr)
  /-- Clear of every record. -/
  | clear
  deriving DecidableEq

/-- Records after one operation. -/
def brokerStep (b : LockBroker) : BrokerOp → LockBroker
  | .clientLockRequest sender name body => (b.clientLockRequest sender name body).1
  | .onUpstreamLockStatus payload => b.onUpstreamLockStatus payload
  | .clientDisconnected addr => (b.clientDisconnected addr).1
  | .clear => b.clear

/-- Records after a sequence of operations. -/
def brokerRun (b : LockBroker) (ops : List BrokerOp) : LockBroker := ops.foldl brokerStep b

/-- The command is a lock request for the store that asks for this lock state. -/
def Asks (store : UInt16) (locked : Bool) (name : CommandName) (body : Bytes) : Prop :=
  isLockRequest name=true ∧ lockStoreId body=some store ∧ lockRequestEnabled body=locked

/-- The operation frees the client's store: its own unlock request that is
forwarded, a report of an unlocked store, its disconnect, or a clear. -/
def Frees (client : SocketAddr) (store : UInt16) (b : LockBroker) : BrokerOp → Prop
  | .clientLockRequest sender name body => sender=client ∧ Asks store false name body ∧
    (b.clientLockRequest sender name body).2=.forward
  | .onUpstreamLockStatus payload => LaneOwners.ReportsUnlocked payload store
  | .clientDisconnected addr => addr=client
  | .clear => True

/-- A forwarded request finds its store free or with its sender. -/
theorem owner_of_forwarded {b : LockBroker} {sender : SocketAddr} {store : UInt16} {locked : Bool}
    {name : CommandName} {body : Bytes} (hasks : Asks store locked name body)
    (h : (b.clientLockRequest sender name body).2=.forward) :
    b.ownerOf store=some sender ∨ b.ownerOf store=none := by
  rw [b.clientLockRequest_decision sender hasks.1 hasks.2.1] at h
  exact (StoreLock.request_forward h).1

/-- A forwarded request that asks for the lock leaves the store with its sender. -/
theorem owner_after_grant {b : LockBroker} {sender : SocketAddr} {store : UInt16}
    {name : CommandName} {body : Bytes} (hasks : Asks store true name body)
    (h : (b.clientLockRequest sender name body).2=.forward) :
    (b.clientLockRequest sender name body).1.ownerOf store=some sender := by
  rw [b.clientLockRequest_decision sender hasks.1 hasks.2.1] at h
  have hlock := b.lockOf_clientLockRequest sender hasks.1 hasks.2.1 store
  rw [if_pos rfl,(StoreLock.request_forward h).2,hasks.2.2] at hlock
  unfold LockBroker.ownerOf
  rw [hlock]
  rfl

/-- The owner's unlock request is forwarded. -/
theorem forward_of_owner {b : LockBroker} {owner : SocketAddr} {store : UInt16}
    {name : CommandName} {body : Bytes} (h : b.ownerOf store=some owner)
    (hasks : Asks store false name body) : (b.clientLockRequest owner name body).2=.forward := by
  rw [b.clientLockRequest_decision owner hasks.1 hasks.2.1,hasks.2.2]
  have hown : (b.lockOf store).owner=some owner := h
  simp only [StoreLock.request,hown,Bool.false_eq_true,if_false,true_or,if_true]

/-- One operation keeps a store with its owner or frees it. -/
theorem owner_kept_or_freed {b : LockBroker} {owner : SocketAddr} {store : UInt16}
    (h : b.ownerOf store=some owner) (op : BrokerOp) :
    (brokerStep b op).ownerOf store=some owner ∨ Frees owner store b op := by
  cases op with
  | clientLockRequest sender name body =>
    by_cases hr : LaneOwners.Releases owner store (.lockRequest sender name body)
    · obtain ⟨rfl,hasks⟩ := hr
      exact Or.inr ⟨rfl,hasks,forward_of_owner h hasks⟩
    · exact Or.inl ((LaneOwners.ownerOf_clientLockRequest_kept h sender name body).mpr hr)
  | onUpstreamLockStatus payload =>
    by_cases hr : LaneOwners.ReportsUnlocked payload store
    · exact Or.inr hr
    · exact Or.inl ((LaneOwners.ownerOf_onUpstreamLockStatus_iff b payload store owner).mpr ⟨h,hr⟩)
  | clientDisconnected addr =>
    by_cases he : addr=owner
    · exact Or.inr he
    · left
      have hown : (b.lockOf store).owner=some owner := h
      simp only [brokerStep,LockBroker.ownerOf,LockBroker.lockOf_clientDisconnected,
        StoreLock.release,hown,Option.some.injEq,Ne.symm he,if_false]
  | clear => exact Or.inr trivial

/-- Over a sequence of operations a store stays with its owner, or one of
them frees it in the state that it finds. -/
theorem owner_kept_or_freed_within (ops : List BrokerOp) {b : LockBroker} {owner : SocketAddr}
    {store : UInt16} (h : b.ownerOf store=some owner) :
    (brokerRun b ops).ownerOf store=some owner ∨
      ∃ early op late, ops=early++op::late ∧ Frees owner store (brokerRun b early) op :=
  foldl_kept_or_broken brokerStep (fun b => b.ownerOf store=some owner)
    (fun _ op hown => owner_kept_or_freed hown op) ops h

/-- A refused request leaves the owner of every store alone. -/
theorem owner_of_dropped {b : LockBroker} {sender : SocketAddr} {name : CommandName} {body : Bytes}
    (h : (b.clientLockRequest sender name body).2=.drop) (store : UInt16) :
    (b.clientLockRequest sender name body).1.ownerOf store=b.ownerOf store := by
  cases hn : isLockRequest name with
  | false =>
    simp only [LockBroker.clientLockRequest,hn,if_true]
  | true =>
    cases hs : lockStoreId body with
    | none => rw [b.clientLockRequest_of_none sender hs]
    | some named =>
      rw [b.clientLockRequest_decision sender hn hs] at h
      unfold LockBroker.ownerOf
      rw [b.lockOf_clientLockRequest sender hn hs store,StoreLock.request_drop h]
      split
      · rename_i he
        rw [he]
      · rfl

/-- Broker exclusivity over whole histories: between a forwarded request of one
client that locks a store and a forwarded request of another client for that
store, some operation frees the store; and refused requests change no owner. -/
theorem grants_separated_by_release :
    (∀ (start : LockBroker) (before between : List BrokerOp) (a b : SocketAddr) (store : UInt16)
      (nameA nameB : CommandName) (bodyA bodyB : Bytes) (locked : Bool),
      Asks store true nameA bodyA →
      ((brokerRun start before).clientLockRequest a nameA bodyA).2=.forward →
      Asks store locked nameB bodyB → b≠a →
      ((brokerRun start (before++.clientLockRequest a nameA bodyA::between)).clientLockRequest
        b nameB bodyB).2=.forward →
      ∃ early op late, between=early++op::late ∧
        Frees a store (brokerRun start (before++.clientLockRequest a nameA bodyA::early)) op) ∧
    ∀ (start : LockBroker) (before : List BrokerOp) (sender : SocketAddr) (name : CommandName)
      (body : Bytes),
      ((brokerRun start before).clientLockRequest sender name body).2=.drop →
      ∀ store, (brokerRun start (before++[.clientLockRequest sender name body])).ownerOf store=
        (brokerRun start before).ownerOf store := by
  have hafter : ∀ (start : LockBroker) (before later : List BrokerOp) (op : BrokerOp),
      brokerRun start (before++op::later)=
        brokerRun (brokerStep (brokerRun start before) op) later := by
    intro start before later op
    simp only [brokerRun,List.foldl_append,List.foldl_cons]
  constructor
  · intro start before between a b store nameA nameB bodyA bodyB locked hasks hgrant hasks' hne hfwd
    have hown : (brokerStep (brokerRun start before)
        (.clientLockRequest a nameA bodyA)).ownerOf store=some a :=
      owner_after_grant hasks hgrant
    simp only [hafter] at hfwd ⊢
    rcases owner_kept_or_freed_within between hown with hkept | hfreed
    · rcases owner_of_forwarded hasks' hfwd with ho | ho
      · rw [hkept,Option.some.injEq] at ho
        exact absurd ho.symm hne
      · rw [hkept] at ho
        cases ho
    · exact hfreed
  · intro start before sender name body hdrop store
    rw [hafter]
    exact owner_of_dropped hdrop store

/-- One client locks store 0, another is refused, the first unlocks, the other locks. -/
theorem grants_separated_by_unlock :
    ∃ early op late,
      [BrokerOp.clientLockRequest ⟨2,9910⟩ (tag 'L' 'O' 'C' 'K') [0,0,1,0],
        .clientLockRequest ⟨1,9910⟩ (tag 'L' 'O' 'C' 'K') [0,0,0,0]]=early++op::late ∧
      Frees ⟨1,9910⟩ 0 (brokerRun .new
        ([]++.clientLockRequest ⟨1,9910⟩ (tag 'P' 'L' 'C' 'K') [0,0,1,0]::early)) op :=
  grants_separated_by_release.1 .new [] _ ⟨1,9910⟩ ⟨2,9910⟩ 0 (tag 'P' 'L' 'C' 'K')
    (tag 'L' 'O' 'C' 'K') [0,0,1,0] [0,0,1,0] true ⟨by decide,by decide,by decide⟩
    (by decide +kernel) ⟨by decide,by decide,by decide⟩ (by decide) (by decide +kernel)

/-- Name of the command that reports the state of a lock. -/
def statusName : CommandName := tag 'L' 'K' 'S' 'T'

/-- Name of the command that tells that a lock was obtained. -/
def obtainedName : CommandName := tag 'L' 'K' 'O' 'B'

/-- Only a status report takes a store from its owner, and an obtained notice
leaves the owner and marks the store as locked. -/
structure ObtainedKeeps (b : LockBroker) (payload : Bytes) : Prop where
  /-- A store that lost its owner was reported unlocked by a status. -/
  reported : ∀ store owner,b.ownerOf store=some owner →
    (b.onUpstreamLockStatus payload).ownerOf store≠some owner →
    ∃ cmd∈parsedCommands payload,cmd.name=statusName ∧ lockStoreId cmd.body=some store ∧
      lockRequestEnabled cmd.body=false
  /-- Each obtained notice keeps the owner it finds and marks the store. -/
  kept : ∀ early cmd late store,parsedCommands payload=early++cmd::late →
    cmd.name=obtainedName → lockStoreId cmd.body=some store →
    ((early.foldl LockBroker.onStatusCommand b).onStatusCommand cmd).ownerOf store=
      (early.foldl LockBroker.onStatusCommand b).ownerOf store ∧
    (((early.foldl LockBroker.onStatusCommand b).onStatusCommand cmd).lockOf
      store).upstreamLocked=true

/-- The two names with which the switcher reports locks. -/
theorem isLockStatus_iff (name : CommandName) :
    isLockStatus name=true ↔ name=statusName ∨ name=obtainedName := by
  rw [isLockStatus,decide_eq_true_eq,List.mem_cons,List.mem_singleton]
  exact Iff.rfl

/-- A notice is recorded as the state that its body is read as. -/
theorem lockOf_obtained (b : LockBroker) {cmd : CommandRef} {store : UInt16}
    (hname : cmd.name=obtainedName) (hstore : lockStoreId cmd.body=some store) :
    (b.onStatusCommand cmd).lockOf store=
      (b.lockOf store).report (lockRequestEnabled cmd.body) := by
  have hstatus := (isLockStatus_iff cmd.name).mpr (Or.inr hname)
  rw [b.lockOf_onStatusCommand hstatus hstore,if_pos rfl]

/-- For every broker and payload: obtained notices release nothing and mark
their stores exactly when the flag reader finds each of them enabled. -/
theorem obtained_keeps_iff (b : LockBroker) (payload : Bytes) :
    ObtainedKeeps b payload ↔
      ∀ cmd∈parsedCommands payload,cmd.name=obtainedName → lockStoreId cmd.body≠none →
        lockRequestEnabled cmd.body=true := by
  constructor
  · intro h cmd hm hname hstore
    obtain ⟨store,hs⟩ := Option.ne_none_iff_exists'.mp hstore
    obtain ⟨early,late,hsplit⟩ := List.append_of_mem hm
    have hmarked := (h.kept early cmd late store hsplit hname hs).2
    rw [lockOf_obtained _ hname hs] at hmarked
    cases he : lockRequestEnabled cmd.body with
    | true => rfl
    | false =>
      rw [he] at hmarked
      cases hmarked
  · intro h
    constructor
    · intro store owner howner hlost
      have hreports : LaneOwners.ReportsUnlocked payload store := by
        by_contra hno
        exact hlost ((LaneOwners.ownerOf_onUpstreamLockStatus_iff b payload store owner).mpr
          ⟨howner,hno⟩)
      obtain ⟨cmd,hm,hstatus,hs,hunlocked⟩ := hreports
      rcases (isLockStatus_iff cmd.name).mp hstatus with hname | hname
      · exact ⟨cmd,hm,hname,hs,hunlocked⟩
      · have henabled := h cmd hm hname (by rw [hs]; exact Option.some_ne_none store)
        rw [hunlocked] at henabled
        cases henabled
    · intro early cmd late store hsplit hname hs
      have hm : cmd∈parsedCommands payload := by
        rw [hsplit]
        exact List.mem_append_right _ List.mem_cons_self
      have henabled := h cmd hm hname (by rw [hs]; exact Option.some_ne_none store)
      unfold LockBroker.ownerOf
      rw [lockOf_obtained _ hname hs,henabled]
      exact ⟨rfl,rfl⟩

/-- An obtained notice for store 0 whose body is the store id only. -/
def shortNotice : Bytes := serializeCommand (tag 'L' 'K' 'O' 'B') [0,0]

/-- The notice is read as unlocked, and the owner of store 0 loses it. -/
theorem shortNotice_releases_store :
    (brokerRun .new [.clientLockRequest ⟨1,9910⟩ (tag 'L' 'O' 'C' 'K') [0,0,1,0]]).ownerOf 0=
        some ⟨1,9910⟩ ∧
      (brokerRun .new [.clientLockRequest ⟨1,9910⟩ (tag 'L' 'O' 'C' 'K') [0,0,1,0],
        .onUpstreamLockStatus shortNotice]).ownerOf 0=none ∧
      ¬ObtainedKeeps (brokerRun .new
        [.clientLockRequest ⟨1,9910⟩ (tag 'L' 'O' 'C' 'K') [0,0,1,0]]) shortNotice := by
  refine ⟨by decide +kernel,by decide +kernel,fun h => ?_⟩
  obtain ⟨cmd,hm,hname,_⟩ := h.reported 0 ⟨1,9910⟩ (by decide +kernel) (by decide +kernel)
  have hnone : ∀ cmd∈parsedCommands shortNotice,cmd.name≠statusName := by decide
  exact hnone cmd hm hname

end AtemProxy.BrokerHistories
