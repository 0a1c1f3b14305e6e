import AtemProxy.CommandFrames
import AtemProxy.KeyedMaps

/-!
# Single-owner arbitration of media and macro stores

The broker keeps one record per store: the client that owns it and the
lock state last reported by the switcher. Ownership changes at once on a
client request, on a client disconnect and on a switcher report of an
unlocked store. Every operation is described by its effect on the record
of an arbitrary store.
-/

namespace AtemProxy.LockStores

open BigEndian CommandFrames KeyedMaps

/-- Client UDP address; only its identity is ever inspected. -/
structure SocketAddr where
  /-- Address bits of either family. -/
  ip : BitVec 128
  /-- UDP port. -/
  port : UInt16
  deriving DecidableEq

/-- Answer of the broker to a lock request. -/
inductive LockDecision where
  /-- Send the framed command upstream. -/
  | forward
  /-- Drop it: busy, malformed or not owned. -/
  | drop
  deriving DecidableEq

/-- Record of one store; a store without record is free and not reported locked. -/
structure StoreLock where
  /-- Client that owns the store. -/
  owner : Option SocketAddr := none
  /-- Lock state last reported by the switcher. -/
  upstreamLocked : Bool := false
  deriving DecidableEq

/-- Lock records by store id. -/
structure LockBroker where
  /-- Stores that were ever mentioned since the last clear. -/
  inner : OrderedMap UInt16 StoreLock
  deriving DecidableEq

namespace LockBroker

/-- Broker without records. -/
def new : LockBroker := ⟨OrderedMap.empty⟩

/-- Forget every record. -/
def clear (_ : LockBroker) : LockBroker := new

/-- Record of a store, created on demand. -/
def lockOf (b : LockBroker) (store : UInt16) : StoreLock := (b.inner.get? store).getD {}

/-- Owner of a store. -/
def ownerOf (b : LockBroker) (store : UInt16) : Option SocketAddr := (b.lockOf store).owner

/-- Stores currently owned by a client. -/
def storesOwnedBy (b : LockBroker) (addr : SocketAddr) : List UInt16 :=
  b.inner.entries.filterMap (fun entry => if entry.2.owner=some addr then some entry.1 else none)

/-- Whether a client owns any store. -/
def isOwner (b : LockBroker) (addr : SocketAddr) : Bool :=
  b.inner.values.any (fun entry => decide (entry.owner=some addr))

end LockBroker

/-- Effect of a well-formed request on the record of its store. -/
def StoreLock.request (entry : StoreLock) (sender : SocketAddr) (wantLock : Bool) :
    StoreLock×LockDecision :=
  if wantLock=true then
    match entry.owner with
    | none => ({entry with owner := some sender},.forward)
    | some owner => if owner=sender then (entry,.forward) else (entry,.drop)
  else if entry.owner=some sender ∨ entry.owner=none then
    ({entry with owner := none},.forward)
  else (entry,.drop)

/-- A dropped request leaves its record alone. -/
theorem StoreLock.request_drop {entry : StoreLock} {sender : SocketAddr} {wantLock : Bool}
    (h : (entry.request sender wantLock).2=.drop) : (entry.request sender wantLock).1=entry := by
  unfold request at h ⊢
  split at h
  · rename_i hw
    rw [if_pos hw]
    cases ho : entry.owner with
    | none => rw [ho] at h; cases h
    | some owner =>
      dsimp only
      split <;> rfl
  · rename_i hw
    rw [if_neg hw]
    split at h
    · cases h
    · rename_i ho
      rw [if_neg ho]

/-- A forwarded request comes from the owner or finds the store free, and
gives the store to its sender or frees it. -/
theorem StoreLock.request_forward {entry : StoreLock} {sender : SocketAddr} {wantLock : Bool}
    (h : (entry.request sender wantLock).2=.forward) :
    (entry.owner=some sender ∨ entry.owner=none) ∧
      (entry.request sender wantLock).1=
        {entry with owner := if wantLock=true then some sender else none} := by
  unfold request at h ⊢
  split at h
  · rename_i hw
    rw [if_pos hw,if_pos hw]
    cases ho : entry.owner with
    | none => exact ⟨Or.inr rfl,rfl⟩
    | some owner =>
      rw [ho] at h
      dsimp only at h ⊢
      split at h
      · rename_i he
        subst he
        rw [if_pos rfl]
        refine ⟨Or.inl rfl,?_⟩
        rw [←ho]
      · cases h
  · rename_i hw
    rw [if_neg hw,if_neg hw]
    split at h
    · rename_i ho
      rw [if_pos ho]
      exact ⟨ho,rfl⟩
    · cases h

/-- Effect of a switcher report on the record of its store. -/
def StoreLock.report (entry : StoreLock) (locked : Bool) : StoreLock :=
  if locked=false then {entry with upstreamLocked := locked, owner := none}
  else {entry with upstreamLocked := locked}

/-- Effect of a client disconnect on any record. -/
def StoreLock.release (entry : StoreLock) (addr : SocketAddr) : StoreLock :=
  if entry.owner=some addr then {entry with owner := none} else entry

namespace LockBroker

/-- Decide whether a client lock request may be forwarded. -/
def clientLockRequest (b : LockBroker) (sender : SocketAddr) (name : CommandName)
    (body : Bytes) : LockBroker×LockDecision :=
  if isLockRequest name=false then (b,.forward)
  else match lockStoreId body with
    | none => (b,.drop)
    | some store =>
      let wantLock := lockRequestEnabled body
      (⟨b.inner.upsert store (fun entry => ((entry.getD {}).request sender wantLock).1)⟩,
        ((b.lockOf store).request sender wantLock).2)

/-- One command of an upstream payload. -/
def onStatusCommand (b : LockBroker) (cmd : CommandRef) : LockBroker :=
  if isLockStatus cmd.name=false then b
  else match lockStoreId cmd.body with
    | none => b
    | some store =>
      ⟨b.inner.upsert store (fun entry => (entry.getD {}).report (lockRequestEnabled cmd.body))⟩

/-- Ingest the lock reports of an upstream payload. -/
def onUpstreamLockStatus (b : LockBroker) (payload : Bytes) : LockBroker :=
  match parseCommands payload with
  | .error _ => b
  | .ok cmds => cmds.foldl onStatusCommand b

/-- Release the stores of a disconnected client and return the unlock
requests for those that the switcher reported locked. The source walks a hash map in no
particular order, here the stores come in the order in which they were first used. -/
def clientDisconnected (b : LockBroker) (addr : SocketAddr) : LockBroker×List Bytes :=
  (⟨b.inner.mapValues (fun _ entry => entry.release addr)⟩,
    b.inner.entries.filterMap (fun entry =>
      if entry.2.owner=some addr ∧ entry.2.upstreamLocked=true then
        some (synthesizeUnlock entry.1) else none))

/-- The record of a store after an update of one record. -/
theorem lockOf_upsert (b : LockBroker) (store other : UInt16) (f : StoreLock → StoreLock) :
    (⟨b.inner.upsert store (fun entry => f (entry.getD {}))⟩ : LockBroker).lockOf other=
      if other=store then f (b.lockOf store) else b.lockOf other := by
  unfold lockOf
  dsimp only
  rw [OrderedMap.get?_upsert]
  split <;> rfl

/-- A request changes the record of its own store only. -/
theorem lockOf_clientLockRequest (b : LockBroker) (sender : SocketAddr) {name : CommandName}
    {body : Bytes} {store : UInt16} (hn : isLockRequest name=true)
    (hs : lockStoreId body=some store) (other : UInt16) :
    (b.clientLockRequest sender name body).1.lockOf other=
      if other=store then ((b.lockOf store).request sender (lockRequestEnabled body)).1
      else b.lockOf other := by
  unfold clientLockRequest
  rw [hn,hs]
  exact b.lockOf_upsert store other
    (fun entry => (entry.request sender (lockRequestEnabled body)).1)

/-- A request is decided by the record of its store. -/
theorem clientLockRequest_decision (b : LockBroker) (sender : SocketAddr) {name : CommandName}
    {body : Bytes} {store : UInt16} (hn : isLockRequest name=true)
    (hs : lockStoreId body=some store) :
    (b.clientLockRequest sender name body).2=
      ((b.lockOf store).request sender (lockRequestEnabled body)).2 := by
  unfold clientLockRequest
  rw [hn,hs]
  rfl

/-- Requests without a store id, and other commands, leave the broker alone. -/
theorem clientLockRequest_of_none (b : LockBroker) (sender : SocketAddr) {name : CommandName}
    {body : Bytes} (hs : lockStoreId body=none) :
    (b.clientLockRequest sender name body).1=b := by
  unfold clientLockRequest
  rw [hs]
  split <;> rfl

/-- A report changes the record of its own store only. -/
theorem lockOf_onStatusCommand (b : LockBroker) {cmd : CommandRef} {store : UInt16}
    (hn : isLockStatus cmd.name=true) (hs : lockStoreId cmd.body=some store) (other : UInt16) :
    (b.onStatusCommand cmd).lockOf other=
      if other=store then (b.lockOf store).report (lockRequestEnabled cmd.body)
      else b.lockOf other := by
  unfold onStatusCommand
  rw [hn,hs]
  exact b.lockOf_upsert store other (fun entry => entry.report (lockRequestEnabled cmd.body))

/-- A disconnect acts on every record alike. -/
theorem lockOf_clientDisconnected (b : LockBroker) (addr : SocketAddr) (store : UInt16) :
    (b.clientDisconnected addr).1.lockOf store=(b.lockOf store).release addr := by
  unfold clientDisconnected lockOf
  dsimp only
  rw [OrderedMap.get?_mapValues]
  cases b.inner.get? store <;> rfl

/-- The record of a store is the one in the map. -/
theorem lockOf_of_mem {b : LockBroker} {store : UInt16} {entry : StoreLock}
    (h : (store,entry) ∈ b.inner.entries) : b.lockOf store=entry := by
  unfold lockOf
  rw [(b.inner.get?_eq_some_iff store entry).mpr h]
  rfl

/-- A record that differs from a fresh one is stored. -/
theorem mem_of_lockOf {b : LockBroker} {store : UInt16} (h : b.lockOf store≠{}) :
    (store,b.lockOf store) ∈ b.inner.entries := by
  apply (b.inner.get?_eq_some_iff store _).mp
  unfold lockOf at h ⊢
  cases hg : b.inner.get? store with
  | none => rw [hg] at h; exact absurd rfl h
  | some entry => rfl

/-- Owning a store is visible in its record. -/
theorem isOwner_iff (b : LockBroker) (addr : SocketAddr) :
    b.isOwner addr=true ↔ ∃ store, b.ownerOf store=some addr := by
  unfold isOwner ownerOf
  rw [List.any_eq_true]
  constructor
  · rintro ⟨entry,hm,ho⟩
    obtain ⟨store,hs⟩ := (b.inner.mem_values_iff entry).mp hm
    refine ⟨store,?_⟩
    unfold lockOf
    rw [hs]
    exact of_decide_eq_true ho
  · rintro ⟨store,ho⟩
    have hne : b.lockOf store≠{} := by
      intro he
      rw [he] at ho
      cases ho
    refine ⟨b.lockOf store,?_,decide_eq_true ho⟩
    exact List.mem_map.mpr ⟨_,mem_of_lockOf hne,rfl⟩

end LockBroker

/-- Unlocks of different stores differ. -/
theorem synthesizeUnlock_injective {s t : UInt16} (h : synthesizeUnlock s=synthesizeUnlock t) :
    s=t := by
  unfold synthesizeUnlock serializeCommand frameBytes at h
  simp only [List.length_cons,List.length_nil,List.cons.injEq,true_and,and_true] at h
  rw [←beWord_split s,←beWord_split t,h.1,h.2]

/-- The unlock of a store is emitted exactly when the client owned it and
the switcher had reported it locked. -/
theorem LockBroker.mem_clientDisconnected_iff (b : LockBroker) (addr : SocketAddr)
    (store : UInt16) :
    synthesizeUnlock store ∈ (b.clientDisconnected addr).2 ↔
      b.ownerOf store=some addr ∧ (b.lockOf store).upstreamLocked=true := by
  unfold clientDisconnected ownerOf
  dsimp only
  rw [List.mem_filterMap]
  constructor
  · rintro ⟨⟨other,entry⟩,hm,he⟩
    split at he
    · rename_i hc
      cases synthesizeUnlock_injective (Option.some.inj he)
      rw [lockOf_of_mem hm]
      exact hc
    · cases he
  · rintro ⟨ho,hu⟩
    have hne : b.lockOf store≠{} := by
      intro he
      rw [he] at ho
      cases ho
    exact ⟨_,mem_of_lockOf hne,if_pos ⟨ho,hu⟩⟩

namespace LockBroker

/-- A request makes nobody but its sender an owner. -/
theorem ownerOf_clientLockRequest {b : LockBroker} {sender addr : SocketAddr}
    {name : CommandName} {body : Bytes} {store : UInt16}
    (h : (b.clientLockRequest sender name body).1.ownerOf store=some addr) :
    b.ownerOf store=some addr ∨ addr=sender := by
  cases hn : isLockRequest name with
  | false =>
    simp only [clientLockRequest,hn,if_true] at h
    exact Or.inl h
  | true =>
    cases hs : lockStoreId body with
    | none =>
      rw [b.clientLockRequest_of_none sender hs] at h
      exact Or.inl h
    | some named =>
      simp only [ownerOf,b.lockOf_clientLockRequest sender hn hs] at h ⊢
      split at h
      · rename_i he
        subst he
        cases hd : ((b.lockOf store).request sender (lockRequestEnabled body)).2 with
        | drop =>
          rw [StoreLock.request_drop hd] at h
          exact Or.inl h
        | forward =>
          rw [(StoreLock.request_forward hd).2] at h
          dsimp only at h
          split at h
          · exact Or.inr (Option.some.inj h).symm
          · cases h
      · exact Or.inl h

/-- A report makes nobody an owner. -/
theorem ownerOf_onStatusCommand {b : LockBroker} {cmd : CommandRef} {store : UInt16}
    {addr : SocketAddr} (h : (b.onStatusCommand cmd).ownerOf store=some addr) :
    b.ownerOf store=some addr := by
  cases hn : isLockStatus cmd.name with
  | false =>
    simp only [onStatusCommand,hn,if_true] at h
    exact h
  | true =>
    cases hs : lockStoreId cmd.body with
    | none =>
      simp only [onStatusCommand,hn,hs,Bool.true_eq_false,if_false] at h
      exact h
    | some named =>
      simp only [ownerOf,b.lockOf_onStatusCommand hn hs] at h ⊢
      split at h
      · rename_i he
        subst he
        simp only [StoreLock.report] at h
        split at h
        · cases h
        · exact h
      · exact h

/-- The switcher makes nobody an owner. -/
theorem ownerOf_onUpstreamLockStatus {b : LockBroker} {payload : Bytes} {store : UInt16}
    {addr : SocketAddr} (h : (b.onUpstreamLockStatus payload).ownerOf store=some addr) :
    b.ownerOf store=some addr := by
  simp only [onUpstreamLockStatus] at h
  split at h
  · exact h
  · rename_i cmds hparsed
    clear hparsed
    induction cmds generalizing b with
    | nil => exact h
    | cons cmd cmds ih => exact ownerOf_onStatusCommand (ih h)

/-- A disconnected client owns nothing, and nobody gains a store. -/
theorem ownerOf_clientDisconnected {b : LockBroker} {gone addr : SocketAddr} {store : UInt16}
    (h : (b.clientDisconnected gone).1.ownerOf store=some addr) :
    b.ownerOf store=some addr ∧ addr≠gone := by
  simp only [ownerOf,lockOf_clientDisconnected,StoreLock.release] at h ⊢
  split at h
  · cases h
  · rename_i hne
    refine ⟨h,fun he => hne ?_⟩
    rw [h,he]

end LockBroker

end AtemProxy.LockStores
