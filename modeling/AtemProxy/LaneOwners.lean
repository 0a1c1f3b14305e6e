import AtemProxy.TransferLanes
import AtemProxy.GuardedRuns

/-!
# The transfer lane against lock ownership

Locks and the lane are separate structures. A disconnect acts on both, but
an unlock request, an unlocked report of the switcher and a clear of the
locks do not reach the lane. The lane follows the locks in every state of
a run exactly when none of those steps takes the last store of the client
that holds the lane.
-/

namespace AtemProxy.LaneOwners

open BigEndian CommandFrames LockStores ProxyConfig TransferLanes GuardedRuns

/-- Locks and lane of one proxy. -/
structure Media where
  /-- Lock records. -/
  locks : LockBroker
  /-- Transfer lane. -/
  lane : TransferLane
  deriving DecidableEq

/-- Operations on locks and lane. -/
inductive MediaAction where
  /-- Lock or unlock request of a client. -/
  | lockRequest (sender : SocketAddr) (name : CommandName) (body : Bytes)
  /-- Transfer command of a client. -/
  | transfer (sender : SocketAddr) (name : CommandName) (body : Bytes)
  /-- Payload of the switcher with its lock reports. -/
  | lockStatus (payload : Bytes)
  /-- Disconnect of a client: the lane first, then its locks. -/
  | clientDisconnected (addr : SocketAddr)
  /-- Clear of the locks, on an upstream disconnect. -/
  | clearLocks
  /-- Clear of the lane, when the fan-out handles that disconnect. -/
  | clearLane

/-- Fresh broker and idle lane. -/
def Media.start (cfg : MediaConfig) : Media := ⟨LockBroker.new,TransferLane.new cfg⟩

/-- Effect of one operation; none is ever refused. -/
def mediaStep (s : Media) : MediaAction → Option Media
  | .lockRequest sender name body =>
    some {s with locks := (s.locks.clientLockRequest sender name body).1}
  | .transfer sender name body =>
    some {s with lane := (s.lane.clientTransfer s.locks sender name body).1}
  | .lockStatus payload => some {s with locks := s.locks.onUpstreamLockStatus payload}
  | .clientDisconnected addr =>
    some ⟨(s.locks.clientDisconnected addr).1,s.lane.clientDisconnected addr⟩
  | .clearLocks => some {s with locks := s.locks.clear}
  | .clearLane => some {s with lane := s.lane.clear}

/-- Every action is possible in every state. -/
theorem mediaStep_total (s : Media) (a : MediaAction) : ∃ t, mediaStep s a=some t := by
  cases a <;> exact ⟨_,rfl⟩

/-- The lane follows lock ownership: its owner owns a store, transfer data
only goes to a client that owns one, and a lock owner is only refused
because of another lock owner. -/
structure FollowsLocks (s : Media) : Prop where
  /-- The lane owner owns a store. -/
  owner : ∀ owner, s.lane.currentOwner=some owner → s.locks.isOwner owner=true
  /-- The receiver of transfer data owns a store. -/
  fanout : ∀ client, s.lane.fanoutOwner s.locks=some client → s.locks.isOwner client=true
  /-- A refused lock owner lost against a lock owner. -/
  refused : ∀ client name body, s.lane.enabled=true → s.locks.isOwner client=true →
    (s.lane.clientTransfer s.locks client name body).2=.drop →
    ∃ owner, s.lane.currentOwner=some owner ∧ owner≠client ∧ s.locks.isOwner owner=true

/-- The lane owner decides about the other two consequences. -/
theorem followsLocks_iff (s : Media) :
    FollowsLocks s ↔
      ∀ owner, s.lane.currentOwner=some owner → s.locks.isOwner owner=true := by
  refine ⟨FollowsLocks.owner,fun h => ⟨h,?_,?_⟩⟩
  · intro client hf
    unfold TransferLane.fanoutOwner at hf
    split at hf
    · cases hf
    · rcases Option.or_eq_some_iff.mp hf with hf | ⟨_,hf⟩
      · rcases Option.or_eq_some_iff.mp hf with hf | ⟨_,hf⟩
        · exact h client hf
        · exact (s.locks.isOwner_iff client).mpr ⟨0,hf⟩
      · exact (s.locks.isOwner_iff client).mpr ⟨255,hf⟩
  · intro client name body hon hclient hdrop
    unfold TransferLane.clientTransfer at hdrop
    rw [hon,hclient] at hdrop
    simp only [Bool.true_eq_false,if_false] at hdrop
    split at hdrop
    · cases hdrop
    · cases ha : s.lane.active with
      | none =>
        rw [ha] at hdrop
        cases hdrop
      | some active =>
        rw [ha] at hdrop
        dsimp only at hdrop
        split at hdrop
        · cases hdrop
        · rename_i hne
          have hcur : s.lane.currentOwner=some active.owner := by
            unfold TransferLane.currentOwner
            rw [ha]
            rfl
          exact ⟨active.owner,hcur,hne,h active.owner hcur⟩

/-- A command of the payload reports this store unlocked. -/
def ReportsUnlocked (payload : Bytes) (store : UInt16) : Prop :=
  ∃ cmd ∈ parsedCommands payload, isLockStatus cmd.name=true ∧
    lockStoreId cmd.body=some store ∧ lockRequestEnabled cmd.body=false

/-- The step takes this store from the client without touching the lane: the
client's own unlock request, an unlocked report, or a clear of the locks. -/
def Releases (owner : SocketAddr) (store : UInt16) : MediaAction → Prop
  | .lockRequest sender name body => sender=owner ∧ isLockRequest name=true ∧
    lockStoreId body=some store ∧ lockRequestEnabled body=false
  | .lockStatus payload => ReportsUnlocked payload store
  | .clearLocks => True
  | _ => False

/-- The client that holds the lane owns a store that the step does not take. -/
def KeepsAStore (s : Media) (a : MediaAction) : Prop :=
  ∀ owner, s.lane.currentOwner=some owner →
    ∃ store, s.locks.ownerOf store=some owner ∧ ¬Releases owner store a

/-- An owned record keeps its owner unless the owner unlocks it. -/
theorem request_owner_kept {entry : StoreLock} {owner : SocketAddr} (h : entry.owner=some owner)
    (sender : SocketAddr) (wantLock : Bool) :
    (entry.request sender wantLock).1.owner=some owner ↔ ¬(sender=owner ∧ wantLock=false) := by
  unfold StoreLock.request
  cases wantLock with
  | true =>
    simp only [if_true,h,Bool.true_eq_false,and_false,not_false_eq_true,iff_true]
    split <;> exact h
  | false =>
    simp only [Bool.false_eq_true,if_false,h,Option.some.injEq,reduceCtorEq,or_false,and_true]
    by_cases he : owner=sender
    · rw [if_pos he]
      simp only [reduceCtorEq,he,not_true_eq_false]
    · rw [if_neg he]
      exact ⟨fun _ hs => he hs.symm,fun _ => h⟩

/-- An owned store stays owned unless the request is its owner's unlock. -/
theorem ownerOf_clientLockRequest_kept {b : LockBroker} {owner : SocketAddr} {store : UInt16}
    (h : b.ownerOf store=some owner) (sender : SocketAddr) (name : CommandName) (body : Bytes) :
    (b.clientLockRequest sender name body).1.ownerOf store=some owner ↔
      ¬Releases owner store (.lockRequest sender name body) := by
  unfold Releases
  cases hn : isLockRequest name with
  | false =>
    simp only [LockBroker.clientLockRequest,hn,if_true,h,Bool.false_eq_true,false_and,and_false,
      not_false_eq_true]
  | true =>
    cases hs : lockStoreId body with
    | none =>
      rw [b.clientLockRequest_of_none sender hs]
      simp only [h,hs,reduceCtorEq,false_and,and_false,not_false_eq_true]
    | some named =>
      have hlock := b.lockOf_clientLockRequest sender hn hs store
      unfold LockBroker.ownerOf at h ⊢
      rw [hlock]
      by_cases he : store=named
      · subst he
        rw [if_pos rfl,request_owner_kept h]
        simp only [hn,hs,true_and]
      · rw [if_neg he]
        simp only [h,hs,Option.some.injEq,Ne.symm he,false_and,and_false,not_false_eq_true]

/-- One report takes exactly the store it reports unlocked. -/
theorem ownerOf_onStatusCommand_iff (b : LockBroker) (cmd : CommandRef) (store : UInt16)
    (owner : SocketAddr) :
    (b.onStatusCommand cmd).ownerOf store=some owner ↔
      b.ownerOf store=some owner ∧ ¬(isLockStatus cmd.name=true ∧
        lockStoreId cmd.body=some store ∧ lockRequestEnabled cmd.body=false) := by
  cases hn : isLockStatus cmd.name with
  | false =>
    simp only [LockBroker.onStatusCommand,hn,if_true,Bool.false_eq_true,false_and,
      not_false_eq_true,and_true]
  | true =>
    cases hs : lockStoreId cmd.body with
    | none =>
      simp only [LockBroker.onStatusCommand,hn,hs,Bool.true_eq_false,if_false,reduceCtorEq,
        false_and,and_false,not_false_eq_true,and_true]
    | some named =>
      have hlock := b.lockOf_onStatusCommand hn hs store
      unfold LockBroker.ownerOf
      rw [hlock]
      by_cases he : store=named
      · subst he
        rw [if_pos rfl]
        unfold StoreLock.report
        cases lockRequestEnabled cmd.body <;> simp
      · rw [if_neg he]
        simp only [Option.some.injEq,Ne.symm he,false_and,and_false,not_false_eq_true,and_true]

/-- A payload takes exactly the stores it reports unlocked. -/
theorem ownerOf_onUpstreamLockStatus_iff (b : LockBroker) (payload : Bytes) (store : UInt16)
    (owner : SocketAddr) :
    (b.onUpstreamLockStatus payload).ownerOf store=some owner ↔
      b.ownerOf store=some owner ∧ ¬ReportsUnlocked payload store := by
  have hcmds : b.onUpstreamLockStatus payload=
      (parsedCommands payload).foldl LockBroker.onStatusCommand b := by
    unfold LockBroker.onUpstreamLockStatus parsedCommands
    cases parseCommands payload <;> rfl
  rw [hcmds]
  clear hcmds
  unfold ReportsUnlocked
  generalize parsedCommands payload=cmds
  induction cmds generalizing b with
  | nil => simp only [List.foldl_nil,List.not_mem_nil,false_and,exists_false,
      not_false_eq_true,and_true]
  | cons cmd cmds ih =>
    rw [List.foldl_cons]
    refine (ih (b.onStatusCommand cmd)).trans ?_
    rw [ownerOf_onStatusCommand_iff,and_assoc]
    refine and_congr_right fun _ => ?_
    simp only [List.mem_cons,exists_eq_or_imp,not_or]

/-- An unlock request of an owner gives it no other store. -/
theorem ownerOf_before_unlock {b : LockBroker} {owner sender : SocketAddr} {store named : UInt16}
    {name : CommandName} {body : Bytes}
    (hunlock : Releases owner named (.lockRequest sender name body))
    (hnamed : b.ownerOf named=some owner)
    (h : (b.clientLockRequest sender name body).1.ownerOf store=some owner) :
    b.ownerOf store=some owner := by
  by_cases he : store=named
  · rw [he]
    exact hnamed
  · have hlock := b.lockOf_clientLockRequest sender hunlock.2.1 hunlock.2.2.1 store
    rw [if_neg he] at hlock
    unfold LockBroker.ownerOf at h ⊢
    rw [←hlock]
    exact h

/-- A transfer command leaves the lane to its owner or to a lock owner. -/
theorem clientTransfer_owner_locks {lane : TransferLane} {locks : LockBroker}
    {sender : SocketAddr} {name : CommandName} {body : Bytes} {owner : SocketAddr}
    (h : (lane.clientTransfer locks sender name body).1.currentOwner=some owner) :
    lane.currentOwner=some owner ∨ locks.isOwner owner=true := by
  cases hs : locks.isOwner sender with
  | true =>
    rcases lane.clientTransfer_currentOwner locks sender name body h with h | rfl
    · exact Or.inl h
    · exact Or.inr hs
  | false =>
    unfold TransferLane.clientTransfer at h
    rw [hs,if_pos rfl] at h
    split_ifs at h <;> exact Or.inl h

/-- The lane forgets a disconnected client and nobody else. -/
theorem clientDisconnected_owner {lane : TransferLane} {addr owner : SocketAddr}
    (h : (lane.clientDisconnected addr).currentOwner=some owner) :
    lane.currentOwner=some owner ∧ owner≠addr := by
  unfold TransferLane.clientDisconnected at h
  split at h
  · cases h
  · rename_i hne
    refine ⟨h,fun he => hne ?_⟩
    rw [h,he]

/-- A client keeps its stores when another one disconnects. -/
theorem isOwner_clientDisconnected {b : LockBroker} {addr owner : SocketAddr}
    (h : b.isOwner owner=true) (hne : owner≠addr) :
    (b.clientDisconnected addr).1.isOwner owner=true := by
  obtain ⟨store,hs⟩ := (b.isOwner_iff owner).mp h
  refine (LockBroker.isOwner_iff _ owner).mpr ⟨store,?_⟩
  unfold LockBroker.ownerOf at hs ⊢
  rw [b.lockOf_clientDisconnected]
  unfold StoreLock.release
  rw [hs,if_neg (fun he => hne (Option.some.inj he))]
  exact hs

/-- A step that takes no store from anybody meets the condition. -/
theorem keepsAStore_of_not_releases {s : Media} {a : MediaAction} (h : FollowsLocks s)
    (ha : ∀ owner store, ¬Releases owner store a) : KeepsAStore s a := by
  intro owner hcur
  obtain ⟨store,hs⟩ := (s.locks.isOwner_iff owner).mp (h.owner owner hcur)
  exact ⟨store,hs,ha owner store⟩

/-- One step keeps the lane with the locks exactly when the lane owner
keeps a store. -/
theorem followsLocks_step {s t : Media} {a : MediaAction} (h : FollowsLocks s)
    (hstep : mediaStep s a=some t) : FollowsLocks t ↔ KeepsAStore s a := by
  rw [followsLocks_iff]
  cases a with
  | lockRequest sender name body =>
    cases hstep
    refine forall_congr' fun owner => forall_congr' fun hcur => ?_
    rw [LockBroker.isOwner_iff]
    constructor
    · rintro ⟨store,hafter⟩
      obtain ⟨named,hnamed⟩ := (s.locks.isOwner_iff owner).mp (h.owner owner hcur)
      by_cases hr : Releases owner named (.lockRequest sender name body)
      · have hbefore := ownerOf_before_unlock hr hnamed hafter
        exact ⟨store,hbefore,(ownerOf_clientLockRequest_kept hbefore sender name body).mp hafter⟩
      · exact ⟨named,hnamed,hr⟩
    · rintro ⟨store,hbefore,hr⟩
      exact ⟨store,(ownerOf_clientLockRequest_kept hbefore sender name body).mpr hr⟩
  | transfer sender name body =>
    cases hstep
    refine iff_of_true (fun owner hcur => ?_) (keepsAStore_of_not_releases h fun _ _ => id)
    rcases clientTransfer_owner_locks hcur with hcur | hlocks
    · exact h.owner owner hcur
    · exact hlocks
  | lockStatus payload =>
    cases hstep
    refine forall_congr' fun owner => forall_congr' fun _ => ?_
    rw [LockBroker.isOwner_iff]
    exact exists_congr fun store => ownerOf_onUpstreamLockStatus_iff s.locks payload store owner
  | clientDisconnected addr =>
    cases hstep
    refine iff_of_true (fun owner hcur => ?_) (keepsAStore_of_not_releases h fun _ _ => id)
    obtain ⟨hcur,hne⟩ := clientDisconnected_owner hcur
    exact isOwner_clientDisconnected (h.owner owner hcur) hne
  | clearLocks =>
    cases hstep
    refine forall_congr' fun owner => forall_congr' fun _ => ?_
    simp only [LockBroker.clear,Releases,not_true_eq_false,and_false,exists_false,iff_false]
    exact Bool.false_ne_true
  | clearLane =>
    cases hstep
    exact iff_of_true (fun _ hcur => nomatch hcur)
      (keepsAStore_of_not_releases h fun _ _ => id)

/-- In every run from a fresh broker and an idle lane, the lane follows the
locks in all states exactly when no step takes the last store of the client
that holds the lane. -/
theorem lane_follows_locks_iff (cfg : MediaConfig) (acts : List MediaAction) :
    Always mediaStep FollowsLocks (Media.start cfg) acts ↔
      Meets mediaStep KeepsAStore (Media.start cfg) acts := by
  have hstart : FollowsLocks (Media.start cfg) :=
    (followsLocks_iff _).mpr (fun _ hcur => nomatch hcur)
  rw [always_iff_meets mediaStep (fun _ _ _ => followsLocks_step) hstart,
    meets_iff_of_total mediaStep mediaStep_total]

/-- Client of the failing run. -/
def uploader : SocketAddr := ⟨1,9910⟩

/-- A client locks a store, opens the lane and unlocks the store. -/
def unlockDuringUpload : List MediaAction :=
  [.lockRequest uploader (tag 'L' 'O' 'C' 'K') [0,0,1,0],
    .transfer uploader (tag 'F' 'T' 'S' 'D') [0,0,0,0],
    .lockRequest uploader (tag 'L' 'O' 'C' 'K') [0,0,0,0]]

/-- The lane stays with a client that has unlocked its only store. -/
theorem unlocked_uploader_keeps_lane :
    ¬Always mediaStep FollowsLocks (Media.start {enabled := true}) unlockDuringUpload := by
  intro h
  obtain ⟨t,hrun,hcur,hlocks⟩ : ∃ t, run mediaStep (Media.start {enabled := true})
      unlockDuringUpload=some t ∧ t.lane.currentOwner=some uploader ∧
      t.locks.isOwner uploader=false := ⟨_,rfl,by decide +kernel,by decide +kernel⟩
  have howner := (h.last mediaStep hrun).owner uploader hcur
  rw [hlocks] at howner
  cases howner

end AtemProxy.LaneOwners
