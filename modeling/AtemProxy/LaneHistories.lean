import AtemProxy.LaneOwners

/-!
# The transfer lane over whole histories

Locks and lane change independently, and a transfer command is decided by
both. Forwarded commands of two clients are separated by a release of the
lane. Which branch handles a command depends on the history: the branch of
the client that already holds the lane completes a transfer and counts its
data, the branch that opens the lane does neither, although any transfer
command may open it.
-/

namespace AtemProxy.LaneHistories

open BigEndian CommandFrames LockStores ProxyConfig TransferLanes LaneOwners GuardedRuns

/-- Operations on locks and lane; a disconnect reaches them separately. -/
inductive LaneOp where
  /-- Transfer command of a client. -/
  | transfer (sender : SocketAddr) (name : CommandName) (body : Bytes)
  /-- Lock or unlock request of a client. -/
  | lockRequest (sender : SocketAddr) (name : CommandName) (body : Bytes)
  /-- Payload of the switcher with its lock reports. -/
  | lockStatus (payload : Bytes)
  /-- Disconnect of a client at the lane. -/
  | laneDisconnected (addr : SocketAddr)
  /-- Disconnect of a client at the locks. -/
  | locksDisconnected (addr : SocketAddr)
  /-- Clear of the lane. -/
  | clearLane
  /-- Clear of the locks. -/
  | clearLocks

/-- Locks and lane after one operation. -/
def laneStep (s : Media) : LaneOp → Media
  | .transfer sender name body =>
    {s with lane := (s.lane.clientTransfer s.locks sender name body).1}
  | .lockRequest sender name body =>
    {s with locks := (s.locks.clientLockRequest sender name body).1}
  | .lockStatus payload => {s with locks := s.locks.onUpstreamLockStatus payload}
  | .laneDisconnected addr => {s with lane := s.lane.clientDisconnected addr}
  | .locksDisconnected addr => {s with locks := (s.locks.clientDisconnected addr).1}
  | .clearLane => {s with lane := s.lane.clear}
  | .clearLocks => {s with locks := s.locks.clear}

/-- Locks and lane after a sequence of operations. -/
def laneRun (s : Media) (ops : List LaneOp) : Media := ops.foldl laneStep s

/-- The transfer command is answered with forward. -/
def Forwarded (s : Media) (sender : SocketAddr) (name : CommandName) (body : Bytes) : Prop :=
  isTransferCommand name=true ∧ (s.lane.clientTransfer s.locks sender name body).2=.forward

instance (s : Media) (sender : SocketAddr) (name : CommandName) (body : Bytes) :
    Decidable (Forwarded s sender name body) := inferInstanceAs (Decidable (_∧_))

/-- Names that complete a transfer. -/
def completing : List CommandName := [tag 'F' 'T' 'D' 'C',tag 'F' 'T' 'D' 'E']

/-- Names that restart a transfer. -/
def restarting : List CommandName := [tag 'F' 'T' 'S' 'D',tag 'F' 'T' 'S' 'U']

/-- Name of the command that carries data. -/
def dataName : CommandName := tag 'F' 'T' 'D' 'a'

/-- A command passes the lane's checks. -/
def Admitted (s : Media) (sender : SocketAddr) (name : CommandName) : Prop :=
  s.lane.enabled=true ∧ isTransferCommand name=true ∧ s.locks.isOwner sender=true

/-- A command that fails a check leaves the lane alone. -/
theorem clientTransfer_of_not_admitted {s : Media} {sender : SocketAddr} {name : CommandName}
    (h : ¬Admitted s sender name) (body : Bytes) :
    ¬Forwarded s sender name body ∧ laneStep s (.transfer sender name body)=s := by
  have hsame : (s.lane.clientTransfer s.locks sender name body).1=s.lane ∧
      (isTransferCommand name=true →
        (s.lane.clientTransfer s.locks sender name body).2=.drop) := by
    unfold TransferLane.clientTransfer
    split_ifs with he hn ho
    · exact ⟨rfl,fun _ => rfl⟩
    · refine ⟨rfl,fun hn' => ?_⟩
      rw [hn] at hn'
      cases hn'
    · exact ⟨rfl,fun _ => rfl⟩
    · rw [Bool.not_eq_false] at he hn ho
      exact absurd ⟨he,hn,ho⟩ h
  constructor
  · rintro ⟨hn,hf⟩
    rw [hsame.2 hn] at hf
    cases hf
  · rw [laneStep,hsame.1]

/-- A command that passes the checks is decided by the transfer in progress. -/
theorem clientTransfer_of_admitted {s : Media} {sender : SocketAddr} {name : CommandName}
    (h : Admitted s sender name) (body : Bytes) :
    s.lane.clientTransfer s.locks sender name body=
      match s.lane.active with
      | none => ({s.lane with active := some ⟨sender,lockStoreId body,0⟩},.forward)
      | some active =>
        if active.owner=sender then
          ({s.lane with active := TransferLane.ownerCommand active name body},.forward)
        else (s.lane,.drop) := by
  rw [TransferLane.clientTransfer,h.1,h.2.1,h.2.2]
  rfl

/-- Everything the lane can do with a command: leave the lane alone, open it
for the sender, or go on with the transfer of the sender. -/
theorem clientTransfer_cases (s : Media) (sender : SocketAddr) (name : CommandName)
    (body : Bytes) :
    (¬Forwarded s sender name body ∧ laneStep s (.transfer sender name body)=s ∧
      (Admitted s sender name → s.lane.active≠none)) ∨
    (Forwarded s sender name body ∧ Admitted s sender name ∧ s.lane.active=none ∧
      (laneStep s (.transfer sender name body)).lane.active=some ⟨sender,lockStoreId body,0⟩) ∨
    (Forwarded s sender name body ∧ Admitted s sender name ∧ ∃ active,
      s.lane.active=some active ∧ active.owner=sender ∧
      (laneStep s (.transfer sender name body)).lane.active=
        TransferLane.ownerCommand active name body) := by
  by_cases hadmitted : Admitted s sender name
  · have heq := clientTransfer_of_admitted hadmitted body
    cases ha : s.lane.active with
    | none =>
      rw [ha] at heq
      refine Or.inr (Or.inl ⟨⟨hadmitted.2.1,?_⟩,hadmitted,rfl,?_⟩)
      · rw [heq]
      · rw [laneStep,heq]
    | some active =>
      rw [ha] at heq
      dsimp only at heq
      by_cases ho : active.owner=sender
      · rw [if_pos ho] at heq
        refine Or.inr (Or.inr ⟨⟨hadmitted.2.1,?_⟩,hadmitted,active,rfl,ho,?_⟩)
        · rw [heq]
        · rw [laneStep,heq]
      · rw [if_neg ho] at heq
        refine Or.inl ⟨fun hf => ?_,?_,fun _ => Option.some_ne_none active⟩
        · rw [Forwarded,heq] at hf
          cases hf.2
        · rw [laneStep,heq]
  · obtain ⟨hno,hsame⟩ := clientTransfer_of_not_admitted hadmitted body
    exact Or.inl ⟨hno,hsame,fun h => absurd h hadmitted⟩

/-- The owner's command ends the transfer exactly when it completes it. -/
theorem ownerCommand_eq_none_iff (active : ActiveTransfer) (name : CommandName) (body : Bytes) :
    TransferLane.ownerCommand active name body=none ↔ name∈completing := by
  unfold TransferLane.ownerCommand completing
  by_cases hc : name∈[tag 'F' 'T' 'D' 'C',tag 'F' 'T' 'D' 'E']
  · dsimp only
    rw [if_pos hc]
    exact iff_of_true rfl hc
  · dsimp only
    rw [if_neg hc]
    exact iff_of_false (Option.some_ne_none _) hc

/-- The operation takes the lane from the client: its own forwarded completing
command, its disconnect at the lane, or a clear of the lane. -/
def TakesLane (client : SocketAddr) (s : Media) (op : LaneOp) : Prop :=
  s.lane.currentOwner=some client ∧ (laneStep s op).lane.active=none ∧
    match op with
    | .transfer sender name body =>
      sender=client ∧ name∈completing ∧ Forwarded s sender name body
    | .laneDisconnected addr => addr=client
    | .clearLane => True
    | _ => False

/-- A transfer command keeps the lane with its owner or is its completion. -/
theorem transfer_kept_or_taken {s : Media} {owner : SocketAddr}
    (h : s.lane.currentOwner=some owner) (sender : SocketAddr) (name : CommandName)
    (body : Bytes) :
    (laneStep s (.transfer sender name body)).lane.currentOwner=some owner ∨
      TakesLane owner s (.transfer sender name body) := by
  obtain ⟨active,hactive,rfl⟩ := Option.map_eq_some_iff.mp h
  rcases clientTransfer_cases s sender name body with
    ⟨_,hsame,_⟩ | ⟨_,_,hidle,_⟩ | ⟨hf,_,current,hcurrent,hsender,hnext⟩
  · rw [hsame]
    exact Or.inl h
  · rw [hactive] at hidle
    cases hidle
  · rw [hactive,Option.some.injEq] at hcurrent
    subst hcurrent
    cases hc : TransferLane.ownerCommand active name body with
    | none =>
      have hname := (ownerCommand_eq_none_iff active name body).mp hc
      exact Or.inr ⟨h,hnext.trans hc,hsender.symm,hname,hf⟩
    | some next =>
      left
      rw [TransferLane.currentOwner,hnext,hc,Option.map_some,
        TransferLane.ownerCommand_owner hc]

/-- One operation keeps the lane with its owner or takes it. -/
theorem lane_kept_or_taken {s : Media} {owner : SocketAddr} (h : s.lane.currentOwner=some owner)
    (op : LaneOp) :
    (laneStep s op).lane.currentOwner=some owner ∨ TakesLane owner s op := by
  cases op with
  | transfer sender name body => exact transfer_kept_or_taken h sender name body
  | lockRequest sender name body => exact Or.inl h
  | lockStatus payload => exact Or.inl h
  | laneDisconnected addr =>
    by_cases he : addr=owner
    · subst he
      refine Or.inr ⟨h,?_,rfl⟩
      rw [laneStep,TransferLane.clientDisconnected,if_pos h]
      rfl
    · left
      have hne : s.lane.currentOwner≠some addr := by
        rw [h]
        exact fun hh => he (Option.some.inj hh).symm
      rw [laneStep,TransferLane.clientDisconnected,if_neg hne]
      exact h
  | locksDisconnected addr => exact Or.inl h
  | clearLane => exact Or.inr ⟨h,rfl,trivial⟩
  | clearLocks => exact Or.inl h

/-- Over a sequence of operations the lane stays with its owner, or one of them
takes it in the state that it finds. -/
theorem lane_kept_or_taken_within (ops : List LaneOp) {s : Media} {owner : SocketAddr}
    (h : s.lane.currentOwner=some owner) :
    (laneRun s ops).lane.currentOwner=some owner ∨
      ∃ early op late,ops=early++op::late ∧ TakesLane owner (laneRun s early) op :=
  foldl_kept_or_broken laneStep (fun s => s.lane.currentOwner=some owner)
    (fun _ op howner => lane_kept_or_taken howner op) ops h

/-- A forwarded command found the lane idle or with its sender. -/
theorem owner_of_forwarded_transfer {s : Media} {sender : SocketAddr} {name : CommandName}
    {body : Bytes} (h : Forwarded s sender name body) :
    s.lane.active=none ∨ s.lane.currentOwner=some sender := by
  rcases clientTransfer_cases s sender name body with
    ⟨hno,_⟩ | ⟨_,_,hidle,_⟩ | ⟨_,_,active,hactive,hsender,_⟩
  · exact absurd h hno
  · exact Or.inl hidle
  · right
    rw [TransferLane.currentOwner,hactive,Option.map_some,hsender]

/-- After a forwarded command the lane is with its sender or was taken. -/
theorem lane_after_forwarded {s : Media} {sender : SocketAddr} {name : CommandName}
    {body : Bytes} (h : Forwarded s sender name body) :
    (laneStep s (.transfer sender name body)).lane.currentOwner=some sender ∨
      TakesLane sender s (.transfer sender name body) := by
  rcases owner_of_forwarded_transfer h with hidle | howner
  · rcases clientTransfer_cases s sender name body with
      ⟨hno,_⟩ | ⟨_,_,_,hnext⟩ | ⟨_,_,active,hactive,_⟩
    · exact absurd h hno
    · left
      rw [TransferLane.currentOwner,hnext,Option.map_some]
    · rw [hidle] at hactive
      cases hactive
  · exact lane_kept_or_taken howner (.transfer sender name body)

/-- Exclusive use of the lane over every history: a forwarded transfer command
comes from an owner of a store, and between forwarded commands of two clients
some operation, the first command included, takes the lane from the first. -/
theorem forwarded_transfers_exclusive :
    (∀ (start : Media) (ops : List LaneOp) (sender : SocketAddr) (name : CommandName)
      (body : Bytes),Forwarded (laneRun start ops) sender name body →
      ∃ store,(laneRun start ops).locks.ownerOf store=some sender) ∧
    ∀ (start : Media) (before between : List LaneOp) (a b : SocketAddr)
      (nameA nameB : CommandName) (bodyA bodyB : Bytes),
      Forwarded (laneRun start before) a nameA bodyA → b≠a →
      Forwarded (laneRun start (before++.transfer a nameA bodyA::between)) b nameB bodyB →
      ∃ early op late,.transfer a nameA bodyA::between=early++op::late ∧
        TakesLane a (laneRun start (before++early)) op := by
  constructor
  · intro start ops sender name body h
    rcases clientTransfer_cases (laneRun start ops) sender name body with
      ⟨hno,_⟩ | ⟨_,hadmitted,_⟩ | ⟨_,hadmitted,_⟩
    · exact absurd h hno
    · exact ((laneRun start ops).locks.isOwner_iff sender).mp hadmitted.2.2
    · exact ((laneRun start ops).locks.isOwner_iff sender).mp hadmitted.2.2
  · intro start before between a b nameA nameB bodyA bodyB ha hne hb
    have hafter : ∀ later,laneRun start (before++.transfer a nameA bodyA::later)=
        laneRun (laneStep (laneRun start before) (.transfer a nameA bodyA)) later := by
      intro later
      simp only [laneRun,List.foldl_append,List.foldl_cons]
    rcases lane_after_forwarded ha with howner | htaken
    · rcases lane_kept_or_taken_within between howner with hkept | ⟨early,op,late,rfl,htaken⟩
      · -- the lane would still be with the first client
        rw [hafter] at hb
        rcases owner_of_forwarded_transfer hb with hidle | hother
        · rw [TransferLane.currentOwner,hidle] at hkept
          cases hkept
        · rw [hkept,Option.some.injEq] at hother
          exact absurd hother.symm hne
      · refine ⟨.transfer a nameA bodyA::early,op,late,rfl,?_⟩
        rw [hafter]
        exact htaken
    · refine ⟨[],.transfer a nameA bodyA,between,rfl,?_⟩
      rw [List.append_nil]
      exact htaken

/-- Two clients lock a store each. -/
def twoOwners : List LaneOp :=
  [.lockRequest ⟨1,9910⟩ (tag 'L' 'O' 'C' 'K') [0,0,1,0],
    .lockRequest ⟨2,9910⟩ (tag 'L' 'O' 'C' 'K') [0,1,1,0]]

/-- The second owner gets the lane after the first one completed its transfer. -/
theorem forwarded_transfers_exclusive_completed :
    ∃ early op late,
      LaneOp.transfer ⟨1,9910⟩ (tag 'F' 'T' 'S' 'D') [0,0]::
        [.transfer ⟨2,9910⟩ (tag 'F' 'T' 'S' 'D') [0,1],
          .transfer ⟨1,9910⟩ (tag 'F' 'T' 'D' 'C') [0,0]]=early++op::late ∧
      TakesLane ⟨1,9910⟩ (laneRun (.start {enabled := true}) (twoOwners++early)) op :=
  forwarded_transfers_exclusive.2 (.start {enabled := true}) twoOwners _ ⟨1,9910⟩ ⟨2,9910⟩
    (tag 'F' 'T' 'S' 'D') (tag 'F' 'T' 'S' 'D') [0,0] [0,1] (by decide +kernel) (by decide)
    (by decide +kernel)

/-- Locks and lane with the history of the lane. -/
structure LaneTrace where
  /-- Locks and lane. -/
  media : Media
  /-- Body lengths of the data commands forwarded since the lane was opened or
  the transfer restarted, whichever came last. -/
  chunks : List ℕ
  /-- The last operation was a forwarded command that completes a transfer. -/
  completed : Bool

/-- History of a fresh broker and an idle lane. -/
def LaneTrace.start (cfg : MediaConfig) : LaneTrace := ⟨.start cfg,[],false⟩

/-- Body lengths counted after a forwarded command. -/
def nextChunks (t : LaneTrace) (name : CommandName) (body : Bytes) : List ℕ :=
  let kept := if t.media.lane.active=none ∨ name∈restarting then [] else t.chunks
  if name=dataName then kept++[body.length] else kept

/-- History after one operation. -/
def LaneTrace.next (t : LaneTrace) (op : LaneOp) : LaneTrace :=
  match op with
  | .transfer sender name body =>
    if Forwarded t.media sender name body then
      ⟨laneStep t.media op,nextChunks t name body,decide (name∈completing)⟩
    else {t with media := laneStep t.media op, completed := false}
  | _ => {t with media := laneStep t.media op, completed := false}

/-- The step function of runs; every operation is possible in every state. -/
def laneTraceStep (t : LaneTrace) (op : LaneOp) : Option LaneTrace := some (t.next op)

/-- Completion and byte count follow the forwarded commands. -/
structure Accounted (t : LaneTrace) : Prop where
  /-- Right after a forwarded completing command the lane is idle. -/
  idle : t.completed=true → t.media.lane.active=none
  /-- The counter is the saturating sum of the forwarded data. -/
  counted : ∀ active,t.media.lane.active=some active →
    active.bytesForwarded=min t.chunks.sum (2^64-1)

/-- The lane is not opened by a command that completes a transfer or carries data. -/
def OpensPlainly (t : LaneTrace) : LaneOp → Prop
  | .transfer sender name body =>
    t.media.lane.enabled=true → t.media.lane.active=none → t.media.locks.isOwner sender=true →
      name∉completing ∧ (name=dataName → body=[])
  | _ => True

/-- Operations other than transfer commands abandon the transfer or keep it. -/
theorem accounted_other {t u : LaneTrace} (h : Accounted t)
    (hchunks : u.chunks=t.chunks) (hcompleted : u.completed=false)
    (hactive : u.media.lane.active=none ∨ u.media.lane.active=t.media.lane.active) :
    Accounted u := by
  constructor
  · intro hc
    rw [hcompleted] at hc
    cases hc
  · intro active ha
    rw [hchunks]
    rcases hactive with hnone | hsame
    · rw [hnone] at ha
      cases ha
    · exact h.counted active (hsame ▸ ha)

/-- A saturated sum goes on saturating. -/
theorem saturatingAdd64_min (a b : ℕ) :
    saturatingAdd64 (min a (2^64-1)) b=min (a+b) (2^64-1) := by
  unfold saturatingAdd64
  omega

/-- Counter after a command of the owner. -/
theorem ownerCommand_bytes {active next : ActiveTransfer} {name : CommandName} {body : Bytes}
    (h : TransferLane.ownerCommand active name body=some next) :
    next.bytesForwarded=
      let kept := if name∈restarting then 0 else active.bytesForwarded
      if name=dataName then saturatingAdd64 kept body.length else kept := by
  unfold TransferLane.ownerCommand at h
  unfold restarting dataName
  dsimp only at h ⊢
  split_ifs at h ⊢ <;> cases h <;> rfl

/-- The owner's commands count the data that they forward. -/
theorem ownerCommand_counted {t : LaneTrace} {active next : ActiveTransfer} {name : CommandName}
    {body : Bytes} (ha : t.media.lane.active=some active)
    (hcount : active.bytesForwarded=min t.chunks.sum (2^64-1))
    (hnext : TransferLane.ownerCommand active name body=some next) :
    next.bytesForwarded=min (nextChunks t name body).sum (2^64-1) := by
  have hkept : (if name∈restarting then 0 else active.bytesForwarded)=
      min (if t.media.lane.active=none ∨ name∈restarting then [] else t.chunks).sum (2^64-1) := by
    simp only [ha,reduceCtorEq,false_or]
    split_ifs
    · exact (Nat.zero_min _).symm
    · exact hcount
  rw [ownerCommand_bytes hnext,nextChunks]
  dsimp only
  rw [hkept]
  by_cases hdata : name=dataName
  · rw [if_pos hdata,if_pos hdata,saturatingAdd64_min,List.sum_append,List.sum_singleton]
  · rw [if_neg hdata,if_neg hdata]

/-- Opening the lane starts the count at zero, whatever the command carries. -/
theorem accounted_opening_iff {t u : LaneTrace} {sender : SocketAddr} {name : CommandName}
    {body : Bytes} (hidle : t.media.lane.active=none)
    (hactive : u.media.lane.active=some ⟨sender,lockStoreId body,0⟩)
    (hchunks : u.chunks=nextChunks t name body)
    (hcompleted : u.completed=decide (name∈completing)) :
    Accounted u ↔ name∉completing ∧ (name=dataName → body=[]) := by
  have hsum : 0=min u.chunks.sum (2^64-1) ↔ (name=dataName → body=[]) := by
    rw [hchunks,nextChunks]
    simp only [hidle,true_or,if_true]
    split_ifs with hdata
    · rw [List.nil_append,List.sum_singleton]
      constructor
      · intro hz _
        apply List.length_eq_zero_iff.mp
        omega
      · intro hempty
        rw [hempty hdata]
        rfl
    · exact ⟨fun _ hd => absurd hd hdata,fun _ => rfl⟩
  constructor
  · intro h
    constructor
    · intro hc
      have hnone := h.idle (hcompleted.trans (decide_eq_true hc))
      rw [hactive] at hnone
      cases hnone
    · exact hsum.mp (h.counted _ hactive)
  · rintro ⟨hc,hdata⟩
    constructor
    · intro hcomplete
      rw [hcompleted,decide_eq_true_eq] at hcomplete
      exact absurd hcomplete hc
    · intro active ha
      rw [hactive,Option.some.injEq] at ha
      rw [←ha]
      exact hsum.mpr hdata

/-- History after a forwarded command. -/
theorem next_of_forwarded {t : LaneTrace} {sender : SocketAddr} {name : CommandName}
    {body : Bytes} (h : Forwarded t.media sender name body) :
    t.next (.transfer sender name body)=
      ⟨laneStep t.media (.transfer sender name body),nextChunks t name body,
        decide (name∈completing)⟩ := by
  rw [LaneTrace.next,if_pos h]

/-- A transfer command keeps the account exactly when it does not open the lane
with data or a completion. -/
theorem accounted_transfer_iff {t : LaneTrace} (h : Accounted t) (sender : SocketAddr)
    (name : CommandName) (body : Bytes) :
    Accounted (t.next (.transfer sender name body)) ↔
      OpensPlainly t (.transfer sender name body) := by
  rcases clientTransfer_cases t.media sender name body with
    ⟨hno,hsame,hbusy⟩ | ⟨hf,hadmitted,hidle,hnext⟩ | ⟨hf,_,active,hactive,_,hnext⟩
  · have hu : t.next (.transfer sender name body)={t with completed := false} := by
      rw [LaneTrace.next,if_neg hno,hsame]
    rw [hu]
    refine iff_of_true (accounted_other h rfl rfl (Or.inr rfl)) ?_
    intro henabled hidle howner
    constructor
    · intro hc
      have htransfer : ∀ other∈completing,isTransferCommand other=true := by decide
      exact absurd hidle (hbusy ⟨henabled,htransfer name hc,howner⟩)
    · intro hdata
      have htransfer : isTransferCommand dataName=true := by decide
      exact absurd hidle (hbusy ⟨henabled,hdata ▸ htransfer,howner⟩)
  · have hu := next_of_forwarded hf
    rw [accounted_opening_iff hidle (by rw [hu]; exact hnext) (by rw [hu]) (by rw [hu])]
    exact ⟨fun hplain _ _ _ => hplain,fun hplain => hplain hadmitted.1 hidle hadmitted.2.2⟩
  · have hu := next_of_forwarded hf
    rw [hu]
    refine iff_of_true ⟨?_,?_⟩ ?_
    · intro hc
      exact hnext.trans ((ownerCommand_eq_none_iff active name body).mpr (of_decide_eq_true hc))
    · intro next ha
      exact ownerCommand_counted hactive (h.counted active hactive) (hnext.symm.trans ha)
    · intro _ hidle
      rw [hactive] at hidle
      cases hidle

/-- One operation keeps the account exactly when it opens the lane plainly. -/
theorem accounted_next_iff {t : LaneTrace} (h : Accounted t) (op : LaneOp) :
    Accounted (t.next op) ↔ OpensPlainly t op := by
  cases op with
  | transfer sender name body => exact accounted_transfer_iff h sender name body
  | lockRequest sender name body =>
    exact iff_of_true (accounted_other h rfl rfl (Or.inr rfl)) trivial
  | lockStatus payload => exact iff_of_true (accounted_other h rfl rfl (Or.inr rfl)) trivial
  | laneDisconnected addr =>
    refine iff_of_true (accounted_other h rfl rfl ?_) trivial
    dsimp only [LaneTrace.next,laneStep]
    unfold TransferLane.clientDisconnected
    split_ifs
    · exact Or.inl rfl
    · exact Or.inr rfl
  | locksDisconnected addr => exact iff_of_true (accounted_other h rfl rfl (Or.inr rfl)) trivial
  | clearLane => exact iff_of_true (accounted_other h rfl rfl (Or.inl rfl)) trivial
  | clearLocks => exact iff_of_true (accounted_other h rfl rfl (Or.inr rfl)) trivial

/-- In every run from a fresh broker and an idle lane, completion and byte count
follow the forwarded commands in all states exactly when no command that
completes a transfer or carries data opens the lane. -/
theorem lane_accounted_iff (cfg : MediaConfig) (ops : List LaneOp) :
    Always laneTraceStep Accounted (.start cfg) ops ↔
      Meets laneTraceStep OpensPlainly (.start cfg) ops := by
  have hstart : Accounted (.start cfg) := by
    constructor
    · intro h
      cases h
    · intro active h
      cases h
  have hstep : ∀ t op u,Accounted t → laneTraceStep t op=some u →
      (Accounted u ↔ OpensPlainly t op) := by
    intro t op u ht hu
    cases hu
    exact accounted_next_iff ht op
  rw [always_iff_meets laneTraceStep hstep hstart,
    meets_iff_of_total laneTraceStep (fun _ _ => ⟨_,rfl⟩)]

/-- A lock owner opens the lane with three bytes of data. -/
def dataFirst : List LaneOp :=
  [.lockRequest ⟨1,9910⟩ (tag 'L' 'O' 'C' 'K') [0,0,1,0],
    .transfer ⟨1,9910⟩ (tag 'F' 'T' 'D' 'a') [0,0,7]]

/-- A lock owner opens the lane with a completion. -/
def completionFirst : List LaneOp :=
  [.lockRequest ⟨1,9910⟩ (tag 'L' 'O' 'C' 'K') [0,0,1,0],
    .transfer ⟨1,9910⟩ (tag 'F' 'T' 'D' 'C') [0,0]]

/-- The data that opens the lane is not counted, and a completion that opens it
leaves it active. -/
theorem opening_commands_not_accounted :
    (laneRun (.start {enabled := true}) dataFirst).lane.active=some ⟨⟨1,9910⟩,some 0,0⟩ ∧
      (laneRun (.start {enabled := true}) completionFirst).lane.active=
        some ⟨⟨1,9910⟩,some 0,0⟩ ∧
      ¬Always laneTraceStep Accounted (.start {enabled := true}) dataFirst ∧
      ¬Always laneTraceStep Accounted (.start {enabled := true}) completionFirst := by
  refine ⟨by decide +kernel,by decide +kernel,?_,?_⟩
  · intro h
    obtain ⟨t,hrun,hactive,hchunks⟩ : ∃ t,run laneTraceStep (.start {enabled := true})
        dataFirst=some t ∧ t.media.lane.active=some ⟨⟨1,9910⟩,some 0,0⟩ ∧ t.chunks=[3] :=
      ⟨_,rfl,by decide +kernel,by decide +kernel⟩
    have hcounted := (h.last laneTraceStep hrun).counted _ hactive
    rw [hchunks] at hcounted
    exact absurd hcounted (by decide)
  · intro h
    obtain ⟨t,hrun,hactive,hcompleted⟩ : ∃ t,run laneTraceStep (.start {enabled := true})
        completionFirst=some t ∧ t.media.lane.active=some ⟨⟨1,9910⟩,some 0,0⟩ ∧
        t.completed=true := ⟨_,rfl,by decide +kernel,by decide +kernel⟩
    have hidle := (h.last laneTraceStep hrun).idle hcompleted
    rw [hactive] at hidle
    cases hidle

end AtemProxy.LaneHistories
