import AtemProxy.LockStores
import AtemProxy.ProxyConfig

/-!
# The exclusive media transfer lane

At most one client at a time sends transfer commands upstream. The lane
opens for a lock owner and stays with it until a completion command, a
disconnect or a clear. The start time of a transfer is only logged and
is not represented.
-/

namespace AtemProxy.TransferLanes

open BigEndian CommandFrames LockStores ProxyConfig

/-- Answer of the lane to a transfer command. -/
inductive TransferClientDecision where
  /-- Send the framed command upstream. -/
  | forward
  /-- Drop it. -/
  | drop
  deriving DecidableEq

/-- Transfer in progress. -/
structure ActiveTransfer where
  /-- Client that holds the lane. -/
  owner : SocketAddr
  /-- Store named by the opening or restarting command. -/
  store : Option UInt16
  /-- Data bytes counted since the last restart, saturating at 64 bits. -/
  bytesForwarded : ℕ
  deriving DecidableEq

/-- Lane settings and the transfer in progress. -/
structure TransferLane where
  /-- Media settings. -/
  cfg : MediaConfig
  /-- Transfer in progress, if any. -/
  active : Option ActiveTransfer
  deriving DecidableEq

/-- Saturating addition of unsigned 64-bit counters. -/
def saturatingAdd64 (a b : ℕ) : ℕ := min (a+b) (2^64-1)

namespace TransferLane

/-- Idle lane. -/
def new (cfg : MediaConfig) : TransferLane := ⟨cfg,none⟩

/-- Whether transfer commands may pass at all. -/
def enabled (lane : TransferLane) : Bool := lane.cfg.enabled

/-- Abandon the transfer in progress. -/
def clear (lane : TransferLane) : TransferLane := {lane with active := none}

/-- Owner of the transfer in progress. -/
def currentOwner (lane : TransferLane) : Option SocketAddr := lane.active.map ActiveTransfer.owner

/-- Bookkeeping of a command sent by the client that already holds the lane. -/
def ownerCommand (active : ActiveTransfer) (name : CommandName) (body : Bytes) :
    Option ActiveTransfer :=
  let restarted :=
    if name ∈ [tag 'F' 'T' 'S' 'D',tag 'F' 'T' 'S' 'U'] then
      {active with store := (lockStoreId body).or active.store, bytesForwarded := 0}
    else active
  let counted :=
    if name=tag 'F' 'T' 'D' 'a' then
      {restarted with bytesForwarded := saturatingAdd64 restarted.bytesForwarded body.length}
    else restarted
  if name ∈ [tag 'F' 'T' 'D' 'C',tag 'F' 'T' 'D' 'E'] then none else some counted

/-- Decide if a client may send a transfer command upstream. -/
def clientTransfer (lane : TransferLane) (locks : LockBroker) (sender : SocketAddr)
    (name : CommandName) (body : Bytes) : TransferLane×TransferClientDecision :=
  if lane.enabled=false then (lane,.drop)
  else if isTransferCommand name=false then (lane,.forward)
  else if locks.isOwner sender=false then (lane,.drop)
  else match lane.active with
    | none => ({lane with active := some ⟨sender,lockStoreId body,0⟩},.forward)
    | some active =>
      if active.owner=sender then
        ({lane with active := ownerCommand active name body},.forward)
      else (lane,.drop)

/-- Client that receives transfer data from the switcher. -/
def fanoutOwner (lane : TransferLane) (locks : LockBroker) : Option SocketAddr :=
  if lane.enabled=false then none
  else (lane.currentOwner.or (locks.ownerOf 0)).or (locks.ownerOf 255)

/-- Abandon the transfer of a disconnected client. -/
def clientDisconnected (lane : TransferLane) (addr : SocketAddr) : TransferLane :=
  if lane.currentOwner=some addr then lane.clear else lane

/-- The owner keeps its identity through its own commands. -/
theorem ownerCommand_owner {active next : ActiveTransfer} {name : CommandName} {body : Bytes}
    (h : ownerCommand active name body=some next) : next.owner=active.owner := by
  unfold ownerCommand at h
  dsimp only at h
  split_ifs at h <;> cases h <;> rfl

/-- A transfer command leaves the lane with its owner, with its sender or idle. -/
theorem clientTransfer_currentOwner (lane : TransferLane) (locks : LockBroker)
    (sender : SocketAddr) (name : CommandName) (body : Bytes) {owner : SocketAddr}
    (h : (lane.clientTransfer locks sender name body).1.currentOwner=some owner) :
    lane.currentOwner=some owner ∨ owner=sender := by
  unfold clientTransfer at h
  split_ifs at h with h1 h2 h3
  · exact Or.inl h
  · exact Or.inl h
  · exact Or.inl h
  · cases ha : lane.active with
    | none =>
      rw [ha] at h
      exact Or.inr (Option.some.inj h).symm
    | some active =>
      rw [ha] at h
      dsimp only at h
      split_ifs at h with ho
      · right
        unfold currentOwner at h
        dsimp only at h
        cases hc : ownerCommand active name body with
        | none => rw [hc] at h; cases h
        | some next =>
          rw [hc] at h
          have he := Option.some.inj h
          rw [←he,ownerCommand_owner hc,ho]
      · exact Or.inl h

/-- A transfer command keeps the configuration. -/
@[simp]
theorem clientTransfer_cfg (lane : TransferLane) (locks : LockBroker)
    (sender : SocketAddr) (name : CommandName) (body : Bytes) :
    (lane.clientTransfer locks sender name body).1.cfg=lane.cfg := by
  unfold clientTransfer
  split_ifs <;> try rfl
  split
  · rfl
  · split_ifs <;> rfl

end TransferLane

end AtemProxy.TransferLanes
