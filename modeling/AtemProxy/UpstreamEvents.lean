import AtemProxy.LateJoinCache
import AtemProxy.LockStores
import Mathlib.Data.List.Flatten

/-!
# What the upstream task does with a switcher payload

The commands of a payload are split into a state chunk, an audio chunk and
a transfer chunk. The state chunk is reported to the broker, ingested into
the cache and sent as an event; these are separate atomic operations of the
task, listed here in program order, like those of its disconnect sequence.
-/

namespace AtemProxy.UpstreamEvents

open BigEndian CommandFrames LateJoinCache

/-- Event for the fan-out task. -/
inductive UpstreamEvent where
  /-- The switcher completed its initialization. -/
  | connected
  /-- The upstream session ended. -/
  | disconnected
  /-- Commands for all clients. -/
  | statePayload (payload : Bytes)
  /-- Audio levels for subscribers. -/
  | audioLevels (payload : Bytes)
  /-- Transfer data for its owner. -/
  | transferPayload (payload : Bytes)
  deriving DecidableEq

/-- Atomic operation of the upstream task. -/
inductive UpstreamOp where
  /-- Report lock states to the broker. -/
  | lockStatus (chunk : Bytes)
  /-- Store a chunk in the cache. -/
  | ingest (chunk : Bytes)
  /-- Send an event. -/
  | send (event : UpstreamEvent)
  /-- Mark the cache ready. -/
  | setReady
  /-- Set the connection flag, announcing a change. -/
  | swapConnected
  /-- Clear the connection flag. -/
  | setDisconnected
  /-- Clear the cache. -/
  | clearCache
  /-- Clear the broker. -/
  | clearLocks
  deriving DecidableEq

/-- Chunk a command is appended to. -/
inductive Chunk where
  /-- Commands for all clients. -/
  | state
  /-- High-rate commands. -/
  | audio
  /-- Transfer commands. -/
  | transfer
  /-- Initialization-complete is not passed on. -/
  | none
  deriving DecidableEq

/-- Classification of a command by its name. -/
def chunkOf (name : CommandName) : Chunk :=
  if name=initComplete then .none
  else if isTransferCommand name=true then .transfer
  else if isLockStatus name=true then .state
  else if isEphemeralCommand name=true then .audio
  else .state

/-- Commands of one chunk, in payload order. -/
def chunkCommands (chunk : Chunk) (cmds : List CommandRef) : List CommandRef :=
  cmds.filter (fun cmd => decide (chunkOf cmd.name=chunk))

/-- Bytes of one chunk. -/
def chunkBytes (chunk : Chunk) (cmds : List CommandRef) : Bytes :=
  ((chunkCommands chunk cmds).map CommandRef.raw).flatten

/-- Operations for the state chunk. -/
def stateOps (chunk : Bytes) : List UpstreamOp :=
  if chunk=[] then [] else [.lockStatus chunk,.ingest chunk,.send (.statePayload chunk)]

/-- Operations for one payload, in program order. -/
def handleUpstreamPayload (payload : Bytes) : List UpstreamOp :=
  match parseCommands payload with
  | .error _ => [.ingest payload,.send (.statePayload payload)]
  | .ok cmds =>
    let audio := chunkBytes .audio cmds
    let transfer := chunkBytes .transfer cmds
    stateOps (chunkBytes .state cmds)++
      (if audio=[] then [] else [.send (.audioLevels audio)])++
      (if transfer=[] then [] else [.send (.transferPayload transfer)])++
      (if cmds.any (fun cmd => decide (cmd.name=initComplete)) then [.setReady,.swapConnected]
        else [])

/-- Operations after an upstream session ended. -/
def disconnectSequence : List UpstreamOp :=
  [.setDisconnected,.clearCache,.clearLocks,.send .disconnected]

/-- A chunk parses to its own commands. -/
theorem parsedCommands_chunkBytes (chunk : Chunk) (cmds : List CommandRef) :
    parsedCommands (chunkBytes chunk cmds)=chunkCommands chunk cmds :=
  parsedCommands_of_ok (parseCommands_frames (chunkCommands chunk cmds))

/-- Every cached command is in the state chunk. -/
theorem chunkOf_of_isCacheable {name : CommandName} (h : isCacheable name=true) :
    chunkOf name=.state := by
  simp only [isCacheable,isExcluded,Bool.and_eq_true,Bool.not_eq_true',Bool.or_eq_false_iff,
    decide_eq_true_eq] at h
  obtain ⟨⟨⟨hephemeral,_⟩,htransfer⟩,hinit⟩ := h
  simp only [chunkOf,if_neg hinit,htransfer,hephemeral,Bool.false_eq_true,if_false,ite_self]

/-- A chunk is no longer than its payload. -/
theorem chunkBytes_length_le {payload : Bytes} {cmds : List CommandRef}
    (h : parseCommands payload=.ok cmds) (chunk : Chunk) :
    (chunkBytes chunk cmds).length≤payload.length := by
  rw [←parseCommands_flatten h]
  exact (List.filter_sublist.map CommandRef.raw).flatten.length_le

/-- Operations for a payload with the parts of it that they carry. -/
inductive PayloadOp (payload : Bytes) : UpstreamOp → Prop where
  /-- Lock states. -/
  | lockStatus (chunk : Bytes) (part : chunk.length≤payload.length) :
    PayloadOp payload (.lockStatus chunk)
  /-- Cached commands. -/
  | ingest (chunk : Bytes) (part : chunk.length≤payload.length) :
    PayloadOp payload (.ingest chunk)
  /-- Commands for all clients. -/
  | state (chunk : Bytes) (part : chunk.length≤payload.length) :
    PayloadOp payload (.send (.statePayload chunk))
  /-- Audio levels. -/
  | audio (chunk : Bytes) (part : chunk.length≤payload.length) :
    PayloadOp payload (.send (.audioLevels chunk))
  /-- Transfer data. -/
  | transfer (chunk : Bytes) (part : chunk.length≤payload.length) :
    PayloadOp payload (.send (.transferPayload chunk))
  /-- The cache is complete. -/
  | setReady : PayloadOp payload .setReady
  /-- The switcher is connected. -/
  | swapConnected : PayloadOp payload .swapConnected

/-- State operations carry a part of the payload. -/
theorem payloadOp_of_stateOps {payload chunk : Bytes} (hpart : chunk.length≤payload.length)
    {op : UpstreamOp} (h : op ∈ stateOps chunk) : PayloadOp payload op := by
  unfold stateOps at h
  split at h
  · exact absurd h List.not_mem_nil
  · simp only [List.mem_cons,List.not_mem_nil,or_false] at h
    rcases h with rfl | rfl | rfl
    · exact .lockStatus chunk hpart
    · exact .ingest chunk hpart
    · exact .state chunk hpart

/-- Every operation for a payload is one of these. -/
theorem payloadOp_of_mem {payload : Bytes} {op : UpstreamOp}
    (h : op ∈ handleUpstreamPayload payload) : PayloadOp payload op := by
  unfold handleUpstreamPayload at h
  split at h
  · simp only [List.mem_cons,List.not_mem_nil,or_false] at h
    rcases h with rfl | rfl
    · exact .ingest payload (Nat.le_refl _)
    · exact .state payload (Nat.le_refl _)
  · rename_i cmds hparse
    have hpart := chunkBytes_length_le hparse
    simp only [List.mem_append] at h
    rcases h with ((h | h) | h) | h
    · exact payloadOp_of_stateOps (hpart .state) h
    · split at h
      · exact absurd h List.not_mem_nil
      · rw [List.mem_singleton.mp h]
        exact .audio _ (hpart .audio)
    · split at h
      · exact absurd h List.not_mem_nil
      · rw [List.mem_singleton.mp h]
        exact .transfer _ (hpart .transfer)
    · split at h
      · simp only [List.mem_cons,List.not_mem_nil,or_false] at h
        rcases h with rfl | rfl
        · exact .setReady
        · exact .swapConnected
      · exact absurd h List.not_mem_nil

end AtemProxy.UpstreamEvents
