import AtemProxy.TransferLanes
import Mathlib.Data.Finset.Card

/-!
# The fan-in filter and what it lets through

Each command of a parsed client payload is decided on its own: lock
requests by the broker, transfer commands by the lane, audio level
subscriptions by the change of the subscriber set, everything else is
forwarded. A payload that does not parse is forwarded whole. The set of
already logged warnings has no effect on any result and is left out.
-/

namespace AtemProxy.CommandPolicy

open BigEndian PacketCodec CommandFrames FrameWalk LockStores TransferLanes ProxyConfig

/-- Why a client command was dropped. -/
inductive DropReason where
  /-- Lock requests are not allowed by the configuration. -/
  | lockDenied
  /-- The broker refused the request. -/
  | lockBusy
  /-- Media transfers are not allowed by the configuration. -/
  | mediaDisabled
  /-- The lane refused the command. -/
  | transferNotAllowed
  deriving DecidableEq

/-- Literal reason text. -/
def DropReason.text : DropReason → String
  | .lockDenied => "lock commands denied (enable compat.softatem or locks.mode=single_owner)"
  | .lockBusy => "lock store busy or not owned by this client"
  | .mediaDisabled => "media transfer disabled (enable compat.softatem or media.enabled)"
  | .transferNotAllowed => "transfer not allowed for this client (need lock ownership)"

/-- Outcome of the filter for one command, or for a whole unparsed payload. -/
inductive FilterAction where
  /-- Send these bytes upstream. -/
  | forward (raw : Bytes)
  /-- Drop the named command. -/
  | dropped (name : CommandName) (reason : DropReason)
  /-- Record the client's subscription and optionally send bytes upstream. -/
  | audioSubscribe (enable : Bool) (sent : Option Bytes)
  deriving DecidableEq

/-- Bytes that an action asks to send upstream. -/
def FilterAction.forwarded : FilterAction → List Bytes
  | .forward raw => [raw]
  | .dropped _ _ => []
  | .audioSubscribe _ sent => sent.toList

/-- Audio level subscribers and the last enable command seen. -/
structure AudioSubs where
  /-- Clients that asked for audio levels. -/
  clients : Finset SocketAddr
  /-- Raw bytes of the latest enable command. -/
  lastEnable : Option Bytes

/-- Lock mode and the two arbitrated resources. -/
structure FilterPolicy where
  /-- Treatment of lock requests. -/
  lockMode : LockMode
  /-- Store ownership. -/
  locks : LockBroker
  /-- Media lane. -/
  transfer : TransferLane

/-- Filter state shared by all clients. -/
structure CommandFilter where
  /-- Audio level subscriptions. -/
  audio : AudioSubs
  /-- Lock and transfer policy. -/
  policy : FilterPolicy

/-- Filter without subscribers. -/
def CommandFilter.new (policy : FilterPolicy) : CommandFilter := ⟨⟨∅,none⟩,policy⟩

/-- Enable flag in the last body byte. -/
def parseEnableFlag (body : Bytes) : Option Bool := body.getLast?.map (fun b => decide (b≠0))

/-- A command with its last byte replaced by zero. -/
def synthesizeAudioDisable (enableCmd : Bytes) : Bytes :=
  if enableCmd=[] then [] else enableCmd.dropLast++[0]

/-- Subscriber set after a subscription command. -/
def AudioSubs.update (subs : AudioSubs) (sender : SocketAddr) (enable : Bool) (raw : Bytes) :
    AudioSubs :=
  if enable=true then ⟨insert sender subs.clients,some raw⟩
  else {subs with clients := subs.clients.erase sender}

/-- Change of the subscriber set between empty and non-empty. -/
def audioEdge (before after : ℕ) : Option Bool :=
  if before=0 ∧ 0<after then some true
  else if 0<before ∧ after=0 then some false
  else none

namespace CommandFilter

/-- Outcome of an audio subscription command. -/
def processAudio (f : CommandFilter) (sender : SocketAddr) (cmd : CommandRef) :
    CommandFilter×FilterAction :=
  let enable := (parseEnableFlag cmd.body).getD true
  let subs := f.audio.update sender enable cmd.raw
  let edge := audioEdge f.audio.clients.card subs.clients.card
  ({f with audio := subs},
    .audioSubscribe (edge.getD enable)
      (edge.map (fun en => if en=true then cmd.raw else synthesizeAudioDisable cmd.raw)))

/-- Outcome of a lock request. -/
def processLock (f : CommandFilter) (sender : SocketAddr) (cmd : CommandRef) :
    CommandFilter×FilterAction :=
  match f.policy.lockMode with
  | .deny => (f,.dropped cmd.name .lockDenied)
  | .singleOwner =>
    let answer := f.policy.locks.clientLockRequest sender cmd.name cmd.body
    ({f with policy := {f.policy with locks := answer.1}},
      match answer.2 with
      | .forward => .forward cmd.raw
      | .drop => .dropped cmd.name .lockBusy)

/-- Outcome of a transfer command. -/
def processTransfer (f : CommandFilter) (sender : SocketAddr) (cmd : CommandRef) :
    CommandFilter×FilterAction :=
  if f.policy.transfer.enabled=false then (f,.dropped cmd.name .mediaDisabled)
  else
    let answer := f.policy.transfer.clientTransfer f.policy.locks sender cmd.name cmd.body
    ({f with policy := {f.policy with transfer := answer.1}},
      match answer.2 with
      | .forward => .forward cmd.raw
      | .drop => .dropped cmd.name .transferNotAllowed)

/-- Outcome of one parsed command. -/
def processCommand (f : CommandFilter) (sender : SocketAddr) (cmd : CommandRef) :
    CommandFilter×FilterAction :=
  if isLockRequest cmd.name=true then f.processLock sender cmd
  else if isTransferCommand cmd.name=true then f.processTransfer sender cmd
  else if isAudioLevelsSubscribe cmd.name=true then f.processAudio sender cmd
  else (f,.forward cmd.raw)

/-- Outcomes of parsed commands in payload order. -/
def processCommands (f : CommandFilter) (sender : SocketAddr) :
    List CommandRef → CommandFilter×List FilterAction
  | [] => (f,[])
  | cmd::cmds =>
    let first := f.processCommand sender cmd
    let others := first.1.processCommands sender cmds
    (others.1,first.2::others.2)

/-- Outcomes for a client payload; an unparseable one is forwarded whole. -/
def processPayload (f : CommandFilter) (sender : SocketAddr) (payload : Bytes) :
    CommandFilter×List FilterAction :=
  match parseCommands payload with
  | .error _ => (f,[.forward payload])
  | .ok cmds => f.processCommands sender cmds

/-- Remove a disconnected client everywhere and return the commands to
send upstream: an audio disable for the last subscriber, then unlocks. -/
def clientDisconnected (f : CommandFilter) (addr : SocketAddr) : CommandFilter×List Bytes :=
  let clients := f.audio.clients.erase addr
  let disable :=
    if addr ∈ f.audio.clients ∧ clients=∅ then
      (f.audio.lastEnable.map synthesizeAudioDisable).toList
    else []
  let locks := f.policy.locks.clientDisconnected addr
  (⟨{f.audio with clients := clients},
      {f.policy with
        locks := locks.1
        transfer := f.policy.transfer.clientDisconnected addr}⟩,
    disable++locks.2)

end CommandFilter

/-- Zeroing the last byte of a frame with a body zeroes its last body byte. -/
theorem synthesizeAudioDisable_framed {cmd : CommandRef} (h : cmd.body≠[]) :
    ∃ d : CommandRef, d.raw=synthesizeAudioDisable cmd.raw ∧ d.name=cmd.name ∧
      d.body=cmd.body.dropLast++[0] := by
  obtain ⟨hl,r0,r1,hr⟩ := cmd.framed
  have hlen : (cmd.body.dropLast++[0]).length=cmd.body.length := by
    have hp := List.length_pos_iff.mpr h
    rw [List.length_append,List.length_dropLast,List.length_singleton]
    omega
  have hraw : synthesizeAudioDisable cmd.raw=
      frameBytes r0 r1 cmd.name (cmd.body.dropLast++[0]) := by
    obtain ⟨b,tail,hb⟩ := List.exists_cons_of_ne_nil h
    rw [hr]
    unfold synthesizeAudioDisable frameBytes
    rw [if_neg (List.cons_ne_nil _ _),hlen,hb]
    simp only [List.dropLast_cons_cons,List.cons_append]
  exact ⟨⟨cmd.name,synthesizeAudioDisable cmd.raw,cmd.body.dropLast++[0],
    by omega,r0,r1,hraw⟩,rfl,rfl,rfl⟩

/-- A disabling edge needs a disabling command. -/
theorem audioEdge_false {before after : ℕ} (h : audioEdge before after=some false) :
    0<before ∧ after=0 := by
  unfold audioEdge at h
  split at h
  · cases h
  · split at h
    · assumption
    · cases h

/-- A disabling edge never comes from an enable command. -/
theorem enable_of_edge_false {subs : AudioSubs} {sender : SocketAddr} {enable : Bool}
    {raw : Bytes}
    (h : audioEdge subs.clients.card (subs.update sender enable raw).clients.card=some false) :
    enable=false := by
  have hz := (audioEdge_false h).2
  cases enable with
  | false => rfl
  | true =>
    have hm : sender ∈ (subs.update sender true raw).clients := Finset.mem_insert_self _ _
    rw [Finset.card_eq_zero.mp hz] at hm
    exact absurd hm (Finset.notMem_empty _)

/-- Bytes forwarded for one command are one frame with that command's name. -/
theorem CommandFilter.processCommand_forwarded (f : CommandFilter) (sender : SocketAddr)
    (cmd : CommandRef) {raw : Bytes} (h : raw ∈ (f.processCommand sender cmd).2.forwarded) :
    ∃ d : CommandRef, raw=d.raw ∧ d.name=cmd.name ∧
      (isLockRequest cmd.name=true ∨ isTransferCommand cmd.name=true → d=cmd) := by
  unfold processCommand at h
  split_ifs at h with hl ht ha
  · unfold processLock at h
    cases hm : f.policy.lockMode with
    | deny => rw [hm] at h; exact absurd h (List.not_mem_nil)
    | singleOwner =>
      rw [hm] at h
      dsimp only at h
      cases hd : (f.policy.locks.clientLockRequest sender cmd.name cmd.body).2 with
      | forward =>
        rw [hd] at h
        exact ⟨cmd,List.mem_singleton.mp h,rfl,fun _ => rfl⟩
      | drop => rw [hd] at h; exact absurd h (List.not_mem_nil)
  · unfold processTransfer at h
    split_ifs at h with he
    · exact absurd h (List.not_mem_nil)
    · dsimp only at h
      cases hd : (f.policy.transfer.clientTransfer f.policy.locks sender cmd.name cmd.body).2 with
      | forward =>
        rw [hd] at h
        exact ⟨cmd,List.mem_singleton.mp h,rfl,fun _ => rfl⟩
      | drop => rw [hd] at h; exact absurd h (List.not_mem_nil)
  · have hno : ¬(isLockRequest cmd.name=true ∨ isTransferCommand cmd.name=true) :=
      not_or.mpr ⟨hl,ht⟩
    unfold processAudio at h
    dsimp only [FilterAction.forwarded] at h
    rw [Option.mem_toList] at h
    obtain ⟨en,he,hr⟩ := Option.mem_map.mp h
    cases en with
    | true => exact ⟨cmd,hr.symm,rfl,fun hh => absurd hh hno⟩
    | false =>
      have hdis := enable_of_edge_false he
      have hb : cmd.body≠[] := by
        intro hn
        rw [hn] at hdis
        cases hdis
      obtain ⟨d,hd,hn,_⟩ := synthesizeAudioDisable_framed hb
      exact ⟨d,hr.symm.trans hd.symm,hn,fun hh => absurd hh hno⟩
  · exact ⟨cmd,List.mem_singleton.mp h,rfl,fun _ => rfl⟩

end AtemProxy.CommandPolicy
