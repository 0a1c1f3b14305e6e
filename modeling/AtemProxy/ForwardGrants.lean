import AtemProxy.CommandPolicy

/-!
# Which forwarded lock and transfer frames were granted

The switcher reads a forwarded byte string as command frames from offset
zero until the first malformed one. Every lock or transfer frame it finds
there should have been granted by the broker or by the lane. That holds
for parsed payloads; a payload that does not parse is forwarded without
consulting either of them.
-/

namespace AtemProxy.ForwardGrants

open BigEndian CommandFrames FrameWalk LockStores TransferLanes ProxyConfig CommandPolicy

/-- Parsed commands, each with the filter state in which it is decided. -/
def decided (f : CommandFilter) (sender : SocketAddr) :
    List CommandRef → List (CommandFilter×CommandRef)
  | [] => []
  | cmd::cmds => (f,cmd)::decided (f.processCommand sender cmd).1 sender cmds

/-- The broker was asked about this command of the payload and allowed it. -/
def LockGranted (f : CommandFilter) (sender : SocketAddr) (payload : Bytes)
    (cmd : CommandRef) : Prop :=
  ∃ g, (g,cmd) ∈ decided f sender (parsedCommands payload) ∧
    g.policy.lockMode=.singleOwner ∧
    (g.policy.locks.clientLockRequest sender cmd.name cmd.body).2=.forward

/-- The lane was asked about this command of the payload and allowed it. -/
def TransferGranted (f : CommandFilter) (sender : SocketAddr) (payload : Bytes)
    (cmd : CommandRef) : Prop :=
  ∃ g, (g,cmd) ∈ decided f sender (parsedCommands payload) ∧
    g.policy.transfer.enabled=true ∧
    (g.policy.transfer.clientTransfer g.policy.locks sender cmd.name cmd.body).2=.forward

/-- Every lock or transfer frame in a forwarded byte string was granted,
and none exists while its policy is switched off. -/
def PolicyKept (f : CommandFilter) (sender : SocketAddr) (payload : Bytes) : Prop :=
  ∀ action ∈ (f.processPayload sender payload).2, ∀ raw ∈ action.forwarded,
    ∀ cmd ∈ walkFrames raw,
      (isLockRequest cmd.name=true →
        f.policy.lockMode=.singleOwner ∧ LockGranted f sender payload cmd) ∧
      (isTransferCommand cmd.name=true →
        f.policy.transfer.enabled=true ∧ TransferGranted f sender payload cmd)

/-- No command is both a lock request and a transfer command. -/
theorem isLockRequest_of_isTransferCommand {name : CommandName}
    (h : isTransferCommand name=true) : isLockRequest name=false := by
  cases hl : isLockRequest name with
  | false => rfl
  | true =>
    have hm : name ∈ [tag 'L' 'O' 'C' 'K',tag 'P' 'L' 'C' 'K'] := of_decide_eq_true hl
    simp only [List.mem_cons,List.not_mem_nil,or_false] at hm
    rcases hm with rfl | rfl
    · exact absurd h (by decide)
    · exact absurd h (by decide)

/-- The configured part of the policy never changes. -/
theorem processCommand_config (f : CommandFilter) (sender : SocketAddr) (cmd : CommandRef) :
    (f.processCommand sender cmd).1.policy.lockMode=f.policy.lockMode ∧
      (f.processCommand sender cmd).1.policy.transfer.enabled=f.policy.transfer.enabled := by
  unfold CommandFilter.processCommand
  split_ifs
  · unfold CommandFilter.processLock
    cases hm : f.policy.lockMode with
    | deny => exact ⟨hm,rfl⟩
    | singleOwner => exact ⟨hm,rfl⟩
  · unfold CommandFilter.processTransfer
    split_ifs
    · exact ⟨rfl,rfl⟩
    · refine ⟨rfl,?_⟩
      unfold TransferLane.enabled
      dsimp only
      rw [TransferLane.clientTransfer_cfg]
  · exact ⟨rfl,rfl⟩
  · exact ⟨rfl,rfl⟩

/-- The configuration is the same for all commands of a payload. -/
theorem decided_config {f g : CommandFilter} {sender : SocketAddr} {cmd : CommandRef}
    {cmds : List CommandRef} (h : (g,cmd) ∈ decided f sender cmds) :
    g.policy.lockMode=f.policy.lockMode ∧
      g.policy.transfer.enabled=f.policy.transfer.enabled := by
  induction cmds generalizing f with
  | nil => exact absurd h (List.not_mem_nil)
  | cons c cmds ih =>
    rcases List.mem_cons.mp h with he | ht
    · cases he
      exact ⟨rfl,rfl⟩
    · obtain ⟨hl,he⟩ := ih ht
      obtain ⟨hl',he'⟩ := processCommand_config f sender c
      exact ⟨hl.trans hl',he.trans he'⟩

/-- Every action of a parsed payload decides one of its commands. -/
theorem processCommands_decided {f : CommandFilter} {sender : SocketAddr}
    {cmds : List CommandRef} {action : FilterAction}
    (h : action ∈ (f.processCommands sender cmds).2) :
    ∃ g cmd, (g,cmd) ∈ decided f sender cmds ∧ action=(g.processCommand sender cmd).2 := by
  induction cmds generalizing f with
  | nil => exact absurd h (List.not_mem_nil)
  | cons c cmds ih =>
    rcases List.mem_cons.mp h with he | ht
    · exact ⟨f,c,List.mem_cons_self,he⟩
    · obtain ⟨g,cmd,hm,ha⟩ := ih ht
      exact ⟨g,cmd,List.mem_cons_of_mem _ hm,ha⟩

/-- A lock request whose bytes are forwarded was allowed by the broker. -/
theorem processCommand_lock_granted {g : CommandFilter} {sender : SocketAddr}
    {cmd : CommandRef} {raw : Bytes} (hl : isLockRequest cmd.name=true)
    (h : raw ∈ (g.processCommand sender cmd).2.forwarded) :
    g.policy.lockMode=.singleOwner ∧
      (g.policy.locks.clientLockRequest sender cmd.name cmd.body).2=.forward := by
  unfold CommandFilter.processCommand at h
  rw [if_pos hl] at h
  unfold CommandFilter.processLock at h
  cases hm : g.policy.lockMode with
  | deny => rw [hm] at h; exact absurd h (List.not_mem_nil)
  | singleOwner =>
    rw [hm] at h
    dsimp only at h
    cases hd : (g.policy.locks.clientLockRequest sender cmd.name cmd.body).2 with
    | forward => exact ⟨rfl,rfl⟩
    | drop => rw [hd] at h; exact absurd h (List.not_mem_nil)

/-- A transfer command whose bytes are forwarded was allowed by the lane. -/
theorem processCommand_transfer_granted {g : CommandFilter} {sender : SocketAddr}
    {cmd : CommandRef} {raw : Bytes} (ht : isTransferCommand cmd.name=true)
    (h : raw ∈ (g.processCommand sender cmd).2.forwarded) :
    g.policy.transfer.enabled=true ∧
      (g.policy.transfer.clientTransfer g.policy.locks sender cmd.name cmd.body).2=.forward := by
  have hl : ¬isLockRequest cmd.name=true := by
    rw [isLockRequest_of_isTransferCommand ht]
    exact Bool.false_ne_true
  unfold CommandFilter.processCommand at h
  rw [if_neg hl,if_pos ht] at h
  unfold CommandFilter.processTransfer at h
  split_ifs at h with he
  · exact absurd h (List.not_mem_nil)
  · refine ⟨Bool.eq_true_of_not_eq_false he,?_⟩
    dsimp only at h
    cases hd : (g.policy.transfer.clientTransfer g.policy.locks sender cmd.name cmd.body).2 with
    | forward => rfl
    | drop => rw [hd] at h; exact absurd h (List.not_mem_nil)

/-- A payload that parses is decided command by command. -/
theorem processPayload_of_parses {f : CommandFilter} {sender : SocketAddr} {payload : Bytes}
    (h : Parses payload) :
    f.processPayload sender payload=f.processCommands sender (parsedCommands payload) := by
  have hp := parseCommands_ok_iff.mpr ⟨h,rfl⟩
  unfold CommandFilter.processPayload parsedCommands
  rw [hp]

/-- A payload that does not parse is forwarded whole. -/
theorem processPayload_of_not_parses {f : CommandFilter} {sender : SocketAddr}
    {payload : Bytes} (h : ¬Parses payload) :
    f.processPayload sender payload=(f,[.forward payload]) ∧ parsedCommands payload=[] := by
  obtain ⟨e,he⟩ := parseCommands_error_iff.mpr h
  unfold CommandFilter.processPayload parsedCommands
  rw [he]
  exact ⟨rfl,rfl⟩

/-- Parsed payloads keep the policy in every filter state. -/
theorem policyKept_of_parses (f : CommandFilter) (sender : SocketAddr) {payload : Bytes}
    (h : Parses payload) : PolicyKept f sender payload := by
  intro action ha raw hr found hf
  rw [processPayload_of_parses h] at ha
  obtain ⟨g,cmd,hg,rfl⟩ := processCommands_decided ha
  obtain ⟨hmode,hmedia⟩ := decided_config hg
  obtain ⟨d,rfl,hname,hsame⟩ := g.processCommand_forwarded sender cmd hr
  rw [walkFrames_raw,List.mem_singleton] at hf
  subst hf
  constructor
  · intro hl
    rw [hname] at hl
    have hd := hsame (Or.inl hl)
    obtain ⟨hm,hgrant⟩ := processCommand_lock_granted hl hr
    exact ⟨hmode.symm.trans hm,g,hd ▸ hg,hm,hd ▸ hgrant⟩
  · intro ht
    rw [hname] at ht
    have hd := hsame (Or.inr ht)
    obtain ⟨hm,hgrant⟩ := processCommand_transfer_granted ht hr
    exact ⟨hmedia.symm.trans hm,g,hd ▸ hg,hm,hd ▸ hgrant⟩

/-- The policy is kept for a client payload, in any filter state, exactly
when the payload parses or its walk meets no lock and no transfer frame. -/
theorem policyKept_iff (f : CommandFilter) (sender : SocketAddr) (payload : Bytes) :
    PolicyKept f sender payload ↔
      Parses payload ∨ ∀ cmd ∈ walkFrames payload,
        isLockRequest cmd.name=false ∧ isTransferCommand cmd.name=false := by
  constructor
  · intro hkept
    by_cases hp : Parses payload
    · exact Or.inl hp
    · right
      intro cmd hc
      obtain ⟨hprocess,hnone⟩ := @processPayload_of_not_parses f sender payload hp
      obtain ⟨hlock,htransfer⟩ := hkept (.forward payload)
        (by rw [hprocess]; exact List.mem_singleton_self _) payload
        (List.mem_singleton_self _) cmd hc
      constructor
      · cases hl : isLockRequest cmd.name with
        | false => rfl
        | true =>
          obtain ⟨_,g,hg,_⟩ := hlock hl
          rw [hnone] at hg
          exact absurd hg (List.not_mem_nil)
      · cases ht : isTransferCommand cmd.name with
        | false => rfl
        | true =>
          obtain ⟨_,g,hg,_⟩ := htransfer ht
          rw [hnone] at hg
          exact absurd hg (List.not_mem_nil)
  · rintro (hp | hclean)
    · exact policyKept_of_parses f sender hp
    · by_cases hp : Parses payload
      · exact policyKept_of_parses f sender hp
      · intro action ha raw hr cmd hc
        rw [(processPayload_of_not_parses hp).1,List.mem_singleton] at ha
        subst ha
        rw [FilterAction.forwarded,List.mem_singleton] at hr
        subst hr
        obtain ⟨hl,ht⟩ := hclean cmd hc
        rw [hl,ht]
        exact ⟨fun h => absurd h Bool.false_ne_true,fun h => absurd h Bool.false_ne_true⟩

/-- Filter in the default configuration: locks denied, media disabled. -/
def denyFilter : CommandFilter := .new ⟨.deny,.new,.new {}⟩

/-- A lock request for store zero followed by one stray byte. -/
def lockThenGarbage : Bytes := serializeCommand (tag 'L' 'O' 'C' 'K') [0,0,1,0]++[0]

/-- In the default configuration a lock request with one trailing byte is
forwarded, and the switcher reads the lock request at offset zero. -/
theorem policyKept_lockThenGarbage :
    (denyFilter.processPayload ⟨1,1⟩ lockThenGarbage).2=[.forward lockThenGarbage] ∧
      (walkFrames lockThenGarbage).map CommandRef.name=[tag 'L' 'O' 'C' 'K'] ∧
      ¬PolicyKept denyFilter ⟨1,1⟩ lockThenGarbage := by
  refine ⟨by decide,by decide,?_⟩
  intro hkept
  have hlock : ∃ cmd ∈ walkFrames lockThenGarbage, isLockRequest cmd.name=true := by decide
  obtain ⟨cmd,hm,hl⟩ := hlock
  have hmode := ((hkept (.forward lockThenGarbage) (by decide) lockThenGarbage
    (List.mem_singleton_self _) cmd hm).1 hl).1
  exact absurd hmode (by decide)

end AtemProxy.ForwardGrants
