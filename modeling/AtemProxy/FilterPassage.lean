import AtemProxy.AudioAgreement
import AtemProxy.ForwardGrants

/-!
# What a parsed payload becomes

A parsed payload gets one action per command, in order. An action may drop
its command or hold it back, but bytes that it sends are the bytes of the
command. The last byte that a disabling edge writes is the flag that made
the command a disable, so that edge changes nothing either.
-/

namespace AtemProxy.FilterPassage

open BigEndian PacketCodec CommandFrames LockStores TransferLanes ProxyConfig CommandPolicy
  AudioAgreement ForwardGrants

/-- Names that subscribe to audio levels. -/
def audioNames : List CommandName := [tag 'S' 'A' 'L' 'N',tag 'F' 'A' 'S' 'P',tag 'S' 'A' 'f' 'f']

/-- One decoded character adds one to the length of the text behind it. -/
theorem length_le_of_map_cons {c bound : ℕ} {rest : Option (List ℕ)} {text : List ℕ}
    (h : rest.map (c::·)=some text) (hrest : ∀ tail,rest=some tail → tail.length ≤ bound) :
    text.length ≤ bound+1 := by
  obtain ⟨tail,htail,rfl⟩ := Option.map_eq_some_iff.mp h
  have hle := hrest tail htail
  rw [List.length_cons]
  omega

/-- A text has at most one character per byte. -/
theorem fromUtf8_length_le {bytes : Bytes} {text : List ℕ} (h : fromUtf8 bytes=some text) :
    text.length ≤ bytes.length := by
  fun_induction fromUtf8 bytes generalizing text with
  | case1 =>
    cases h
    exact Nat.le_refl 0
  | case2 =>
    cases h
    exact Nat.le_refl 1
  | case4 b0 b1 rest _ ih => exact length_le_of_map_cons h (fun _ => ih)
  | case5 b0 b1 rest _ _ _ ih =>
    have hle := length_le_of_map_cons h (fun _ => ih)
    simp only [List.length_cons]
    omega
  | case8 b0 b1 b2 rest _ _ _ _ ih =>
    have hle := length_le_of_map_cons h (fun _ => ih)
    simp only [List.length_cons]
    omega
  | case11 b0 b1 b2 b3 rest _ _ _ _ ih =>
    have hle := length_le_of_map_cons h (fun _ => ih)
    simp only [List.length_cons]
    omega
  | _ => cases h

/-- An occurring text is no longer than the text it occurs in. -/
theorem length_le_of_containsText {needle text : List ℕ} (h : containsText needle text=true) :
    needle.length ≤ text.length := by
  induction text with
  | nil => exact (List.isPrefixOf_iff_prefix.mp h).length_le
  | cons c text ih =>
    rw [containsText,Bool.or_eq_true] at h
    rcases h with hp | ht
    · exact (List.isPrefixOf_iff_prefix.mp hp).length_le
    · have hle := ih ht
      rw [List.length_cons]
      omega

/-- The text patterns are longer than a name, so only the listed names remain. -/
theorem isAudioLevelsSubscribe_iff (name : CommandName) :
    isAudioLevelsSubscribe name=true ↔ name∈audioNames := by
  have hshort : ∀ text,name.asStr=some text → text.length ≤ 4 := fun _ h => fromUtf8_length_le h
  have hno : name.textHas (fun text =>
      containsText (codes ['S','e','n','d','L','e','v','e','l','s']) text ||
      (containsText (codes ['L','e','v','e','l','s']) text &&
        containsText (codes ['E','n','a','b','l','e']) text))=false := by
    unfold CommandName.textHas
    cases htext : name.asStr with
    | none => rfl
    | some text =>
      have hle := hshort text htext
      have hlong : ∀ needle : List ℕ,5<needle.length → containsText needle text=false :=
        fun needle hn => by
          rw [Bool.eq_false_iff]
          intro hc
          have := length_le_of_containsText hc
          omega
      dsimp only
      rw [hlong _ (by decide),hlong (codes ['L','e','v','e','l','s']) (by decide)]
      rfl
  rw [isAudioLevelsSubscribe,hno,Bool.or_false,decide_eq_true_eq]
  exact Iff.rfl

/-- Audio commands are decided by the audio branch. -/
theorem processCommand_of_audio {cmd : CommandRef} (h : isAudioLevelsSubscribe cmd.name=true)
    (f : CommandFilter) (sender : SocketAddr) :
    f.processCommand sender cmd=f.processAudio sender cmd := by
  have hother : ∀ name∈audioNames,isLockRequest name=false ∧ isTransferCommand name=false := by
    decide
  obtain ⟨hl,ht⟩ := hother cmd.name ((isAudioLevelsSubscribe_iff cmd.name).mp h)
  rw [CommandFilter.processCommand,hl,ht,if_neg Bool.false_ne_true,if_neg Bool.false_ne_true,
    if_pos h]

/-- Flag that the filter reads from an audio command. -/
def audioFlag (cmd : CommandRef) : Bool := (parseEnableFlag cmd.body).getD true

/-- A disabling command has a body that ends with zero. -/
theorem body_of_audioFlag_false {cmd : CommandRef} (h : audioFlag cmd=false) :
    cmd.body≠[] ∧ cmd.body.dropLast++[0]=cmd.body := by
  have hbody : cmd.body≠[] := by
    intro hnil
    rw [audioFlag,hnil] at h
    cases h
  have hlast : cmd.body.getLast hbody=0 := by
    rw [audioFlag,parseEnableFlag,List.getLast?_eq_some_getLast hbody,Option.map_some,
      Option.getD_some,decide_eq_false_iff_not,not_not] at h
    exact h
  refine ⟨hbody,?_⟩
  rw [←hlast]
  exact List.dropLast_append_getLast hbody

/-- The frame of a disable is its own synthesized disable. -/
theorem synthesizeAudioDisable_of_disable {cmd : CommandRef} (h : audioFlag cmd=false) :
    synthesizeAudioDisable cmd.raw=cmd.raw := by
  obtain ⟨hbody,hend⟩ := body_of_audioFlag_false h
  obtain ⟨_,r0,r1,hr⟩ := cmd.framed
  obtain ⟨b,tail,hb⟩ := List.exists_cons_of_ne_nil hbody
  rw [hb] at hend
  rw [synthesizeAudioDisable,if_neg cmd.raw_ne_nil,hr,frameBytes,hb]
  simp only [List.dropLast_cons_cons,List.cons_append,hend]

/-- An audio command is sent unchanged on an edge and held back otherwise. -/
theorem processAudio_action (f : CommandFilter) (sender : SocketAddr) (cmd : CommandRef) :
    (f.processAudio sender cmd).2=.audioSubscribe (audioFlag cmd)
      ((audioEdge f.audio.clients.card
        (f.audio.update sender (audioFlag cmd) cmd.raw).clients.card).map (fun _ => cmd.raw)) := by
  have hflag := audioEdge_getD f.audio sender (audioFlag cmd) cmd.raw
  unfold audioFlag at hflag
  simp only [CommandFilter.processAudio,audioFlag,hflag]
  congr 1
  cases hedge : audioEdge f.audio.clients.card
      (f.audio.update sender ((parseEnableFlag cmd.body).getD true) cmd.raw).clients.card with
  | none => rfl
  | some edge =>
    cases edge with
    | true => rfl
    | false =>
      have hdis := synthesizeAudioDisable_of_disable (enable_of_edge_false hedge)
      simp only [Option.map_some,Bool.false_eq_true,if_false,hdis]

/-- An action does with a command what the filter may do with it. -/
structure Faithful (cmd : CommandRef) (action : FilterAction) : Prop where
  /-- Commands without a policy of their own pass unchanged. -/
  passes : isLockRequest cmd.name=false → isTransferCommand cmd.name=false →
    isAudioLevelsSubscribe cmd.name=false → action=.forward cmd.raw
  /-- Bytes sent upstream are the bytes of the command. -/
  unchanged : ∀ raw∈action.forwarded,raw=cmd.raw
  /-- A dropped command is reported under its name. -/
  named : ∀ name reason,action=.dropped name reason → name=cmd.name
  /-- A subscription is reported with the flag of an audio command. -/
  flagged : ∀ enable sent,action=.audioSubscribe enable sent →
    isAudioLevelsSubscribe cmd.name=true ∧ enable=(parseEnableFlag cmd.body).getD true

/-- A command that is forwarded as it is. -/
theorem faithful_forward (cmd : CommandRef) : Faithful cmd (.forward cmd.raw) where
  passes _ _ _ := rfl
  unchanged _ h := List.mem_singleton.mp h
  named _ _ h := by cases h
  flagged _ _ h := by cases h

/-- Commands with a policy may be dropped. -/
theorem faithful_dropped {cmd : CommandRef}
    (h : isLockRequest cmd.name=true ∨ isTransferCommand cmd.name=true) (reason : DropReason) :
    Faithful cmd (.dropped cmd.name reason) where
  passes hl ht _ := by
    rw [hl,ht] at h
    exact absurd h (by decide)
  unchanged _ h := absurd h List.not_mem_nil
  named _ _ h := by
    cases h
    rfl
  flagged _ _ h := by cases h

/-- An audio command is forwarded as it is, disabled, or not at all. -/
theorem faithful_processAudio {cmd : CommandRef} (h : isAudioLevelsSubscribe cmd.name=true)
    (f : CommandFilter) (sender : SocketAddr) : Faithful cmd (f.processAudio sender cmd).2 := by
  rw [processAudio_action]
  constructor
  · intro _ _ ha
    rw [h] at ha
    cases ha
  · intro raw hraw
    rw [FilterAction.forwarded,Option.mem_toList] at hraw
    obtain ⟨_,_,he⟩ := Option.mem_map.mp hraw
    exact he.symm
  · intro _ _ hd
    cases hd
  · intro enable sent hs
    cases hs
    exact ⟨h,rfl⟩

/-- Every branch of the filter is faithful to the command. -/
theorem faithful_processCommand (f : CommandFilter) (sender : SocketAddr) (cmd : CommandRef) :
    Faithful cmd (f.processCommand sender cmd).2 := by
  unfold CommandFilter.processCommand
  split_ifs with hl ht ha
  · unfold CommandFilter.processLock
    cases f.policy.lockMode with
    | deny => exact faithful_dropped (Or.inl hl) _
    | singleOwner =>
      dsimp only
      cases (f.policy.locks.clientLockRequest sender cmd.name cmd.body).2 with
      | forward => exact faithful_forward cmd
      | drop => exact faithful_dropped (Or.inl hl) _
  · unfold CommandFilter.processTransfer
    split_ifs with he
    · exact faithful_dropped (Or.inr ht) _
    · dsimp only
      cases (f.policy.transfer.clientTransfer f.policy.locks sender cmd.name cmd.body).2 with
      | forward => exact faithful_forward cmd
      | drop => exact faithful_dropped (Or.inr ht) _
  · exact faithful_processAudio ha f sender
  · exact faithful_forward cmd

/-- Commands and actions correspond one to one, in order. -/
theorem faithful_processCommands (f : CommandFilter) (sender : SocketAddr)
    (cmds : List CommandRef) : List.Forall₂ Faithful cmds (f.processCommands sender cmds).2 := by
  induction cmds generalizing f with
  | nil => exact .nil
  | cons cmd cmds ih =>
    exact .cons (faithful_processCommand f sender cmd) (ih (f.processCommand sender cmd).1)

/-- In every state of the filter, a payload that parses is answered command
by command, and faithfully. -/
theorem parsed_payload_passes_faithfully (f : CommandFilter) (sender : SocketAddr)
    (payload : Bytes) (cmds : List CommandRef) (h : parseCommands payload=.ok cmds) :
    (f.processPayload sender payload).2.length=cmds.length ∧
      List.Forall₂ Faithful cmds (f.processPayload sender payload).2 := by
  have hpass : f.processPayload sender payload=f.processCommands sender cmds := by
    unfold CommandFilter.processPayload
    rw [h]
  rw [hpass]
  have hall := faithful_processCommands f sender cmds
  exact ⟨hall.length_eq.symm,hall⟩

/-- A lock request, an audio enable and a cut in one payload. -/
def lockAudioCut : Bytes :=
  serializeCommand (tag 'L' 'O' 'C' 'K') [0,0,1,0]++serializeCommand (tag 'S' 'A' 'L' 'N') [1]++
    serializeCommand (tag 'D' 'C' 'u' 't') [0,0]

/-- The default filter drops the lock request and sends the two others. -/
theorem lockAudioCut_passes_faithfully :
    (denyFilter.processPayload ⟨1,1⟩ lockAudioCut).2.flatMap FilterAction.forwarded=
        [serializeCommand (tag 'S' 'A' 'L' 'N') [1],serializeCommand (tag 'D' 'C' 'u' 't') [0,0]] ∧
      (denyFilter.processPayload ⟨1,1⟩ lockAudioCut).2.length=3 ∧
      List.Forall₂ Faithful (parsedCommands lockAudioCut)
        (denyFilter.processPayload ⟨1,1⟩ lockAudioCut).2 := by
  have hparses : parseCommands lockAudioCut=.ok (parsedCommands lockAudioCut) := by decide
  have hpass := parsed_payload_passes_faithfully denyFilter ⟨1,1⟩ lockAudioCut _ hparses
  have hcount : (parsedCommands lockAudioCut).length=3 := by decide
  exact ⟨by decide,hpass.1.trans hcount,hpass.2⟩

end AtemProxy.FilterPassage
