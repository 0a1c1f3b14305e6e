import AtemProxy.ReliableTransport
import AtemProxy.ForwardGrants

/-!
# Commands of several clients in one datagram

Forwarded byte strings of all clients are packed into datagrams by size
alone. The switcher walks each datagram until the first malformed frame, so
a command is met exactly when everything packed in front of it parses. A
payload that did not parse is forwarded whole and packed like any command.
-/

namespace AtemProxy.PackedBatches

open BigEndian PacketCodec CommandFrames FrameWalk LockStores CommandPolicy ForwardGrants
  ReliableTransport

section Packing

variable {α : Type} (bytes : α → Bytes)

/-- Concatenated bytes of the items of a group. -/
def joined (group : List α) : Bytes := (group.map bytes).flatten

/-- Items grouped by the datagram they are packed into; the accumulator
holds the group under construction. -/
def packGroups (current : List α) : List α → List (List α)
  | [] => if current=[] then [] else [current]
  | item::items =>
    if headerLen+(joined bytes current).length+(bytes item).length>maxPacketLen ∧ current≠[] then
      if headerLen+(bytes item).length>maxPacketLen then
        current::[item]::packGroups [] items
      else current::packGroups [item] items
    else if headerLen+(bytes item).length>maxPacketLen then [item]::packGroups current items
    else packGroups (current++[item]) items

/-- Two groups join into their bytes one after the other. -/
theorem joined_append (xs ys : List α) :
    joined bytes (xs++ys)=joined bytes xs++joined bytes ys := by
  unfold joined
  rw [List.map_append,List.flatten_append]

/-- A single item joins into its own bytes. -/
theorem joined_singleton (item : α) : joined bytes [item]=bytes item := by
  unfold joined
  rw [List.map_singleton,List.flatten_singleton]

/-- Only the empty group joins into nothing. -/
theorem joined_eq_nil_iff {group : List α} (h : ∀ item∈group,bytes item≠[]) :
    joined bytes group=[] ↔ group=[] := by
  cases group with
  | nil => exact ⟨fun _ => rfl,fun _ => rfl⟩
  | cons item items =>
    refine ⟨fun hnil => ?_,fun hnil => absurd hnil (List.cons_ne_nil _ _)⟩
    unfold joined at hnil
    rw [List.map_cons,List.flatten_cons] at hnil
    exact absurd (List.append_eq_nil_iff.mp hnil).1 (h item List.mem_cons_self)

/-- The packed payloads are the joined groups. -/
theorem packLoop_eq_groups {current items : List α} (hc : ∀ item∈current,bytes item≠[])
    (hi : ∀ item∈items,bytes item≠[]) :
    packLoop (joined bytes current) (items.map bytes)=
      (packGroups bytes current items).map (joined bytes) := by
  induction items generalizing current with
  | nil =>
    rw [List.map_nil,packLoop,packGroups]
    by_cases hnil : current=[]
    · rw [if_pos hnil,if_pos ((joined_eq_nil_iff bytes hc).mpr hnil),List.map_nil]
    · rw [if_neg hnil,if_neg (fun h => hnil ((joined_eq_nil_iff bytes hc).mp h)),
        List.map_singleton]
  | cons item items ih =>
    have hitems : ∀ x∈items,bytes x≠[] := fun x hx => hi x (List.mem_cons_of_mem _ hx)
    have hone : ∀ x∈[item],bytes x≠[] := by
      intro x hx
      rw [List.mem_singleton.mp hx]
      exact hi item List.mem_cons_self
    have hnone : ∀ x∈([] : List α),bytes x≠[] := fun x hx => absurd hx List.not_mem_nil
    have hmore : ∀ x∈current++[item],bytes x≠[] := by
      intro x hx
      rcases List.mem_append.mp hx with hx | hx
      · exact hc x hx
      · exact hone x hx
    rw [List.map_cons,packLoop,packGroups]
    simp only [ne_eq,joined_eq_nil_iff bytes hc]
    split
    · split
      · rw [List.map_cons,List.map_cons,joined_singleton,←ih hnone hitems]
        rfl
      · rw [List.map_cons,←ih hone hitems,joined_singleton]
    · split
      · rw [List.map_cons,joined_singleton,ih hc hitems]
      · rw [←ih hmore hitems,joined_append,joined_singleton]

/-- Grouping keeps every item, in order. -/
theorem packGroups_flatten (current items : List α) :
    (packGroups bytes current items).flatten=current++items := by
  induction items generalizing current with
  | nil =>
    rw [packGroups,List.append_nil]
    split
    · rename_i hnil
      rw [hnil,List.flatten_nil]
    · rw [List.flatten_singleton]
  | cons item items ih =>
    rw [packGroups]
    split
    · split
      · rw [List.flatten_cons,List.flatten_cons,ih,List.nil_append,List.singleton_append]
      · rw [List.flatten_cons,ih,List.singleton_append]
    · rename_i hkeep
      split
      · rename_i hbig
        -- An oversized item leaves no group open: the first branch took all others.
        have hnil : current=[] := by
          by_contra hne
          exact hkeep ⟨by omega,hne⟩
        rw [List.flatten_cons,ih,hnil]
        rfl
      · rw [ih,List.append_assoc,List.singleton_append]

/-- Datagram payloads of a batch of non-empty items. -/
theorem packCommands_eq_groups {items : List α} (h : ∀ item∈items,bytes item≠[]) :
    packCommands (items.map bytes)=(packGroups bytes [] items).map (joined bytes) :=
  packLoop_eq_groups bytes (fun _ hx => absurd hx List.not_mem_nil) h

end Packing

/-- A byte string that the filter forwarded for a client payload and that
is long enough to be taken from the command channel. -/
structure Forwarded where
  /-- Filter state in which the payload was processed. -/
  filter : CommandFilter
  /-- Client of the payload. -/
  sender : SocketAddr
  /-- Client payload. -/
  payload : Bytes
  /-- Bytes sent upstream. -/
  bytes : Bytes
  /-- The filter asked to forward these bytes. -/
  forwarded : ∃ action∈(filter.processPayload sender payload).2,bytes∈action.forwarded
  /-- Shorter byte strings are discarded before packing. -/
  long : 8≤bytes.length

/-- Whatever is forwarded has bytes. -/
theorem Forwarded.bytes_ne_nil (item : Forwarded) : item.bytes≠[] := by
  intro hnil
  have hlong := item.long
  rw [hnil,List.length_nil] at hlong
  omega

/-- A byte string forwarded for a payload that parses is one command. -/
theorem Forwarded.framed (item : Forwarded) (h : Parses item.payload) :
    ∃ cmd : CommandRef, cmd.raw=item.bytes := by
  obtain ⟨action,ha,hmem⟩ := item.forwarded
  rw [processPayload_of_parses h] at ha
  obtain ⟨g,cmd,_,rfl⟩ := processCommands_decided ha
  obtain ⟨d,hd,_⟩ := g.processCommand_forwarded item.sender cmd hmem
  exact ⟨d,hd.symm⟩

/-- Datagram groups of a batch. -/
def datagrams (batch : List Forwarded) : List (List Forwarded) :=
  packGroups Forwarded.bytes [] batch

/-- In every datagram, the walk meets each command that came from a payload
that parses, at the offset where it was packed. -/
def Recovered (batch : List Forwarded) : Prop :=
  ∀ group∈datagrams batch,∀ before item after,group=before++item::after →
    Parses item.payload →
      ∃ cmd : CommandRef, cmd.raw=item.bytes ∧
        commandReader.MeetsAt (joined Forwarded.bytes group)
          (joined Forwarded.bytes before).length cmd

/-- In every datagram, the bytes packed in front of such a command parse. -/
def FrontsParse (batch : List Forwarded) : Prop :=
  ∀ group∈datagrams batch,∀ before item after,group=before++item::after →
    Parses item.payload → Parses (joined Forwarded.bytes before)

/-- A batch is recovered exactly if it parses up to the first item that does not. -/
theorem recovered_iff (batch : List Forwarded) : Recovered batch ↔ FrontsParse batch := by
  have hmeets : ∀ (before : List Forwarded) item after (cmd : CommandRef),
      cmd.raw=item.bytes →
      (commandReader.MeetsAt (joined Forwarded.bytes (before++item::after))
          (joined Forwarded.bytes before).length cmd ↔
        Parses (joined Forwarded.bytes before)) := by
    intro before item after cmd hraw
    have hhead : commandReader.head (joined Forwarded.bytes (item::after))=some cmd := by
      unfold joined
      rw [List.map_cons,List.flatten_cons,←hraw]
      exact headFrame_raw_append cmd _
    rw [joined_append,commandReader.meetsAt_append_iff,hhead]
    exact and_iff_left rfl
  constructor
  · intro h group hg before item after heq hp
    obtain ⟨cmd,hraw,hm⟩ := h group hg before item after heq hp
    rw [heq,hmeets before item after cmd hraw] at hm
    exact hm
  · intro h group hg before item after heq hp
    obtain ⟨cmd,hraw⟩ := item.framed hp
    refine ⟨cmd,hraw,?_⟩
    rw [heq,hmeets before item after cmd hraw]
    exact h group hg before item after heq hp

/-- Commands of the batch that came from payloads that parse, in order. -/
def wellFormed (batch : List Forwarded) : List Bytes :=
  (batch.filter (fun item => decide (Parses item.payload))).map Forwarded.bytes

/-- Frames the switcher reads from queued payloads, in order. -/
def switcherView (payloads : List Bytes) : List Bytes :=
  payloads.flatMap (fun payload => (walkFrames payload).map CommandRef.raw)

/-- Well-formed commands of two batches. -/
theorem wellFormed_append (xs ys : List Forwarded) :
    wellFormed (xs++ys)=wellFormed xs++wellFormed ys := by
  unfold wellFormed
  rw [List.filter_append,List.map_append]

/-- One datagram shows its commands in order when their fronts parse. -/
theorem wellFormed_group_sublist {group : List Forwarded}
    (h : ∀ before item after,group=before++item::after → Parses item.payload →
      Parses (joined Forwarded.bytes before)) :
    (wellFormed group).Sublist
      ((walkFrames (joined Forwarded.bytes group)).map CommandRef.raw) := by
  induction group using List.reverseRecOn with
  | nil => exact List.nil_sublist _
  | append_singleton group item ih =>
    have hgroup := ih (fun before other after heq hp => h before other (after++[item])
      (by rw [heq,List.append_assoc,List.cons_append]) hp)
    rw [wellFormed_append,joined_append,joined_singleton]
    unfold walkFrames at hgroup ⊢
    by_cases hp : Parses item.payload
    · obtain ⟨cmd,hraw⟩ := item.framed hp
      have hone : wellFormed [item]=[cmd.raw] := by
        unfold wellFormed
        rw [List.filter_cons,if_pos (decide_eq_true hp),hraw]
        rfl
      have hcmd : commandReader.frames cmd.raw=[cmd] := commandReader.frames_extent cmd
      rw [hone,←hraw,(commandReader.walk_append_of_accepts (h group item [] rfl hp) _).1,
        hcmd,List.map_append,List.map_singleton]
      exact hgroup.append (List.Sublist.refl _)
    · have hnone : wellFormed [item]=[] := by
        unfold wellFormed
        rw [List.filter_cons,if_neg (by rw [decide_eq_true_iff]; exact hp)]
        rfl
      rw [hnone,List.append_nil]
      exact hgroup.trans ((commandReader.frames_prefix_append _ _).map CommandRef.raw).sublist

/-- Well-formed commands of several batches. -/
theorem wellFormed_flatten (groups : List (List Forwarded)) :
    wellFormed groups.flatten=groups.flatMap wellFormed := by
  induction groups with
  | nil => rfl
  | cons group groups ih =>
    rw [List.flatten_cons,wellFormed_append,ih,List.flatMap_cons]

/-- Then the whole batch is read in order. -/
theorem wellFormed_sublist {batch : List Forwarded} (h : FrontsParse batch) :
    (wellFormed batch).Sublist
      (switcherView ((datagrams batch).map (joined Forwarded.bytes))) := by
  have hbatch : (datagrams batch).flatten=batch := packGroups_flatten Forwarded.bytes [] batch
  unfold FrontsParse at h
  rw [←hbatch,wellFormed_flatten,hbatch]
  unfold switcherView
  rw [List.flatMap_map]
  generalize datagrams batch=groups at h ⊢
  induction groups with
  | nil => exact List.nil_sublist _
  | cons group groups ih =>
    rw [List.flatMap_cons,List.flatMap_cons]
    exact (wellFormed_group_sublist (h group List.mem_cons_self)).append
      (ih (fun g hg => h g (List.mem_cons_of_mem _ hg)))

/-- The queued payloads are the joined groups of the batch. Every command of
a parsing payload is met where it was packed exactly when the bytes in front
of each of them parse, and then the switcher reads them all in batch order. -/
theorem packed_recovery_iff (ep : ReliableEndpoint) (batch : List Forwarded) :
    (ep.queueCommandsPacked (batch.map Forwarded.bytes)).outbound=
        ep.outbound++(datagrams batch).map (joined Forwarded.bytes) ∧
      (Recovered batch ↔ FrontsParse batch) ∧
      (FrontsParse batch → (wellFormed batch).Sublist
        (switcherView (packCommands (batch.map Forwarded.bytes)))) := by
  have hpack : packCommands (batch.map Forwarded.bytes)=
      (datagrams batch).map (joined Forwarded.bytes) :=
    packCommands_eq_groups Forwarded.bytes (fun item _ => item.bytes_ne_nil)
  refine ⟨congrArg (ep.outbound++·) hpack,recovered_iff batch,?_⟩
  rw [hpack]
  exact wellFormed_sublist

/-- Eight zero bytes of one client. -/
def zeroPayload : Forwarded where
  filter := denyFilter
  sender := ⟨1,1⟩
  payload := [0,0,0,0,0,0,0,0]
  bytes := [0,0,0,0,0,0,0,0]
  forwarded := by decide
  long := by decide

/-- A program input change of another client. -/
def programInput : Forwarded where
  filter := denyFilter
  sender := ⟨2,1⟩
  payload := serializeCommand (tag 'C' 'P' 'g' 'I') [0,0,0,1]
  bytes := serializeCommand (tag 'C' 'P' 'g' 'I') [0,0,0,1]
  forwarded := by decide
  long := by decide

/-- Packed behind the zero bytes, the program input change is lost. -/
theorem programInput_behind_zeros_lost :
    Parses programInput.payload ∧
      wellFormed [zeroPayload,programInput]=[programInput.bytes] ∧
      switcherView (packCommands ([zeroPayload,programInput].map Forwarded.bytes))=[] ∧
      ¬Recovered [zeroPayload,programInput] := by
  refine ⟨by decide,by decide,by decide,?_⟩
  rw [recovered_iff]
  intro h
  exact absurd (h [zeroPayload,programInput] (List.mem_singleton_self _) [zeroPayload]
    programInput [] rfl (by decide)) (by decide)

/-- The run fits into one datagram, or it is one string that does not. -/
def FitsOrAlone (run : List Bytes) : Prop :=
  run.flatten.length≤1388 ∨ ∃ cmd, run=[cmd] ∧ 1388<cmd.length

/-- The loop cuts its input into runs and queues the runs that are not
empty. The run under construction always fits. -/
theorem packLoop_runs (cmds : List Bytes) {current : List Bytes}
    (hc : current.flatten.length≤1388) :
    ∃ runs : List (List Bytes), runs.flatten=current++cmds ∧ (∀ run∈runs,FitsOrAlone run) ∧
      packLoop current.flatten cmds=(runs.map List.flatten).filter (·≠[]) := by
  induction cmds generalizing current with
  | nil =>
    refine ⟨[current],by rw [List.flatten_singleton,List.append_nil],?_,?_⟩
    · intro run hr
      rw [List.mem_singleton.mp hr]
      exact Or.inl hc
    · rw [packLoop,List.map_singleton]
      by_cases hnil : current.flatten=[]
      · simp only [hnil,if_true,ne_eq,not_true_eq_false,decide_false,List.filter_cons,
          Bool.false_eq_true,if_false,List.filter_nil]
      · simp only [hnil,if_false,ne_eq,not_false_eq_true,decide_true,List.filter_cons,if_true,
          List.filter_nil]
  | cons cmd cmds ih =>
    have hcons : current++cmd::cmds=(current++[cmd])++cmds := by
      rw [List.append_assoc,List.singleton_append]
    rw [packLoop]
    unfold headerLen maxPacketLen
    by_cases hbig : 12+cmd.length>1400
    · -- An oversized string is a run of its own, after the run that was open.
      obtain ⟨runs,hr,hfit,hp⟩ := @ih [] (Nat.zero_le _)
      rw [List.flatten_nil] at hp
      have hcmd : cmd≠[] := by
        rintro rfl
        rw [List.length_nil] at hbig
        omega
      refine ⟨current::[cmd]::runs,?_,?_,?_⟩
      · rw [List.flatten_cons,List.flatten_cons,hr,List.singleton_append,List.nil_append]
      · intro run hm
        rcases List.mem_cons.mp hm with rfl | hm
        · exact Or.inl hc
        rcases List.mem_cons.mp hm with rfl | hm
        · exact Or.inr ⟨cmd,rfl,by omega⟩
        · exact hfit run hm
      · by_cases hnil : current.flatten=[]
        · rw [if_neg (fun h => h.2 hnil),if_pos hbig,hnil,hp]
          simp [hcmd,hnil]
        · rw [if_pos ⟨by omega,hnil⟩,if_pos hbig,hp]
          simp [hcmd,hnil]
    · by_cases hfull : 12+current.flatten.length+cmd.length>1400 ∧ current.flatten≠[]
      · have hone : [cmd].flatten.length≤1388 := by
          rw [List.flatten_singleton]
          omega
        obtain ⟨runs,hr,hfit,hp⟩ := ih hone
        rw [List.flatten_singleton] at hp
        refine ⟨current::runs,?_,?_,?_⟩
        · rw [List.flatten_cons,hr,List.singleton_append]
        · intro run hm
          rcases List.mem_cons.mp hm with rfl | hm
          · exact Or.inl hc
          · exact hfit run hm
        · rw [if_pos hfull,if_neg hbig,hp]
          simp [hfull.2]
      · have hlen : (current++[cmd]).flatten.length≤1388 := by
          rw [List.flatten_append,List.flatten_singleton,List.length_append]
          by_cases hnil : current.flatten=[]
          · rw [hnil,List.length_nil]
            omega
          · have hroom : ¬12+current.flatten.length+cmd.length>1400 := fun h => hfull ⟨h,hnil⟩
            omega
        obtain ⟨runs,hr,hfit,hp⟩ := ih hlen
        rw [List.flatten_append,List.flatten_singleton] at hp
        exact ⟨runs,by rw [hr,hcons],hfit,by rw [if_neg hfull,if_neg hbig,hp]⟩

/-- Dropping empty strings does not change a concatenation. -/
theorem flatten_filter_ne_nil (parts : List Bytes) :
    (parts.filter (·≠[])).flatten=parts.flatten := by
  induction parts with
  | nil => rfl
  | cons part parts ih =>
    rw [List.filter_cons,List.flatten_cons]
    by_cases hnil : part=[]
    · simp only [hnil,ne_eq,not_true_eq_false,decide_false,Bool.false_eq_true,if_false,ih,
        List.nil_append]
    · simp only [hnil,ne_eq,not_false_eq_true,decide_true,if_true,List.flatten_cons,ih]

/-- Packing keeps the concatenation. -/
theorem packCommands_flatten (cmds : List Bytes) : (packCommands cmds).flatten=cmds.flatten := by
  obtain ⟨runs,hr,_,hp⟩ := @packLoop_runs cmds [] (Nat.zero_le _)
  rw [List.nil_append] at hr
  rw [List.flatten_nil] at hp
  rw [packCommands,hp,flatten_filter_ne_nil,←hr,List.flatten_flatten]

/-- Frames are parsed datagram by datagram. -/
theorem parseCommands_packCommands (cmds : List CommandRef) :
    ∃ batches : List (List CommandRef), batches.flatten=cmds ∧
      (packCommands (cmds.map CommandRef.raw)).map parseCommands=batches.map Except.ok := by
  refine ⟨packGroups CommandRef.raw [] cmds,packGroups_flatten _ [] cmds,?_⟩
  rw [packCommands_eq_groups CommandRef.raw (fun cmd _ => cmd.raw_ne_nil),List.map_map]
  exact List.map_congr_left (fun group _ => parseCommands_frames group)

/-- Packing loses, reorders and splits nothing: the queue is extended by
non-empty payloads that concatenate to the input, each of them a contiguous
run of whole strings that fits or a single string that does not, and
well-formed frames are parsed back from the payloads in order. -/
theorem queueCommandsPacked_exact (ep : ReliableEndpoint) (cmds : List Bytes) :
    ∃ appended : List Bytes,
      ep.queueCommandsPacked cmds={ep with outbound := ep.outbound++appended} ∧
      appended.flatten=cmds.flatten ∧
      (∀ payload∈appended, payload≠[] ∧ ∃ run : List Bytes, run<:+:cmds ∧ payload=run.flatten ∧
        (payload.length≤1388 ∨ ∃ cmd, run=[cmd] ∧ 1388<cmd.length)) ∧
      ((∀ cmd∈cmds,IsFrame cmd) → ∃ batches : List (List CommandRef),
        appended.map parseCommands=batches.map Except.ok ∧
        batches.flatten.map CommandRef.raw=cmds) := by
  obtain ⟨runs,hr,hfit,hp⟩ := @packLoop_runs cmds [] (Nat.zero_le _)
  rw [List.nil_append] at hr
  rw [List.flatten_nil] at hp
  refine ⟨packCommands cmds,rfl,packCommands_flatten cmds,?_,?_⟩
  · intro payload hm
    rw [packCommands,hp,List.mem_filter] at hm
    obtain ⟨run,hrun,rfl⟩ := List.mem_map.mp hm.1
    refine ⟨of_decide_eq_true hm.2,run,?_,rfl,hfit run hrun⟩
    rw [←hr]
    exact List.infix_of_mem_flatten hrun
  · intro hframes
    obtain ⟨refs,rfl⟩ := frames_of_grammar hframes
    obtain ⟨batches,hb,hparse⟩ := parseCommands_packCommands refs
    exact ⟨batches,hparse,by rw [hb]⟩

end AtemProxy.PackedBatches
