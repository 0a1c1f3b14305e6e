import AtemProxy.CommandFrames
import AtemProxy.LastWrites

/-!
# The coalescing state cache behind late-join dumps

The cache keeps the latest frame per key, a key being the command name
with its identity bytes, in order of first appearance. Ingesting commands
is storing their keyed writes; a dump lists the stored frames followed by
one synthetic initialization-complete command.
-/

namespace AtemProxy.LateJoinCache

open BigEndian PacketCodec CommandFrames KeyedMaps LastWrites

/-- Coalescing key of a cached command. -/
structure CacheKey where
  /-- Command name. -/
  name : CommandName
  /-- Identity bytes taken from the body. -/
  identity : Bytes
  deriving DecidableEq

/-- Cached switcher state. -/
structure StateCache where
  /-- Latest frame per key, by first appearance. -/
  map : OrderedMap CacheKey Bytes
  /-- Protocol version last announced. -/
  version : Option (UInt16×UInt16)
  /-- Product name last announced. -/
  product : Option (List ℕ)
  /-- Initialization was completed since the last clear. -/
  ready : Bool
  deriving DecidableEq

/-- Key under which a command is cached. -/
def cacheKey (cmd : CommandRef) : CacheKey := ⟨cmd.name,commandIdentity cmd.name cmd.body⟩

/-- Commands that are never stored: high-rate, lock and transfer commands. -/
def isExcluded (name : CommandName) : Bool :=
  isEphemeralCommand name || isLockCommand name || isTransferCommand name

/-- Commands that are stored. -/
def isCacheable (name : CommandName) : Bool := !isExcluded name && decide (name≠initComplete)

namespace StateCache

/-- Cache before the first payload. -/
def new : StateCache := ⟨OrderedMap.empty,none,none,false⟩

/-- Forget everything. -/
def clear (_ : StateCache) : StateCache := new

/-- Set the readiness flag. -/
def setReady (c : StateCache) (ready : Bool) : StateCache := {c with ready := ready}

/-- Ingest one command. Initialization-complete only sets the readiness flag. -/
def ingestCommand (c : StateCache) (cmd : CommandRef) : StateCache :=
  if isExcluded cmd.name=true then c
  else if cmd.name=initComplete then {c with ready := true}
  else
    {c with
      version := if cmd.name=tag '_' 'v' 'e' 'r' then parseVersion cmd.body else c.version
      product :=
        if cmd.name=tag '_' 'p' 'i' 'n' then (parseProductName cmd.body).or c.product
        else c.product
      map := c.map.insert (cacheKey cmd) cmd.raw}

/-- Ingest the commands of an upstream payload; one that does not parse is ignored. -/
def ingestPayload (c : StateCache) (payload : Bytes) : StateCache :=
  match parseCommands payload with
  | .error _ => c
  | .ok cmds => cmds.foldl ingestCommand c

/-- Stored frames followed by the synthetic initialization-complete command. -/
def dump (c : StateCache) : List Bytes := c.map.values++[syntheticInitComplete]

end StateCache

/-- Keyed writes of commands. -/
def keyedWrites (cmds : List CommandRef) : List (CacheKey×Bytes) :=
  cmds.map (fun cmd => (cacheKey cmd,cmd.raw))

/-- Keyed writes of the commands that are stored. -/
def cacheWrites (cmds : List CommandRef) : List (CacheKey×Bytes) :=
  keyedWrites (cmds.filter (fun cmd => isCacheable cmd.name))

/-- Writes of two lists of commands. -/
theorem keyedWrites_append (first second : List CommandRef) :
    keyedWrites (first++second)=keyedWrites first++keyedWrites second := List.map_append

/-- Writes of two lists that reach the cache. -/
theorem cacheWrites_append (first second : List CommandRef) :
    cacheWrites (first++second)=cacheWrites first++cacheWrites second := by
  unfold cacheWrites
  rw [List.filter_append,keyedWrites_append]

/-- One command stores its own write, if it is stored at all. -/
theorem ingestCommand_map (c : StateCache) (cmd : CommandRef) :
    (c.ingestCommand cmd).map=insertAll c.map (cacheWrites [cmd]) := by
  unfold StateCache.ingestCommand cacheWrites isCacheable
  by_cases he : isExcluded cmd.name=true
  · rw [if_pos he,List.filter_cons_of_neg (by rw [he]; exact Bool.false_ne_true)]
    rfl
  · have hx := Bool.eq_false_of_not_eq_true he
    rw [if_neg he]
    by_cases hi : cmd.name=initComplete
    · rw [if_pos hi,List.filter_cons_of_neg (by rw [hx]; simp [hi])]
      rfl
    · rw [if_neg hi,List.filter_cons_of_pos (by rw [hx]; simp [hi])]
      rfl

/-- Ingested commands are stored writes, in order. -/
theorem ingestCommands_map (c : StateCache) (cmds : List CommandRef) :
    (cmds.foldl StateCache.ingestCommand c).map=insertAll c.map (cacheWrites cmds) := by
  induction cmds generalizing c with
  | nil => rfl
  | cons cmd cmds ih =>
    rw [List.foldl_cons,ih,ingestCommand_map,←insertAll_append,←cacheWrites_append,
      List.singleton_append]

/-- A payload inserts what its commands write. -/
theorem ingestPayload_map (c : StateCache) (payload : Bytes) :
    (c.ingestPayload payload).map=insertAll c.map (cacheWrites (parsedCommands payload)) := by
  unfold StateCache.ingestPayload parsedCommands
  cases parseCommands payload with
  | error e => rfl
  | ok cmds => exact ingestCommands_map c cmds

/-- Ingested payloads store the writes of all their commands, in order. -/
theorem ingestPayloads_map (c : StateCache) (payloads : List Bytes) :
    (payloads.foldl StateCache.ingestPayload c).map=
      insertAll c.map (cacheWrites (payloads.flatMap parsedCommands)) := by
  induction payloads generalizing c with
  | nil => rfl
  | cons payload payloads ih =>
    rw [List.foldl_cons,ih,ingestPayload_map,←insertAll_append,←cacheWrites_append,
      List.flatMap_cons]

/-- Every stored frame belongs to a stored command with that key. -/
def Coherent (c : StateCache) : Prop := ∀ key raw, c.map.get? key=some raw →
  ∃ cmd : CommandRef, cacheKey cmd=key ∧ cmd.raw=raw ∧ isCacheable cmd.name=true

/-- The new cache is coherent. -/
theorem coherent_new : Coherent StateCache.new := by
  intro key raw h
  cases h

/-- A keyed write of stored commands comes from one of them. -/
theorem mem_cacheWrites {cmds : List CommandRef} {key : CacheKey} {raw : Bytes}
    (h : (key,raw) ∈ cacheWrites cmds) :
    ∃ cmd ∈ cmds, cacheKey cmd=key ∧ cmd.raw=raw ∧ isCacheable cmd.name=true := by
  obtain ⟨cmd,hm,he⟩ := List.mem_map.mp h
  obtain ⟨hm,hc⟩ := List.mem_filter.mp hm
  obtain ⟨hk,hr⟩ := Prod.mk.inj he
  exact ⟨cmd,hm,hk,hr,hc⟩

/-- A payload keeps it coherent. -/
theorem coherent_ingestPayload {c : StateCache} (h : Coherent c) (payload : Bytes) :
    Coherent (c.ingestPayload payload) := by
  intro key raw hg
  rw [ingestPayload_map,get?_insertAll] at hg
  cases hl : lastFor key (cacheWrites (parsedCommands payload)) with
  | none =>
    rw [hl,Option.none_or] at hg
    exact h key raw hg
  | some value =>
    rw [hl] at hg
    cases hg
    obtain ⟨cmd,_,hk,hr,hc⟩ := mem_cacheWrites (mem_of_lastFor hl)
    exact ⟨cmd,hk,hr,hc⟩

/-- So do several. -/
theorem coherent_ingestPayloads {c : StateCache} (h : Coherent c) (payloads : List Bytes) :
    Coherent (payloads.foldl StateCache.ingestPayload c) := by
  induction payloads generalizing c with
  | nil => exact h
  | cons payload payloads ih => exact ih (coherent_ingestPayload h payload)

/-- The stored frames are commands whose keyed writes are the stored entries. -/
theorem Coherent.commands {c : StateCache} (h : Coherent c) :
    ∃ cmds : List CommandRef, c.map.values=cmds.map CommandRef.raw ∧
      keyedWrites cmds=c.map.entries ∧ ∀ cmd ∈ cmds, isCacheable cmd.name=true := by
  have hall : ∀ entries : List (CacheKey×Bytes), (∀ e ∈ entries, e ∈ c.map.entries) →
      ∃ cmds : List CommandRef, entries.map Prod.snd=cmds.map CommandRef.raw ∧
        keyedWrites cmds=entries ∧ ∀ cmd ∈ cmds, isCacheable cmd.name=true := by
    intro entries
    induction entries with
    | nil => exact fun _ => ⟨[],rfl,rfl,fun _ hm => absurd hm (List.not_mem_nil)⟩
    | cons entry entries ih =>
      intro hm
      obtain ⟨cmds,hv,hk,hc⟩ := ih (fun e he => hm e (List.mem_cons_of_mem _ he))
      obtain ⟨cmd,hkey,hraw,hcache⟩ := h entry.1 entry.2
        ((c.map.get?_eq_some_iff _ _).mpr (hm entry List.mem_cons_self))
      refine ⟨cmd::cmds,?_,?_,?_⟩
      · rw [List.map_cons,List.map_cons,hv,hraw]
      · unfold keyedWrites at hk ⊢
        rw [List.map_cons,hk,hkey,hraw]
      · intro d hd
        rcases List.mem_cons.mp hd with he | hd
        · exact he ▸ hcache
        · exact hc d hd
  exact hall c.map.entries (fun _ he => he)

/-- The synthetic command as a frame. -/
def initCompleteRef : CommandRef :=
  serializedRef initComplete [0x01,0x00,0x00,0x00] (by decide)

/-- Every dump element is one command: the stored ones, then the synthetic one. -/
theorem Coherent.dump_commands {c : StateCache} (h : Coherent c) :
    ∃ cmds : List CommandRef, c.dump=(cmds++[initCompleteRef]).map CommandRef.raw ∧
      keyedWrites cmds=c.map.entries ∧ ∀ cmd ∈ cmds, isCacheable cmd.name=true := by
  obtain ⟨cmds,hv,hk,hc⟩ := h.commands
  refine ⟨cmds,?_,hk,hc⟩
  unfold StateCache.dump
  rw [hv,List.map_append]
  rfl

/-- Parsing frames one by one returns the commands themselves. -/
theorem flatMap_parsedCommands_raw (cmds : List CommandRef) :
    (cmds.map CommandRef.raw).flatMap parsedCommands=cmds := by
  induction cmds with
  | nil => rfl
  | cons cmd cmds ih =>
    rw [List.map_cons,List.flatMap_cons,ih,parsedCommands_raw,List.singleton_append]

/-- Only cacheable names are cached. -/
theorem Coherent.name_isCacheable {c : StateCache} (h : Coherent c) {key : CacheKey}
    {value : Bytes} (hget : c.map.get? key=some value) : isCacheable key.name=true := by
  obtain ⟨cmd,hkey,_,hcache⟩ := h key value hget
  rw [←hkey]
  exact hcache

/-- For a stored name, the stored writes are all writes. -/
theorem lastFor_cacheWrites {key : CacheKey} (h : isCacheable key.name=true)
    (cmds : List CommandRef) : lastFor key (cacheWrites cmds)=lastFor key (keyedWrites cmds) := by
  induction cmds with
  | nil => rfl
  | cons cmd cmds ih =>
    have hsplit : keyedWrites (cmd::cmds)=(cacheKey cmd,cmd.raw)::keyedWrites cmds := rfl
    rw [hsplit,lastFor,←ih,←List.singleton_append,cacheWrites_append,lastFor_append]
    congr 1
    by_cases hc : isCacheable cmd.name=true
    · simp only [cacheWrites,keyedWrites,List.filter_cons,hc,if_true,List.filter_nil,
        List.map_cons,List.map_nil,lastFor,Option.none_or]
    · have hne : cacheKey cmd≠key := by
        intro he
        rw [←he] at h
        exact hc h
      rw [if_neg hne]
      simp only [cacheWrites,keyedWrites,List.filter_cons,if_neg hc,List.filter_nil,
        List.map_nil,lastFor]

/-- Calls that change the cache. -/
inductive CacheCall where
  /-- Ingest an upstream payload of any bytes. -/
  | ingestPayload (payload : Bytes)
  /-- Set the readiness flag. -/
  | setReady (ready : Bool)
  /-- Forget everything. -/
  | clear
  deriving DecidableEq

/-- Cache after one call. -/
def StateCache.call (c : StateCache) : CacheCall → StateCache
  | .ingestPayload payload => c.ingestPayload payload
  | .setReady ready => c.setReady ready
  | .clear => c.clear

/-- Cache after a whole history of calls. -/
def StateCache.after (history : List CacheCall) : StateCache :=
  history.foldl StateCache.call StateCache.new

/-- Commands a call brings to the cache: those of a payload that parses. -/
def CacheCall.commands : CacheCall → List CommandRef
  | .ingestPayload payload => parsedCommands payload
  | .setReady _ => []
  | .clear => []

/-- Stored commands since the last clear, in the order they came. -/
def storedCommands (history : List CacheCall) : List CommandRef :=
  ((history.rtakeWhile (fun call => decide (call≠.clear))).flatMap CacheCall.commands).filter
    (fun cmd => isCacheable cmd.name)

/-- Specification of the stored part of a dump: keys by first appearance,
each with the full bytes of the last command that has it. -/
def coalesced (cmds : List CommandRef) : List Bytes :=
  (cmds.map cacheKey).eraseDups.filterMap (fun key =>
    (cmds.filter (fun cmd => decide (cacheKey cmd=key))).getLast?.map CommandRef.raw)

/-- What is left after coalescing is what the map holds. -/
theorem coalesced_eq (cmds : List CommandRef) :
    coalesced cmds=(insertAll OrderedMap.empty (keyedWrites cmds)).values := by
  have hkeys : (keyedWrites cmds).map Prod.fst=cmds.map cacheKey := by
    unfold keyedWrites
    rw [List.map_map]
    rfl
  rw [values_insertAll_empty,hkeys]
  unfold coalesced
  apply List.filterMap_congr
  intro key _
  rw [lastFor_eq_getLast?]
  unfold keyedWrites
  rw [List.filter_map,List.getLast?_map,Option.map_map]
  rfl

/-- A call adds the commands it brings, unless it clears. -/
theorem storedCommands_concat (history : List CacheCall) {call : CacheCall} (h : call≠.clear) :
    storedCommands (history++[call])=
      storedCommands history++call.commands.filter (fun cmd => isCacheable cmd.name) := by
  unfold storedCommands
  rw [List.rtakeWhile_concat_pos _ _ _ (by simp [h]),List.flatMap_append,List.filter_append]
  simp only [List.flatMap_cons,List.flatMap_nil,List.append_nil]

/-- Clearing forgets all commands. -/
theorem storedCommands_clear (history : List CacheCall) :
    storedCommands (history++[.clear])=[] := by
  unfold storedCommands
  rw [List.rtakeWhile_concat_neg _ _ _ (by simp)]
  rfl

/-- The stored entries are the coalesced writes since the last clear. -/
theorem after_map (history : List CacheCall) :
    (StateCache.after history).map=
      insertAll OrderedMap.empty (keyedWrites (storedCommands history)) := by
  induction history using List.reverseRecOn with
  | nil => rfl
  | append_singleton history call ih =>
    have hstep : StateCache.after (history++[call])=(StateCache.after history).call call :=
      List.foldl_append
    rw [hstep]
    cases call with
    | ingestPayload payload =>
      rw [storedCommands_concat history (by simp),keyedWrites_append,insertAll_append,←ih]
      exact ingestPayload_map _ payload
    | setReady ready =>
      rw [storedCommands_concat history (by simp)]
      simp only [CacheCall.commands,List.filter_nil,List.append_nil]
      exact ih
    | clear =>
      rw [storedCommands_clear]
      rfl

/-- The cache is coherent after every history. -/
theorem coherent_after (history : List CacheCall) : Coherent (StateCache.after history) := by
  induction history using List.reverseRecOn with
  | nil => exact coherent_new
  | append_singleton history call ih =>
    have hstep : StateCache.after (history++[call])=(StateCache.after history).call call :=
      List.foldl_append
    rw [hstep]
    cases call with
    | ingestPayload payload => exact coherent_ingestPayload ih payload
    | setReady ready => exact ih
    | clear => exact coherent_new

/-- A coherent cache stores commands that parse alone and are not
initialization-complete. -/
theorem Coherent.value_parses {c : StateCache} (h : Coherent c) {raw : Bytes}
    (hm : raw ∈ c.map.values) :
    ∃ cmd, parseCommands raw=.ok [cmd] ∧ cmd.name≠initComplete := by
  obtain ⟨cmds,hv,_,hc⟩ := h.commands
  rw [hv] at hm
  obtain ⟨cmd,hcm,rfl⟩ := List.mem_map.mp hm
  have hcache := hc cmd hcm
  unfold isCacheable at hcache
  rw [Bool.and_eq_true] at hcache
  exact ⟨cmd,parseCommands_raw cmd,of_decide_eq_true hcache.2⟩

/-- The cache refines its specification over every history: a dump is the
coalesced commands since the last clear and one initialization-complete
behind them, payloads that do not parse change nothing, and every element
of a dump is one command. -/
theorem cache_refines_coalescing (history : List CacheCall) :
    (StateCache.after history).dump=
      coalesced (storedCommands history)++[syntheticInitComplete] ∧
    (∀ payload e, parseCommands payload=.error e →
      (StateCache.after history).ingestPayload payload=StateCache.after history) ∧
    (∀ raw ∈ coalesced (storedCommands history),
      ∃ cmd, parseCommands raw=.ok [cmd] ∧ cmd.name≠initComplete) ∧
    ∃ cmd, parseCommands syntheticInitComplete=.ok [cmd] ∧ cmd.name=initComplete := by
  have hvalues : (StateCache.after history).map.values=coalesced (storedCommands history) := by
    rw [coalesced_eq,after_map]
  refine ⟨?_,?_,?_,initCompleteRef,parseCommands_raw initCompleteRef,rfl⟩
  · unfold StateCache.dump
    rw [hvalues]
  · intro payload e he
    unfold StateCache.ingestPayload
    rw [he]
  · intro raw hm
    rw [←hvalues] at hm
    exact (coherent_after history).value_parses hm

/-- A lone byte behind a program change leaves the cache as it was. -/
theorem cache_ignores_lone_byte :
    (StateCache.after [.ingestPayload (serializeCommand (tag 'P' 'r' 'g' 'I') [0,0,0,2])]).ingestPayload
      [7]=StateCache.after [.ingestPayload (serializeCommand (tag 'P' 'r' 'g' 'I') [0,0,0,2])] :=
  (cache_refines_coalescing
    [.ingestPayload (serializeCommand (tag 'P' 'r' 'g' 'I') [0,0,0,2])]).2.1 [7] (.badCommand 0) rfl

/-- A later program change of the same mixer replaces the earlier one and
keeps its place. -/
example :
    (StateCache.after [.ingestPayload (serializeCommand (tag 'P' 'r' 'g' 'I') [0,0,0,1]),
      .ingestPayload (serializeCommand (tag 'P' 'r' 'v' 'I') [0,0,0,3]),
      .ingestPayload (serializeCommand (tag 'P' 'r' 'g' 'I') [0,0,0,2])]).dump=
    [serializeCommand (tag 'P' 'r' 'g' 'I') [0,0,0,2],
      serializeCommand (tag 'P' 'r' 'v' 'I') [0,0,0,3],syntheticInitComplete] := by
  decide +kernel

end AtemProxy.LateJoinCache
