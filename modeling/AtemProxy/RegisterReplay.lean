import AtemProxy.LateJoinCache

/-!
# Keyer and aux registers replayed from a dump

A keyer on-air command carries mixer, keyer, state and a pad byte; an aux
source command carries the aux index, a pad byte and the source. A client
applies commands in order, each overwriting its register. The cache key
of both commands contains the value as well as the index, and a dump lists
keys by first appearance, so a dump ends with the value that appeared last
for the first time.
-/

namespace AtemProxy.RegisterReplay

open BigEndian CommandFrames KeyedMaps LastWrites LateJoinCache

/-- Client-side registers with an index of their own. -/
inductive Register where
  /-- On-air state of one keyer. -/
  | keyer (me index : UInt8)
  /-- Source of one aux output. -/
  | aux (index : UInt8)
  deriving DecidableEq

/-- Register and value bytes written by a command with this name and body. -/
def settingOf (name : CommandName) (body : Bytes) : Option (Register×Bytes) :=
  match body with
  | b0::b1::b2::b3::_ =>
    if name=tag 'K' 'e' 'O' 'n' then some (.keyer b0 b1,[b2])
    else if name=tag 'A' 'u' 'x' 'S' then some (.aux b0,[b2,b3])
    else none
  | _ => none

/-- Register write of a command. -/
def setting (cmd : CommandRef) : Option (Register×Bytes) := settingOf cmd.name cmd.body

/-- Registers after applying commands in order. -/
def replay (cmds : List CommandRef) : Register → Option Bytes :=
  applyWrites (fun _ => none) (cmds.filterMap setting)

/-- Cache after a clear and the given upstream payloads. -/
def ingestedSince (c : StateCache) (payloads : List Bytes) : StateCache :=
  payloads.foldl StateCache.ingestPayload c.clear

/-- Commands of the whole ingested history. -/
def history (payloads : List Bytes) : List CommandRef := payloads.flatMap parsedCommands

/-- A late joiner's registers agree with the whole history. -/
def LateJoinAgrees (c : StateCache) (payloads : List Bytes) : Prop :=
  replay ((ingestedSince c payloads).dump.flatMap parsedCommands)=replay (history payloads)

/-- Value that a cached command writes to a register. -/
def valueFor (r : Register) (key : CacheKey) : Option Bytes :=
  match settingOf key.name key.identity with
  | some write => if write.1=r then some write.2 else none
  | none => none

/-- The last command for the register carries the same value as the last
one whose key, name and first four body bytes, had not occurred before. -/
def LastValueIsNewest (r : Register) (cmds : List CommandRef) : Prop :=
  ((newKeys [] (cmds.map cacheKey)).filterMap (valueFor r)).getLast?=
    ((cmds.map cacheKey).filterMap (valueFor r)).getLast?

/-- Only the two indexed command names write a register. -/
theorem settingOf_of_ne {name : CommandName} (hk : name≠tag 'K' 'e' 'O' 'n')
    (ha : name≠tag 'A' 'u' 'x' 'S') (body : Bytes) : settingOf name body=none := by
  unfold settingOf
  split
  · rw [if_neg hk,if_neg ha]
  · rfl

/-- Both register commands are identified by their first four body bytes. -/
theorem commandIdentity_register {name : CommandName}
    (h : name=tag 'K' 'e' 'O' 'n' ∨ name=tag 'A' 'u' 'x' 'S') (body : Bytes) :
    commandIdentity name body=body.take 4 := by
  rcases h with rfl | rfl
  · unfold commandIdentity
    rw [if_neg (by decide),if_neg (by decide),if_pos (by decide)]
  · unfold commandIdentity
    rw [if_neg (by decide),if_neg (by decide),if_pos (by decide)]

/-- The register write of a command is determined by its cache key. -/
theorem settingOf_identity (name : CommandName) (body : Bytes) :
    settingOf name (commandIdentity name body)=settingOf name body := by
  by_cases h : name=tag 'K' 'e' 'O' 'n' ∨ name=tag 'A' 'u' 'x' 'S'
  · rw [commandIdentity_register h]
    unfold settingOf
    rcases body with _ | ⟨b0,_ | ⟨b1,_ | ⟨b2,_ | ⟨b3,rest⟩⟩⟩⟩ <;> rfl
  · obtain ⟨hk,ha⟩ := not_or.mp h
    rw [settingOf_of_ne hk ha,settingOf_of_ne hk ha]

/-- The setting of a command is that of its key. -/
theorem setting_eq (cmd : CommandRef) :
    setting cmd=settingOf (cacheKey cmd).name (cacheKey cmd).identity :=
  (settingOf_identity cmd.name cmd.body).symm

/-- A command that writes a register is stored. -/
theorem valueFor_of_not_cacheable (r : Register) {key : CacheKey}
    (h : isCacheable key.name=false) : valueFor r key=none := by
  have hk : key.name≠tag 'K' 'e' 'O' 'n' := by
    intro he
    rw [he] at h
    exact absurd h (by decide)
  have ha : key.name≠tag 'A' 'u' 'x' 'S' := by
    intro he
    rw [he] at h
    exact absurd h (by decide)
  unfold valueFor
  rw [settingOf_of_ne hk ha]

/-- The final register value is the last one written to it. -/
theorem lastFor_settings (r : Register) (cmds : List CommandRef) :
    lastFor r (cmds.filterMap setting)=((cmds.map cacheKey).filterMap (valueFor r)).getLast? := by
  induction cmds with
  | nil => rfl
  | cons cmd cmds ih =>
    rw [List.map_cons]
    have hv : valueFor r (cacheKey cmd)=
        (setting cmd).bind (fun write => if write.1=r then some write.2 else none) := by
      rw [setting_eq]
      unfold valueFor
      split
      · rename_i he
        rw [he]
        rfl
      · rename_i he
        rw [he]
        rfl
    cases hs : setting cmd with
    | none =>
      rw [hs] at hv
      rw [List.filterMap_cons_none hs,List.filterMap_cons_none hv,ih]
    | some write =>
      rw [hs] at hv
      rw [List.filterMap_cons_some hs,lastFor,ih]
      by_cases hr : write.1=r
      · rw [if_pos hr]
        rw [Option.bind_some,if_pos hr] at hv
        rw [List.filterMap_cons_some hv,List.getLast?_cons]
        cases ((cmds.map cacheKey).filterMap (valueFor r)).getLast? <;> rfl
      · rw [if_neg hr,Option.or_none]
        rw [Option.bind_some,if_neg hr] at hv
        rw [List.filterMap_cons_none hv]

/-- A register ends with the last value written to it. -/
theorem replay_eq (cmds : List CommandRef) (r : Register) :
    replay cmds r=((cmds.map cacheKey).filterMap (valueFor r)).getLast? := by
  unfold replay
  rw [applyWrites_eq,lastFor_settings,Option.or_none]

/-- Keys of commands that are not stored play no role for any register. -/
theorem filterMap_valueFor_cacheable (r : Register) (keys : List CacheKey) :
    (keys.filter (fun key => isCacheable key.name)).filterMap (valueFor r)=
      keys.filterMap (valueFor r) := by
  induction keys with
  | nil => rfl
  | cons key keys ih =>
    by_cases hc : isCacheable key.name=true
    · rw [List.filter_cons,if_pos hc,List.filterMap_cons,List.filterMap_cons,ih]
    · rw [List.filter_cons,if_neg hc,ih,
        List.filterMap_cons_none (valueFor_of_not_cacheable r (Bool.eq_false_of_not_eq_true hc))]

/-- Cacheable commands have cacheable keys. -/
theorem map_cacheKey_filter (cmds : List CommandRef) :
    (cmds.filter (fun cmd => isCacheable cmd.name)).map cacheKey=
      (cmds.map cacheKey).filter (fun key => isCacheable key.name) := by
  rw [List.filter_map]
  rfl

/-- A dump lists the keys of its history by first appearance. -/
theorem ingestedSince_keys (c : StateCache) (payloads : List Bytes) :
    (ingestedSince c payloads).map.entries.map Prod.fst=
      (newKeys [] ((history payloads).map cacheKey)).filter (fun key => isCacheable key.name) := by
  have hw : (cacheWrites (history payloads)).map Prod.fst=
      ((history payloads).map cacheKey).filter (fun key => isCacheable key.name) := by
    unfold cacheWrites keyedWrites
    rw [List.map_map]
    exact map_cacheKey_filter (history payloads)
  unfold ingestedSince
  rw [ingestPayloads_map,keys_insertAll]
  unfold StateCache.clear StateCache.new OrderedMap.empty
  dsimp only
  rw [List.map_nil,List.nil_append,newKeys_filter,List.filter_nil]
  exact congrArg (newKeys []) hw

/-- A dump replays, for each register, the values in order of first appearance. -/
theorem replay_dump (c : StateCache) (payloads : List Bytes) (r : Register) :
    replay ((ingestedSince c payloads).dump.flatMap parsedCommands) r=
      ((newKeys [] ((history payloads).map cacheKey)).filterMap (valueFor r)).getLast? := by
  have hco : Coherent (ingestedSince c payloads) := coherent_ingestPayloads coherent_new payloads
  obtain ⟨cmds,hd,hk,_⟩ := hco.dump_commands
  have hkeys : cmds.map cacheKey=(ingestedSince c payloads).map.entries.map Prod.fst := by
    rw [←hk]
    unfold keyedWrites
    rw [List.map_map]
    rfl
  have hnone : valueFor r (cacheKey initCompleteRef)=none :=
    valueFor_of_not_cacheable r (by decide)
  rw [hd,flatMap_parsedCommands_raw,replay_eq,List.map_append,List.filterMap_append,hkeys,
    ingestedSince_keys,filterMap_valueFor_cacheable,List.map_singleton,
    List.filterMap_cons_none hnone,List.filterMap_nil,List.append_nil]

/-- For every cache and every sequence of payloads ingested after a clear:
replaying the dump gives the registers of the whole history exactly when,
for every register, its last command carries the value of its last command
with a body that had not occurred before. -/
theorem lateJoinAgrees_iff (c : StateCache) (payloads : List Bytes) :
    LateJoinAgrees c payloads ↔ ∀ r, LastValueIsNewest r (history payloads) := by
  unfold LateJoinAgrees LastValueIsNewest
  rw [funext_iff]
  constructor
  · intro h r
    rw [←replay_dump c payloads r,←replay_eq]
    exact h r
  · intro h r
    rw [replay_dump,replay_eq]
    exact h r

/-- One keyer is off, goes on air and is taken off again. -/
def keyerToggled : List Bytes :=
  [serializeCommand (tag 'K' 'e' 'O' 'n') [0,0,0,0],
    serializeCommand (tag 'K' 'e' 'O' 'n') [0,0,1,0],
    serializeCommand (tag 'K' 'e' 'O' 'n') [0,0,0,0]]

/-- After the toggle a late joiner sees the keyer on air while it is off. -/
theorem keyerToggled_disagrees :
    replay ((ingestedSince .new keyerToggled).dump.flatMap parsedCommands) (.keyer 0 0)=
        some [1] ∧
      replay (history keyerToggled) (.keyer 0 0)=some [0] ∧
      ¬LateJoinAgrees .new keyerToggled := by
  have hdump : replay ((ingestedSince .new keyerToggled).dump.flatMap parsedCommands)
      (.keyer 0 0)=some [1] := by decide
  have hhist : replay (history keyerToggled) (.keyer 0 0)=some [0] := by decide
  refine ⟨hdump,hhist,fun hagree => ?_⟩
  have hsame := congrFun hagree (.keyer 0 0)
  rw [hdump,hhist] at hsame
  exact absurd hsame (by decide)

end AtemProxy.RegisterReplay
