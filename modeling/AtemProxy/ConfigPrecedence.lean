import AtemProxy.ConfigSources
import AtemProxy.ForwardGrants
import AtemProxy.ProxySystem

/-!
# Command line before environment before file before defaults

Every setting is chosen from the first source that gives it, and the result
is normalized once. Loading overrides in the same order but normalizes before
the profile option of the command line is applied, and once more after it.
Normalization never switches anything off, so an option that switches the
profile off comes too late when the environment or the file switches it on.
-/

namespace AtemProxy.ConfigPrecedence

open ProxyConfig ConfigSources CommandFrames CommandPolicy TransferLanes ProxyTasks ProxySystem
  GuardedRuns

section Sources

variable {α : Type}

/-- Value of the first source that gives one. -/
def firstGiven (sources : List (Option α)) (fallback : α) : α :=
  (sources.findSome? id).getD fallback

/-- Without any source the default counts. -/
theorem firstGiven_nil (fallback : α) : firstGiven [] fallback=fallback := rfl

/-- A source overrides those after it. -/
theorem firstGiven_cons (given : Option α) (sources : List (Option α)) (fallback : α) :
    firstGiven (given::sources) fallback=given.getD (firstGiven sources fallback) := by
  cases given <;> rfl

end Sources

/-- Settings in the file at a path; nothing is set where there is no file. -/
def settingsAt (host : Host) (path : PathBuf) : Option ConfigFile :=
  if host.pathExists path=true then
    (host.readToString path).toOption.bind (fun text => (host.fromToml text).toOption)
  else some {}

/-- Settings in the file of the command line, or else in that of the environment. -/
def settingsFile (host : Host) (configPath : Option PathBuf) : Option ConfigFile :=
  match configPath.or (host.var "ATEM_PROXY_CONFIG") with
  | some path => settingsAt host path
  | none => some {}

/-- Address for clients in the environment. -/
def envAddr (host : Host) : Option SocketAddr :=
  (host.var "ATEM_PROXY_BIND").bind (fun value => (host.parseAddr value).toOption)

/-- Profile flag in the file. -/
def fileSoftatem (file : ConfigFile) : Option Bool := file.compat.bind CompatTable.softatem

/-- Profile flag chosen from the environment, the file and the default. -/
def lowerSoftatem (host : Host) (file : ConfigFile) : Bool :=
  firstGiven [host.flag "ATEM_PROXY_SOFTATEM",fileSoftatem file] ({} : CompatConfig).softatem

/-- Every setting from the first source that gives it: command line,
environment, file, default. -/
def chosenConfig (host : Host) (cli : Cli) (file : ConfigFile) : Config where
  atem := firstGiven [cli.atem,host.var "ATEM_PROXY_ATEM",file.atem] ({} : Config).atem
  bind := firstGiven [cli.bind,envAddr host,file.bind] ({} : Config).bind
  mdns := firstGiven [cli.mdns,host.flag "ATEM_PROXY_MDNS",file.mdns] ({} : Config).mdns
  clientIdleMs := firstGiven [file.clientIdleMs] ({} : Config).clientIdleMs
  reconnectMs := firstGiven [file.reconnectMs] ({} : Config).reconnectMs
  log := firstGiven [cli.log,host.var "ATEM_PROXY_LOG",file.log] ({} : Config).log
  logFile := firstGiven [file.logFile.map some] ({} : Config).logFile
  compat.softatem := firstGiven [cli.softatem,host.flag "ATEM_PROXY_SOFTATEM",fileSoftatem file]
    ({} : CompatConfig).softatem
  locks.mode := firstGiven [file.locks.bind LocksTable.mode] ({} : LocksConfig).mode
  media.enabled := firstGiven [file.media.bind MediaTable.enabled] ({} : MediaConfig).enabled
  media.chunkDelayMs :=
    firstGiven [file.media.bind MediaTable.chunkDelayMs] ({} : MediaConfig).chunkDelayMs
  media.maxUploadMb :=
    firstGiven [file.media.bind MediaTable.maxUploadMb] ({} : MediaConfig).maxUploadMb
  discovery.mdns :=
    firstGiven [file.discovery.bind DiscoveryTable.mdns] ({} : DiscoveryConfig).mdns

/-- The same without the profile option. -/
def chosenBelow (host : Host) (cli : Cli) (file : ConfigFile) : Config :=
  chosenConfig host {cli with softatem := none} file

/-- A path leads to the configuration of its file, and errors are unreadable files. -/
theorem configAt_toOption (host : Host) (path : PathBuf) (reading parsing : Option String) :
    (host.configAt path reading parsing).toOption=
      (settingsAt host path).map ConfigFile.config := by
  unfold Host.configAt settingsAt
  split
  · cases host.readToString path with
    | error cause => rfl
    | ok text =>
      dsimp only [Except.toOption,Option.bind_some]
      cases host.fromToml text <;> rfl
  · rfl

/-- Loading starts from the file that the configuration path leads to. -/
theorem baseConfig_toOption (host : Host) (configPath : Option PathBuf) :
    (host.baseConfig configPath).toOption=
      (settingsFile host configPath).map ConfigFile.config := by
  unfold Host.baseConfig settingsFile
  cases configPath with
  | some path => exact configAt_toOption host path _ _
  | none =>
    rw [Option.none_or]
    cases host.var "ATEM_PROXY_CONFIG" with
    | some path => exact configAt_toOption host path _ _
    | none => rfl

/-- The address in the environment parses, if there is one. -/
def envParses (host : Host) : Bool :=
  match host.var "ATEM_PROXY_BIND" with
  | some value => (host.parseAddr value).toBool
  | none => true

/-- The address from the environment counts if it can be parsed. -/
theorem bindAfterEnv_toOption (host : Host) (base : Config) :
    (host.bindAfterEnv base).toOption=
      if envParses host=true then some ((envAddr host).getD base.bind) else none := by
  unfold Host.bindAfterEnv envParses envAddr
  cases host.var "ATEM_PROXY_BIND" with
  | none => rfl
  | some value =>
    cases hparse : host.parseAddr value with
    | error cause => simp only [hparse,Option.bind_some,Except.toBool,Except.toOption,
        Bool.false_eq_true,if_false]
    | ok addr => simp only [hparse,Option.bind_some,Except.toBool,Except.toOption,if_true,
        Option.getD_some]

/-- Settings overridden by an environment whose address parses. -/
def afterEnv (host : Host) (base : Config) : Config :=
  {base with
    atem := (host.var "ATEM_PROXY_ATEM").getD base.atem
    bind := (envAddr host).getD base.bind
    mdns := (host.flag "ATEM_PROXY_MDNS").getD base.mdns
    log := (host.var "ATEM_PROXY_LOG").getD base.log
    compat := ⟨(host.flag "ATEM_PROXY_SOFTATEM").getD base.compat.softatem⟩}

/-- Errors of a mapped result are forgotten like its own. -/
theorem toOption_map {ε α β : Type} (result : Except ε α) (f : α → β) :
    (result.map f).toOption=result.toOption.map f := by
  cases result <;> rfl

/-- The configuration after the environment, unless its address cannot be parsed. -/
theorem withEnv_toOption (host : Host) (base : Config) :
    (host.withEnv base).toOption=
      if envParses host=true then some (afterEnv host base) else none := by
  unfold Host.withEnv
  rw [toOption_map,bindAfterEnv_toOption]
  split <;> rfl

/-- Overriding the file by the environment and by the options that loading knows
of chooses every setting but the profile flag. -/
theorem withArgs_afterEnv (host : Host) (cli : Cli) (file : ConfigFile) :
    (afterEnv host file.config).withArgs cli.atem cli.bind cli.mdns cli.log=
      chosenBelow host cli file := by
  obtain ⟨atem,bind,mdns,clientIdleMs,reconnectMs,log,logFile,compat,locks,media,discovery⟩ := file
  unfold chosenBelow chosenConfig
  simp only [firstGiven_cons,firstGiven_nil,Option.getD_none]
  cases compat <;> cases locks <;> cases media <;> cases discovery <;> cases logFile <;> rfl

/-- Loading normalizes what was chosen without the profile option. -/
theorem load_toOption (host : Host) (cli : Cli) :
    (load host cli.config cli.atem cli.bind cli.mdns cli.log).toOption=
      if envParses host=true then
        (settingsFile host cli.config).map (fun file => (chosenBelow host cli file).normalize)
      else none := by
  have hbase := baseConfig_toOption host cli.config
  unfold load
  cases hload : host.baseConfig cli.config with
  | error e =>
    rw [hload] at hbase
    rw [Option.map_eq_none_iff.mp hbase.symm,Option.map_none,ite_self]
    rfl
  | ok base =>
    rw [hload] at hbase
    obtain ⟨file,hfile,rfl⟩ := Option.map_eq_some_iff.mp hbase.symm
    dsimp only [Except.bind]
    rw [toOption_map,withEnv_toOption,hfile]
    split
    · exact congrArg (fun cfg => some (Config.normalize cfg)) (withArgs_afterEnv host cli file)
    · rfl

/-- The profile option replaces the flag chosen from the lower sources. -/
theorem chosen_softatem (host : Host) (cli : Cli) (file : ConfigFile) :
    chosenConfig host cli file=
      match cli.softatem with
      | some flag => (chosenBelow host cli file).setSoftatem flag
      | none => chosenBelow host cli file := by
  obtain ⟨config,atem,bind,mdns,softatem,log⟩ := cli
  cases softatem <;> rfl

/-- Everything that the profile switches on is on. -/
def ProfileOn (cfg : Config) : Prop :=
  cfg.locks.mode=.singleOwner ∧ cfg.media.enabled=true ∧
    (cfg.mdns=true ∨ cfg.discovery.mdns=true)

/-- The profile switches everything on. -/
theorem normalize_on (cfg : Config) : (cfg.setSoftatem true).normalize={cfg with
    compat := ⟨true⟩
    locks := ⟨.singleOwner⟩
    media := {cfg.media with enabled := true}
    discovery := ⟨true⟩} := normalize_of_softatem rfl

/-- Without the profile nothing changes. -/
theorem normalize_off (cfg : Config) : (cfg.setSoftatem false).normalize={cfg with
    compat := ⟨false⟩
    discovery := ⟨cfg.mdns || cfg.discovery.mdns⟩} := normalize_of_not_softatem rfl

/-- Switching the profile on after a normalization is as good as before it;
switching it off is, unless the normalization found it on and changed something. -/
theorem normalize_setSoftatem_iff (cfg : Config) (flag : Bool) :
    (cfg.normalize.setSoftatem flag).normalize=(cfg.setSoftatem flag).normalize ↔
      (flag=false → cfg.compat.softatem=true → ProfileOn cfg) := by
  cases flag with
  | true =>
    refine iff_of_true ?_ (fun h => by cases h)
    rw [normalize_on,normalize_on]
    cases hon : cfg.compat.softatem with
    | true => rw [normalize_of_softatem hon]
    | false => rw [normalize_of_not_softatem hon]
  | false =>
    rw [normalize_off,normalize_off]
    cases hon : cfg.compat.softatem with
    | false =>
      refine iff_of_true ?_ (fun _ h => by cases h)
      rw [normalize_of_not_softatem hon]
      simp only [Bool.or_self_left]
    | true =>
      rw [normalize_of_softatem hon]
      dsimp only
      rw [Bool.or_true]
      constructor
      · intro hsame _ _
        have hmode := congrArg (fun c => c.locks.mode) hsame
        have henabled := congrArg (fun c => c.media.enabled) hsame
        have hmdns := congrArg (fun c => c.discovery.mdns) hsame
        exact ⟨hmode.symm,henabled.symm,(Bool.or_eq_true _ _).mp hmdns.symm⟩
      · intro hprofile
        obtain ⟨hmode,henabled,hmdns⟩ := hprofile rfl rfl
        have hlocks : cfg.locks=⟨.singleOwner⟩ := congrArg LocksConfig.mk hmode
        have hmedia : {cfg.media with enabled := true}=cfg.media := by rw [←henabled]
        rw [hlocks,hmedia,(Bool.or_eq_true _ _).mpr hmdns]

/-- Configuration in terms of what was chosen without the profile option. -/
def loaded (host : Host) (cli : Cli) (file : ConfigFile) : Config :=
  match cli.softatem with
  | some flag => ((chosenBelow host cli file).normalize.setSoftatem flag).normalize
  | none => (chosenBelow host cli file).normalize

/-- A configuration is returned exactly when the file can be read and the address
in the environment parses, whatever the command line says. -/
theorem loadCfg_toOption (host : Host) (cli : Cli) :
    (loadCfg host cli).toOption=
      if envParses host=true then (settingsFile host cli.config).map (loaded host cli)
      else none := by
  unfold loadCfg
  rw [toOption_map,load_toOption]
  by_cases hparses : envParses host=true
  · rw [if_pos hparses,if_pos hparses,Option.map_map]
    rfl
  · rw [if_neg hparses,if_neg hparses]
    rfl

/-- A configuration that is loaded is this one. -/
theorem loadCfg_ok {host : Host} {cli : Cli} {file : ConfigFile} {cfg : Config}
    (hfile : settingsFile host cli.config=some file) (h : loadCfg host cli=.ok cfg) :
    cfg=loaded host cli file := by
  have hresult := loadCfg_toOption host cli
  rw [h,hfile] at hresult
  split at hresult
  · exact Option.some.inj hresult
  · cases hresult

/-- Policy that the proxy is started with. -/
def startPolicy (cfg : Config) : FilterPolicy := ⟨cfg.locks.mode,.new,.new cfg.media⟩

/-- Idle limit of its clients; the server waits half a second at least. -/
def idleLimit (cfg : Config) : ℕ := max cfg.clientIdleMs 500

/-- In every state of every run, the filter drops each lock request unless the
file allows locks, and each transfer command unless it allows media. -/
def StaysDenied (cfg : Config) (file : ConfigFile) : Prop :=
  ∀ acts : List SystemAction,Always systemStep (fun x => ∀ client cmd,
    (isLockRequest cmd.name=true → file.config.locks.mode=.deny →
      (x.proxy.filter.processCommand client cmd).2=.dropped cmd.name .lockDenied) ∧
    (isTransferCommand cmd.name=true → file.config.media.enabled=false →
      (x.proxy.filter.processCommand client cmd).2=.dropped cmd.name .mediaDisabled))
    (System.start (startPolicy cfg) (idleLimit cfg)) acts

/-- The lock mode and the media switch of a policy. -/
def Switches (mode : LockMode) (enabled : Bool) (s : Proxy) : Prop :=
  s.filter.policy.lockMode=mode ∧ s.filter.policy.transfer.enabled=enabled

/-- No step of the tasks changes them. -/
theorem switches_step {mode : LockMode} {enabled : Bool} {s t : Proxy} {a : Action}
    (hs : Switches mode enabled s) (h : step s a=some t) : Switches mode enabled t := by
  cases taken_of_step h with
  | payload payload _ => exact hs
  | disconnect _ => exact hs
  | upstream op ops _ =>
    cases op with
    | swapConnected =>
      simp only [Proxy.upstreamStep]
      split <;> exact hs
    | _ => exact hs
  | receive received events _ _ => exact hs
  | fanout op ops t _ hdone => cases hdone <;> exact hs
  | datagram addr data clock _ =>
    rw [s.receiveDatagram_eq addr data clock]
    exact hs
  | handler clock replied t hdone =>
    cases hdone with
    | decided addr cmd cmds actions _ =>
      obtain ⟨hmode,henabled⟩ := ForwardGrants.processCommand_config s.filter addr cmd
      exact ⟨hmode.trans hs.1,henabled.trans hs.2⟩
    | _ => exact hs
  | tick now clocks _ _ => exact hs
  | cleanup op ops _ =>
    cases op with
    | lane addr =>
      refine ⟨hs.1,?_⟩
      simp only [Proxy.cleanupStep,Proxy.setLane,TransferLane.clientDisconnected]
      split <;> exact hs.2
    | _ => exact hs

/-- What the filter does under a configuration that allows neither. -/
theorem processCommand_denied {mode : LockMode} {enabled : Bool} {s : Proxy}
    (hs : Switches mode enabled s) (client : LockStores.SocketAddr) (cmd : CommandRef) :
    (isLockRequest cmd.name=true → mode=.deny →
      (s.filter.processCommand client cmd).2=.dropped cmd.name .lockDenied) ∧
    (isTransferCommand cmd.name=true → enabled=false →
      (s.filter.processCommand client cmd).2=.dropped cmd.name .mediaDisabled) := by
  unfold CommandFilter.processCommand
  constructor
  · intro hlock hmode
    rw [if_pos hlock]
    unfold CommandFilter.processLock
    rw [hs.1,hmode]
  · intro htransfer henabled
    have hlock : ¬isLockRequest cmd.name=true := by
      rw [ForwardGrants.isLockRequest_of_isTransferCommand htransfer]
      exact Bool.false_ne_true
    rw [if_neg hlock,if_pos htransfer]
    unfold CommandFilter.processTransfer
    rw [hs.2,if_pos henabled]

/-- A configuration with the file's own switches denies what the file denies. -/
theorem staysDenied_of_own {cfg : Config} {file : ConfigFile}
    (hmode : cfg.locks.mode=file.config.locks.mode)
    (henabled : cfg.media.enabled=file.config.media.enabled) : StaysDenied cfg file := by
  intro acts
  have hswitches : Always systemStep
      (fun x => Switches file.config.locks.mode file.config.media.enabled x.proxy)
      (System.start (startPolicy cfg) (idleLimit cfg)) acts := by
    refine always_of_invariant systemStep ?_ ⟨hmode,henabled⟩ acts
    intro x a y hx hstep
    rcases proxy_of_systemStep hstep with hsame | ⟨action,haction⟩
    · rw [hsame]
      exact hx
    · exact switches_step hx haction
  exact hswitches.mono systemStep (fun x hx => processCommand_denied hx)

/-- What precedence means for a loaded configuration. -/
structure FollowsPrecedence (host : Host) (cli : Cli) (file : ConfigFile) (cfg : Config) :
    Prop where
  /-- Every setting is from its first source, and the result is normalized once. -/
  chosen : cfg=(chosenConfig host cli file).normalize
  /-- Without the profile, locks and media are as the file or the defaults say. -/
  own : (chosenConfig host cli file).compat.softatem=false →
    cfg.locks.mode=file.config.locks.mode ∧ cfg.media.enabled=file.config.media.enabled
  /-- Without the profile, commands stay denied unless the file enables them. -/
  denied : (chosenConfig host cli file).compat.softatem=false → StaysDenied cfg file

/-- What is chosen for locks and media is what the file says. -/
theorem chosen_own (host : Host) (cli : Cli) (file : ConfigFile) :
    (chosenConfig host cli file).locks.mode=file.config.locks.mode ∧
      (chosenConfig host cli file).media.enabled=file.config.media.enabled ∧
      (chosenConfig host cli file).discovery.mdns=file.config.discovery.mdns := by
  obtain ⟨atem,bind,mdns,clientIdleMs,reconnectMs,log,logFile,compat,locks,media,discovery⟩ := file
  unfold chosenConfig
  simp only [firstGiven_cons,firstGiven_nil]
  cases locks <;> cases media <;> cases discovery <;> exact ⟨rfl,rfl,rfl⟩

/-- One normalization of the chosen settings keeps every promise. -/
theorem followsPrecedence_iff_eq (host : Host) (cli : Cli) (file : ConfigFile) (cfg : Config) :
    FollowsPrecedence host cli file cfg ↔ cfg=(chosenConfig host cli file).normalize := by
  refine ⟨FollowsPrecedence.chosen,fun hchosen => ?_⟩
  have hown : (chosenConfig host cli file).compat.softatem=false →
      cfg.locks.mode=file.config.locks.mode ∧
        cfg.media.enabled=file.config.media.enabled := by
    intro hoff
    obtain ⟨hmode,henabled,_⟩ := chosen_own host cli file
    rw [hchosen,normalize_of_not_softatem hoff]
    exact ⟨hmode,henabled⟩
  exact ⟨hchosen,hown,fun hoff => staysDenied_of_own (hown hoff).1 (hown hoff).2⟩

/-- The command line switches the profile off where the environment or the file
switches it on. -/
def Overrules (host : Host) (cli : Cli) (file : ConfigFile) : Prop :=
  cli.softatem=some false ∧ lowerSoftatem host file=true

/-- The file and the chosen mDNS flag have everything on that the profile
switches on. -/
def OnAnyway (host : Host) (cli : Cli) (file : ConfigFile) : Prop :=
  file.config.locks.mode=.singleOwner ∧ file.config.media.enabled=true ∧
    (firstGiven [cli.mdns,host.flag "ATEM_PROXY_MDNS",file.mdns] false=true ∨
      file.config.discovery.mdns=true)

/-- A configuration that is loaded follows the precedence exactly when the
command line does not switch off a profile that a lower source switches on, or
when the file has everything on anyway. -/
theorem loaded_follows_precedence_iff {host : Host} {cli : Cli} {file : ConfigFile} {cfg : Config}
    (hfile : settingsFile host cli.config=some file) (hload : loadCfg host cli=.ok cfg) :
    FollowsPrecedence host cli file cfg ↔
      (Overrules host cli file → OnAnyway host cli file) := by
  rw [followsPrecedence_iff_eq,loadCfg_ok hfile hload,chosen_softatem,loaded]
  cases hsoftatem : cli.softatem with
  | none =>
    refine iff_of_true rfl (fun hoverrules => ?_)
    rw [Overrules,hsoftatem] at hoverrules
    cases hoverrules.1
  | some flag =>
    dsimp only
    rw [normalize_setSoftatem_iff]
    obtain ⟨hmode,henabled,hmdns⟩ := chosen_own host {cli with softatem := none} file
    unfold ProfileOn chosenBelow
    rw [hmode,henabled,hmdns,Overrules,hsoftatem,Option.some.injEq,and_imp]
    rfl

/-- A file that switches the profile on and says nothing else. -/
def softatemFile : ConfigFile := {compat := some {softatem := some true}}

/-- A machine with that file and an empty environment. -/
def softatemHost : Host where
  var _ := none
  pathExists path := decide (path="atem-proxy.toml")
  readToString path :=
    if path="atem-proxy.toml" then .ok "[compat]\nsoftatem = true\n"
    else .error "No such file or directory"
  fromToml text :=
    if text="[compat]\nsoftatem = true\n" then .ok softatemFile else .error "invalid configuration"
  parseAddr _ := .error "invalid socket address syntax"

/-- Without the file the profile is off already, and it stays off. -/
theorem loaded_follows_precedence_without_file :
    ∃ cfg,loadCfg softatemHost {softatem := some false}=.ok cfg ∧ cfg.locks.mode=.deny ∧
      FollowsPrecedence softatemHost {softatem := some false} {} cfg := by
  refine ⟨{},rfl,rfl,(loaded_follows_precedence_iff rfl rfl).mpr ?_⟩
  rintro ⟨_,hlower⟩
  exact absurd hlower (by decide +kernel)

/-- With the file, the command line switches the profile off, but locks and
media stay on although nobody has switched them on. -/
theorem profile_switched_off_too_late :
    ∃ cfg,loadCfg softatemHost {config := some "atem-proxy.toml", softatem := some false}=.ok cfg ∧
      cfg.compat.softatem=false ∧ cfg.locks.mode=.singleOwner ∧ cfg.media.enabled=true ∧
      softatemFile.config.locks.mode=.deny ∧ softatemFile.config.media.enabled=false ∧
      ¬FollowsPrecedence softatemHost
        {config := some "atem-proxy.toml", softatem := some false} softatemFile cfg := by
  refine ⟨_,rfl,rfl,rfl,rfl,rfl,rfl,fun hfollows => ?_⟩
  obtain ⟨hmode,_⟩ := hfollows.own rfl
  cases hmode

end AtemProxy.ConfigPrecedence
