import AtemProxy.ProxyConfig

/-!
# The configuration and the sources it is loaded from

A configuration starts from the defaults, is replaced by the configuration
file when there is one, and is then overridden by environment variables and
by command line options. Normalization switches on what the SoftAtem profile
needs. The file system, the environment and the parsers of other libraries
are taken as they are found.
-/

namespace AtemProxy.ConfigSources

open ProxyConfig

/-- Address of a UDP socket. -/
inductive SocketAddr where
  /-- Address and port. -/
  | v4 (ip : BitVec 32) (port : UInt16)
  /-- Address, port, flow information and scope. -/
  | v6 (ip : BitVec 128) (port : UInt16) (flowinfo scopeId : UInt32)
  deriving DecidableEq

/-- Path of a file. -/
abbrev PathBuf := String

/-- Compatibility profile. -/
structure CompatConfig where
  /-- Single-owner locks, media and mDNS at once. -/
  softatem : Bool := false
  deriving DecidableEq

/-- Lock settings. -/
structure LocksConfig where
  /-- Treatment of client lock requests. -/
  mode : LockMode := .deny
  deriving DecidableEq

/-- Announcement settings. -/
structure DiscoveryConfig where
  /-- Announce the proxy by mDNS. -/
  mdns : Bool := false
  deriving DecidableEq

/-- All settings with their defaults. -/
structure Config where
  /-- Switcher, as address or as host and port. -/
  atem : String := "192.168.1.50"
  /-- Address for clients. -/
  bind : SocketAddr := .v4 0 9910
  /-- Legacy mDNS flag, merged into the announcement settings. -/
  mdns : Bool := false
  /-- Idle limit of a client, in milliseconds. -/
  clientIdleMs : ℕ := 5000
  /-- Pause before a reconnect, in milliseconds. -/
  reconnectMs : ℕ := 1000
  /-- Log filter. -/
  log : String := "info"
  /-- Log file. -/
  logFile : Option PathBuf := none
  /-- Compatibility profile. -/
  compat : CompatConfig := {}
  /-- Lock settings. -/
  locks : LocksConfig := {}
  /-- Media transfer settings. -/
  media : MediaConfig := {}
  /-- Announcement settings. -/
  discovery : DiscoveryConfig := {}
  deriving DecidableEq

namespace Config

/-- Replace the profile flag. -/
def setSoftatem (cfg : Config) (flag : Bool) : Config :=
  {cfg with compat := {cfg.compat with softatem := flag}}

/-- Apply the legacy mDNS flag and the profile. -/
def normalize (cfg : Config) : Config :=
  let merged :=
    if cfg.mdns=true then {cfg with discovery := {cfg.discovery with mdns := true}} else cfg
  if merged.compat.softatem=true then
    {merged with
      locks := {merged.locks with mode := .singleOwner}
      media := {merged.media with enabled := true}
      discovery := {merged.discovery with mdns := true}}
  else merged

end Config

/-- Keys of the compatibility table that are present. -/
structure CompatTable where
  /-- Profile flag. -/
  softatem : Option Bool := none

/-- Keys of the lock table that are present. -/
structure LocksTable where
  /-- Treatment of client lock requests. -/
  mode : Option LockMode := none

/-- Keys of the media table that are present. -/
structure MediaTable where
  /-- Transfer commands may pass the proxy. -/
  enabled : Option Bool := none
  /-- Pause between transfer datagrams. -/
  chunkDelayMs : Option ℕ := none
  /-- Upload size above which a warning is logged. -/
  maxUploadMb : Option ℕ := none

/-- Keys of the announcement table that are present. -/
structure DiscoveryTable where
  /-- Announce the proxy by mDNS. -/
  mdns : Option Bool := none

/-- Keys and tables that a parsed configuration file contains. -/
structure ConfigFile where
  /-- Switcher. -/
  atem : Option String := none
  /-- Address for clients. -/
  bind : Option SocketAddr := none
  /-- Legacy mDNS flag. -/
  mdns : Option Bool := none
  /-- Idle limit of a client. -/
  clientIdleMs : Option ℕ := none
  /-- Pause before a reconnect. -/
  reconnectMs : Option ℕ := none
  /-- Log filter. -/
  log : Option String := none
  /-- Log file. -/
  logFile : Option PathBuf := none
  /-- Compatibility profile. -/
  compat : Option CompatTable := none
  /-- Lock settings. -/
  locks : Option LocksTable := none
  /-- Media transfer settings. -/
  media : Option MediaTable := none
  /-- Announcement settings. -/
  discovery : Option DiscoveryTable := none

/-- Compatibility profile with defaults for missing keys. -/
def CompatTable.config (table : CompatTable) : CompatConfig :=
  ⟨table.softatem.getD ({} : CompatConfig).softatem⟩

/-- Lock settings with defaults for missing keys. -/
def LocksTable.config (table : LocksTable) : LocksConfig :=
  ⟨table.mode.getD ({} : LocksConfig).mode⟩

/-- Media transfer settings with defaults for missing keys. -/
def MediaTable.config (table : MediaTable) : MediaConfig where
  enabled := table.enabled.getD ({} : MediaConfig).enabled
  chunkDelayMs := table.chunkDelayMs.getD ({} : MediaConfig).chunkDelayMs
  maxUploadMb := table.maxUploadMb.getD ({} : MediaConfig).maxUploadMb

/-- Announcement settings with defaults for missing keys. -/
def DiscoveryTable.config (table : DiscoveryTable) : DiscoveryConfig :=
  ⟨table.mdns.getD ({} : DiscoveryConfig).mdns⟩

/-- Configuration with defaults for missing keys and tables. -/
def ConfigFile.config (file : ConfigFile) : Config where
  atem := file.atem.getD ({} : Config).atem
  bind := file.bind.getD ({} : Config).bind
  mdns := file.mdns.getD false
  clientIdleMs := file.clientIdleMs.getD ({} : Config).clientIdleMs
  reconnectMs := file.reconnectMs.getD ({} : Config).reconnectMs
  log := file.log.getD ({} : Config).log
  logFile := file.logFile.or ({} : Config).logFile
  compat := (file.compat.map CompatTable.config).getD ({} : Config).compat
  locks := (file.locks.map LocksTable.config).getD ({} : Config).locks
  media := (file.media.map MediaTable.config).getD ({} : Config).media
  discovery := (file.discovery.map DiscoveryTable.config).getD ({} : Config).discovery

/-- Why no configuration was loaded. -/
structure LoadError where
  /-- What was being done, where the code says so. -/
  context : Option String
  /-- Message of the failed operation. -/
  cause : String
  deriving DecidableEq

/-- What the process finds around it. -/
structure Host where
  /-- Environment variables with a value that is text. -/
  var : String → Option String
  /-- Whether a path exists. -/
  pathExists : PathBuf → Bool
  /-- Contents of a file. -/
  readToString : PathBuf → Except String String
  /-- Parser for configuration files. -/
  fromToml : String → Except String ConfigFile
  /-- Parser for socket addresses. -/
  parseAddr : String → Except String SocketAddr

/-- Values of an environment variable that switch a flag on; any other value
switches it off. -/
def isYes (value : String) : Bool := decide (value.toLower∈["1","true","yes"])

namespace Host

/-- Flag in an environment variable. -/
def flag (host : Host) (name : String) : Option Bool := (host.var name).map isYes

/-- Configuration file at a path, or the defaults where there is none. -/
def configAt (host : Host) (path : PathBuf) (reading parsing : Option String) :
    Except LoadError Config :=
  if host.pathExists path=true then
    match host.readToString path with
    | .error cause => .error ⟨reading,cause⟩
    | .ok text =>
      match host.fromToml text with
      | .error cause => .error ⟨parsing,cause⟩
      | .ok file => .ok file.config
  else .ok {}

/-- Configuration before anything is overridden. The path of the caller counts
before the one in the environment, whose errors have no context. -/
def baseConfig (host : Host) (configPath : Option PathBuf) : Except LoadError Config :=
  match configPath with
  | some path =>
    host.configAt path (some ("reading config "++path)) (some ("parsing config "++path))
  | none =>
    match host.var "ATEM_PROXY_CONFIG" with
    | some path => host.configAt path none none
    | none => .ok {}

/-- Address for clients after the environment; a variable that does not parse
is an error. -/
def bindAfterEnv (host : Host) (cfg : Config) : Except LoadError SocketAddr :=
  match host.var "ATEM_PROXY_BIND" with
  | some value =>
    match host.parseAddr value with
    | .error cause => .error ⟨some "ATEM_PROXY_BIND",cause⟩
    | .ok addr => .ok addr
  | none => .ok cfg.bind

/-- Configuration overridden by the environment. -/
def withEnv (host : Host) (cfg : Config) : Except LoadError Config :=
  (host.bindAfterEnv cfg).map (fun bind =>
    {cfg with
      atem := (host.var "ATEM_PROXY_ATEM").getD cfg.atem
      bind := bind
      mdns := (host.flag "ATEM_PROXY_MDNS").getD cfg.mdns
      log := (host.var "ATEM_PROXY_LOG").getD cfg.log
      compat := {cfg.compat with
        softatem := (host.flag "ATEM_PROXY_SOFTATEM").getD cfg.compat.softatem}})

end Host

/-- Configuration overridden by the options that loading knows of. -/
def Config.withArgs (cfg : Config) (atem : Option String) (bind : Option SocketAddr)
    (mdns : Option Bool) (log : Option String) : Config :=
  {cfg with
    atem := atem.getD cfg.atem
    bind := bind.getD cfg.bind
    mdns := mdns.getD cfg.mdns
    log := log.getD cfg.log}

/-- Load and normalize a configuration. -/
def load (host : Host) (configPath : Option PathBuf) (atem : Option String)
    (bind : Option SocketAddr) (mdns : Option Bool) (log : Option String) :
    Except LoadError Config :=
  (host.baseConfig configPath).bind (fun base =>
    (host.withEnv base).map (fun cfg => (cfg.withArgs atem bind mdns log).normalize))

/-- Options of the command line. -/
structure Cli where
  /-- Path of the configuration file. -/
  config : Option PathBuf := none
  /-- Switcher. -/
  atem : Option String := none
  /-- Address for clients. -/
  bind : Option SocketAddr := none
  /-- Announce the proxy by mDNS. -/
  mdns : Option Bool := none
  /-- SoftAtem profile. -/
  softatem : Option Bool := none
  /-- Log filter. -/
  log : Option String := none

/-- Load the configuration; the profile option is applied to the result of
loading, which is normalized once more. -/
def loadCfg (host : Host) (cli : Cli) : Except LoadError Config :=
  (load host cli.config cli.atem cli.bind cli.mdns cli.log).map (fun cfg =>
    match cli.softatem with
    | some flag => (cfg.setSoftatem flag).normalize
    | none => cfg)

/-- Without the profile only the legacy mDNS flag has an effect. -/
theorem normalize_of_not_softatem {cfg : Config} (h : cfg.compat.softatem=false) :
    cfg.normalize={cfg with discovery := ⟨cfg.mdns || cfg.discovery.mdns⟩} := by
  obtain ⟨atem,bind,mdns,clientIdleMs,reconnectMs,log,logFile,compat,locks,media,discovery⟩ := cfg
  have hoff : ¬compat.softatem=true := fun hon => Bool.false_ne_true (h.symm.trans hon)
  cases mdns with
  | true => exact if_neg hoff
  | false => exact if_neg hoff

/-- With the profile, locks, media and mDNS are on. -/
theorem normalize_of_softatem {cfg : Config} (h : cfg.compat.softatem=true) :
    cfg.normalize={cfg with
      locks := ⟨.singleOwner⟩
      media := {cfg.media with enabled := true}
      discovery := ⟨true⟩} := by
  unfold Config.normalize
  split <;> simp only [h,if_true]

end AtemProxy.ConfigSources
