import Mathlib.Data.UInt

/-!
# Configuration types read by the policies

Only the settings that a policy reads are present here; the configuration they
are part of is in `ConfigSources`.
-/

namespace AtemProxy.ProxyConfig

/-- Treatment of client lock requests. -/
inductive LockMode where
  /-- Every client lock request is dropped. -/
  | deny
  /-- One client at a time owns a store. -/
  | singleOwner
  deriving DecidableEq

/-- Media transfer settings with their defaults. -/
structure MediaConfig where
  /-- Transfer commands may pass the proxy. -/
  enabled : Bool := false
  /-- Pause between transfer datagrams, in milliseconds. -/
  chunkDelayMs : ℕ := 0
  /-- Upload size above which a warning is logged, in megabytes. -/
  maxUploadMb : ℕ := 64
  deriving DecidableEq

end AtemProxy.ProxyConfig
