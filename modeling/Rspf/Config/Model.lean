import Mathlib.Data.List.AList
import Rspf.Crates

/-!
# The configuration

The records a configuration file is read into, with the defaults of the fields it leaves out, and
the parts they are made of: networks (`CidrSet`), the reaction to each result (`RejectPolicy`) and
listener addresses (`ListenAddr`).

Fields that no decision depends on — the log level and `test_only` — are left out.  A map of
strings is an association list without duplicate keys.  Its order stands for the arbitrary order a
hash map is walked in, so nothing may depend on it.

A section that is missing has the defaults of its type, and a field that is missing those of its
section.  For `[srs]` these are not the same: the section by itself allows an age of 21 days, and
without a section it is 0, which makes no difference as nothing is unwrapped then.
-/

set_option autoImplicit false

namespace Rspf

variable (X : Crates)

/-- `HashMap<String, String>`. -/
abbrev StrMap : Type := AList fun _ : Str ↦ Str

/-- `std::io::Error`, of which the daemon only ever prints the text. -/
structure IoError where
  message : Str
  deriving DecidableEq

/-- `std::fs::read_to_string`: the text of each file that can be read. -/
abbrev FileSystem : Type := Str → Except IoError Str

/-! ## Networks -/

/-- `CidrSet`: a list of networks, matched by containment. -/
structure CidrSet where
  nets : List X.IpNet

variable {X} in
/-- Is the address in one of the networks? -/
def CidrSet.contains (s : CidrSet X) (ip : IpAddr) : Bool :=
  s.nets.any fun net ↦ X.netContains net ip

variable {X} in
theorem CidrSet.contains_iff {s : CidrSet X} {ip : IpAddr} :
    s.contains ip = true ↔ ∃ net ∈ s.nets, X.netContains net ip = true := by
  rw [contains, List.any_eq_true]

/-! ## Sections -/

/-- How to react to the result for one identity. -/
inductive RejectPolicy where
  | fail
  | softFail
  | spfNotPass
  /-- Never reject on the result; errors still count. -/
  | never
  /-- Like `never`, and errors do not count either. -/
  | noCheck
  deriving DecidableEq

/-- A listener address: a TCP socket or the path of a Unix socket. -/
inductive ListenAddr where
  | tcp : IpAddr → UInt16 → ListenAddr
  | unix : Str → ListenAddr
  deriving DecidableEq

/-- `[server]`. -/
structure ServerConfig where
  listen : List ListenAddr

/-- `[policy]`. -/
structure PolicyConfig where
  heloReject : RejectPolicy := .fail
  mailFromReject : RejectPolicy := .fail
  permerrorReject : Bool := false
  temperrorDefer : Bool := false

/-- `[skip]`. -/
structure SkipConfig where
  addresses : CidrSet X := ⟨[]⟩

/-- `[whitelist]`. -/
structure WhitelistConfig where
  ips : CidrSet X := ⟨[]⟩
  heloNames : List Str := []
  /-- HELO and sender domains that are not checked, with their subdomains. -/
  domains : List Str := []
  /-- Reverse names that are not checked, with their subdomains. -/
  domainsPtr : List Str := []
  files : List Str := []

/-- `[spf]`. -/
structure SpfConfig where
  lookupTimeoutSecs : UInt64 := 20
  /-- How many lookups may come back empty. -/
  voidLimit : ℕ := 2
  maxLookups : ℕ := 10

/-- `[srs]`. -/
structure SrsConfig where
  enabled : Bool := false
  secrets : List Str := []
  maxAgeDays : UInt32 := 21

/-- `[relay]`. -/
structure RelayConfig where
  exemptSaslAuthenticated : Bool := false
  trustedRelays : CidrSet X := ⟨[]⟩

/-- Which header to add. -/
inductive HeaderMode where
  | spf
  | none
  deriving DecidableEq

/-- `[header]`. -/
structure HeaderConfig where
  mode : HeaderMode := .spf
  hideReceiver : Bool := false
  authservId : Option Str := none

/-- `[messages]`: the texts of rejections and deferrals, with placeholders in braces. -/
structure MessageTemplates where
  fail : Str :=
    "550 5.7.1 SPF check failed: {sender} is not allowed to send mail from {ip}".toList
  softfail : Str :=
    "550 5.7.1 SPF check failed (softfail): {sender} is not allowed to send mail from {ip}".toList
  neutral : Str := "550 5.7.1 SPF check neutral for {sender} from {ip}".toList
  none : Str := "550 5.7.1 SPF check found no record for {sender}".toList
  permerror : Str := "550 5.7.1 SPF check permanent error for {sender}".toList
  temperror : Str := "451 4.7.1 Temporary SPF error for {sender}, please try again later".toList

/-- A configuration.  Without a section `[srs]` the age limit is that of an integer, not that of
the section. -/
structure Config where
  server : ServerConfig
  policy : PolicyConfig := {}
  skip : SkipConfig X := {}
  whitelist : WhitelistConfig X := {}
  spf : SpfConfig := {}
  /-- `[overrides]`: SPF records by domain. -/
  overrides : StrMap := ∅
  srs : SrsConfig := { maxAgeDays := 0 }
  relay : RelayConfig X := {}
  header : HeaderConfig := {}
  messages : MessageTemplates := {}

end Rspf
