import Rspf.Config.Model
import Rspf.Lib.Split
import Rspf.Lib.Text

/-!
# The whitelist

Clients, HELO names and domains that are not checked, from the configuration and from files with
one `prefix:value` entry a line.  `Whitelist.load` builds the whitelist, or reports the first fault
it comes across; `Whitelist.matches` asks it about a request, and names the kind of entry that
matched first.

Entries are folded to lower case when they are loaded and names when they are looked up.  Neither
does anything without the other, so what is known of a match is only known of loaded whitelists.

Only the functions are here.  What they accept and collect is in `Rspf.Whitelist.Entries`, and what
they match in `Rspf.Whitelist.Matching`.
-/

set_option autoImplicit false

namespace Rspf

variable {X : Crates}

/-- `WhitelistReason`: the kind of entry that exempts a request. -/
inductive WhitelistReason where
  | ip
  | helo
  | domain
  | domainPtr
  deriving DecidableEq

/-- `WhitelistError`. -/
inductive WhitelistError (X : Crates) where
  | read (path : Str) (source : IoError)
  | unrecognizedEntry (path : Str) (line : ℕ) (entry : Str)
  | invalidCidr (path : Str) (line : ℕ) (value : Str) (source : X.AddrParseError)

variable (X) in
/-- `Whitelist`.  Of the set of HELO names only membership is ever asked. -/
structure Whitelist where
  ips : CidrSet X
  heloNames : List Str
  domains : List Str
  domainsPtr : List Str

namespace Whitelist

/-! ## Loading -/

/-- `apply_file_line`. -/
def applyFileLine (w : Whitelist X) (path : Str) (lineNo : ℕ) (line : Str) :
    Except (WhitelistError X) (Whitelist X) :=
  match Split.splitOnce ':' line with
  | none => .error (.unrecognizedEntry path lineNo line)
  | some (kind, value) =>
    let value := Text.trim value
    if kind = "ip".toList then
      match X.parseNet value with
      | .ok net => .ok { w with ips := ⟨w.ips.nets ++ [net]⟩ }
      | .error source => .error (.invalidCidr path lineNo value source)
    else if kind = "helo".toList then .ok { w with heloNames := Text.lower value :: w.heloNames }
    else if kind = "domain".toList then .ok { w with domains := w.domains ++ [Text.lower value] }
    else if kind = "ptr".toList then
      .ok { w with domainsPtr := w.domainsPtr ++ [Text.lower value] }
    else .error (.unrecognizedEntry path lineNo line)

/-- The loop body of `load_file`: one line and its index. -/
def loadLine (path : Str) (w : Whitelist X) (p : Str × ℕ) :
    Except (WhitelistError X) (Whitelist X) :=
  let line := Text.trim p.1
  if line = [] ∨ line.head? = some '#' then .ok w else w.applyFileLine path (p.2 + 1) line

/-- `load_file`. -/
def loadFile (fs : FileSystem) (w : Whitelist X) (path : Str) :
    Except (WhitelistError X) (Whitelist X) :=
  match fs path with
  | .error source => .error (.read path source)
  | .ok raw => (Text.lines raw).zipIdx.foldlM (loadLine path) w

/-- `Whitelist::load`. -/
def load (fs : FileSystem) (cfg : WhitelistConfig X) : Except (WhitelistError X) (Whitelist X) :=
  cfg.files.foldlM (loadFile fs)
    { ips := cfg.ips
      heloNames := cfg.heloNames.map Text.lower
      domains := cfg.domains.map Text.lower
      domainsPtr := cfg.domainsPtr.map Text.lower }

/-! ## Matching -/

/-- `matches_suffix`: is the name the suffix, or a name below it? -/
def matchesSuffix (name suffix : Str) : Bool :=
  let name := Text.lower name
  name = suffix || decide ('.' :: suffix <:+ name)

end Whitelist

/-- `Whitelist::matches`. -/
def Whitelist.matches (w : Whitelist X) (ip : IpAddr) (helo : Str) (mailFromDomain : Option Str)
    (reverseClientName : Option Str) : Option WhitelistReason :=
  if w.ips.contains ip then some .ip
  else if w.heloNames.contains (Text.lower helo) then some .helo
  else if w.domains.any (matchesSuffix helo) then some .domain
  else if mailFromDomain.any fun domain ↦ w.domains.any (matchesSuffix domain) then some .domain
  else if reverseClientName.any fun reverse ↦ w.domainsPtr.any (matchesSuffix reverse) then
    some .domainPtr
  else none

end Rspf
