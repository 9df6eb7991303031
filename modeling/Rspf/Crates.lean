import Rspf.Net.IpAddr
import Rspf.Lib.Split

/-!
# What the daemon takes from other crates

The daemon is a thin layer of policy over crates that do the actual work: `ipnet` matches
addresses against networks, `hmac` and `sha1` authenticate rewritten senders, and `viaspf`
evaluates SPF records over a DNS resolver.  None of these is part of the repository.  They enter
the development as one parameter, a value of `Crates`, which names the types and functions the
daemon uses and says nothing about how they work.  Where a result relies on documented behaviour
of one of them it says so in a hypothesis.

Two of their types the daemon takes apart, so they are definitions here: `SpfResult` and
`SpfResultCause`, with opaque payloads.  The resolver interface is `Lookup`, over an arbitrary
monad that stands for the effects of asking.

`Crates.sample` is one concrete value, for running the model on given inputs.
-/

set_option autoImplicit false

namespace Rspf

/-! ## `viaspf`: results -/

/-- `viaspf::SpfResult`. -/
inductive SpfResult (ExplanationString : Type) where
  | none
  | neutral
  | pass
  /-- The client is not authorised; the explanation is for the sender. -/
  | fail : ExplanationString → SpfResult ExplanationString
  | softfail
  | temperror
  | permerror
  deriving DecidableEq

/-- `viaspf::SpfResultCause`. -/
inductive SpfResultCause (Mechanism ErrorCause : Type) where
  | match : Mechanism → SpfResultCause Mechanism ErrorCause
  | error : ErrorCause → SpfResultCause Mechanism ErrorCause
  deriving DecidableEq

/-- `viaspf::QueryResult`. -/
structure QueryResult (ExplanationString Mechanism ErrorCause : Type) where
  spfResult : SpfResult ExplanationString
  cause : Option (SpfResultCause Mechanism ErrorCause)

/-- `viaspf::Config`, as far as its builder is used. -/
structure ViaspfConfig where
  maxLookups : ℕ
  maxVoidLookups : ℕ
  /-- The time limit, in seconds. -/
  timeout : UInt64
  deriving DecidableEq

/-! ## `viaspf`: resolvers -/

/-- The trait `viaspf::lookup::Lookup`.  Asking is an action of the monad `m`. -/
structure Lookup (m : Type → Type) (Name LookupError : Type) where
  lookupA : Name → m (Except LookupError (List Ipv4Addr))
  lookupAaaa : Name → m (Except LookupError (List Ipv6Addr))
  lookupMx : Name → m (Except LookupError (List Name))
  lookupTxt : Name → m (Except LookupError (List Str))
  lookupPtr : IpAddr → m (Except LookupError (List Name))

/-! ## The crates -/

/-- The types and functions of other crates that the daemon uses: two types of `ipnet`, the errors
of `toml` and `hickory_resolver`, and from `Name` on the types of `viaspf`. -/
structure Crates where
  IpNet : Type
  AddrParseError : Type
  /-- `IpNet::contains`. -/
  netContains : IpNet → IpAddr → Bool
  /-- `str::parse::<IpNet>`. -/
  parseNet : Str → Except AddrParseError IpNet
  /-- HMAC-SHA1: the digest of a message under a key, which may have any length. -/
  hmacSha1 : List UInt8 → List UInt8 → Vector UInt8 20
  TomlError : Type
  ResolveError : Type
  Name : Type
  LookupError : Type
  DomainName : Type
  Sender : Type
  RecordParseError : Type
  SpfRecord : Type
  ExplanationString : Type
  Mechanism : Type
  ErrorCause : Type
  /-- `Name::to_string`. -/
  nameToString : Name → Str
  /-- `DomainName::new`, without the reason for a failure. -/
  domainName : Str → Option DomainName
  /-- `Sender::from_domain`, without the reason for a failure. -/
  senderFromDomain : Str → Option Sender
  /-- `Sender::from_address`, without the reason for a failure. -/
  senderFromAddress : Str → Option Sender
  /-- `Sender::domain`. -/
  senderDomain : Sender → DomainName
  /-- `str::parse::<SpfRecord>`. -/
  parseSpfRecord : Str → Except RecordParseError SpfRecord
  /-- `Display for SpfResult`, which prints a fail with its explanation. -/
  displayResult : SpfResult ExplanationString → Str
  /-- `Display for Mechanism`. -/
  displayMechanism : Mechanism → Str
  /-- `Display for ErrorCause`. -/
  displayErrorCause : ErrorCause → Str
  /-- `viaspf::evaluate_sender`. -/
  evaluateSender : {m : Type → Type} → [Monad m] → Lookup m Name LookupError → ViaspfConfig →
    IpAddr → Sender → Option DomainName → m (QueryResult ExplanationString Mechanism ErrorCause)

namespace Crates

variable (X : Crates)

/-- An SPF result, with the explanation `viaspf` gives. -/
abbrev Result : Type := SpfResult X.ExplanationString

/-- The cause of an SPF result. -/
abbrev Cause : Type := SpfResultCause X.Mechanism X.ErrorCause

/-- A resolver. -/
abbrev Resolver (m : Type → Type) : Type := Lookup m X.Name X.LookupError

/-- What `viaspf` prints stays on one line. -/
structure PrintsNoNewline : Prop where
  result : ∀ r, '\n' ∉ X.displayResult r
  mechanism : ∀ k, '\n' ∉ X.displayMechanism k
  errorCause : ∀ e, '\n' ∉ X.displayErrorCause e

end Crates

/-! ## A sample

Networks are given by address and length, as `ipnet` reads and matches them; HMAC-SHA1 is right for
one key and message; and an evaluation asks for the text records of the domain and understands two
of them, so that overrides make a difference.  Results are printed as `viaspf` prints them, which
matters to everything that is read back later: a `fail` shows the explanation of the domain. -/

/-- An address as a number, and how many bits it has. -/
def IpAddr.bits : IpAddr → ℕ × ℕ
  | .v4 a => (a.octets.foldl (fun n o ↦ n * 256 + o.toNat) 0, 32)
  | .v6 a => (a.segments.foldl (fun n o ↦ n * 65536 + o.toNat) 0, 128)

/-- Do the addresses agree in their first `len` bits? -/
def sampleContains (net : IpAddr × ℕ) (ip : IpAddr) : Bool :=
  let a := net.1.bits
  let b := ip.bits
  a.2 = b.2 && a.1 >>> (a.2 - net.2) = b.1 >>> (a.2 - net.2)

/-- Read `address/length`. -/
def sampleParseNet (s : Str) : Except Unit (IpAddr × ℕ) :=
  match Split.splitOnce '/' s with
  | some (addr, len) =>
    match IpAddr.parse addr, readNumber 10 3 129 true len with
    | some a, some (n, []) => if n ≤ a.bits.2 then .ok (a, n) else .error ()
    | _, _ => .error ()
  | none => .error ()

/-- The digest of `A0=example.com=user` under `secret`, and zeros elsewhere. -/
def sampleHmacSha1 (key message : List UInt8) : Vector UInt8 20 :=
  if key = "secret".toList.map (fun c ↦ UInt8.ofNat c.toNat) ∧
      message = "A0=example.com=user".toList.map (fun c ↦ UInt8.ofNat c.toNat) then
    #v[13, 58, 231, 38, 74, 66, 30, 25, 77, 1, 0, 225, 12, 211, 22, 145, 188, 75, 181, 195]
  else Vector.replicate 20 0

/-- Results as `viaspf` prints them.  A `fail` comes with its explanation, which is a text of the
domain that was checked; that it has no line feeds is part of its syntax. -/
def sampleDisplayResult : SpfResult {s : Str // '\n' ∉ s} → Str
  | .none => "none".toList
  | .neutral => "neutral".toList
  | .pass => "pass".toList
  | .fail explanation => "fail (".toList ++ explanation.val ++ ")".toList
  | .softfail => "softfail".toList
  | .temperror => "temperror".toList
  | .permerror => "permerror".toList

/-- An explanation. -/
def sampleExplanation : {s : Str // '\n' ∉ s} := ⟨"not allowed".toList, by decide⟩

/-- Evaluate the only records the sample knows: one that admits everybody and one that admits
nobody. -/
def sampleEvaluate (answer : Except Unit (List Str)) :
    QueryResult {s : Str // '\n' ∉ s} Unit Unit :=
  match answer with
  | .error _ => ⟨.temperror, some (.error ())⟩
  | .ok [] => ⟨.none, none⟩
  | .ok (record :: _) =>
    if record = "v=spf1 +all".toList then ⟨.pass, some (.match ())⟩
    else if record = "v=spf1 -all".toList then ⟨.fail sampleExplanation, some (.match ())⟩
    else ⟨.none, none⟩

/-- A concrete choice of the parameters. -/
def Crates.sample : Crates where
  IpNet := IpAddr × ℕ
  AddrParseError := Unit
  netContains := sampleContains
  parseNet := sampleParseNet
  hmacSha1 := sampleHmacSha1
  TomlError := Unit
  ResolveError := Unit
  Name := Str
  LookupError := Unit
  DomainName := Str
  Sender := Str
  RecordParseError := Unit
  SpfRecord := Unit
  ExplanationString := {s : Str // '\n' ∉ s}
  Mechanism := Unit
  ErrorCause := Unit
  nameToString := id
  domainName := some
  senderFromDomain := some
  senderFromAddress s := (Split.rsplitOnce '@' s).map Prod.snd
  senderDomain := id
  parseSpfRecord s :=
    if s = "v=spf1 -all".toList ∨ s = "v=spf1 +all".toList then .ok () else .error ()
  displayResult := sampleDisplayResult
  displayMechanism _ := "all".toList
  displayErrorCause _ := "DNS lookup timed out".toList
  evaluateSender lookup _ _ sender _ := do
    let answer ← lookup.lookupTxt sender
    pure (sampleEvaluate answer)

theorem not_mem_sampleDisplayResult (r : SpfResult {s : Str // '\n' ∉ s}) :
    '\n' ∉ sampleDisplayResult r := by
  have hall : ∀ w ∈ ["none", "neutral", "pass", "fail (", ")", "softfail", "temperror",
      "permerror"], '\n' ∉ w.toList := by decide
  cases r with
  | fail explanation =>
    intro h
    rcases List.mem_append.mp h with h | h
    · rcases List.mem_append.mp h with h | h
      · exact hall "fail (" (by simp) h
      · exact explanation.property h
    · exact hall ")" (by simp) h
  | none | neutral | pass | softfail | temperror | permerror => exact hall _ (by simp)

theorem Crates.sample_printsNoNewline : Crates.sample.PrintsNoNewline where
  result := not_mem_sampleDisplayResult
  mechanism _ := (by decide : '\n' ∉ "all".toList)
  errorCause _ := (by decide : '\n' ∉ "DNS lookup timed out".toList)

end Rspf
