import Rspf.Config.Model
import Rspf.Lib.Split
import Rspf.Net.RoundTrip

/-!
# Listener addresses and their text form

A listener address is written in the configuration as `tcp:ADDRESS:PORT` or `unix:PATH`, and read
with `ListenAddr::from_str`.  What comes after `tcp:` is a `SocketAddr` of the standard library: an
IPv6 address stands in brackets there, and may name a scope.

`ListenAddr.fromStr_spec` says what is accepted, which error the rest gives, and that whatever is
accepted is printed in a form that reads back as the same address.

The other way round there are addresses that are not written like this: a Unix socket with an empty
path, and an IPv6 address with flow information, which is never printed.  No text stands for these,
and `ListenAddr.fromStr_spec` says that there are no others.
-/

set_option autoImplicit false

namespace Rspf

/-! ## Socket addresses -/

/-- `std::net::SocketAddr`. -/
inductive SocketAddr where
  | v4 (ip : Ipv4Addr) (port : UInt16)
  | v6 (ip : Ipv6Addr) (port : UInt16) (flowinfo scopeId : UInt32)
  deriving DecidableEq

/-- Read a colon, and a port after it. -/
def readPort (s : Str) : Option (UInt16 × Str) := do
  let s ← readGivenChar ':' s
  let (port, s) ← readNumber 10 s.length 65536 true s
  some (UInt16.ofNat port, s)

/-- Read a percent sign, and a scope after it. -/
def readScopeId (s : Str) : Option (UInt32 × Str) := do
  let s ← readGivenChar '%' s
  let (scopeId, s) ← readNumber 10 s.length 4294967296 true s
  some (UInt32.ofNat scopeId, s)

/-- Read an IPv4 address and a port. -/
def readSocketAddrV4 (s : Str) : Option (SocketAddr × Str) := do
  let (ip, s) ← readIpv4Addr s
  let (port, s) ← readPort s
  some (.v4 ip port, s)

/-- Read an IPv6 address in brackets and a port. -/
def readSocketAddrV6 (s : Str) : Option (SocketAddr × Str) := do
  let s ← readGivenChar '[' s
  let (ip, s) ← readIpv6Addr s
  let (scopeId, s) := (readScopeId s).getD (0, s)
  let s ← readGivenChar ']' s
  let (port, s) ← readPort s
  some (.v6 ip port 0 scopeId, s)

/-- `str::parse::<SocketAddr>`. -/
def SocketAddr.parse (s : Str) : Option SocketAddr :=
  match (readSocketAddrV4 s).or (readSocketAddrV6 s) with
  | some (a, []) => some a
  | _ => none

/-- `Display for SocketAddr`. -/
def SocketAddr.display : SocketAddr → Str
  | v4 ip port => ip.display ++ ':' :: Nat.toDigits 10 port.toNat
  | v6 ip port _ scopeId =>
    '[' :: (ip.display ++
      ((if scopeId = 0 then [] else '%' :: Nat.toDigits 10 scopeId.toNat) ++
        ']' :: ':' :: Nat.toDigits 10 port.toNat))

/-- The part of an address that is not written. -/
def SocketAddr.flowinfo : SocketAddr → UInt32
  | v4 _ _ => 0
  | v6 _ _ flowinfo _ => flowinfo

/-- A number of any length reads back. -/
theorem readNumber_length {n bound : ℕ} (hn : n < bound) {s : Str} (hs : NoDigit 10 s) :
    readNumber 10 (Nat.toDigits 10 n ++ s).length bound true (Nat.toDigits 10 n ++ s) =
      some (n, s) :=
  readNumber_toDigits (by decide) (by decide) (by rw [List.length_append]; omega) hn true hs

theorem readPort_display (port : UInt16) {s : Str} (hs : NoDigit 10 s) :
    readPort (':' :: (Nat.toDigits 10 port.toNat ++ s)) = some (port, s) := by
  rw [readPort, readGivenChar, if_pos rfl]
  show (readNumber 10 _ _ _ _).bind _ = _
  rw [readNumber_length port.toNat_lt hs]
  show some (UInt16.ofNat port.toNat, s) = _
  rw [UInt16.ofNat_toNat]

theorem readScopeId_display (scopeId : UInt32) {s : Str} (hs : NoDigit 10 s) :
    readScopeId ('%' :: (Nat.toDigits 10 scopeId.toNat ++ s)) = some (scopeId, s) := by
  rw [readScopeId, readGivenChar, if_pos rfl]
  show (readNumber 10 _ _ _ _).bind _ = _
  rw [readNumber_length scopeId.toNat_lt hs]
  show some (UInt32.ofNat scopeId.toNat, s) = _
  rw [UInt32.ofNat_toNat]

/-- The end of an address in brackets. -/
theorem addrEnd_cons {c : Char} (hdigit : toDigit 16 c = none) (hdot : c ≠ '.') (hcolon : c ≠ ':')
    (s : Str) : AddrEnd (c :: s) where
  noDigit := noDigit_cons hdigit s
  noDot h := hdot (Option.some.inj h)
  colons h := absurd (Option.some.inj h) hcolon

theorem readSocketAddrV4_display (ip : Ipv4Addr) (port : UInt16) :
    readSocketAddrV4 (SocketAddr.v4 ip port).display = some (.v4 ip port, []) := by
  have hport := readPort_display port (noDigit_nil 10)
  rw [List.append_nil] at hport
  rw [readSocketAddrV4, SocketAddr.display, readIpv4Addr_display ip (noDigit_cons (by decide) _)]
  show (readPort _).bind _ = _
  rw [hport]
  rfl

theorem readSocketAddrV6_display (ip : Ipv6Addr) (port : UInt16) (scopeId : UInt32) :
    readSocketAddrV6 (SocketAddr.v6 ip port 0 scopeId).display =
      some (.v6 ip port 0 scopeId, []) := by
  have hport := readPort_display port (noDigit_nil 10)
  rw [List.append_nil] at hport
  have hclose : NoDigit 10 (']' :: ':' :: Nat.toDigits 10 port.toNat) := noDigit_cons (by decide) _
  have hscope : ∃ t, (if scopeId = 0 then [] else '%' :: Nat.toDigits 10 scopeId.toNat) ++
        ']' :: ':' :: Nat.toDigits 10 port.toNat = t ∧ AddrEnd t ∧
      (readScopeId t).getD (0, t) = (scopeId, ']' :: ':' :: Nat.toDigits 10 port.toNat) := by
    split
    · rename_i h
      refine ⟨_, rfl, addrEnd_cons (by decide) (by decide) (by decide) _, ?_⟩
      rw [h]
      rfl
    · refine ⟨_, rfl, addrEnd_cons (by decide) (by decide) (by decide) _, ?_⟩
      rw [List.cons_append, readScopeId_display scopeId hclose]
      rfl
  obtain ⟨t, ht, hend, hread⟩ := hscope
  rw [readSocketAddrV6, SocketAddr.display, ht, readGivenChar, if_pos rfl]
  show (readIpv6Addr _).bind _ = _
  rw [readIpv6Addr_display ip hend, Option.bind_some]
  dsimp only
  rw [hread, readGivenChar, if_pos rfl]
  show (readPort _).bind _ = _
  rw [hport]
  rfl

/-- **A socket address reads back**, as far as it is written. -/
theorem SocketAddr.parse_display {a : SocketAddr} (h : a.flowinfo = 0) :
    parse a.display = some a := by
  cases a with
  | v4 ip port => rw [parse, readSocketAddrV4_display, Option.some_or]
  | v6 ip port flowinfo scopeId =>
    obtain rfl : flowinfo = 0 := h
    have hv4 : readSocketAddrV4 (SocketAddr.v6 ip port 0 scopeId).display = none := by
      rw [readSocketAddrV4, display, readIpv4Addr_of_noDigit (noDigit_cons (by decide) _)]
      rfl
    rw [parse, hv4, readSocketAddrV6_display, Option.none_or]

/-- What is read is what is written. -/
theorem SocketAddr.flowinfo_of_parse {s : Str} {a : SocketAddr} (h : parse s = some a) :
    a.flowinfo = 0 := by
  rw [parse] at h
  split at h
  · rename_i hread
    obtain rfl := Option.some.inj h
    rcases Option.or_eq_some_iff.mp hread with hread | ⟨-, hread⟩
    · obtain ⟨⟨ip, t⟩, -, hread⟩ := Option.bind_eq_some_iff.mp hread
      obtain ⟨⟨port, t'⟩, -, hread⟩ := Option.bind_eq_some_iff.mp hread
      cases hread
      rfl
    · obtain ⟨t, -, hread⟩ := Option.bind_eq_some_iff.mp hread
      obtain ⟨⟨ip, t'⟩, -, hread⟩ := Option.bind_eq_some_iff.mp hread
      obtain ⟨t, -, hread⟩ := Option.bind_eq_some_iff.mp hread
      obtain ⟨⟨port, t'⟩, -, hread⟩ := Option.bind_eq_some_iff.mp hread
      cases hread
      rfl
  · cases h

/-! ## Listener addresses -/

/-- `ListenAddrParseError`. -/
inductive ListenAddrParseError where
  /-- Neither `tcp:` nor `unix:` comes first. -/
  | missingScheme (s : Str)
  /-- What follows `tcp:` is not a socket address. -/
  | invalidTcp (rest message : Str)
  | emptyUnixPath
  deriving DecidableEq

/-- `ListenAddr`, with the whole of its socket address. -/
inductive ListenAddr.Full where
  | tcp (addr : SocketAddr)
  | unix (path : Str)
  deriving DecidableEq

/-- The address that the configuration has. -/
def ListenAddr.Full.toListenAddr : Full → ListenAddr
  | tcp (.v4 ip port) => .tcp (.v4 ip) port
  | tcp (.v6 ip port _ _) => .tcp (.v6 ip) port
  | unix path => .unix path

/-- The text of the error for a socket address. -/
def addrParseError : Str := "invalid socket address syntax".toList

/-- `ListenAddr::from_str`. -/
def ListenAddr.fromStr (s : Str) : Except ListenAddrParseError ListenAddr.Full :=
  match Split.stripPrefix "tcp:".toList s with
  | some rest =>
    match SocketAddr.parse rest with
    | some addr => .ok (.tcp addr)
    | none => .error (.invalidTcp rest addrParseError)
  | none =>
    match Split.stripPrefix "unix:".toList s with
    | some rest => if rest = [] then .error .emptyUnixPath else .ok (.unix rest)
    | none => .error (.missingScheme s)

/-- `Display for ListenAddr`. -/
def ListenAddr.Full.display : Full → Str
  | tcp addr => "tcp:".toList ++ addr.display
  | unix path => "unix:".toList ++ path

/-- An address that can be written. -/
def ListenAddr.Full.Writable : Full → Prop
  | tcp addr => addr.flowinfo = 0
  | unix path => path ≠ []

namespace ListenAddr

variable {s rest : Str} {a : Full} {e : ListenAddrParseError}

theorem fromStr_tcp (rest : Str) :
    fromStr ("tcp:".toList ++ rest) =
      match SocketAddr.parse rest with
      | some addr => .ok (.tcp addr)
      | none => .error (.invalidTcp rest addrParseError) := by
  rw [fromStr, Split.stripPrefix_append]

/-- No text begins in both ways. -/
theorem stripPrefix_tcp_unix (rest : Str) :
    Split.stripPrefix "tcp:".toList ("unix:".toList ++ rest) = none :=
  if_neg fun h ↦ absurd (List.cons_prefix_cons.mp h).1 (by decide)

theorem fromStr_unix (rest : Str) :
    fromStr ("unix:".toList ++ rest) =
      if rest = [] then .error .emptyUnixPath else .ok (.unix rest) := by
  rw [fromStr, stripPrefix_tcp_unix]
  dsimp only
  rw [Split.stripPrefix_append]

/-- The three ways a text can begin. -/
theorem fromStr_cases (s : Str) :
    (∃ rest, s = "tcp:".toList ++ rest) ∨ (∃ rest, s = "unix:".toList ++ rest) ∨
      ¬ "tcp:".toList <+: s ∧ ¬ "unix:".toList <+: s ∧ fromStr s = .error (.missingScheme s) := by
  by_cases htcp : "tcp:".toList <+: s
  · obtain ⟨rest, rfl⟩ := htcp
    exact .inl ⟨rest, rfl⟩
  · by_cases hunix : "unix:".toList <+: s
    · obtain ⟨rest, rfl⟩ := hunix
      exact .inr (.inl ⟨rest, rfl⟩)
    · refine .inr (.inr ⟨htcp, hunix, ?_⟩)
      rw [fromStr, Split.stripPrefix, if_neg htcp, Split.stripPrefix, if_neg hunix]

theorem fromStr_eq_ok_iff : fromStr s = .ok a ↔
    (∃ rest addr, s = "tcp:".toList ++ rest ∧ SocketAddr.parse rest = some addr ∧ a = .tcp addr) ∨
      ∃ path ≠ [], s = "unix:".toList ++ path ∧ a = .unix path := by
  refine ⟨fun h ↦ ?_, ?_⟩
  · rcases fromStr_cases s with ⟨rest, rfl⟩ | ⟨rest, rfl⟩ | ⟨-, -, hmissing⟩
    · rw [fromStr_tcp] at h
      split at h
      · rename_i addr haddr
        exact .inl ⟨rest, addr, rfl, haddr, (Except.ok.inj h).symm⟩
      · cases h
    · rw [fromStr_unix] at h
      split at h
      · cases h
      · rename_i hpath
        exact .inr ⟨rest, hpath, rfl, (Except.ok.inj h).symm⟩
    · cases hmissing.symm.trans h
  · rintro (⟨rest, addr, rfl, haddr, rfl⟩ | ⟨path, hpath, rfl, rfl⟩)
    · rw [fromStr_tcp, haddr]
    · rw [fromStr_unix, if_neg hpath]

theorem fromStr_eq_error_iff : fromStr s = .error e ↔
    (¬ "tcp:".toList <+: s ∧ ¬ "unix:".toList <+: s ∧ e = .missingScheme s) ∨
      (∃ rest, s = "tcp:".toList ++ rest ∧ SocketAddr.parse rest = none ∧
        e = .invalidTcp rest addrParseError) ∨
      s = "unix:".toList ∧ e = .emptyUnixPath := by
  refine ⟨fun h ↦ ?_, ?_⟩
  · rcases fromStr_cases s with ⟨rest, rfl⟩ | ⟨rest, rfl⟩ | ⟨htcp, hunix, hmissing⟩
    · rw [fromStr_tcp] at h
      split at h
      · cases h
      · rename_i hnone
        exact .inr (.inl ⟨rest, rfl, hnone, (Except.error.inj h).symm⟩)
    · rw [fromStr_unix] at h
      split at h
      · rename_i hpath
        rw [hpath]
        exact .inr (.inr ⟨rfl, (Except.error.inj h).symm⟩)
      · cases h
    · exact .inl ⟨htcp, hunix, (Except.error.inj (hmissing.symm.trans h)).symm⟩
  · rintro (⟨htcp, hunix, rfl⟩ | ⟨rest, rfl, hnone, rfl⟩ | ⟨rfl, rfl⟩)
    · rcases fromStr_cases s with ⟨rest, rfl⟩ | ⟨rest, rfl⟩ | ⟨-, -, hmissing⟩
      · exact absurd (List.prefix_append _ rest) htcp
      · exact absurd (List.prefix_append _ rest) hunix
      · exact hmissing
    · rw [fromStr_tcp, hnone]
    · exact fromStr_unix []

/-- What is accepted can be written. -/
theorem writable_of_fromStr (h : fromStr s = .ok a) : a.Writable := by
  rcases fromStr_eq_ok_iff.mp h with ⟨rest, addr, -, haddr, rfl⟩ | ⟨path, hpath, -, rfl⟩
  · exact SocketAddr.flowinfo_of_parse haddr
  · exact hpath

/-- What can be written reads back. -/
theorem fromStr_display (h : a.Writable) : fromStr a.display = .ok a := by
  cases a with
  | tcp addr => exact fromStr_eq_ok_iff.mpr (.inl ⟨_, addr, rfl, SocketAddr.parse_display h, rfl⟩)
  | unix path => exact fromStr_eq_ok_iff.mpr (.inr ⟨path, h, rfl, rfl⟩)

/-- Every address the configuration may have can be written, but for a socket without a path. -/
theorem exists_fromStr_iff {l : ListenAddr} :
    (∃ s a, fromStr s = .ok a ∧ a.toListenAddr = l) ↔ l ≠ .unix [] := by
  refine ⟨?_, fun h ↦ ?_⟩
  · rintro ⟨s, a, hok, rfl⟩ h
    cases a with
    | tcp addr => cases addr <;> cases h
    | unix path => exact writable_of_fromStr hok (ListenAddr.unix.inj h)
  · cases l with
    | tcp ip port =>
      cases ip with
      | v4 ip => exact ⟨_, .tcp (.v4 ip port), fromStr_display rfl, rfl⟩
      | v6 ip => exact ⟨_, .tcp (.v6 ip port 0 0), fromStr_display rfl, rfl⟩
    | unix path =>
      exact ⟨_, .unix path, fromStr_display fun hpath ↦ h (congrArg _ hpath), rfl⟩

/-- **Listener addresses.**

* A text is accepted that has one of the two forms, and then the address is what it says.
* What is wrong with any other text is what the error says: there is no scheme, or what follows it
  is not a socket address, or nothing does.
* The addresses that some text stands for are those that read back from how they are printed: all
  but Unix sockets without a path and IPv6 addresses with flow information.
* A configuration may have any address but the first of these. -/
theorem fromStr_spec :
    (∀ s a, fromStr s = .ok a ↔
      (∃ rest addr, s = "tcp:".toList ++ rest ∧ SocketAddr.parse rest = some addr ∧
        a = .tcp addr) ∨
      ∃ path ≠ [], s = "unix:".toList ++ path ∧ a = .unix path) ∧
    (∀ s e, fromStr s = .error e ↔
      (¬ "tcp:".toList <+: s ∧ ¬ "unix:".toList <+: s ∧ e = .missingScheme s) ∨
      (∃ rest, s = "tcp:".toList ++ rest ∧ SocketAddr.parse rest = none ∧
        e = .invalidTcp rest addrParseError) ∨
      s = "unix:".toList ∧ e = .emptyUnixPath) ∧
    (∀ a, (∃ s, fromStr s = .ok a) ↔ fromStr a.display = .ok a) ∧
    (∀ a, fromStr a.display = .ok a ↔ a.Writable) ∧
    ∀ l : ListenAddr, (∃ s a, fromStr s = .ok a ∧ a.toListenAddr = l) ↔ l ≠ .unix [] := by
  refine ⟨fun _ _ ↦ fromStr_eq_ok_iff, fun _ _ ↦ fromStr_eq_error_iff, fun a ↦ ⟨?_, ?_⟩,
    fun a ↦ ⟨writable_of_fromStr, fromStr_display⟩, fun _ ↦ exists_fromStr_iff⟩
  · rintro ⟨s, h⟩
    exact fromStr_display (writable_of_fromStr h)
  · exact fun h ↦ ⟨_, h⟩

end ListenAddr

end Rspf
