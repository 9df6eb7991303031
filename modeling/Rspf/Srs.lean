import Rspf.Config.Model
import Rspf.Lib.Split
import Rspf.Lib.Text
import Rspf.Lib.Utf8

/-!
# Unwrapping rewritten senders

A forwarder that takes part in the Sender Rewriting Scheme replaces the envelope sender
`local@domain` by `SRS0=hash=timestamp=domain=local@forwarder`, where the hash authenticates the
other three fields under the forwarder's secret.  `tryUnwrap` recovers the original sender, and
everything rests on it not being fooled: the sender comes from the network, and an accepted rewrite
decides whose SPF policy is consulted.

`SrsAddress` is the format, as a type whose fields respect it.  The code takes a sender apart with
three different splitters, and the two results about it say that together they parse exactly this
format: `tryUnwrap_text` is what it does on the text of an address, step by step, and
`tryUnwrap_of_forall_text_ne` that everything else is not SRS.  `SrsAddress.text_injective` says
that no sender reads as two addresses, and `SrsAddress.authenticated_inj` that no authenticated
string does — moving a byte from one field to the next breaks the hash.

The system clock is a parameter, in seconds since the epoch.
-/

set_option autoImplicit false

namespace Rspf

/-! ## The hash -/

/-- The alphabet of Base64. -/
def base64Alphabet : Str :=
  "ABCDEFGHIJKLMNOPQRSTUVWXYZabcdefghijklmnopqrstuvwxyz0123456789+/".toList

/-- The character of a group of six bits. -/
def base64Char (n : ℕ) : Char := base64Alphabet.getD (n % 64) '='

/-- Standard Base64, with padding. -/
def base64Encode : List UInt8 → Str
  | [] => []
  | [a] =>
    let n := a.toNat * 65536
    [base64Char (n / 262144), base64Char (n / 4096), '=', '=']
  | [a, b] =>
    let n := a.toNat * 65536 + b.toNat * 256
    [base64Char (n / 262144), base64Char (n / 4096), base64Char (n / 64), '=']
  | a :: b :: c :: s =>
    let n := a.toNat * 65536 + b.toNat * 256 + c.toNat
    base64Char (n / 262144) :: base64Char (n / 4096) :: base64Char (n / 64) :: base64Char n ::
      base64Encode s

/-- `HASH_LEN_CHARS`. -/
def hashLenChars : ℕ := 4

/-- `compute_hash`.  A key of any length is accepted, so there is always a hash. -/
def computeHash (X : Crates) (secret timestamp domain localPart : Str) : Option Str :=
  let digest := X.hmacSha1 (Utf8.encode secret)
    (Utf8.encode (timestamp ++ '=' :: domain ++ '=' :: localPart))
  some ((base64Encode digest.toList).take hashLenChars)

/-! ## The timestamp -/

/-- `BASE32_ALPHABET`. -/
def base32Alphabet : Str := "0123456789ABCDEFGHIJKLMNOPQRSTUV".toList

/-- `DAYS_PER_CYCLE`. -/
def daysPerCycle : UInt32 := 1024

/-- The value of a base-32 digit in either case. -/
def base32Digit (c : Char) : Option ℕ :=
  base32Alphabet.findIdx? fun b ↦ Text.toLower b = Text.toLower c

/-- `decode_timestamp`. -/
def decodeTimestamp (s : Str) : Option UInt32 :=
  if s.length ≠ 2 then none
  else s.foldlM (fun val c ↦ (base32Digit c).map fun digit ↦ val * 32 + UInt32.ofNat digit) 0

/-- `current_days_since_epoch`. -/
def currentDaysSinceEpoch (now : UInt64) : UInt64 := now / 86400

/-- `age_in_days`.  The subtraction is one of `i64`, where both operands fit; its Euclidean
remainder fits back into `u32`. -/
def ageInDays (decodedTs : UInt32) (now : UInt64) : UInt32 :=
  let nowDays := currentDaysSinceEpoch now % daysPerCycle.toUInt64
  UInt32.ofNat (((nowDays.toNat : ℤ) - decodedTs.toNat) % daysPerCycle.toNat).toNat

/-! ## Unwrapping -/

/-- `SrsUnwrap`. -/
inductive SrsUnwrap where
  /-- Not an `SRS0=` address at all. -/
  | notSrs
  /-- A verified rewrite of this sender. -/
  | valid : Str → SrsUnwrap
  /-- No secret gives the hash, or the timestamp does not parse. -/
  | invalidHash
  | expired
  deriving DecidableEq

/-- `try_unwrap`. -/
def tryUnwrap (X : Crates) (rawSender : Str) (cfg : SrsConfig) (now : UInt64) : SrsUnwrap :=
  if !cfg.enabled then .notSrs
  else
    match Split.stripPrefix "SRS0=".toList rawSender with
    | none => .notSrs
    | some rest =>
      match Split.splitOnce '@' rest with
      | none => .notSrs
      | some (payload, _rewriteDomain) =>
        match Split.splitn '=' 4 payload with
        | [hash, timestamp, domain, localPart] =>
          let hashOk := cfg.secrets.any fun secret ↦
            computeHash X secret timestamp domain localPart = some hash
          if !hashOk then .invalidHash
          else
            match decodeTimestamp timestamp with
            | none => .invalidHash
            | some decodedTs =>
              if cfg.maxAgeDays < ageInDays decodedTs now then .expired
              else .valid (localPart ++ '@' :: domain)
        | _ => .notSrs

/-! ## The format -/

/-- A rewritten sender.  The fields a splitter must not cut in two do not contain its separator. -/
structure SrsAddress where
  hash : Str
  timestamp : Str
  domain : Str
  localPart : Str
  /-- What follows the first `@`: the forwarder's domain. -/
  tail : Str
  hash_free : '=' ∉ hash ∧ '@' ∉ hash
  timestamp_free : '=' ∉ timestamp ∧ '@' ∉ timestamp
  domain_free : '=' ∉ domain ∧ '@' ∉ domain
  /-- The local part may contain `=`. -/
  localPart_free : '@' ∉ localPart

namespace SrsAddress

/-- What stands between `SRS0=` and the first `@`. -/
def payload (a : SrsAddress) : Str :=
  a.hash ++ '=' :: (a.timestamp ++ '=' :: (a.domain ++ '=' :: a.localPart))

/-- The address as it appears in the envelope. -/
def text (a : SrsAddress) : Str := "SRS0=".toList ++ (a.payload ++ '@' :: a.tail)

theorem text_eq (a : SrsAddress) : a.text = "SRS0=".toList ++ (a.payload ++ '@' :: a.tail) := rfl

/-- The string the hash authenticates. -/
def authenticated (a : SrsAddress) : Str := a.timestamp ++ '=' :: a.domain ++ '=' :: a.localPart

/-- The sender before the rewrite. -/
def original (a : SrsAddress) : Str := a.localPart ++ '@' :: a.domain

/-- The hash that a secret gives for the address. -/
def mac (X : Crates) (secret : Str) (a : SrsAddress) : Str :=
  (base64Encode (X.hmacSha1 (Utf8.encode secret) (Utf8.encode a.authenticated)).toList).take
    hashLenChars

theorem computeHash_eq (X : Crates) (secret : Str) (a : SrsAddress) :
    computeHash X secret a.timestamp a.domain a.localPart = some (a.mac X secret) := rfl

theorem at_not_mem_payload (a : SrsAddress) : '@' ∉ a.payload := by
  simp [payload, a.hash_free.2, a.timestamp_free.2, a.domain_free.2, a.localPart_free]

/-- **No sender reads as two addresses.** -/
theorem text_injective : Function.Injective text := by
  intro a b h
  have hrest := List.append_cancel_left h
  obtain ⟨hp, htail⟩ := Split.append_cons_inj hrest a.at_not_mem_payload b.at_not_mem_payload
  obtain ⟨hhash, hp⟩ := Split.append_cons_inj hp a.hash_free.1 b.hash_free.1
  obtain ⟨hts, hp⟩ := Split.append_cons_inj hp a.timestamp_free.1 b.timestamp_free.1
  obtain ⟨hdom, hloc⟩ := Split.append_cons_inj hp a.domain_free.1 b.domain_free.1
  cases a
  cases b
  simp_all

/-- **No authenticated string reads as two sets of fields.** -/
theorem authenticated_inj {a b : SrsAddress} (h : a.authenticated = b.authenticated) :
    a.timestamp = b.timestamp ∧ a.domain = b.domain ∧ a.localPart = b.localPart := by
  rw [authenticated, authenticated, List.append_assoc, List.append_assoc] at h
  obtain ⟨hts, h⟩ := Split.append_cons_inj h a.timestamp_free.1 b.timestamp_free.1
  obtain ⟨hdom, hloc⟩ := Split.append_cons_inj h a.domain_free.1 b.domain_free.1
  exact ⟨hts, hdom, hloc⟩

theorem splitn_payload (a : SrsAddress) :
    Split.splitn '=' 4 a.payload = [a.hash, a.timestamp, a.domain, a.localPart] := by
  refine Split.splitn_eq_cons_cons_iff.mpr ⟨_, rfl, a.hash_free.1, ?_⟩
  refine Split.splitn_eq_cons_cons_iff.mpr ⟨_, rfl, a.timestamp_free.1, ?_⟩
  exact Split.splitn_eq_cons_cons_iff.mpr ⟨_, rfl, a.domain_free.1, Split.splitn_one _⟩

/-- The domain of the original sender is what follows its only `@`. -/
theorem rsplitOnce_original (a : SrsAddress) :
    Split.rsplitOnce '@' a.original = some (a.localPart, a.domain) :=
  Split.rsplitOnce_append_cons _ a.domain_free.2

theorem count_at_original (a : SrsAddress) : a.original.count '@' = 1 := by
  rw [original, List.count_append, List.count_cons_self,
    List.count_eq_zero.mpr a.localPart_free, List.count_eq_zero.mpr a.domain_free.2]

/-- The original sender is made of characters of the address. -/
theorem mem_text_of_mem_original {a : SrsAddress} {c : Char} (h : c ∈ a.original) : c ∈ a.text := by
  rw [text_eq]
  simp only [original, payload, List.mem_append, List.mem_cons] at h ⊢
  tauto

end SrsAddress

/-! ## What the splitters accept -/

variable {X : Crates} {cfg : SrsConfig} {now : UInt64} {rawSender : Str}

/-- The verdict on a sender that does have the format. -/
def SrsAddress.verdict (X : Crates) (cfg : SrsConfig) (now : UInt64) (a : SrsAddress) : SrsUnwrap :=
  if ∃ secret ∈ cfg.secrets, a.mac X secret = a.hash then
    match decodeTimestamp a.timestamp with
    | none => .invalidHash
    | some ts => if cfg.maxAgeDays < ageInDays ts now then .expired else .valid a.original
  else .invalidHash

theorem tryUnwrap_of_disabled (h : cfg.enabled = false) :
    tryUnwrap X rawSender cfg now = .notSrs := by
  rw [tryUnwrap, h]
  rfl

/-- **The text of an address** is judged by its hash, its timestamp and its age, in that order. -/
theorem tryUnwrap_text (h : cfg.enabled = true) (a : SrsAddress) :
    tryUnwrap X a.text cfg now = a.verdict X cfg now := by
  have hany : (cfg.secrets.any fun secret ↦
      computeHash X secret a.timestamp a.domain a.localPart = some a.hash) =
      decide (∃ secret ∈ cfg.secrets, a.mac X secret = a.hash) := by
    simp only [a.computeHash_eq, Option.some_inj, List.any_eq, decide_eq_true_eq]
  rw [SrsAddress.text_eq]
  simp only [tryUnwrap, h, Split.stripPrefix_append,
    Split.splitOnce_append_cons a.at_not_mem_payload, a.splitn_payload, hany,
    SrsAddress.verdict, Bool.not_true, Bool.false_eq_true, if_false, Bool.not_eq_true',
    decide_eq_false_iff_not, SrsAddress.original]
  split <;> rename_i hs <;> simp [hs]

/-- **Anything else is not SRS.** -/
theorem tryUnwrap_of_forall_text_ne (h : ∀ a : SrsAddress, a.text ≠ rawSender) :
    tryUnwrap X rawSender cfg now = .notSrs := by
  rw [tryUnwrap]
  split
  · rfl
  · split
    · rfl
    · rename_i rest hrest
      split
      · rfl
      · rename_i payload tail hpayload
        split
        · rename_i hash timestamp domain localPart hsplit
          rw [Split.stripPrefix_eq_some_iff] at hrest
          rw [Split.splitOnce_eq_some_iff] at hpayload
          obtain ⟨t₁, rfl, hhash, hsplit⟩ := Split.splitn_eq_cons_cons_iff.mp hsplit
          obtain ⟨t₂, rfl, hts, hsplit⟩ := Split.splitn_eq_cons_cons_iff.mp hsplit
          obtain ⟨t₃, rfl, hdom, hsplit⟩ := Split.splitn_eq_cons_cons_iff.mp hsplit
          obtain rfl : t₃ = localPart := by simpa using hsplit
          obtain ⟨rfl, hat⟩ := hpayload
          simp only [List.mem_append, List.mem_cons, not_or] at hat
          refine absurd hrest.symm (h ⟨hash, timestamp, domain, t₃, tail, ?_, ?_, ?_, ?_⟩)
          · exact ⟨hhash, hat.1⟩
          · exact ⟨hts, hat.2.2.1⟩
          · exact ⟨hdom, hat.2.2.2.2.1⟩
          · exact hat.2.2.2.2.2.2
        · rfl

/-! ## What is accepted -/

theorem length_base64Encode (s : List UInt8) :
    (base64Encode s).length = (s.length + 2) / 3 * 4 := by
  induction s using base64Encode.induct with
  | case1 => rfl
  | case2 a => simp [base64Encode]
  | case3 a b => simp [base64Encode]
  | case4 a b c s ih =>
    rw [base64Encode]
    simp only [List.length_cons, ih]
    omega

theorem SrsAddress.length_mac (X : Crates) (secret : Str) (a : SrsAddress) :
    (a.mac X secret).length = 4 := by
  rw [SrsAddress.mac, List.length_take, length_base64Encode, Vector.length_toList]
  rfl

/-- A sender is unwrapped just when it is the text of an address with a hash that checks out and a
timestamp that is recent enough. -/
theorem tryUnwrap_eq_valid_iff {o : Str} :
    tryUnwrap X rawSender cfg now = .valid o ↔
      cfg.enabled = true ∧ ∃ a : SrsAddress, a.text = rawSender ∧
        (∃ secret ∈ cfg.secrets, a.mac X secret = a.hash) ∧
        (∃ ts, decodeTimestamp a.timestamp = some ts ∧ ageInDays ts now ≤ cfg.maxAgeDays) ∧
        o = a.original := by
  refine ⟨?_, ?_⟩
  · intro h
    cases he : cfg.enabled with
    | false => rw [tryUnwrap_of_disabled he] at h; exact absurd h (by simp)
    | true =>
      by_cases ht : ∃ a : SrsAddress, a.text = rawSender
      · obtain ⟨a, rfl⟩ := ht
        rw [tryUnwrap_text he, SrsAddress.verdict] at h
        split at h
        · rename_i hmac
          split at h
          · exact absurd h (by simp)
          · rename_i ts hts
            split at h
            · exact absurd h (by simp)
            · rename_i hage
              rw [SrsUnwrap.valid.injEq] at h
              exact ⟨rfl, a, rfl, hmac, ⟨ts, hts, UInt32.not_lt.mp hage⟩, h.symm⟩
        · exact absurd h (by simp)
      · rw [tryUnwrap_of_forall_text_ne fun a ha ↦ ht ⟨a, ha⟩] at h
        exact absurd h (by simp)
  · rintro ⟨he, a, rfl, hmac, ⟨ts, hts, hage⟩, rfl⟩
    rw [tryUnwrap_text he, SrsAddress.verdict, if_pos hmac, hts]
    exact if_neg (UInt32.not_lt.mpr hage)

/-- Only which secrets there are matters, not their order or how often they are listed. -/
theorem tryUnwrap_congr_secrets {secrets : List Str} (h : ∀ s, s ∈ secrets ↔ s ∈ cfg.secrets) :
    tryUnwrap X rawSender { cfg with secrets } now = tryUnwrap X rawSender cfg now := by
  have hany : ∀ p : Str → Bool, secrets.any p = cfg.secrets.any p := by
    intro p
    rw [Bool.eq_iff_iff, List.any_eq_true, List.any_eq_true]
    simp only [h]
  simp only [tryUnwrap, hany]

/-- **An unwrapped sender is authentic.**  What `tryUnwrap` accepts is the text of exactly one
address, the address carries the hash of a configured secret and a recent timestamp, and the result
is its original sender, whose domain is the authenticated one.  Two accepted addresses with the
same authenticated string give the same sender, whatever the configuration and the day, and the
order and repetition of the secrets do not matter. -/
theorem tryUnwrap_authentic (X : Crates) :
    (∀ (cfg : SrsConfig) (now : UInt64) (rawSender o : Str),
      tryUnwrap X rawSender cfg now = .valid o →
        cfg.enabled = true ∧ ∃ a : SrsAddress,
          (a.text = rawSender ∧ ∀ b : SrsAddress, b.text = rawSender → b = a) ∧
          (∃ secret ∈ cfg.secrets, a.hash = a.mac X secret ∧ a.hash.length = 4) ∧
          (∃ ts, decodeTimestamp a.timestamp = some ts ∧ ageInDays ts now ≤ cfg.maxAgeDays) ∧
          o = a.localPart ++ '@' :: a.domain ∧ o.count '@' = 1 ∧
          Split.rsplitOnce '@' o = some (a.localPart, a.domain)) ∧
    (∀ (cfg cfg' : SrsConfig) (now now' : UInt64) (a b : SrsAddress) (o o' : Str),
      tryUnwrap X a.text cfg now = .valid o → tryUnwrap X b.text cfg' now' = .valid o' →
        a.authenticated = b.authenticated → o = o') ∧
    (∀ (cfg : SrsConfig) (now : UInt64) (rawSender : Str) (secrets : List Str),
      (∀ s, s ∈ secrets ↔ s ∈ cfg.secrets) →
        tryUnwrap X rawSender { cfg with secrets } now = tryUnwrap X rawSender cfg now) := by
  refine ⟨?_, ?_, ?_⟩
  · intro cfg now rawSender o h
    obtain ⟨he, a, ha, ⟨secret, hmem, hmac⟩, hts, rfl⟩ := tryUnwrap_eq_valid_iff.mp h
    refine ⟨he, a, ⟨ha, ?_⟩, ⟨secret, hmem, hmac.symm, ?_⟩, hts, rfl, ?_, ?_⟩
    · intro b hb
      exact SrsAddress.text_injective (hb.trans ha.symm)
    · exact hmac ▸ a.length_mac X secret
    · exact a.count_at_original
    · exact a.rsplitOnce_original
  · intro cfg cfg' now now' a b o o' h h' hauth
    obtain ⟨-, a', ha, -, -, rfl⟩ := tryUnwrap_eq_valid_iff.mp h
    obtain ⟨-, b', hb, -, -, rfl⟩ := tryUnwrap_eq_valid_iff.mp h'
    obtain rfl := SrsAddress.text_injective ha
    obtain rfl := SrsAddress.text_injective hb
    obtain ⟨-, hdom, hloc⟩ := SrsAddress.authenticated_inj hauth
    rw [SrsAddress.original, SrsAddress.original, hdom, hloc]
  · intro cfg now rawSender secrets h
    exact tryUnwrap_congr_secrets h

/-- A rewrite of `user@example.com`, made under the second of two secrets on the day it is
read. -/
theorem tryUnwrap_authentic_sample :
    ∃ a : SrsAddress,
      (a.text = "SRS0=DTrn=A0=example.com=user@relay.example.net".toList ∧
        ∀ b : SrsAddress,
          b.text = "SRS0=DTrn=A0=example.com=user@relay.example.net".toList → b = a) ∧
        "user@example.com".toList = a.localPart ++ '@' :: a.domain := by
  obtain ⟨-, a, ha, -, -, ho, -⟩ := (tryUnwrap_authentic Crates.sample).1
    { enabled := true, secrets := ["old".toList, "secret".toList] } 1797120005
    "SRS0=DTrn=A0=example.com=user@relay.example.net".toList "user@example.com".toList (by decide)
  exact ⟨a, ha, ho⟩

end Rspf
