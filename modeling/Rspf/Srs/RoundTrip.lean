import Rspf.Srs

/-!
# What a forwarder writes is read back

A forwarder stamps a rewritten sender with the day, modulo 1024, as two digits to the base 32.
`encodeTimestamp` is that stamp, and `tryUnwrap_roundTrip` says what becomes of an address that a
forwarder has made with one of our secrets: it unwraps to the original sender while it is at most
`maxAgeDays` old, and is expired from then on until the stamp comes round again.

The daemon only reads such addresses, so the writer is a specification, and the more it leaves open
the better: which of our secrets was used, the domain that the forwarder adds and the case of the
digits in the stamp are arbitrary.

All of the arithmetic happens in machine integers.  The bounds on the way (`decodeDigits_lt`,
`toNat_ageInDays`) say that none of it wraps, so that the theorem can be about days as natural
numbers and their difference as an integer.  `lower_of_decodeTimestamp` is the other direction of
the stamp: what is read as a day is its stamp.
-/

set_option autoImplicit false

namespace Rspf

variable {X : Crates}

/-! ## Digits -/

/-- The digit for a number below 32, in upper case. -/
def base32Char (n : ℕ) : Char := base32Alphabet.getD n '0'

/-- The stamp for a day. -/
def encodeTimestamp (day : ℕ) : Str := [base32Char (day % 1024 / 32), base32Char (day % 1024 % 32)]

theorem base32Digit_base32Char {n : ℕ} (h : n < 32) : base32Digit (base32Char n) = some n := by
  have hall : ∀ n < 32, base32Digit (base32Char n) = some n := by decide
  exact hall n h

theorem base32Digit_congr {c d : Char} (h : Text.toLower c = Text.toLower d) :
    base32Digit c = base32Digit d := by
  rw [base32Digit, base32Digit, h]

theorem base32Digit_lt {c : Char} {n : ℕ} (h : base32Digit c = some n) : n < 32 :=
  (List.findIdx?_eq_some_iff_findIdx_eq.mp h).1

/-- A character is the digit that it is read as, but for its case. -/
theorem toLower_of_base32Digit {c : Char} {n : ℕ} (h : base32Digit c = some n) :
    Text.toLower c = Text.toLower (base32Char n) := by
  obtain ⟨hlt, hc, -⟩ := List.findIdx?_eq_some_iff_getElem.mp h
  rw [base32Char, List.getD_eq_getElem _ _ hlt]
  exact (of_decide_eq_true hc).symm

/-! ## Timestamps -/

/-- A turn of the loop of `decode_timestamp`, over numbers without a bound. -/
def readDigit (val : ℕ) (c : Char) : Option ℕ := (base32Digit c).map fun digit ↦ val * 32 + digit

/-- The loop of `decode_timestamp`, over numbers without a bound. -/
def decodeDigits (s : Str) : Option ℕ := s.foldlM readDigit 0

theorem readDigit_lt {bound val val' : ℕ} {c : Char} (hval : val < bound)
    (h : readDigit val c = some val') : val' < bound * 32 := by
  obtain ⟨digit, hdigit, rfl⟩ := Option.map_eq_some_iff.mp h
  have hlt := base32Digit_lt hdigit
  omega

/-- **The loop does not overflow**: all it computes from two characters is below 1024. -/
theorem decodeDigits_lt {s read : Str} (hs : s.length = 2) (hread : read <+: s) {val : ℕ}
    (h : decodeDigits read = some val) : val < 1024 := by
  have hlength : read.length ≤ 2 := hs ▸ hread.length_le
  match read, hlength with
  | [], _ =>
    obtain rfl := Option.some.inj h
    decide
  | [c], _ =>
    rw [decodeDigits, List.foldlM_cons, Option.bind_eq_bind, Option.bind_eq_some_iff] at h
    obtain ⟨val₁, h₁, h⟩ := h
    have hlt₁ := readDigit_lt Nat.zero_lt_one h₁
    obtain rfl := Option.some.inj h
    omega
  | [c, d], _ =>
    rw [decodeDigits, List.foldlM_cons, Option.bind_eq_bind, Option.bind_eq_some_iff] at h
    obtain ⟨val₁, h₁, h⟩ := h
    rw [List.foldlM_cons, Option.bind_eq_bind, Option.bind_eq_some_iff] at h
    obtain ⟨val₂, h₂, h⟩ := h
    have hlt₂ := readDigit_lt (readDigit_lt Nat.zero_lt_one h₁) h₂
    obtain rfl := Option.some.inj h
    omega

/-- So the loop in machine integers computes the same. -/
theorem decodeTimestamp_eq (s : Str) :
    decodeTimestamp s = if s.length = 2 then (decodeDigits s).map UInt32.ofNat else none := by
  have hloop : ∀ (s : Str) (val : ℕ),
      s.foldlM (fun val c ↦ (base32Digit c).map fun digit ↦ val * 32 + UInt32.ofNat digit)
        (UInt32.ofNat val) = (s.foldlM readDigit val).map UInt32.ofNat := by
    intro s
    induction s with
    | nil => intro val; rfl
    | cons c s ih =>
      intro val
      rw [List.foldlM_cons, List.foldlM_cons, readDigit]
      cases base32Digit c with
      | none => rfl
      | some digit =>
        have hturn : UInt32.ofNat val * 32 + UInt32.ofNat digit =
            UInt32.ofNat (val * 32 + digit) := by
          rw [UInt32.ofNat_add, UInt32.ofNat_mul]
          rfl
        show s.foldlM _ (UInt32.ofNat val * 32 + UInt32.ofNat digit) = _
        rw [hturn]
        exact ih _
  by_cases hs : s.length = 2
  · rw [decodeTimestamp, if_neg (not_not_intro hs), if_pos hs]
    exact hloop s 0
  · rw [decodeTimestamp, if_pos hs, if_neg hs]

theorem toNat_of_decodeTimestamp {s : Str} {ts : UInt32} (h : decodeTimestamp s = some ts) :
    decodeDigits s = some ts.toNat ∧ ts.toNat < 1024 := by
  rw [decodeTimestamp_eq] at h
  split at h
  · rename_i hs
    obtain ⟨val, hval, rfl⟩ := Option.map_eq_some_iff.mp h
    have hlt := decodeDigits_lt hs (List.prefix_refl s) hval
    have hnat : (UInt32.ofNat val).toNat = val := UInt32.toNat_ofNat_of_lt' (by
      show val < 4294967296
      omega)
    rw [hnat]
    exact ⟨hval, hlt⟩
  · exact absurd h nofun

/-- **A stamp is that of the day it is read as**, in whatever case its digits are. -/
theorem lower_of_decodeTimestamp {stamp : Str} {ts : UInt32} (h : decodeTimestamp stamp = some ts) :
    Text.lower stamp = Text.lower (encodeTimestamp ts.toNat) := by
  obtain ⟨hdigits, hlt⟩ := toNat_of_decodeTimestamp h
  have hlength : stamp.length = 2 := by
    by_contra hlength
    rw [decodeTimestamp, if_pos hlength] at h
    cases h
  obtain ⟨c, d, rfl⟩ := List.length_eq_two.mp hlength
  simp only [decodeDigits, List.foldlM_cons, List.foldlM_nil, readDigit] at hdigits
  obtain ⟨high, hhigh, hdigits⟩ := Option.bind_eq_some_iff.mp hdigits
  obtain ⟨low, hlow, hdigits⟩ := Option.bind_eq_some_iff.mp hdigits
  obtain ⟨i, hi, rfl⟩ := Option.map_eq_some_iff.mp hhigh
  obtain ⟨j, hj, rfl⟩ := Option.map_eq_some_iff.mp hlow
  have hj' := base32Digit_lt hj
  have hts : (0 * 32 + i) * 32 + j = ts.toNat := Option.some.inj hdigits
  have hhigh : ts.toNat % 1024 / 32 = i := by omega
  have hlow : ts.toNat % 1024 % 32 = j := by omega
  rw [encodeTimestamp, hhigh, hlow, Text.lower, Text.lower, List.map_cons, List.map_cons,
    toLower_of_base32Digit hi, List.map_cons, List.map_cons, toLower_of_base32Digit hj]

/-- **A stamp is read back**, in whatever case its digits are. -/
theorem decodeTimestamp_encodeTimestamp {day : ℕ} {stamp : Str}
    (h : Text.lower stamp = Text.lower (encodeTimestamp day)) :
    decodeTimestamp stamp = some (UInt32.ofNat (day % 1024)) := by
  have hlength := congrArg List.length h
  rw [Text.lower, Text.lower, List.length_map, List.length_map] at hlength
  obtain ⟨c, d, rfl⟩ := List.length_eq_two.mp hlength
  simp only [encodeTimestamp, Text.lower, List.map_cons, List.map_nil, List.cons.injEq,
    and_true] at h
  have hc := (base32Digit_congr h.1).trans (base32Digit_base32Char (by omega))
  have hd := (base32Digit_congr h.2).trans (base32Digit_base32Char (by omega))
  have hdigits : decodeDigits [c, d] = some (day % 1024) := by
    have hsum : (0 * 32 + day % 1024 / 32) * 32 + day % 1024 % 32 = day % 1024 := by omega
    simp only [decodeDigits, List.foldlM_cons, List.foldlM_nil, readDigit, hc, hd, Option.map_some,
      Option.bind_eq_bind, Option.bind_some, Option.pure_def, hsum]
  have htwo : [c, d].length = 2 := rfl
  rw [decodeTimestamp_eq, if_pos htwo, hdigits]
  rfl

/-! ## Ages -/

/-- The age that is meant: the number of days from a stamp to now, as far as the stamp tells. -/
def age (now : UInt64) (day : ℕ) : ℤ := ((now.toNat / 86400 : ℕ) - (day : ℤ)) % 1024

/-- **The age is computed without a loss**: the day of the cycle is below 1024, the difference of
two such days fits in an `i64`, and its remainder is not negative and fits in a `u32`. -/
theorem toNat_ageInDays {ts : UInt32} (hts : ts.toNat < 1024) (now : UInt64) :
    let nowDays := (currentDaysSinceEpoch now % daysPerCycle.toUInt64).toNat
    nowDays < 1024 ∧ (-1024 < (nowDays : ℤ) - ts.toNat ∧ (nowDays : ℤ) - ts.toNat < 1024) ∧
      ((ageInDays ts now).toNat : ℤ) = ((nowDays : ℤ) - ts.toNat) % 1024 ∧
      ((ageInDays ts now).toNat : ℤ) = age now ts.toNat := by
  intro nowDays
  have hdays : (currentDaysSinceEpoch now % daysPerCycle.toUInt64).toNat =
      now.toNat / 86400 % 1024 := by
    have hday : (86400 : UInt64).toNat = 86400 := rfl
    have hcycle : daysPerCycle.toUInt64.toNat = 1024 := rfl
    rw [UInt64.toNat_mod, currentDaysSinceEpoch, UInt64.toNat_div, hday, hcycle]
  replace hdays : nowDays = now.toNat / 86400 % 1024 := hdays
  have hcycle : daysPerCycle.toNat = 1024 := rfl
  have hage : ((ageInDays ts now).toNat : ℤ) = ((nowDays : ℤ) - ts.toNat) % 1024 := by
    rw [ageInDays, hcycle, UInt32.toNat_ofNat_of_lt' (by show _ < 4294967296; omega)]
    omega
  refine ⟨by omega, by omega, hage, ?_⟩
  rw [hage, age]
  omega

/-! ## The round trip -/

/-- The characters of Base64 are none of the separators. -/
theorem base64Char_ne (n : ℕ) : base64Char n ≠ '=' ∧ base64Char n ≠ '@' := by
  have hall : base64Alphabet.all (fun c ↦ c ≠ '=' && c ≠ '@') = true := by decide
  have hlt : n % 64 < base64Alphabet.length := Nat.mod_lt n (by decide)
  have hmem : base64Char n ∈ base64Alphabet := by
    rw [base64Char, List.getD_eq_getElem _ _ hlt]
    exact List.getElem_mem hlt
  simpa using List.all_eq_true.mp hall _ hmem

/-- A hash is one field of an address: only the end of a Base64 text is padded. -/
theorem computeHash_free {secret stamp domain localPart hash : Str}
    (h : computeHash X secret stamp domain localPart = some hash) : '=' ∉ hash ∧ '@' ∉ hash := by
  obtain ⟨digest, hlength, rfl⟩ : ∃ digest : List UInt8, digest.length = 20 ∧
      (base64Encode digest).take 4 = hash := ⟨_, Vector.length_toList, Option.some.inj h⟩
  match digest, hlength with
  | a :: b :: c :: digest, _ =>
    have hne := base64Char_ne
    simp only [base64Encode, List.take_succ_cons, List.take_zero, List.mem_cons, List.not_mem_nil,
      or_false, not_or]
    exact ⟨⟨(hne _).1.symm, (hne _).1.symm, (hne _).1.symm, (hne _).1.symm⟩,
      ⟨(hne _).2.symm, (hne _).2.symm, (hne _).2.symm, (hne _).2.symm⟩⟩

/-- A stamp is one field of an address. -/
theorem encodeTimestamp_free {day : ℕ} {stamp : Str}
    (h : Text.lower stamp = Text.lower (encodeTimestamp day)) : '=' ∉ stamp ∧ '@' ∉ stamp := by
  have hall : ∀ n < 32, Text.toLower (base32Char n) ≠ '=' ∧ Text.toLower (base32Char n) ≠ '@' := by
    decide
  have hdigit : ∀ c n, n < 32 → Text.toLower c = Text.toLower (base32Char n) →
      '=' ≠ c ∧ '@' ≠ c := by
    intro c n hn hc
    have hne := hall n hn
    rw [← hc] at hne
    exact ⟨fun he ↦ hne.1 (he ▸ rfl), fun he ↦ hne.2 (he ▸ rfl)⟩
  have hlength := congrArg List.length h
  rw [Text.lower, Text.lower, List.length_map, List.length_map] at hlength
  obtain ⟨c, d, rfl⟩ := List.length_eq_two.mp hlength
  simp only [encodeTimestamp, Text.lower, List.map_cons, List.map_nil, List.cons.injEq,
    and_true] at h
  have hc := hdigit c _ (by omega) h.1
  have hd := hdigit d _ (by omega) h.2
  simp [hc.1, hc.2, hd.1, hd.2]

/-- The address that a forwarder sends. -/
def srsText (hash stamp domain localPart rewriteDomain : Str) : Str :=
  "SRS0=".toList ++ hash ++ '=' :: stamp ++ '=' :: domain ++ '=' :: localPart ++
    '@' :: rewriteDomain

/-- Its fields. -/
theorem exists_text_eq_srsText {hash stamp domain localPart : Str} (rewriteDomain : Str)
    (hhash : '=' ∉ hash ∧ '@' ∉ hash) (hstamp : '=' ∉ stamp ∧ '@' ∉ stamp)
    (hdomain : '=' ∉ domain ∧ '@' ∉ domain) (hlocal : '@' ∉ localPart) :
    ∃ a : SrsAddress, a.text = srsText hash stamp domain localPart rewriteDomain ∧ a.hash = hash ∧
      a.timestamp = stamp ∧ a.domain = domain ∧ a.localPart = localPart := by
  let a : SrsAddress :=
    ⟨hash, stamp, domain, localPart, rewriteDomain, hhash, hstamp, hdomain, hlocal⟩
  have hjoin : ∀ tag : Str, tag ++ ((hash ++ '=' :: (stamp ++ '=' :: (domain ++ '=' :: localPart)))
      ++ '@' :: rewriteDomain) = tag ++ hash ++ '=' :: stamp ++ '=' :: domain ++ '=' :: localPart ++
        '@' :: rewriteDomain := by
    intro tag
    simp only [List.append_assoc, List.cons_append]
  exact ⟨a, hjoin _, rfl, rfl, rfl, rfl⟩

/-- **What a forwarder has made with one of our secrets unwraps until it is too old.** -/
theorem tryUnwrap_srsText {cfg : SrsConfig} (henabled : cfg.enabled = true) {secret : Str}
    (hsecret : secret ∈ cfg.secrets) {day : ℕ} {stamp : Str}
    (hstamp : Text.lower stamp = Text.lower (encodeTimestamp day)) {domain localPart hash : Str}
    (hdomain : '=' ∉ domain ∧ '@' ∉ domain) (hlocal : '@' ∉ localPart)
    (hhash : computeHash X secret stamp domain localPart = some hash) (rewriteDomain : Str)
    (now : UInt64) :
    tryUnwrap X (srsText hash stamp domain localPart rewriteDomain) cfg now =
      if age now day ≤ cfg.maxAgeDays.toNat then .valid (localPart ++ '@' :: domain)
      else .expired := by
  obtain ⟨a, ha, rfl, rfl, rfl, rfl⟩ :=
    exists_text_eq_srsText rewriteDomain (computeHash_free hhash)
      (encodeTimestamp_free hstamp) hdomain hlocal
  have hmac : ∃ secret ∈ cfg.secrets, a.mac X secret = a.hash :=
    ⟨secret, hsecret, Option.some.inj ((a.computeHash_eq X secret).symm.trans hhash)⟩
  have hread := decodeTimestamp_encodeTimestamp hstamp
  have hnat : (UInt32.ofNat (day % 1024)).toNat = day % 1024 :=
    UInt32.toNat_ofNat_of_lt' (by show _ < 4294967296; omega)
  obtain ⟨-, -, -, hage⟩ := toNat_ageInDays (toNat_of_decodeTimestamp hread).2 now
  have hcycle : age now (day % 1024) = age now day := by
    rw [age, age]
    omega
  rw [hnat, hcycle] at hage
  have hlt : cfg.maxAgeDays < ageInDays (UInt32.ofNat (day % 1024)) now ↔
      ¬ age now day ≤ cfg.maxAgeDays.toNat := by
    rw [UInt32.lt_iff_toNat_lt, ← hage]
    omega
  rw [← ha, tryUnwrap_text henabled, SrsAddress.verdict, if_pos hmac, hread]
  dsimp only
  rw [SrsAddress.original]
  split
  · rename_i h
    exact (if_neg (hlt.mp h)).symm
  · rename_i h
    exact (if_pos (Decidable.not_not.mp (hlt.not.mp h))).symm

/-- **The round trip of rewritten senders.**

* An address that a forwarder has made with one of the secrets on some day, with its stamp in upper
  or lower case, is valid or expired according to the number of days since then, modulo 1024.
* For a stamp that is less than 1024 days old this is its true age, wherever the day counter wraps.
* Reading a stamp and computing its age do not overflow. -/
theorem tryUnwrap_roundTrip (X : Crates) :
    (∀ (cfg : SrsConfig) (secret : Str) (day : ℕ) (stamp domain localPart hash rewriteDomain : Str)
        (now : UInt64),
      cfg.enabled = true → secret ∈ cfg.secrets →
      Text.lower stamp = Text.lower (encodeTimestamp day) →
      '=' ∉ domain → '@' ∉ domain → '@' ∉ localPart →
      computeHash X secret stamp domain localPart = some hash →
        let today : ℕ := now.toNat / 86400
        let answer := tryUnwrap X ("SRS0=".toList ++ hash ++ '=' :: stamp ++ '=' :: domain ++
          '=' :: localPart ++ '@' :: rewriteDomain) cfg now
        (((today : ℤ) - day) % 1024 ≤ cfg.maxAgeDays.toNat →
          answer = .valid (localPart ++ '@' :: domain)) ∧
        (¬ ((today : ℤ) - day) % 1024 ≤ cfg.maxAgeDays.toNat → answer = .expired) ∧
        (day ≤ today → today - day < 1024 →
          (today - day ≤ cfg.maxAgeDays.toNat → answer = .valid (localPart ++ '@' :: domain)) ∧
          (¬ today - day ≤ cfg.maxAgeDays.toNat → answer = .expired))) ∧
    (∀ (stamp read : Str) (val : ℕ), stamp.length = 2 → read <+: stamp →
      decodeDigits read = some val → val < 1024) ∧
    ∀ (stamp : Str) (ts : UInt32) (now : UInt64), decodeTimestamp stamp = some ts →
      let nowDays := (currentDaysSinceEpoch now % daysPerCycle.toUInt64).toNat
      decodeDigits stamp = some ts.toNat ∧ ts.toNat < 1024 ∧ nowDays < 1024 ∧
        (-1024 < (nowDays : ℤ) - ts.toNat ∧ (nowDays : ℤ) - ts.toNat < 1024) ∧
        ((ageInDays ts now).toNat : ℤ) = ((nowDays : ℤ) - ts.toNat) % 1024 := by
  refine ⟨?_, fun stamp read val hs hread ↦ decodeDigits_lt hs hread, ?_⟩
  · intro cfg secret day stamp domain localPart hash rewriteDomain now henabled hsecret hstamp heq
      hat hlocal hhash today answer
    have hanswer : answer = if age now day ≤ cfg.maxAgeDays.toNat then
        .valid (localPart ++ '@' :: domain) else .expired :=
      tryUnwrap_srsText henabled hsecret hstamp ⟨heq, hat⟩ hlocal hhash rewriteDomain now
    have hage : age now day = ((today : ℤ) - day) % 1024 := rfl
    refine ⟨fun h ↦ ?_, fun h ↦ ?_, fun hle hlt ↦ ?_⟩
    · rw [hanswer, if_pos (hage ▸ h)]
    · rw [hanswer, if_neg (hage ▸ h)]
    · have htrue : age now day = ((today - day : ℕ) : ℤ) := by
        rw [hage]
        omega
      rw [hanswer, htrue]
      exact ⟨fun h ↦ if_pos (Int.ofNat_le.mpr h), fun h ↦ if_neg (Int.ofNat_le.not.mpr h)⟩
  · intro stamp ts now hts nowDays
    obtain ⟨hdigits, hlt⟩ := toNat_of_decodeTimestamp hts
    obtain ⟨hnow, hdiff, hage, -⟩ := toNat_ageInDays hlt now
    exact ⟨hdigits, hlt, hnow, hdiff, hage⟩

/-- A sender that was rewritten today. -/
theorem tryUnwrap_roundTrip_sample :
    tryUnwrap Crates.sample ("SRS0=".toList ++ "DTrn".toList ++ '=' :: "A0".toList ++
        '=' :: "example.com".toList ++ '=' :: "user".toList ++ '@' :: "relay.example.net".toList)
      { enabled := true, secrets := ["old".toList, "secret".toList] } 1797120005 =
      .valid ("user".toList ++ '@' :: "example.com".toList) := by
  have h := (tryUnwrap_roundTrip Crates.sample).1
    { enabled := true, secrets := ["old".toList, "secret".toList] } "secret".toList 20800
    "A0".toList "example.com".toList "user".toList "DTrn".toList "relay.example.net".toList
    1797120005 rfl (by decide) (by decide) (by decide) (by decide) (by decide) (by decide)
  exact h.1 (by decide)

end Rspf
