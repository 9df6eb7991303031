import Mathlib.Data.Nat.Periodic
import Rspf.Srs.RoundTrip

/-!
# How long a rewritten sender is good for

A rewritten sender can be used by anybody who has seen it, for as long as it unwraps.
`tryUnwrap_window` says on which days that is: a sender that unwraps at all does so on the
`maxAgeDays + 1` days from the one in its stamp on, and then again 1024 days later, when the stamp
has come round; on the other days it is expired.  So a limit of 1023 days or more is none.

The secrets are tried one after the other, so they can be changed while senders are on their way:
`tryUnwrap_append_secrets` says that the first list of secrets to which a sender means anything
settles what becomes of it.
-/

set_option autoImplicit false

namespace Rspf

variable {X : Crates} {cfg : SrsConfig} {now now' : UInt64} {rawSender : Str}

/-! ## Days -/

/-- An age depends on the day of the cycle. -/
theorem age_congr (h : now.toNat / 86400 % 1024 = now'.toNat / 86400 % 1024) (day : ℕ) :
    age now day = age now' day := by
  rw [age, age]
  omega

/-- The first second of a day. -/
def startOfDay (day : ℕ) : UInt64 := UInt64.ofNat (day * 86400)

/-- The clock does not overflow before this day. -/
theorem toNat_startOfDay {day : ℕ} (h : day ≤ 2 ^ 64 / 86400 - 1) :
    (startOfDay day).toNat / 86400 = day := by
  rw [startOfDay, UInt64.toNat_ofNat_of_lt' (by show _ < 18446744073709551616; omega)]
  exact Nat.mul_div_cancel day (by decide)

/-- **In a cycle there are as many days of at most this age as there are ages.** -/
theorem card_filter_age (first day bound : ℕ) :
    ((Finset.Ico first (first + 1024)).filter fun n : ℕ ↦
      ((n : ℤ) - day) % 1024 ≤ bound).card = min (bound + 1) 1024 := by
  have hperiodic : Function.Periodic (fun n : ℕ ↦ ((n : ℤ) - day) % 1024 ≤ bound) 1024 := by
    intro n
    have hage : ((n + 1024 : ℕ) - (day : ℤ)) % 1024 = ((n : ℤ) - day) % 1024 := by omega
    exact congrArg (· ≤ (bound : ℤ)) hage
  -- the window may as well begin on that day, and then the age is the position in it
  rw [Nat.filter_Ico_card_eq_of_periodic first 1024 _ hperiodic,
    ← Nat.filter_Ico_card_eq_of_periodic day 1024 _ hperiodic]
  have hwindow : ((Finset.Ico day (day + 1024)).filter fun n : ℕ ↦
      ((n : ℤ) - day) % 1024 ≤ bound) = Finset.Ico day (day + min (bound + 1) 1024) := by
    ext n
    rw [Finset.mem_filter, Finset.mem_Ico, Finset.mem_Ico]
    omega
  rw [hwindow, Nat.card_Ico, Nat.add_sub_cancel_left]

/-! ## Verdicts -/

/-- What becomes of a sender, whenever it is looked at: either it is always the same, and not good,
or it has a stamp and an original, and is good while the stamp is not too old. -/
theorem tryUnwrap_cases (X : Crates) (cfg : SrsConfig) (rawSender : Str) :
    (∃ verdict, (verdict = .notSrs ∨ verdict = .invalidHash) ∧
      ∀ now, tryUnwrap X rawSender cfg now = verdict) ∨
    ∃ (a : SrsAddress) (ts : UInt32), a.text = rawSender ∧ decodeTimestamp a.timestamp = some ts ∧
      ∀ now, tryUnwrap X rawSender cfg now =
        if age now ts.toNat ≤ cfg.maxAgeDays.toNat then .valid a.original else .expired := by
  cases henabled : cfg.enabled with
  | false => exact .inl ⟨.notSrs, .inl rfl, fun _ ↦ tryUnwrap_of_disabled henabled⟩
  | true =>
    by_cases htext : ∃ a : SrsAddress, a.text = rawSender
    · obtain ⟨a, rfl⟩ := htext
      simp only [tryUnwrap_text henabled, SrsAddress.verdict]
      by_cases hmac : ∃ secret ∈ cfg.secrets, a.mac X secret = a.hash
      · cases hts : decodeTimestamp a.timestamp with
        | none => exact .inl ⟨.invalidHash, .inr rfl, fun _ ↦ if_pos hmac⟩
        | some ts =>
          obtain ⟨-, hlt⟩ := toNat_of_decodeTimestamp hts
          refine .inr ⟨a, ts, rfl, hts, fun now ↦ ?_⟩
          obtain ⟨-, -, -, hage⟩ := toNat_ageInDays hlt now
          have hold : cfg.maxAgeDays < ageInDays ts now ↔
              ¬ age now ts.toNat ≤ cfg.maxAgeDays.toNat := by
            rw [UInt32.lt_iff_toNat_lt, ← hage]
            omega
          rw [if_pos hmac]
          dsimp only
          by_cases h : age now ts.toNat ≤ cfg.maxAgeDays.toNat
          · rw [if_pos h, if_neg (hold.not.mpr (not_not_intro h))]
          · rw [if_neg h, if_pos (hold.mpr h)]
      · exact .inl ⟨.invalidHash, .inr rfl, fun _ ↦ if_neg hmac⟩
    · exact .inl ⟨.notSrs, .inl rfl,
        fun _ ↦ tryUnwrap_of_forall_text_ne fun a ha ↦ htext ⟨a, ha⟩⟩

/-- **The days on which a rewritten sender is good.**

* What becomes of a sender depends on the day only, modulo 1024: it is the same all day, and again
  1024 days later.
* It always unwraps to the same original, if to any.
* A sender that unwraps does so on the days on which its stamp is at most `maxAgeDays` old, where
  the stamp is what the address spells for a day modulo 1024.  On the other days it is expired.
* These are `maxAgeDays + 1` of any 1024 days in a row, or all of them if there are no more than
  that. -/
theorem tryUnwrap_window (X : Crates) (cfg : SrsConfig) (rawSender : Str) :
    (∀ now now' : UInt64, now.toNat / 86400 % 1024 = now'.toNat / 86400 % 1024 →
      tryUnwrap X rawSender cfg now = tryUnwrap X rawSender cfg now') ∧
    (∀ now now' o o', tryUnwrap X rawSender cfg now = .valid o →
      tryUnwrap X rawSender cfg now' = .valid o' → o = o') ∧
    ∀ now o, tryUnwrap X rawSender cfg now = .valid o →
      (∃ (a : SrsAddress) (ts : UInt32), a.text = rawSender ∧ o = a.original ∧
        decodeTimestamp a.timestamp = some ts ∧
        Text.lower a.timestamp = Text.lower (encodeTimestamp ts.toNat) ∧
        ∀ now' : UInt64, tryUnwrap X rawSender cfg now' =
          if ((now'.toNat / 86400 : ℕ) - (ts.toNat : ℤ)) % 1024 ≤ cfg.maxAgeDays.toNat then
            .valid o
          else .expired) ∧
      ∀ first, first + 1024 ≤ 2 ^ 64 / 86400 →
        ((Finset.Ico first (first + 1024)).filter fun n ↦
          tryUnwrap X rawSender cfg (startOfDay n) = .valid o).card =
            min (cfg.maxAgeDays.toNat + 1) 1024 := by
  rcases tryUnwrap_cases X cfg rawSender with ⟨verdict, hverdict, h⟩ | ⟨a, ts, htext, hts, h⟩
  · have hnone : ∀ now o, tryUnwrap X rawSender cfg now ≠ .valid o := by
      intro now o ho
      rw [h] at ho
      rcases hverdict with rfl | rfl <;> exact SrsUnwrap.noConfusion ho
    refine ⟨fun now now' _ ↦ (h now).trans (h now').symm,
      fun now _ o _ ho ↦ absurd ho (hnone now o), fun now o ho ↦ absurd ho (hnone now o)⟩
  · have hvalid : ∀ now o, tryUnwrap X rawSender cfg now = .valid o ↔
        age now ts.toNat ≤ cfg.maxAgeDays.toNat ∧ a.original = o := by
      intro now o
      rw [h]
      split
      · rename_i hage
        rw [SrsUnwrap.valid.injEq, and_iff_right hage]
      · rename_i hage
        exact iff_of_false SrsUnwrap.noConfusion fun ho ↦ hage ho.1
    refine ⟨fun now now' hnow ↦ ?_, fun now now' o o' ho ho' ↦ ?_, fun now o ho ↦ ⟨?_, ?_⟩⟩
    · rw [h, h, age_congr hnow]
    · exact ((hvalid now o).mp ho).2.symm.trans ((hvalid now' o').mp ho').2
    · obtain ⟨-, rfl⟩ := (hvalid now o).mp ho
      exact ⟨a, ts, htext, rfl, hts, lower_of_decodeTimestamp hts, h⟩
    · intro first hfirst
      obtain ⟨-, rfl⟩ := (hvalid now o).mp ho
      rw [← card_filter_age first ts.toNat cfg.maxAgeDays.toNat]
      refine congrArg Finset.card (Finset.filter_congr fun n hn ↦ ?_)
      rw [Finset.mem_Ico] at hn
      rw [hvalid, age, toNat_startOfDay (by omega), and_iff_left rfl]

/-- The sender of the round trip has the stamp of day 320 modulo 1024.  So it is expired the day
before day 20800 and good on the day, and it is good on 22 of any 1024 days. -/
theorem tryUnwrap_window_sample :
    let unwrap (n : ℕ) : SrsUnwrap :=
      tryUnwrap Crates.sample "SRS0=DTrn=A0=example.com=user@relay.example.net".toList
        { enabled := true, secrets := ["secret".toList] } (startOfDay n)
    unwrap 20799 = .expired ∧ unwrap 20800 = .valid "user@example.com".toList ∧
    ((Finset.Ico 20000 21024).filter fun n ↦
      unwrap n = .valid "user@example.com".toList).card = 22 := by
  obtain ⟨⟨a, ts, htext, -, hts, -, h⟩, hcard⟩ := (tryUnwrap_window Crates.sample
    { enabled := true, secrets := ["secret".toList] }
    "SRS0=DTrn=A0=example.com=user@relay.example.net".toList).2.2 1797120005
      "user@example.com".toList (by decide)
  obtain rfl : a = ⟨"DTrn".toList, "A0".toList, "example.com".toList, "user".toList,
      "relay.example.net".toList, by decide, by decide, by decide, by decide⟩ :=
    SrsAddress.text_injective htext
  obtain rfl : ts = 320 := Option.some.inj (hts.symm.trans (by decide))
  exact ⟨(h _).trans (if_neg (by decide)), (h _).trans (if_pos (by decide)),
    hcard 20000 (by decide)⟩

/-! ## Changing the secrets -/

/-- **The secrets are tried one after the other.**  What becomes of a sender under two lists of
secrets together is what becomes of it under the first, unless none of these gives its hash or its
stamp cannot be read, and then it is what becomes of it under the second. -/
theorem tryUnwrap_append_secrets (X : Crates) (cfg : SrsConfig) (secrets secrets' : List Str)
    (rawSender : Str) (now : UInt64) :
    tryUnwrap X rawSender { cfg with secrets := secrets ++ secrets' } now =
      match tryUnwrap X rawSender { cfg with secrets } now with
      | .invalidHash => tryUnwrap X rawSender { cfg with secrets := secrets' } now
      | verdict => verdict := by
  by_cases henabled : cfg.enabled = true
  · by_cases htext : ∃ a : SrsAddress, a.text = rawSender
    · obtain ⟨a, rfl⟩ := htext
      have hverdict : ∀ secrets, tryUnwrap X a.text { cfg with secrets } now =
          a.verdict X { cfg with secrets } now := fun secrets ↦
        tryUnwrap_text (show ({ cfg with secrets } : SrsConfig).enabled = true from henabled) a
      rw [hverdict, hverdict, hverdict]
      by_cases hmac : ∃ secret ∈ secrets, a.mac X secret = a.hash
      · obtain ⟨secret, hmem, hsecret⟩ := hmac
        rw [SrsAddress.verdict, SrsAddress.verdict,
          if_pos ⟨secret, List.mem_append_left _ hmem, hsecret⟩, if_pos ⟨secret, hmem, hsecret⟩]
        cases hts : decodeTimestamp a.timestamp with
        | none =>
          -- no secret makes the stamp readable
          rw [SrsAddress.verdict, hts]
          dsimp only
          split <;> rfl
        | some ts =>
          dsimp only
          split <;> rfl
      · have hmac' : (∃ secret ∈ secrets ++ secrets', a.mac X secret = a.hash) ↔
            ∃ secret ∈ secrets', a.mac X secret = a.hash := by
          simp only [List.mem_append, or_and_right, exists_or]
          exact or_iff_right hmac
        have hfirst : a.verdict X { cfg with secrets } now = .invalidHash := if_neg hmac
        rw [hfirst]
        simp only [SrsAddress.verdict, hmac']
    · have hoff : ∀ secrets, tryUnwrap X rawSender { cfg with secrets } now = .notSrs :=
        fun _ ↦ tryUnwrap_of_forall_text_ne fun a ha ↦ htext ⟨a, ha⟩
      rw [hoff, hoff]
  · have hoff : ∀ secrets, tryUnwrap X rawSender { cfg with secrets } now = .notSrs :=
      fun _ ↦ tryUnwrap_of_disabled (Bool.not_eq_true _ ▸ henabled)
    rw [hoff, hoff]

end Rspf
