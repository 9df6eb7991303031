import Mathlib.Data.List.TakeWhile
import Rspf.MailLog

/-!
# Reading the mail log

A line of the log is made of text that others have chosen: the client its HELO name, its sender and
its own name; the operator, through the templates, the detail; and the domain that was checked the
explanation of a failure, which is printed with the result.  None of it is quoted, so any of it may
look like a part of a line.  What can be relied on depends on where it stands.

* The status is the first thing in a line, so nobody can forge it (`readLogStatus_logLine`).
* The results are the last two things in it.  The client comes before them and cannot forge them;
  but a result that is printed with an equals sign or a comma can.  `readLogResults_logLine` says
  that these are the only ones.

So `readLogResults` looks at the last two equals signs and not at the first ones.
-/

set_option autoImplicit false

namespace Rspf

variable {X : Crates}

/-- The status of a line, which ends with a space or a comma. -/
def readStatus (s : Str) : Str := s.takeWhile fun c ↦ c ≠ ' ' && c ≠ ','

/-- Read the status of a line. -/
def readLogStatus (line : Str) : Option Str :=
  (Split.stripPrefix "status=".toList line).map readStatus

/-- Read the results of a line, for HELO and for MAIL FROM: they stand after its last two equals
signs. -/
def readLogResults (line : Str) : Option (Str × Str) :=
  match Split.rsplitOnce '=' line with
  | none => none
  | some (rest, mailFromResult) =>
    match Split.rsplitOnce '=' rest with
    | none => none
    | some (front, middle) =>
      match Split.rsplitOnce ',' front, Split.splitOnce ',' middle with
      | some (_, heloName), some (heloResult, mailFromName) =>
        if heloName = " spf_helo".toList ∧ mailFromName = " spf_mailfrom".toList then
          some (heloResult, mailFromResult)
        else none
      | _, _ => none

/-- What stands between the status and the results. -/
def logMiddle (clientIp : IpAddr) (clientName : Option Str) (helo sender : Str)
    (detail : Option Str) : Str :=
  (detail.elim [] fun detail ↦ " (".toList ++ detail ++ ")".toList) ++ ", from=<".toList ++
    sender ++ ">, client=".toList ++ (nonEmpty clientName).getD "unknown".toList ++ "[".toList ++
    clientIp.display ++ "], helo=".toList ++ helo

theorem logLine_eq (clientIp : IpAddr) (clientName : Option Str) (helo sender : Str)
    (heloResult mailFromResult : X.Result) (action : Action) :
    logLine X clientIp clientName helo sender heloResult mailFromResult action =
      "status=".toList ++ ((describeAction action).1 ++
        logMiddle clientIp clientName helo sender (describeAction action).2) ++
        ", spf_helo".toList ++ '=' :: (X.displayResult heloResult ++ ", spf_mailfrom".toList) ++
        '=' :: X.displayResult mailFromResult := by
  have hhelo : ", spf_helo=".toList = ", spf_helo".toList ++ ['='] := rfl
  have hmailFrom : ", spf_mailfrom=".toList = ", spf_mailfrom".toList ++ ['='] := rfl
  unfold logLine logMiddle
  obtain ⟨status, detail⟩ := describeAction action
  rw [hhelo, hmailFrom]
  -- the texts are long for a unifier that looks inside
  generalize "status=".toList = s₁, " (".toList = s₂, ")".toList = s₃, ", from=<".toList = s₄,
    ">, client=".toList = s₅, "[".toList = s₆, "], helo=".toList = s₇, ", spf_helo".toList = s₈,
    ", spf_mailfrom".toList = s₉
  cases detail <;> simp only [Option.elim_none, Option.elim_some, List.append_assoc,
    List.cons_append, List.nil_append]

theorem sanitize_append (s t : Str) : sanitize (s ++ t) = sanitize s ++ sanitize t :=
  List.map_append

theorem sanitize_eq_self {s : Str} (h : ∀ c ∈ s, Text.isControl c = false) : sanitize s = s := by
  rw [sanitize, List.map_congr_left (g := id), List.map_id]
  intro c hc
  rw [h c hc]
  rfl

/-- Letters are not control characters. -/
theorem not_isControl_of_letter {c : Char} (h : 'a' ≤ c ∧ c ≤ 'z') : Text.isControl c = false := by
  have h₁ : 97 ≤ c.toNat := h.1
  have h₂ : c.toNat ≤ 122 := h.2
  rw [Text.isControl]
  simp
  omega

theorem readStatus_append {status : Str} (h : ∀ c ∈ status, c ≠ ' ' ∧ c ≠ ',') {c : Char}
    (hc : c = ' ' ∨ c = ',') (s : Str) : readStatus (status ++ c :: s) = status := by
  rw [readStatus, List.takeWhile_append_of_pos]
  · rcases hc with rfl | rfl <;> simp
  · intro d hd
    simpa using h d hd

/-- What is printed and is not a space is there before and after. -/
theorem mem_sanitize_iff {c : Char} (hc : Text.isControl c = false) (hspace : c ≠ ' ') {s : Str} :
    c ∈ sanitize s ↔ c ∈ s := by
  rw [sanitize, List.mem_map]
  refine ⟨?_, fun h ↦ ⟨c, h, by rw [hc, if_neg Bool.false_ne_true]⟩⟩
  rintro ⟨d, hd, heq⟩
  split at heq
  · exact absurd heq.symm hspace
  · exact heq ▸ hd

/-- **The results are the last two things in a line**, if they do not look like more than one. -/
theorem readLogResults_eq_iff {front heloResult mailFromResult : Str} :
    readLogResults (front ++ ", spf_helo".toList ++ '=' ::
        (heloResult ++ ", spf_mailfrom".toList) ++ '=' :: mailFromResult) =
      some (heloResult, mailFromResult) ↔
        '=' ∉ heloResult ∧ ',' ∉ heloResult ∧ '=' ∉ mailFromResult := by
  refine ⟨fun h ↦ ?_, ?_⟩
  · rw [readLogResults] at h
    split at h
    · cases h
    · rename_i rest mailFrom' hrest
      split at h
      · cases h
      · rename_i front' middle hfront
        split at h
        · rename_i helo' mailFromName _ hmiddle
          split at h
          · cases h
            have hnoMailFrom := (Split.rsplitOnce_eq_some_iff.mp hrest).2
            have hno := (Split.rsplitOnce_eq_some_iff.mp hfront).2
            obtain ⟨rfl, hcomma⟩ := Split.splitOnce_eq_some_iff.mp hmiddle
            exact ⟨fun hmem ↦ hno (List.mem_append_left _ hmem), hcomma, hnoMailFrom⟩
          · cases h
        · cases h
  · rintro ⟨hequals, hcomma, hmailFrom⟩
    have hmiddle : '=' ∉ heloResult ++ ", spf_mailfrom".toList := by
      rw [List.mem_append, not_or]
      exact ⟨hequals, by decide⟩
    have hlast : Split.rsplitOnce ',' (front ++ ", spf_helo".toList) =
        some (front, " spf_helo".toList) :=
      Split.rsplitOnce_append_cons _ (by decide)
    have hfirst : Split.splitOnce ',' (heloResult ++ ", spf_mailfrom".toList) =
        some (heloResult, " spf_mailfrom".toList) :=
      Split.splitOnce_append_cons hcomma _
    rw [readLogResults, Split.rsplitOnce_append_cons _ hmailFrom]
    dsimp only
    rw [Split.rsplitOnce_append_cons _ hmiddle]
    dsimp only
    rw [hlast, hfirst]
    dsimp only
    rw [if_pos ⟨rfl, rfl⟩]

/-- The status is a word of letters. -/
theorem letter_of_mem_describeAction (action : Action) :
    ∀ c ∈ (describeAction action).1, 'a' ≤ c ∧ c ≤ 'z' := by
  have hall : (["permit", "reject", "defer"].all
      fun w ↦ w.toList.all fun c ↦ decide ('a' ≤ c ∧ c ≤ 'z')) = true := by decide
  have hword : ∀ w ∈ ["permit", "reject", "defer"], ∀ c ∈ w.toList, 'a' ≤ c ∧ c ≤ 'z' :=
    fun w hw c hc ↦ of_decide_eq_true (List.all_eq_true.mp (List.all_eq_true.mp hall w hw) c hc)
  cases action with
  | dunno | prepend header => exact hword _ (.head _)
  | reject reason => exact hword _ (.tail _ (.head _))
  | deferIfPermit reason => exact hword _ (.tail _ (.tail _ (.head _)))

/-- After the status comes a space or a comma. -/
theorem sanitize_logMiddle (clientIp : IpAddr) (clientName : Option Str) (helo sender : Str)
    (detail : Option Str) :
    ∃ c s, (c = ' ' ∨ c = ',') ∧
      sanitize (logMiddle clientIp clientName helo sender detail) = c :: s := by
  cases detail with
  | none => exact ⟨',', _, .inr rfl, rfl⟩
  | some detail => exact ⟨' ', _, .inl rfl, rfl⟩

/-- The parts of a line as it is written. -/
theorem sanitize_logLine (clientIp : IpAddr) (clientName : Option Str) (helo sender : Str)
    (heloResult mailFromResult : X.Result) (action : Action) :
    ∃ c s, (c = ' ' ∨ c = ',') ∧
      sanitize (logLine X clientIp clientName helo sender heloResult mailFromResult action) =
        "status=".toList ++ ((describeAction action).1 ++ c :: s) ++ ", spf_helo".toList ++
          '=' :: (sanitize (X.displayResult heloResult) ++ ", spf_mailfrom".toList) ++
          '=' :: sanitize (X.displayResult mailFromResult) := by
  have hsame : sanitize (describeAction action).1 = (describeAction action).1 :=
    sanitize_eq_self fun c hc ↦ not_isControl_of_letter (letter_of_mem_describeAction action c hc)
  obtain ⟨c, s, hc, hmiddle⟩ :=
    sanitize_logMiddle clientIp clientName helo sender (describeAction action).2
  have hstart : sanitize "status=".toList = "status=".toList := by decide
  have hhelo : sanitize ", spf_helo".toList = ", spf_helo".toList := by decide
  have hmailFrom : sanitize ", spf_mailfrom".toList = ", spf_mailfrom".toList := by decide
  have hequals : ∀ s, sanitize ('=' :: s) = '=' :: sanitize s := fun _ ↦ rfl
  refine ⟨c, s, hc, ?_⟩
  simp only [logLine_eq, sanitize_append, hequals, hstart, hhelo, hmailFrom, hsame, hmiddle]

/-- **The status that is logged is read**, whatever the others put into the line. -/
theorem readLogStatus_logLine (clientIp : IpAddr) (clientName : Option Str) (helo sender : Str)
    (heloResult mailFromResult : X.Result) (action : Action) :
    readLogStatus
        (sanitize (logLine X clientIp clientName helo sender heloResult mailFromResult action)) =
      some (describeAction action).1 := by
  have hletter := letter_of_mem_describeAction action
  have hstatus : ∀ c ∈ (describeAction action).1, c ≠ ' ' ∧ c ≠ ',' := by
    intro c hc
    refine ⟨?_, ?_⟩ <;> rintro rfl
    · exact absurd (hletter _ hc) (by decide)
    · exact absurd (hletter _ hc) (by decide)
  obtain ⟨c, s, hc, hline⟩ :=
    sanitize_logLine clientIp clientName helo sender heloResult mailFromResult action
  rw [hline, readLogStatus]
  simp only [List.append_assoc, List.cons_append]
  rw [Split.stripPrefix_append, Option.map_some, readStatus_append hstatus hc]

/-- **The results that are logged are read**, just if they are printed without equals signs, and the
first one without commas. -/
theorem readLogResults_logLine (clientIp : IpAddr) (clientName : Option Str) (helo sender : Str)
    (heloResult mailFromResult : X.Result) (action : Action) :
    readLogResults
        (sanitize (logLine X clientIp clientName helo sender heloResult mailFromResult action)) =
      some (sanitize (X.displayResult heloResult), sanitize (X.displayResult mailFromResult)) ↔
    '=' ∉ X.displayResult heloResult ∧ ',' ∉ X.displayResult heloResult ∧
      '=' ∉ X.displayResult mailFromResult := by
  obtain ⟨c, s, -, hline⟩ :=
    sanitize_logLine clientIp clientName helo sender heloResult mailFromResult action
  rw [hline, readLogResults_eq_iff, mem_sanitize_iff (by decide) (by decide),
    mem_sanitize_iff (by decide) (by decide), mem_sanitize_iff (by decide) (by decide)]

/-- A client that pretends to have passed is logged with what it got. -/
example :
    readLogResults (sanitize (logLine Crates.sample (.v4 ⟨[198, 51, 100, 7], rfl⟩) none
      "a, spf_helo=pass, spf_mailfrom=pass".toList "".toList .none .softfail .dunno)) =
      some ("none".toList, "softfail".toList) := by decide

/-- A domain that does may be believed: its explanation comes last. -/
example :
    readLogResults (sanitize (logLine Crates.sample (.v4 ⟨[198, 51, 100, 7], rfl⟩) none
      "a".toList "".toList .none (.fail ⟨"b, spf_helo=pass, spf_mailfrom=pass".toList, by decide⟩)
      .dunno)) = some ("pass".toList, "pass)".toList) := by decide

end Rspf
