import Rspf.Spf.Evaluator
import Rspf.Lib.Split

/-!
# The `Received-SPF` header

`buildReceivedSpf` writes down the outcome of a check: the result, a comment, and what was checked
as `key=value` pairs.

The header is one line of a mail, and parts of it come from the client.  `count_buildReceivedSpf`
says that none of them can break the line: the line feeds of a header are those of the configured
receiver.  Whether it can be read back is another matter, see `Rspf.Spf.HeaderReading`.
-/

set_option autoImplicit false

namespace Rspf

variable {X : Crates}

/-- `recipient_domain`. -/
def recipientDomain (recipient : Str) (authservId : Option Str) : Str :=
  match authservId with
  | some id => id
  | none =>
    match Split.rsplitOnce '@' recipient with
    | some (_, domain) => domain
    | none => "UNKNOWN".toList

/-- `describe_error_cause`. -/
def describeErrorCause (cause : X.ErrorCause) : Str := X.displayErrorCause cause

/-- `describe_cause`. -/
def describeCause (outcome : SpfOutcome X) (mailFrom : Str) (ip : IpAddr) : Str :=
  match outcome.cause with
  | some (.match mechanism) =>
    "domain of ".toList ++ mailFrom ++ " designates ".toList ++ ip.display ++ " as ".toList ++
      X.displayResult outcome.result ++ ", matched \"".toList ++ X.displayMechanism mechanism ++
      "\"".toList
  | some (.error cause) => describeErrorCause cause
  | none =>
    "domain of ".toList ++ mailFrom ++ " does not designate a policy for ".toList ++ ip.display

/-- The word for an identity. -/
def Identity.word : Identity → Str
  | helo => "helo".toList
  | mailFrom => "mailfrom".toList

/-- The receiver that is named. -/
def receiver (recipient : Str) (cfg : HeaderConfig) : Str :=
  if cfg.hideReceiver then "UNKNOWN".toList else recipientDomain recipient cfg.authservId

/-- `build_received_spf`. -/
def buildReceivedSpf (outcome : SpfOutcome X) (ip : IpAddr) (mailFrom helo recipient : Str)
    (cfg : HeaderConfig) : Str :=
  X.displayResult outcome.result ++ " (".toList ++ describeCause outcome mailFrom ip ++
    ") client-ip=".toList ++ ip.display ++ "; envelope-from=\"".toList ++ mailFrom ++
    "\"; helo=".toList ++ helo ++ "; receiver=\"".toList ++ receiver recipient cfg ++
    "\"; identity=".toList ++ outcome.identity.word ++ ";".toList

/-! ## Line feeds

What is checked comes from the network and has no line feeds; neither does what `viaspf` prints.
That leaves the name the operator gave for the receiver. -/

/-- The configured text that a header shows. -/
def HeaderConfig.shown (cfg : HeaderConfig) : Str :=
  if cfg.hideReceiver then [] else cfg.authservId.getD []

theorem newline_not_mem_display (ip : IpAddr) : '\n' ∉ ip.display := by
  intro h
  have hno : '\n' ∉ addrChars := by decide
  exact hno (IpAddr.mem_display h)

variable {mailFrom helo recipient : Str}

theorem count_receiver (hrecipient : '\n' ∉ recipient) (cfg : HeaderConfig) :
    (receiver recipient cfg).count '\n' = cfg.shown.count '\n' := by
  have hunknown : ("UNKNOWN".toList).count '\n' = 0 := by decide
  rw [receiver, HeaderConfig.shown]
  split
  · exact hunknown
  · cases cfg.authservId with
    | some id => rfl
    | none =>
      rw [recipientDomain]
      split
      · rename_i domain h
        obtain ⟨rfl, -⟩ := Split.rsplitOnce_eq_some_iff.mp h
        exact List.count_eq_zero.mpr fun hm ↦ hrecipient (by simp [hm])
      · exact hunknown

theorem newline_not_mem_describeCause (hX : X.PrintsNoNewline) (outcome : SpfOutcome X)
    (hmail : '\n' ∉ mailFrom) (ip : IpAddr) : '\n' ∉ describeCause outcome mailFrom ip := by
  have hip := newline_not_mem_display ip
  rw [describeCause]
  split
  · rename_i mechanism _
    simp [hmail, hip, hX.result, hX.mechanism mechanism]
  · rename_i cause _
    exact hX.errorCause cause
  · simp [hmail, hip]

/-- **A header has the line feeds of the configured receiver**, and no others. -/
theorem count_buildReceivedSpf (hX : X.PrintsNoNewline) (outcome : SpfOutcome X) (ip : IpAddr)
    (hmail : '\n' ∉ mailFrom) (hhelo : '\n' ∉ helo) (hrecipient : '\n' ∉ recipient)
    (cfg : HeaderConfig) :
    (buildReceivedSpf outcome ip mailFrom helo recipient cfg).count '\n' =
      cfg.shown.count '\n' := by
  have hword : '\n' ∉ outcome.identity.word := by cases outcome.identity <;> decide
  have hcause := newline_not_mem_describeCause hX outcome hmail ip
  have hip := newline_not_mem_display ip
  have hbefore : '\n' ∉ X.displayResult outcome.result ++ " (".toList ++
      describeCause outcome mailFrom ip ++ ") client-ip=".toList ++ ip.display ++
      "; envelope-from=\"".toList ++ mailFrom ++ "\"; helo=".toList ++ helo ++
      "; receiver=\"".toList := by
    simp [hX.result, hcause, hip, hmail, hhelo]
  have hafter : '\n' ∉ "\"; identity=".toList ++ (outcome.identity.word ++ ";".toList) := by
    simp [hword]
  rw [← count_receiver hrecipient, buildReceivedSpf, List.append_assoc, List.append_assoc,
    List.count_append, List.count_append, List.count_eq_zero.mpr hbefore,
    List.count_eq_zero.mpr hafter, Nat.zero_add, Nat.add_zero]

end Rspf
