import Rspf.Lib.Text
import Rspf.Proto.Response

/-!
# The mail log

Every decision is also written to syslog, as one line in the style of Postfix.  The line contains
text from the network, so control characters are replaced before it is written: a line feed would
start a forged entry, and a NUL would end the C string early.

`logEvaluatedSpf_eq` is what is written: the line of the decision, made safe.  The code skips a line
that is not a C string, and this says that there is none.  What can be read off the line is in
`Rspf.MailLog.Reading`.
-/

set_option autoImplicit false

namespace Rspf

variable {m : Type → Type}

/-- A monad that can write to syslog. -/
class Syslog (m : Type → Type) where
  /-- `libc::syslog`, under the facility `mail` and at the level `info`. -/
  syslog : Str → m Unit

/-- Where nobody reads the log. -/
instance : Syslog Id := ⟨fun _ ↦ ()⟩

/-- `non_empty`: an empty attribute is an absent one. -/
def nonEmpty (s : Option Str) : Option Str := s.filter fun s ↦ !s.isEmpty

/-- `describe_action`: a status and perhaps a detail. -/
def describeAction : Action → Str × Option Str
  | .dunno => ("permit".toList, none)
  | .prepend header => ("permit".toList, some header)
  | .reject reason => ("reject".toList, some reason)
  | .deferIfPermit reason => ("defer".toList, some reason)

/-- `sanitize`: no control characters. -/
def sanitize (s : Str) : Str := s.map fun c ↦ if Text.isControl c then ' ' else c

/-- `write_to_syslog`: a text with a NUL in it is not a C string. -/
def writeToSyslog [Monad m] [Syslog m] (msg : Str) : m Unit :=
  if Char.ofNat 0 ∈ msg then pure () else Syslog.syslog msg

/-- The line that is logged, before it is made safe. -/
def logLine (X : Crates) (clientIp : IpAddr) (clientName : Option Str) (helo sender : Str)
    (heloResult mailFromResult : X.Result) (action : Action) : Str :=
  let clientName := (nonEmpty clientName).getD "unknown".toList
  let (status, detail) := describeAction action
  let msg := "status=".toList ++ status
  let msg :=
    match detail with
    | some detail => msg ++ " (".toList ++ detail ++ ")".toList
    | none => msg
  msg ++ ", from=<".toList ++ sender ++ ">, client=".toList ++ clientName ++ "[".toList ++
    clientIp.display ++ "], helo=".toList ++ helo ++ ", spf_helo=".toList ++
    X.displayResult heloResult ++ ", spf_mailfrom=".toList ++ X.displayResult mailFromResult

/-- `log_evaluated_spf`. -/
def logEvaluatedSpf (X : Crates) [Monad m] [Syslog m] (clientIp : IpAddr) (clientName : Option Str)
    (helo sender : Str) (heloResult mailFromResult : X.Result) (action : Action) : m Unit :=
  writeToSyslog (sanitize
    (logLine X clientIp clientName helo sender heloResult mailFromResult action))

/-! ## What is written -/

theorem not_isControl_of_mem_sanitize {s : Str} {c : Char} (h : c ∈ sanitize s) :
    Text.isControl c = false := by
  obtain ⟨d, -, rfl⟩ := List.mem_map.mp h
  split
  · decide
  · rename_i hd
    exact Bool.not_eq_true _ ▸ hd

/-- **Every decision is logged**: what is safe to write is a C string. -/
theorem logEvaluatedSpf_eq (X : Crates) [Monad m] [Syslog m] (clientIp : IpAddr)
    (clientName : Option Str) (helo sender : Str) (heloResult mailFromResult : X.Result)
    (action : Action) :
    logEvaluatedSpf X clientIp clientName helo sender heloResult mailFromResult action =
      (Syslog.syslog (sanitize
        (logLine X clientIp clientName helo sender heloResult mailFromResult action)) :
          m Unit) := by
  rw [logEvaluatedSpf, writeToSyslog, if_neg]
  intro h
  exact absurd (not_isControl_of_mem_sanitize h) (by decide)

end Rspf
