import Rspf.Crates
import Rspf.Lib.Text

/-!
# Policy responses

The answer to a request is an `Action`, sent as one line `action=…` and an empty line.
-/

set_option autoImplicit false

namespace Rspf

/-- `Action`. -/
inductive Action where
  /-- No opinion. -/
  | dunno
  | prepend : Str → Action
  | reject : Str → Action
  /-- Defer, if the mail would be accepted otherwise. -/
  | deferIfPermit : Str → Action
  deriving DecidableEq

namespace Action

/-- What the action line says after `action=`. -/
def reply : Action → Str
  | dunno => "dunno".toList
  | prepend header => "PREPEND ".toList ++ header
  | reject reason => reason
  | deferIfPermit reason => "defer_if_permit ".toList ++ reason

/-- `Display for Action`. -/
def display (action : Action) : Str := "action=".toList ++ action.reply

/-- `to_wire`. -/
def toWire (action : Action) : Str := action.display ++ "\n\n".toList

/-! ## Line feeds -/

/-- The text an action carries. -/
def text : Action → Str
  | dunno => []
  | prepend header => header
  | reject reason => reason
  | deferIfPermit reason => reason

theorem count_reply (action : Action) : action.reply.count '\n' = action.text.count '\n' := by
  have hprepend : '\n' ∉ "PREPEND ".toList := by decide
  have hdefer : '\n' ∉ "defer_if_permit ".toList := by decide
  cases action with
  | dunno => decide
  | prepend header => exact Text.count_append_of_not_mem hprepend header
  | reject reason => rfl
  | deferIfPermit reason => exact Text.count_append_of_not_mem hdefer reason

/-- The line of an action has the line feeds of the text it carries. -/
theorem count_display (action : Action) :
    action.display.count '\n' = action.text.count '\n' := by
  have hname : '\n' ∉ "action=".toList := by decide
  exact (Text.count_append_of_not_mem hname action.reply).trans action.count_reply

theorem newline_mem_display_iff {action : Action} :
    '\n' ∈ action.display ↔ '\n' ∈ action.reply := by
  rw [← List.count_pos_iff, ← List.count_pos_iff, count_display, count_reply]

theorem toWire_eq (action : Action) :
    action.toWire = "action=".toList ++ action.reply ++ "\n\n".toList := rfl

end Action

end Rspf
