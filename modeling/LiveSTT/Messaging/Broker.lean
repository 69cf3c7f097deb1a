import Mathlib.Data.List.Basic

/-!
# Lanes and broker calls

What every service shares about the message broker: the two lanes audio and its derivatives travel
on, and how a call to the broker ends.

A call takes effect, if it does, when it is issued, and the coroutine that issued it is suspended
until the answer is there. So calls take effect in the order they are issued, whatever the order in
which their answers arrive, and an atomic step of a coroutine is the code between two of its awaits
together with the effect of the call it ends in.
-/

namespace LiveSTT

/-- The live audio of a session, or the pre-roll captured before it started. -/
inductive Lane
  | live
  | backfill
  deriving DecidableEq, Repr

/-- The lane as a subject token and as the value of a `source` field. -/
def Lane.tag : Lane → String
  | live => "live"
  | backfill => "backfill"

/-- How a broker call ends: it takes effect and returns, it raises without effect, or it takes
effect and raises because the answer was lost. -/
inductive Reply
  | ok
  | error
  | lost
  deriving DecidableEq, Repr

namespace Reply

/-- The call took effect at the broker. -/
def applied : Reply → Bool
  | ok => true
  | error => false
  | lost => true

/-- The caller sees an exception. -/
def raised : Reply → Bool
  | ok => false
  | error => true
  | lost => true

@[simp] theorem applied_ok : ok.applied = true := rfl

/-- A call that returned took effect. -/
theorem applied_of_not_raised {r : Reply} (h : r.raised = false) : r.applied = true := by
  cases r <;> simp_all [raised, applied]

end Reply

end LiveSTT
