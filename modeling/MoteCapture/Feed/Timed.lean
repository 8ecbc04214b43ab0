import MoteCapture.Feed.Script
import MoteCapture.Journal
import MoteCapture.Stop.Handles

/-!
Time. Only waiting takes any, and a wait is cut short by the first alarm that goes off meanwhile. Alarms
are set for a moment of the run; like the interrupt key they tell of themselves only if theirs was the
first raise.

In a timed feed every item comes a fixed time after it was asked for. An item is a report or a failure; a
failure is used up when it is told.
-/

namespace MoteCapture

/-- A stop that comes at a fixed moment, in milliseconds since the clock was started. -/
structure Alarm where
  moment : Nat
  reason : StopReason
  notice : String
  deriving DecidableEq, Repr

namespace Alarm

def interruptNotice : String := "Interrupted, closing capture files"

def timeout (ms : Nat) : Alarm where
  moment := ms
  reason := .timeout
  notice := "Run timeout of " ++ toString ms ++ "ms elapsed"

def interrupt (moment : Nat) : Alarm where
  moment := moment
  reason := .interrupted
  notice := interruptNotice

def ring (alarm : Alarm) (flag : StopFlag) (journal : Journal) : StopFlag × Journal :=
  let outcome := flag.raise alarm.reason
  (outcome.2, if outcome.1 then journal.warn alarm.notice else journal)

end Alarm

/-- The interrupt key and the flag that it raises. The listener leaves once the flag is raised. -/
structure Listener where
  flag : StopFlag
  journal : Journal

namespace Listener

def start (flag : StopFlag) : Listener := ⟨flag, .empty⟩

def raise (listener : Listener) (reason : StopReason) : Listener :=
  { listener with flag := (listener.flag.raise reason).2 }

def interrupt (listener : Listener) : Listener :=
  let rung := (Alarm.interrupt 0).ring listener.flag listener.journal
  ⟨rung.1, rung.2⟩

def isFinished (listener : Listener) : Bool :=
  listener.flag.isRaised

end Listener

structure Clock where
  now : Nat
  alarms : List Alarm
  deriving Repr

namespace Clock

def start (alarms : List Alarm) : Clock := ⟨0, alarms⟩

/-- The alarm that goes off first; of two at one moment, the one that was set first. -/
def earliest? : List Alarm → Option Alarm
  | [] => none
  | alarm :: rest =>
      match earliest? rest with
      | some other => if other.moment < alarm.moment then some other else some alarm
      | none => some alarm

def ringUp (clock : Clock) (alarm : Alarm) : Clock :=
  ⟨max clock.now alarm.moment, clock.alarms.erase alarm⟩

/-- Waits for a time, or until an alarm goes off. What comes at once leaves no time for one. -/
def wait (clock : Clock) (ms : Nat) : Clock × Option Alarm :=
  match earliest? clock.alarms with
  | some alarm =>
      if ms != 0 && alarm.moment ≤ clock.now + ms then (clock.ringUp alarm, some alarm)
      else ({ clock with now := clock.now + ms }, none)
  | none => ({ clock with now := clock.now + ms }, none)

def waitForAlarm (clock : Clock) : Option (Clock × Alarm) :=
  (earliest? clock.alarms).map fun alarm => (clock.ringUp alarm, alarm)

end Clock

structure TimedItem where
  delay : Nat
  item : Except FeedError Report
  deriving Repr

structure TimedFeed where
  items : List TimedItem
  deriving Repr

namespace TimedFeed

def delivery : Except FeedError Report → Delivery
  | .ok report => .report report
  | .error e => .failed e

def next (feed : TimedFeed) : Pull TimedFeed :=
  match feed.items with
  | [] => ⟨.empty, none, .comes 0 .ended feed⟩
  | first :: rest => ⟨.empty, none, .comes first.delay (delivery first.item) ⟨rest⟩⟩

instance : Feed TimedFeed where
  pull _ := next
  size feed := feed.items.length
  size_lt := by
    intro _ feed rest ms report found
    unfold next at found
    split at found
    · simp at found
    · next same =>
        simp only [Turn.comes.injEq] at found
        simp [← found.2.2, same]

end TimedFeed

end MoteCapture
