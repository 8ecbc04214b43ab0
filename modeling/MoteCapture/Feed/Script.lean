import MoteCapture.Disk
import MoteCapture.Journal
import MoteCapture.Stop.Handles

/-!
Feeds: where reports come from. A feed is asked for one thing at a time, and may look at the disk for it.
What it has to give may be there at once, may take time, or may never come; whoever waits can be called
off, and then the feed still has what it was about to give. Every report makes the feed smaller, so that a
session comes to an end.

The simplest feed plays a fixed list of reports. It can raise a stop after a number of deliveries, and it
can stay silent at its end.
-/

namespace MoteCapture

/-- Why a feed has nothing to give. Errors of options and of the capture are left out: no feed here runs
into one. -/
inductive FeedError where
  | io (error : IoError)
  | processing (text : String)
  deriving DecidableEq, Repr

inductive Delivery where
  | report (report : Report)
  | ended
  | failed (error : FeedError)
  deriving DecidableEq, Repr

inductive Turn (σ : Type) where
  /-- It comes after a wait, or at once if the wait is zero. -/
  | comes (ms : Nat) (delivery : Delivery) (rest : σ)
  | never (rest : σ)

structure Pull (σ : Type) where
  notes : Journal
  raises : Option StopReason
  turn : Turn σ

class Feed (σ : Type) where
  pull : Disk → σ → Pull σ
  /-- A bound on the number of reports to come. -/
  size : σ → Nat
  size_lt : ∀ {disk : Disk} {feed rest : σ} {ms : Nat} {report : Report},
    (pull disk feed).turn = .comes ms (.report report) rest → size rest < size feed

structure ScriptFeed where
  reports : List Report
  delivered : Nat
  /-- The stop to raise with every delivery from this number on. -/
  raiseAfter : Option (Nat × StopReason)
  stalls : Bool
  deriving Repr

namespace ScriptFeed

def ofList (reports : List Report) : ScriptFeed :=
  ⟨reports, 0, none, false⟩

def stopAt (feed : ScriptFeed) (number : Nat) : Option StopReason :=
  match feed.raiseAfter with
  | some (count, reason) => if count ≤ number then some reason else none
  | none => none

def next (feed : ScriptFeed) : Pull ScriptFeed :=
  match feed.reports with
  | [] => ⟨.empty, none, if feed.stalls then .never feed else .comes 0 .ended feed⟩
  | report :: rest =>
      ⟨.empty, feed.stopAt (feed.delivered + 1),
        .comes 0 (.report report) { feed with reports := rest, delivered := feed.delivered + 1 }⟩

instance : Feed ScriptFeed where
  pull _ := next
  size feed := feed.reports.length
  size_lt := by
    intro _ feed rest ms report found
    unfold next at found
    split at found
    · split at found <;> simp at found
    · next same => cases found; simp [same]

end ScriptFeed

end MoteCapture
