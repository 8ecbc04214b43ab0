/-!
Stop flags. A flag can be raised any number of times; only the first reason counts. Handles lead to flags:
a new handle comes with a flag of its own, and a shared one leads to the flag of the handle that it was
made from, so handles fall into families that see the same reason.

Calls on one flag may go on at the same time. To raise the flag is one step, and to ring for those who
wait is another one, which only the first raise takes. To wait is to listen for the bell, to look at the
flag, and to ask for the bell until it was heard, over and over until the flag is raised. A schedule says
whose step comes next; every order is possible.
-/

namespace MoteCapture

inductive StopReason where
  | timeout
  | interrupted
  | endOfInput
  deriving DecidableEq, Repr, Inhabited

def StopReason.text : StopReason → String
  | .timeout => "timeout"
  | .interrupted => "interrupted"
  | .endOfInput => "end of input"

structure StopFlag where
  reason : Option StopReason
  deriving DecidableEq, Repr, Inhabited

namespace StopFlag

def clear : StopFlag := ⟨none⟩

def isRaised (flag : StopFlag) : Bool :=
  flag.reason.isSome

/-- Raises the flag, and tells whether this raise was the first. -/
def raise (flag : StopFlag) (reason : StopReason) : Bool × StopFlag :=
  match flag.reason with
  | none => (true, ⟨some reason⟩)
  | some _ => (false, flag)

end StopFlag

structure StopHandles where
  flags : List StopFlag
  /-- For each handle, the position of its flag. -/
  handles : List Nat
  deriving DecidableEq, Repr

namespace StopHandles

def single : StopHandles :=
  ⟨[StopFlag.clear], [0]⟩

/-- The position of the flag that a handle leads to. A number that is no handle leads nowhere. -/
def place (board : StopHandles) (handle : Nat) : Nat :=
  board.handles[handle]?.getD board.flags.length

def flag (board : StopHandles) (handle : Nat) : StopFlag :=
  board.flags[board.place handle]?.getD StopFlag.clear

def reason? (board : StopHandles) (handle : Nat) : Option StopReason :=
  (board.flag handle).reason

def fresh (board : StopHandles) : StopHandles :=
  ⟨board.flags ++ [StopFlag.clear], board.handles ++ [board.flags.length]⟩

def share (board : StopHandles) (handle : Nat) : StopHandles :=
  ⟨board.flags, board.handles ++ [board.place handle]⟩

def raise (board : StopHandles) (handle : Nat) (reason : StopReason) : Bool × StopHandles :=
  let outcome := (board.flag handle).raise reason
  (outcome.1, ⟨board.flags.set (board.place handle) outcome.2, board.handles⟩)

/-- Waits on a handle while a raise may come in on another one. The wait is over when its own flag
is raised, be it before or by that raise; else it is given up, with no reason. -/
def wait (board : StopHandles) (handle : Nat) (incoming : Option (Nat × StopReason)) :
    Option StopReason × Option Bool × StopHandles :=
  match incoming with
  | none => (board.reason? handle, none, board)
  | some (other, reason) =>
      let raised := board.raise other reason
      (raised.2.reason? handle, some raised.1, raised.2)

/-- All that a board shows, handle by handle, for whoever looks at it from outside after each step. The
theory asks one handle at a time. -/
def reasons (board : StopHandles) : List (Option StopReason) :=
  (List.range board.handles.length).map board.reason?

end StopHandles

/-- A bell that callers can listen for. What it keeps of them is its own affair. -/
structure Bell where
  State : Type
  silent : State
  /-- A caller begins to listen; what it heard before counts no more. -/
  listen : State → Nat → State
  ring : State → State
  /-- Whether a caller has heard the bell. To ask may leave something behind. -/
  ask : State → Nat → Bool × State

namespace StopCalls

inductive Request where
  | raise (reason : StopReason)
  | wait
  deriving DecidableEq, Repr

inductive Progress where
  | raising (reason : StopReason)
  /-- A raise that was the first one, and has not rung yet. -/
  | ringing
  | raised (first : Bool)
  | arriving
  /-- It listens, and has not looked at the flag since. -/
  | looking
  /-- It listens, and found the flag clear. -/
  | listening
  | told (reason : StopReason)
  deriving DecidableEq, Repr

def Request.begin : Request → Progress
  | .raise reason => .raising reason
  | .wait => .arriving

def Progress.step (bell : Bell) (flag : StopFlag) (state : bell.State) (caller : Nat) :
    Progress → Progress × StopFlag × bell.State
  | .raising reason =>
      let outcome := flag.raise reason
      (if outcome.1 then .ringing else .raised false, outcome.2, state)
  | .ringing => (.raised true, flag, bell.ring state)
  | .raised first => (.raised first, flag, state)
  | .arriving => (.looking, flag, bell.listen state caller)
  | .looking =>
      match flag.reason with
      | some reason => (.told reason, flag, state)
      | none => (.listening, flag, state)
  | .listening =>
      let outcome := bell.ask state caller
      (if outcome.1 then .arriving else .listening, flag, outcome.2)
  | .told reason => (.told reason, flag, state)

structure Scene (bell : Bell) where
  flag : StopFlag
  state : bell.State
  calls : List Progress

namespace Scene

variable {bell : Bell}

def start (bell : Bell) (requests : List Request) : Scene bell :=
  ⟨.clear, bell.silent, requests.map Request.begin⟩

def advance (scene : Scene bell) (caller : Nat) : Scene bell :=
  match scene.calls[caller]? with
  | none => scene
  | some progress =>
      let next := progress.step bell scene.flag scene.state caller
      ⟨next.2.1, next.2.2, scene.calls.set caller next.1⟩

def run (scene : Scene bell) (schedule : List Nat) : Scene bell :=
  schedule.foldl advance scene

end Scene

end StopCalls

end MoteCapture
