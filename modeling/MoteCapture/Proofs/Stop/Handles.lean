import Mathlib.Data.List.Find
import MoteCapture.Proofs.Stop.Calls
import MoteCapture.Stop.Handles

/-!
Handle families. What a handle sees follows from the history alone: two handles are kin if they stem
from the same new handle, by any number of shares, and each sees the first reason that was raised on
one of its kin. Nothing that is done with one family is seen by another one.
-/

namespace MoteCapture

namespace StopHandles

inductive Step where
  | fresh
  | share (handle : Nat)
  | raise (handle : Nat) (reason : StopReason)
  | wait (handle : Nat) (incoming : Option (Nat × StopReason))
  deriving DecidableEq, Repr

def Step.handles : Step → List Nat
  | .fresh => []
  | .share handle => [handle]
  | .raise handle _ => [handle]
  | .wait handle incoming => handle :: (incoming.map Prod.fst).toList

def Step.raise? : Step → Option (Nat × StopReason)
  | .raise handle reason => some (handle, reason)
  | .wait _ incoming => incoming
  | _ => none

/-- Where the handle comes from that a step adds: from nowhere, or from another handle. -/
def Step.origin? : Step → Option (Option Nat)
  | .fresh => some none
  | .share handle => some (some handle)
  | _ => none

def carryOut (board : StopHandles) : Step → StopHandles
  | .fresh => board.fresh
  | .share handle => board.share handle
  | .raise handle reason => (board.raise handle reason).2
  | .wait handle incoming => (board.wait handle incoming).2.2

def Step.Known (step : Step) (board : StopHandles) : Prop :=
  ∀ handle ∈ step.handles, handle < board.handles.length

instance (step : Step) (board : StopHandles) : Decidable (step.Known board) :=
  inferInstanceAs (Decidable (∀ handle ∈ step.handles, handle < board.handles.length))

inductive Runs : List Step → StopHandles → Prop
  | start : Runs [] .single
  | step {steps : List Step} {board : StopHandles} {step : Step} (earlier : Runs steps board)
      (known : step.Known board) : Runs (steps ++ [step]) (board.carryOut step)

def raises (steps : List Step) : List (Nat × StopReason) :=
  steps.filterMap Step.raise?

def origins (steps : List Step) : List (Option Nat) :=
  none :: steps.filterMap Step.origin?

/-- A handle was made from a new one, by any number of shares. -/
inductive Stems (steps : List Step) (root : Nat) : Nat → Prop
  | root (made : (origins steps)[root]? = some none) : Stems steps root root
  | share {source handle : Nat} (made : (origins steps)[handle]? = some (some source))
      (stems : Stems steps root source) : Stems steps root handle

def Kin (steps : List Step) (one two : Nat) : Prop :=
  ∃ root, Stems steps root one ∧ Stems steps root two

def Spares (steps : List Step) (handle : Nat) (raises : List (Nat × StopReason)) : Prop :=
  ∀ raise ∈ raises, ¬Kin steps handle raise.1

def FirstRaise (steps : List Step) (handle : Nat) (reason : StopReason) : Prop :=
  ∃ before other after, raises steps = before ++ (other, reason) :: after ∧
    Spares steps handle before ∧ Kin steps handle other

section Board

variable {board : StopHandles} {handle other : Nat} {reason : StopReason}

theorem Step.Known.waiting {incoming : Option (Nat × StopReason)}
    (known : (Step.wait handle incoming).Known board) : handle < board.handles.length :=
  known handle (by simp [Step.handles])

theorem Step.Known.raised {step : Step} {raise : Nat × StopReason} (known : step.Known board)
    (comes : step.raise? = some raise) : raise.1 < board.handles.length := by
  apply known
  cases step with
  | raise handle reason =>
      cases comes
      exact List.mem_singleton_self handle
  | wait handle incoming =>
      cases comes
      simp [Step.handles]
  | _ => cases comes

theorem wait_eq (board : StopHandles) (handle : Nat) (incoming : Option (Nat × StopReason)) :
    (board.wait handle incoming).1 = (board.carryOut (.wait handle incoming)).reason? handle := by
  cases incoming <;> rfl

theorem length_wait (board : StopHandles) (handle : Nat) (incoming : Option (Nat × StopReason)) :
    (board.carryOut (.wait handle incoming)).handles.length = board.handles.length := by
  cases incoming <;> rfl

theorem place_append {flags : List StopFlag} {place : Nat} (inside : handle < board.handles.length) :
    (StopHandles.mk flags (board.handles ++ [place])).place handle = board.place handle := by
  simp [StopHandles.place, List.getElem?_append_left inside, inside]

theorem place_new {flags : List StopFlag} {place : Nat} :
    (StopHandles.mk flags (board.handles ++ [place])).place board.handles.length = place := by
  simp [StopHandles.place]

theorem old_or_new {place : Nat} (inside : handle < (board.handles ++ [place]).length) :
    handle < board.handles.length ∨ handle = board.handles.length := by
  rw [List.length_append] at inside
  exact Nat.lt_succ_iff_lt_or_eq.mp inside

theorem reason?_append {flags : List StopFlag} {place : Nat} (grows : board.flags <+: flags)
    (inside : handle < board.handles.length) (held : board.place handle < board.flags.length) :
    (StopHandles.mk flags (board.handles ++ [place])).reason? handle = board.reason? handle := by
  obtain ⟨more, rfl⟩ := grows
  simp only [reason?, flag, place_append inside, List.getElem?_append_left held]

theorem flag_fresh (inside : handle < board.handles.length)
    (held : board.place handle < board.flags.length) :
    board.fresh.flag handle = board.flag handle := by
  simp only [flag, fresh, place_append inside, List.getElem?_append_left held]

theorem flag_share (inside : handle < board.handles.length) :
    (board.share other).flag handle = board.flag handle := by
  simp only [flag, share, place_append inside]

theorem place_raise (board : StopHandles) (other : Nat) (reason : StopReason) :
    (board.raise other reason).2.place = board.place := by
  funext handle
  simp [StopHandles.place, StopHandles.raise]

-- A raise is seen by the handles that lead to the same flag, and by no others.
theorem reason?_raise (held : board.place other < board.flags.length) :
    (board.raise other reason).2.reason? handle =
      if board.place other = board.place handle then (board.reason? handle).or (some reason)
      else board.reason? handle := by
  simp only [reason?, flag, place_raise]
  simp only [raise, List.getElem?_set]
  split
  · next together =>
    rw [Option.getD_some, StopFlag.reason_raise, flag, together]
  · rfl

theorem raise_first : (board.raise other reason).1 = true ↔ board.reason? other = none := by
  simp only [raise, StopFlag.raise, reason?]
  cases (board.flag other).reason <;> simp

end Board

section History

variable {steps : List Step} {step : Step} {board : StopHandles} {root handle other one two : Nat}

@[simp] theorem raises_append : raises (steps ++ [step]) = raises steps ++ step.raise?.toList := by
  cases raise : step.raise? <;> simp [raises, raise]

@[simp] theorem origins_append :
    origins (steps ++ [step]) = origins steps ++ step.origin?.toList := by
  cases origin : step.origin? <;> simp [origins, origin]

def Closed (steps : List Step) : Prop :=
  ∀ source, some source ∈ origins steps → source < (origins steps).length

theorem Closed.add {origin : Option Nat} (closed : Closed steps) (adds : step.origin? = some origin)
    (source : ∀ source, origin = some source → source < (origins steps).length) :
    Closed (steps ++ [step]) := by
  intro wanted member
  have inside : wanted < (origins steps).length := by
    simp only [origins_append, adds, Option.toList_some, List.mem_append, List.mem_singleton] at member
    rcases member with old | last
    · exact closed wanted old
    · exact source wanted last.symm
  simp [adds]
  omega

theorem Stems.inside (stems : Stems steps root handle) : handle < (origins steps).length := by
  cases stems with
  | root made => exact (List.getElem?_eq_some_iff.mp made).1
  | share made _ => exact (List.getElem?_eq_some_iff.mp made).1

-- Later steps change nothing in the descent of a handle.
theorem stems_append (closed : Closed steps) (inside : handle < (origins steps).length) :
    Stems (steps ++ [step]) root handle ↔ Stems steps root handle := by
  constructor
  · intro stems
    induction stems with
    | root made =>
        rw [origins_append, List.getElem?_append_left inside] at made
        exact .root made
    | share made _ ih =>
        rw [origins_append, List.getElem?_append_left inside] at made
        exact .share made (ih (closed _ (List.mem_of_getElem? made)))
  · intro stems
    induction stems with
    | root made =>
        apply Stems.root
        rw [origins_append, List.getElem?_append_left inside]
        exact made
    | share made stems ih =>
        refine .share ?_ (ih stems.inside)
        rw [origins_append, List.getElem?_append_left inside]
        exact made

theorem kin_append (closed : Closed steps) (first : one < (origins steps).length)
    (second : two < (origins steps).length) : Kin (steps ++ [step]) one two ↔ Kin steps one two := by
  simp only [Kin, stems_append closed first, stems_append closed second]

theorem Stems.root_inside (stems : Stems steps root handle) : root < (origins steps).length := by
  induction stems with
  | root made => exact (List.getElem?_eq_some_iff.mp made).1
  | share _ _ ih => exact ih

theorem Kin.symm (kin : Kin steps one two) : Kin steps two one := by
  obtain ⟨root, first, second⟩ := kin
  exact ⟨root, second, first⟩

theorem stems_fresh_new :
    Stems (steps ++ [.fresh]) root (origins steps).length ↔ root = (origins steps).length := by
  constructor
  · intro stems
    cases stems with
    | root _ => rfl
    | share made _ => simp [Step.origin?] at made
  · rintro rfl
    exact .root (by simp [Step.origin?])

theorem stems_share_new (closed : Closed steps) (inside : other < (origins steps).length) :
    Stems (steps ++ [.share other]) root (origins steps).length ↔ Stems steps root other := by
  constructor
  · intro stems
    cases stems with
    | root made => simp [Step.origin?] at made
    | share made stems =>
        simp only [origins_append, Step.origin?, Option.toList_some, List.getElem?_concat_length,
          Option.some.injEq] at made
        subst made
        exact (stems_append closed inside).mp stems
  · intro stems
    exact .share (by simp [Step.origin?]) ((stems_append closed inside).mpr stems)

/-- What a run keeps: the handles are those of the history, two of them lead to one flag just if they
are kin, and a flag shows the first raise on a handle that leads to it. -/
structure Told (steps : List Step) (board : StopHandles) : Prop where
  count : board.handles.length = (origins steps).length
  closed : Closed steps
  held : ∀ handle < board.handles.length, board.place handle < board.flags.length
  kin : ∀ one < board.handles.length, ∀ two < board.handles.length,
    (Kin steps one two ↔ board.place one = board.place two)
  raised : ∀ raise ∈ raises steps, raise.1 < board.handles.length
  seen : ∀ handle < board.handles.length, board.reason? handle =
    ((raises steps).find? fun raise => board.place raise.1 == board.place handle).map Prod.snd

theorem told_start : Told [] single := by
  have descent (root handle : Nat) : Stems [] root handle ↔ root = 0 ∧ handle = 0 := by
    constructor
    · intro stems
      have inside := stems.inside
      have root_inside := stems.root_inside
      simp [origins] at inside root_inside
      exact ⟨root_inside, inside⟩
    · rintro ⟨rfl, rfl⟩
      exact .root rfl
  refine ⟨rfl, by simp [Closed, origins], by simp [single, place], ?_, by simp [raises], ?_⟩
  · intro one first two second
    obtain rfl : one = 0 := by simpa [single] using first
    obtain rfl : two = 0 := by simpa [single] using second
    simp [Kin, descent]
  · intro handle inside
    obtain rfl : handle = 0 := by simpa [single] using inside
    rfl

-- The raises of a run lead where they led, whatever handle is added.
theorem Told.find_append {flags : List StopFlag} {place : Nat} (told : Told steps board)
    (wanted : Nat) :
    ((raises steps).find? fun raise =>
        (StopHandles.mk flags (board.handles ++ [place])).place raise.1 == wanted) =
      (raises steps).find? fun raise => board.place raise.1 == wanted := by
  apply List.find?_congr
  intro raise member
  rw [place_append (told.raised raise member)]

-- It is enough to know the kin of the handle that is added.
theorem Told.kin_add {flags : List StopFlag} {place : Nat} (told : Told steps board)
    (self : Kin (steps ++ [step]) board.handles.length board.handles.length)
    (kin : ∀ two < board.handles.length,
      (Kin (steps ++ [step]) board.handles.length two ↔ place = board.place two))
    (first : one < (board.handles ++ [place]).length)
    (second : two < (board.handles ++ [place]).length) :
    Kin (steps ++ [step]) one two ↔
      (StopHandles.mk flags (board.handles ++ [place])).place one =
        (StopHandles.mk flags (board.handles ++ [place])).place two := by
  have count := told.count
  rcases old_or_new first with old | rfl <;> rcases old_or_new second with other | rfl
  · rw [kin_append told.closed (count ▸ old) (count ▸ other), place_append old, place_append other]
    exact told.kin one old two other
  · rw [place_append old, place_new, eq_comm, ← kin one old]
    exact ⟨Kin.symm, Kin.symm⟩
  · rw [place_append other, place_new]
    exact kin two other
  · exact iff_of_true self rfl

-- A step that adds a handle: those that were there lead where they led.
theorem Told.add {origin : Option Nat} {flags : List StopFlag} {place : Nat}
    (told : Told steps board) (adds : step.origin? = some origin) (quiet : step.raise? = none)
    (source : ∀ source, origin = some source → source < board.handles.length)
    (grows : board.flags <+: flags) (held : place < flags.length)
    (self : Kin (steps ++ [step]) board.handles.length board.handles.length)
    (kin : ∀ two < board.handles.length,
      (Kin (steps ++ [step]) board.handles.length two ↔ place = board.place two))
    (seen : (flags[place]?.getD .clear).reason =
      ((raises steps).find? fun raise => board.place raise.1 == place).map Prod.snd) :
    Told (steps ++ [step]) ⟨flags, board.handles ++ [place]⟩ := by
  have same : raises (steps ++ [step]) = raises steps := by simp [quiet]
  constructor
  case count => simp [adds, told.count]
  case closed =>
    apply told.closed.add adds
    rw [← told.count]
    exact source
  case held =>
    intro handle inside
    rcases old_or_new inside with old | rfl
    · rw [place_append old]
      exact Nat.lt_of_lt_of_le (told.held handle old) grows.length_le
    · rwa [place_new]
  case kin =>
    intro one first two second
    exact told.kin_add self kin first second
  case raised =>
    intro raise member
    rw [same] at member
    exact Nat.lt_of_lt_of_le (told.raised raise member) (by simp)
  case seen =>
    intro handle inside
    rw [same, told.find_append]
    rcases old_or_new inside with old | rfl
    · rw [place_append old, ← told.seen handle old]
      exact reason?_append grows old (told.held handle old)
    · rw [place_new, ← seen]
      simp only [reason?, flag, place_new]

theorem Told.fresh (told : Told steps board) : Told (steps ++ [.fresh]) board.fresh := by
  have count := told.count
  apply told.add rfl rfl (by simp) (List.prefix_append _ _) (by simp)
  case self =>
    rw [count]
    exact ⟨_, stems_fresh_new.mpr rfl, stems_fresh_new.mpr rfl⟩
  case kin =>
    intro two inside
    refine iff_of_false ?_ (Nat.ne_of_gt (told.held two inside))
    rintro ⟨root, first, second⟩
    rw [count] at first inside
    obtain rfl := stems_fresh_new.mp first
    have stems := (stems_append told.closed inside).mp second
    exact absurd stems.root_inside (Nat.lt_irrefl _)
  case seen =>
    have none_there : ((raises steps).find? fun raise =>
        board.place raise.1 == board.flags.length) = none := by
      apply List.find?_eq_none.mpr
      intro raise member
      have held := told.held raise.1 (told.raised raise member)
      simp [Nat.ne_of_lt held]
    simp [none_there, StopFlag.clear]

theorem Told.share (told : Told steps board) (inside : other < board.handles.length) :
    Told (steps ++ [.share other]) (board.share other) := by
  have count := told.count
  have descent (root : Nat) : Stems (steps ++ [.share other]) root (origins steps).length ↔
      Stems steps root other := stems_share_new told.closed (count ▸ inside)
  apply told.add rfl rfl (by simpa using inside) (List.prefix_refl _)
    (told.held other inside)
  case self =>
    obtain ⟨root, stems, -⟩ := (told.kin other inside other inside).mpr rfl
    rw [count]
    exact ⟨root, (descent root).mpr stems, (descent root).mpr stems⟩
  case kin =>
    intro two within
    rw [← told.kin other inside two within]
    rw [count] at within ⊢
    simp only [Kin, descent, stems_append told.closed within]
  case seen => exact told.seen other inside

-- A step that adds no handle leaves the families as they are.
theorem Told.keep {later : StopHandles} (told : Told steps board) (adds : step.origin? = none)
    (handles : later.handles = board.handles) (flags : later.flags.length = board.flags.length)
    (known : ∀ raise ∈ step.raise?, raise.1 < board.handles.length)
    (seen : ∀ handle < board.handles.length, later.reason? handle =
      ((raises (steps ++ [step])).find? fun raise =>
        board.place raise.1 == board.place handle).map Prod.snd) :
    Told (steps ++ [step]) later := by
  have same : origins (steps ++ [step]) = origins steps := by simp [adds]
  have place : later.place = board.place := by
    funext handle
    rw [StopHandles.place, handles, flags, StopHandles.place]
  have count := told.count
  constructor
  case count => rw [same, handles, count]
  case closed =>
    intro source member
    rw [same] at member ⊢
    exact told.closed source member
  case held =>
    rw [handles, flags, place]
    exact told.held
  case kin =>
    rw [handles, place]
    intro one first two second
    rw [kin_append told.closed (count ▸ first) (count ▸ second)]
    exact told.kin one first two second
  case raised =>
    rw [handles]
    intro raise member
    rw [raises_append, List.mem_append, Option.mem_toList] at member
    exact member.elim (told.raised raise) (known raise)
  case seen =>
    rw [handles, place]
    exact seen

theorem Told.raise {reason : StopReason} (told : Told steps board)
    (raising : step.raise? = some (other, reason)) (adds : step.origin? = none)
    (inside : other < board.handles.length) :
    Told (steps ++ [step]) (board.raise other reason).2 := by
  have handles : (board.raise other reason).2.handles = board.handles := rfl
  apply told.keep adds handles (by simp [StopHandles.raise]) (by simp [raising, inside])
  intro handle within
  rw [reason?_raise (told.held other inside), told.seen handle within, raises_append, raising]
  by_cases together : board.place other = board.place handle
  · cases earlier : (raises steps).find? fun raise =>
      board.place raise.1 == board.place handle <;> simp [together, earlier, List.find?_append]
  · simp [together, List.find?_append]

theorem Told.carryOut (told : Told steps board) (known : step.Known board) :
    Told (steps ++ [step]) (board.carryOut step) := by
  cases step with
  | fresh => exact told.fresh
  | share handle => exact told.share (known handle (by simp [Step.handles]))
  | raise handle reason => exact told.raise rfl rfl (known.raised rfl)
  | wait handle incoming =>
    cases incoming with
    | none =>
        apply told.keep rfl rfl rfl (by simp [Step.raise?])
        simpa [Step.raise?] using told.seen
    | some raise => exact told.raise rfl rfl (known.raised rfl)

theorem Runs.told (run : Runs steps board) : Told steps board := by
  induction run with
  | start => exact told_start
  | step _ known ih => exact ih.carryOut known

-- The families of the history, as the program tells them apart.
theorem Told.leads (told : Told steps board) (inside : handle < board.handles.length)
    {raise : Nat × StopReason} (member : raise ∈ raises steps) :
    (board.place raise.1 == board.place handle) = true ↔ Kin steps handle raise.1 := by
  rw [told.kin handle inside raise.1 (told.raised raise member), beq_iff_eq, eq_comm]

theorem Told.seen_iff {reason : StopReason} (told : Told steps board)
    (inside : handle < board.handles.length) :
    board.reason? handle = some reason ↔ FirstRaise steps handle reason := by
  rw [told.seen handle inside, Option.map_eq_some_iff]
  constructor
  · rintro ⟨⟨other, its⟩, found, rfl⟩
    have member := List.mem_of_find?_eq_some found
    obtain ⟨leads, before, after, split, spared⟩ := List.find?_eq_some_iff_append.mp found
    refine ⟨before, other, after, split, ?_, (told.leads inside member).mp leads⟩
    intro raise earlier kin
    have leads := (told.leads inside (by simp [split, earlier])).mpr kin
    have apart := spared raise earlier
    rw [leads] at apart
    cases apart
  · rintro ⟨before, other, after, split, spared, kin⟩
    refine ⟨(other, reason), ?_, rfl⟩
    apply List.find?_eq_some_iff_append.mpr
    refine ⟨(told.leads inside (by simp [split])).mpr kin, before, after, split, ?_⟩
    intro raise earlier
    have apart := mt (told.leads inside (by simp [split, earlier])).mp (spared raise earlier)
    simpa using apart

theorem Told.clear_iff (told : Told steps board) (inside : handle < board.handles.length) :
    board.reason? handle = none ↔ Spares steps handle (raises steps) := by
  rw [told.seen handle inside, Option.map_eq_none_iff, List.find?_eq_none]
  constructor
  · intro apart raise member kin
    exact apart raise member ((told.leads inside member).mpr kin)
  · intro spared raise member leads
    exact spared raise member ((told.leads inside member).mp leads)

theorem Told.apart (told : Told steps board) (known : step.Known board)
    (inside : handle < board.handles.length)
    (spared : ∀ raise ∈ step.raise?, ¬Kin steps handle raise.1) :
    (board.carryOut step).reason? handle = board.reason? handle := by
  have after_raise {other : Nat} {reason : StopReason} (within : other < board.handles.length)
      (foreign : ¬Kin steps handle other) :
      (board.raise other reason).2.reason? handle = board.reason? handle := by
    rw [told.kin handle inside other within, eq_comm] at foreign
    rw [reason?_raise (told.held other within), if_neg foreign]
  cases step with
  | fresh => exact congrArg StopFlag.reason (flag_fresh inside (told.held handle inside))
  | share source => exact congrArg StopFlag.reason (flag_share inside)
  | raise other reason =>
      exact after_raise (known.raised rfl) (spared _ rfl)
  | wait waiter incoming =>
    cases incoming with
    | none => rfl
    | some raise => exact after_raise (known.raised rfl) (spared _ rfl)

-- Of the raise that comes in during a wait, only one to the own family counts.
theorem Told.wait {incoming : Option (Nat × StopReason)} {coming : Option StopReason}
    (told : Told steps board) (known : (Step.wait handle incoming).Known board)
    (own : ∀ reason, coming = some reason ↔
      ∃ other, incoming = some (other, reason) ∧ Kin steps handle other) :
    (board.wait handle incoming).1 = (board.reason? handle).or coming := by
  have inside := known.waiting
  cases incoming with
  | none =>
      obtain rfl : coming = none := by
        apply Option.eq_none_iff_forall_ne_some.mpr
        intro reason came
        obtain ⟨other, impossible, -⟩ := (own reason).mp came
        cases impossible
      exact (Option.or_none).symm
  | some raise =>
      obtain ⟨other, reason⟩ := raise
      have within : other < board.handles.length := known.raised rfl
      have same := told.kin handle inside other within
      simp only [StopHandles.wait, reason?_raise (told.held other within)]
      by_cases kin : Kin steps handle other
      · rw [if_pos (same.mp kin).symm, (own reason).mpr ⟨other, rfl, kin⟩]
      · have foreign : coming = none := by
          apply Option.eq_none_iff_forall_ne_some.mpr
          intro came its
          obtain ⟨_, same, foreign⟩ := (own came).mp its
          cases same
          exact kin foreign
        rw [if_neg (fun place => kin (same.mpr place.symm)), foreign, Option.or_none]

theorem Told.wait_ends {incoming : Option (Nat × StopReason)} (told : Told steps board)
    (known : (Step.wait handle incoming).Known board) :
    (board.carryOut (.wait handle incoming)).reason? handle ≠ none ↔
      (∃ raise ∈ raises steps, Kin steps handle raise.1) ∨
        ∃ raise ∈ incoming, Kin steps handle raise.1 := by
  have inside := known.waiting
  have later := told.carryOut known
  have still : handle < (board.carryOut (.wait handle incoming)).handles.length := by
    rw [length_wait]
    exact inside
  have unmoved {other : Nat} (within : other < board.handles.length) :
      Kin (steps ++ [.wait handle incoming]) handle other ↔ Kin steps handle other :=
    kin_append told.closed (told.count ▸ inside) (told.count ▸ within)
  have within {raise : Nat × StopReason} (came : raise ∈ incoming) :
      raise.1 < board.handles.length := known.raised came
  rw [Ne, later.clear_iff still]
  constructor
  · intro raised
    simp only [Spares, raises_append, List.mem_append, Option.mem_toList, not_forall, not_not] at raised
    obtain ⟨raise, earlier | came, kin⟩ := raised
    · exact Or.inl ⟨raise, earlier, (unmoved (told.raised raise earlier)).mp kin⟩
    · exact Or.inr ⟨raise, came, (unmoved (within came)).mp kin⟩
  · rintro (⟨raise, earlier, kin⟩ | ⟨raise, came, kin⟩) spared
    · exact spared raise (by simp [earlier]) ((unmoved (told.raised raise earlier)).mpr kin)
    · exact spared raise (by simp [Step.raise?, Option.mem_def.mp came])
        ((unmoved (within came)).mpr kin)

/-- Whatever is done with handles, after every step each one sees the reason of the first raise on its
family, and nothing before that raise. A raise is told to be the first one just if none came before
it in its family. A wait ends just if the family was raised before or is raised meanwhile, with the
reason of the family; to take it apart into its steps, and those of the raise that comes meanwhile,
changes nothing. No step is seen by a family that it does not raise. -/
theorem families_see_their_first_raise {steps : List Step} {board : StopHandles}
    (run : Runs steps board) :
    board.handles.length = (origins steps).length ∧
    (∀ handle < board.handles.length, ∀ reason,
      board.reason? handle = some reason ↔ FirstRaise steps handle reason) ∧
    (∀ handle < board.handles.length, ∀ reason,
      (board.raise handle reason).1 = true ↔ Spares steps handle (raises steps)) ∧
    (∀ handle incoming, (Step.wait handle incoming).Known board →
      let waited := board.wait handle incoming
      (waited.1 ≠ none ↔ (∃ raise ∈ raises steps, Kin steps handle raise.1) ∨
        ∃ raise ∈ incoming, Kin steps handle raise.1) ∧
      (∀ reason, waited.1 = some reason ↔
        FirstRaise (steps ++ [.wait handle incoming]) handle reason) ∧
      (∀ raise ∈ incoming, waited.2.1 = some true ↔ Spares steps raise.1 (raises steps)) ∧
      ∀ bell : Bell, bell.ReachesAll → ∀ (state : bell.State) (coming : Option StopReason),
        (∀ reason, coming = some reason ↔
          ∃ other, incoming = some (other, reason) ∧ Kin steps handle other) →
        ∀ early late : List Nat, 2 ≤ early.count 1 → 3 ≤ late.count 0 → ∀ reason,
          ((StopCalls.Scene.awaiting bell state (board.flag handle) coming).run
            (early ++ late)).calls[0]? = some (.told reason) ↔ waited.1 = some reason) ∧
    ∀ step : Step, step.Known board → ∀ handle < board.handles.length,
      (∀ raise ∈ step.raise?, ¬Kin steps handle raise.1) →
        (board.carryOut step).reason? handle = board.reason? handle := by
  have told := run.told
  have first {handle : Nat} {reason : StopReason} (inside : handle < board.handles.length) :
      (board.raise handle reason).1 = true ↔ Spares steps handle (raises steps) :=
    raise_first.trans (told.clear_iff inside)
  refine ⟨told.count, fun handle inside reason => told.seen_iff inside,
    fun handle inside reason => first inside, ?_, fun step known handle => told.apart known⟩
  intro handle incoming known waited
  have inside := known.waiting
  have later := told.carryOut known
  have same : waited.1 = (board.carryOut (.wait handle incoming)).reason? handle :=
    wait_eq board handle incoming
  have still : handle < (board.carryOut (.wait handle incoming)).handles.length := by
    rw [length_wait]
    exact inside
  refine ⟨?_, ?_, ?_, ?_⟩
  · rw [same]
    exact told.wait_ends known
  · intro reason
    rw [same]
    exact later.seen_iff still
  · intro raise came
    obtain rfl : incoming = some raise := came
    have within : raise.1 < board.handles.length := known.raised rfl
    have shown : waited.2.1 = some (board.raise raise.1 raise.2).1 := rfl
    rw [shown, Option.some.injEq, first within]
  · intro bell reaches state coming own early late raised enough reason
    rw [StopCalls.awaiting_told reaches state _ coming raised enough, told.wait known own]
    rfl

-- The first family is raised, the second one only while its newest handle is waited on.
theorem two_families_and_a_wait :
    let steps : List Step := [.fresh, .share 0, .raise 2 .timeout, .share 1]
    let board := steps.foldl carryOut single
    Runs steps board ∧ FirstRaise steps 0 .timeout ∧ Spares steps 3 (raises steps) ∧
      (board.wait 3 (some (1, .interrupted))).1 = some .interrupted ∧
      FirstRaise (steps ++ [.wait 3 (some (1, .interrupted))]) 3 .interrupted ∧
      ((StopCalls.Scene.awaiting Bell.counting Bell.counting.silent (board.flag 3)
        (some .interrupted)).run ([0, 0, 1, 0, 1] ++ [0, 0, 0])).calls[0]? =
          some (.told .interrupted) := by
  intro steps board
  have run : Runs steps board := by
    have one : Runs [.fresh] _ := Runs.start.step (by decide)
    have two : Runs [.fresh, .share 0] _ := one.step (by decide)
    have three : Runs [.fresh, .share 0, .raise 2 .timeout] _ := two.step (by decide)
    exact three.step (by decide)
  obtain ⟨-, seen, first, waits, -⟩ := families_see_their_first_raise run
  obtain ⟨-, told, -, calls⟩ := waits 3 (some (1, .interrupted)) (by decide)
  have ended : (board.wait 3 (some (1, .interrupted))).1 = some .interrupted := by decide
  have kin : Kin steps 3 1 := ⟨1, .share rfl (.root rfl), .root rfl⟩
  refine ⟨run, (seen 0 (by decide) _).mp (by decide), (first 3 (by decide) .timeout).mp (by decide),
    ended, (told _).mp ended, ?_⟩
  apply (calls Bell.counting Bell.counting_reaches _ (some .interrupted) ?_ [0, 0, 1, 0, 1] [0, 0, 0]
    (by decide) (by decide) _).mpr ended
  intro reason
  constructor
  · rintro ⟨⟩
    exact ⟨1, rfl, kin⟩
  · rintro ⟨other, same, -⟩
    cases same
    rfl

end History

end StopHandles

end MoteCapture
