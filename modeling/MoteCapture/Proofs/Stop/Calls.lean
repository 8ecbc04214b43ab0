import MoteCapture.Stop.Handles

/-!
No wake-up is lost. Whatever the order of their steps, of all calls that raise a flag one is the first,
everybody who waits is told its reason, and once it has rung nobody waits in vain. What makes it so is
that a caller listens before it looks: if it finds the flag clear, the bell is still to ring.

One wait and the raise that may come meanwhile are such calls: in whatever order the two take their steps,
the wait ends just if the flag is raised by then, and is told the reason that counts.
-/

namespace MoteCapture

theorem StopFlag.reason_raise (flag : StopFlag) (reason : StopReason) :
    (flag.raise reason).2.reason = flag.reason.or (some reason) := by
  unfold raise
  cases before : flag.reason with
  | none => rfl
  | some first => exact before

namespace Bell

variable {bell : Bell} {caller : Nat} {start state : bell.State}

/-- What may come between two states of a bell while a caller listens: the bell rings, others listen
and ask, and the caller itself asks and has heard nothing. -/
inductive Meanwhile (bell : Bell) (caller : Nat) (start : bell.State) : bell.State → Prop where
  | none : Meanwhile bell caller start start
  | ring {state : bell.State} (earlier : Meanwhile bell caller start state) :
      Meanwhile bell caller start (bell.ring state)
  | listen {state : bell.State} {other : Nat} (earlier : Meanwhile bell caller start state)
      (apart : other ≠ caller) : Meanwhile bell caller start (bell.listen state other)
  | ask {state : bell.State} {other : Nat} (earlier : Meanwhile bell caller start state)
      (vain : other = caller → (bell.ask state other).1 = false) :
      Meanwhile bell caller start (bell.ask state other).2

/-- When the bell rings, all who listen hear it, whether they have asked before or not. -/
def ReachesAll (bell : Bell) : Prop :=
  ∀ (caller : Nat) (start before after : bell.State),
    bell.Meanwhile caller (bell.listen start caller) before →
    bell.Meanwhile caller (bell.ring before) after →
    (bell.ask after caller).1 = true

def Listened (bell : Bell) (caller : Nat) (state : bell.State) : Prop :=
  ∃ start, bell.Meanwhile caller (bell.listen start caller) state

def Rang (bell : Bell) (caller : Nat) (state : bell.State) : Prop :=
  ∃ before, bell.Listened caller before ∧ bell.Meanwhile caller (bell.ring before) state

theorem Rang.heard (reaches : bell.ReachesAll) (rang : bell.Rang caller state) :
    (bell.ask state caller).1 = true := by
  obtain ⟨before, ⟨start, listened⟩, later⟩ := rang
  exact reaches caller start before state listened later

end Bell

namespace StopCalls

variable {bell : Bell}

inductive Stage where
  | clear
  | decided (winner : Nat) (reason : StopReason)
  | rung (winner : Nat) (reason : StopReason)

def Stage.reason? : Stage → Option StopReason
  | .clear => none
  | .decided _ reason => some reason
  | .rung _ reason => some reason

/-- How far a request may be in a stage. Whoever listens and found the flag clear has the ring still
to come, or it came meanwhile. -/
def Stage.Allows (stage : Stage) (state : bell.State) (caller : Nat) : Request → Progress → Prop
  | .raise reason, .raising other => other = reason
  | .raise reason, .ringing => stage = .decided caller reason
  | .raise reason, .raised true => stage = .rung caller reason
  | .raise _, .raised false => stage.reason? ≠ none
  | .wait, .arriving => True
  | .wait, .looking => bell.Listened caller state
  | .wait, .listening =>
      match stage with
      | .rung _ _ => bell.Rang caller state
      | _ => bell.Listened caller state
  | .wait, .told reason => stage.reason? = some reason
  | _, _ => False

def Stage.Led (requests : List Request) (calls : List Progress) : Stage → Prop
  | .clear => True
  | .decided winner reason =>
      requests[winner]? = some (.raise reason) ∧ calls[winner]? = some .ringing
  | .rung winner reason =>
      requests[winner]? = some (.raise reason) ∧ calls[winner]? = some (.raised true)

structure Sound (requests : List Request) (stage : Stage) (scene : Scene bell) : Prop where
  flag : scene.flag.reason = stage.reason?
  led : stage.Led requests scene.calls
  calls : ∀ (caller : Nat) (progress : Progress), scene.calls[caller]? = some progress →
    ∃ request, requests[caller]? = some request ∧ stage.Allows scene.state caller request progress

variable {requests : List Request} {request : Request} {stage next : Stage} {scene : Scene bell}
  {caller other : Nat} {before after progress : Progress} {state later : bell.State}

theorem set_calls {calls : List Progress} (here : calls[caller]? = some before) :
    (calls.set caller after)[other]? = some progress ↔
      other = caller ∧ progress = after ∨ other ≠ caller ∧ calls[other]? = some progress := by
  obtain ⟨inside, -⟩ := List.getElem?_eq_some_iff.mp here
  by_cases same : other = caller
  · subst same
    simp [inside, eq_comm]
  · simp [same, List.getElem?_set_ne (Ne.symm same)]

-- What the bell does for others keeps a caller where it is.
theorem Stage.Allows.meanwhile (allows : stage.Allows state other request progress)
    (carries : ∀ start, bell.Meanwhile other start state → bell.Meanwhile other start later) :
    stage.Allows later other request progress := by
  have listened : bell.Listened other state → bell.Listened other later := by
    rintro ⟨start, earlier⟩
    exact ⟨start, carries _ earlier⟩
  cases request with
  | raise reason =>
      cases progress with
      | raised first => cases first <;> exact allows
      | _ => exact allows
  | wait =>
      cases progress with
      | looking => exact listened allows
      | listening =>
          cases stage with
          | rung winner reason =>
              obtain ⟨before, first, since⟩ := allows
              exact ⟨before, first, carries _ since⟩
          | _ => exact listened allows
      | _ => exact allows

-- The first raise takes nothing from anybody.
theorem Stage.Allows.decide (allows : Stage.clear.Allows state other request progress) (winner : Nat)
    (reason : StopReason) : (Stage.decided winner reason).Allows state other request progress := by
  cases request with
  | raise wanted =>
      cases progress with
      | raising _ => exact allows
      | ringing => cases allows
      | raised first => cases first <;> simp_all [Allows, reason?]
      | _ => exact allows
  | wait =>
      cases progress with
      | told _ => cases allows
      | _ => exact allows

-- The ring reaches everybody else.
theorem Stage.Allows.ring {winner : Nat} {reason : StopReason} (apart : other ≠ winner)
    (allows : (Stage.decided winner reason).Allows state other request progress) :
    (Stage.rung winner reason).Allows (bell.ring state) other request progress := by
  cases request with
  | raise wanted =>
      cases progress with
      | raising _ => exact allows
      | ringing =>
          cases allows
          exact absurd rfl apart
      | raised first => cases first <;> simp_all [Allows, reason?]
      | _ => exact allows
  | wait =>
      cases progress with
      | looking =>
          obtain ⟨start, earlier⟩ := allows
          exact ⟨start, earlier.ring⟩
      | listening => exact ⟨state, allows, .none⟩
      | _ => exact allows

theorem Stage.Led.keep {calls : List Progress} (led : stage.Led requests calls)
    (here : calls[caller]? = some before) (quiet : before ≠ .ringing ∧ before ≠ .raised true)
    (after : Progress) : stage.Led requests (calls.set caller after) := by
  cases stage with
  | clear => exact led
  | decided winner reason =>
      have apart : winner ≠ caller := by
        rintro rfl
        simp_all [Led]
      exact ⟨led.1, (set_calls here).mpr (Or.inr ⟨apart, led.2⟩)⟩
  | rung winner reason =>
      have apart : winner ≠ caller := by
        rintro rfl
        simp_all [Led]
      exact ⟨led.1, (set_calls here).mpr (Or.inr ⟨apart, led.2⟩)⟩

-- A step of one call; the others are allowed what they were.
theorem Sound.move {flag : StopFlag} (sound : Sound requests stage scene)
    (here : scene.calls[caller]? = some before) (asked : requests[caller]? = some request)
    (shown : flag.reason = next.reason?) (led : next.Led requests (scene.calls.set caller after))
    (own : next.Allows state caller request after)
    (others : ∀ other request progress, other ≠ caller →
      stage.Allows scene.state other request progress → next.Allows state other request progress) :
    Sound requests next ⟨flag, state, scene.calls.set caller after⟩ := by
  refine ⟨shown, led, ?_⟩
  intro other progress now
  rcases (set_calls here).mp now with ⟨rfl, rfl⟩ | ⟨apart, stays⟩
  · exact ⟨request, asked, own⟩
  · obtain ⟨wanted, its, allows⟩ := sound.calls other progress stays
    exact ⟨wanted, its, others other wanted progress apart allows⟩

-- Most steps leave the stage as it is.
theorem Sound.stay (sound : Sound requests stage scene)
    (here : scene.calls[caller]? = some before) (quiet : before ≠ .ringing ∧ before ≠ .raised true)
    (asked : requests[caller]? = some request) (own : stage.Allows state caller request after)
    (carries : ∀ other start, other ≠ caller → bell.Meanwhile other start scene.state →
      bell.Meanwhile other start state) :
    Sound requests stage ⟨scene.flag, state, scene.calls.set caller after⟩ := by
  apply sound.move here asked sound.flag (sound.led.keep here quiet after) own
  intro other request progress apart allows
  exact allows.meanwhile (fun start => carries other start apart)

theorem sound_start (bell : Bell) (requests : List Request) :
    Sound requests .clear (Scene.start bell requests) := by
  refine ⟨rfl, trivial, ?_⟩
  intro caller progress here
  simp only [Scene.start, List.getElem?_map, Option.map_eq_some_iff] at here
  obtain ⟨request, asked, rfl⟩ := here
  refine ⟨request, asked, ?_⟩
  cases request with
  | raise reason => rfl
  | wait => trivial

theorem advance_eq (here : scene.calls[caller]? = some progress) :
    scene.advance caller =
      let next := progress.step bell scene.flag scene.state caller
      ⟨next.2.1, next.2.2, scene.calls.set caller next.1⟩ := by
  simp [Scene.advance, here]

theorem advance_done (here : scene.calls[caller]? = some progress)
    (done : progress.step bell scene.flag scene.state caller =
      (progress, scene.flag, scene.state)) : scene.advance caller = scene := by
  obtain ⟨inside, rfl⟩ := List.getElem?_eq_some_iff.mp here
  rw [advance_eq here, done]
  simp

-- A raise decides a clear stage, and leaves any other one as it is.
theorem Sound.raising {reason : StopReason} (sound : Sound requests stage scene)
    (here : scene.calls[caller]? = some (.raising reason)) :
    (stage = .clear ∧ Sound requests (.decided caller reason) (scene.advance caller)) ∨
      Sound requests stage (scene.advance caller) := by
  obtain ⟨request, asked, allows⟩ := sound.calls caller _ here
  cases request with
  | wait => cases allows
  | raise wanted =>
    cases allows
    rw [advance_eq here]
    cases flag : scene.flag.reason with
    | some earlier =>
        right
        have raised : stage.reason? ≠ none := by simp [← sound.flag, flag]
        have step : Sound requests stage
            ⟨scene.flag, scene.state, scene.calls.set caller (.raised false)⟩ :=
          sound.stay here (by simp) asked raised (fun _ _ _ => id)
        simpa [Progress.step, StopFlag.raise, flag] using step
    | none =>
        left
        have clear : stage = .clear := by
          have shown := sound.flag
          cases stage <;> simp_all [Stage.reason?]
        subst clear
        have led : (Stage.decided caller reason).Led requests (scene.calls.set caller .ringing) :=
          ⟨asked, (set_calls here).mpr (Or.inl ⟨rfl, rfl⟩)⟩
        have step : Sound requests (.decided caller reason)
            ⟨⟨some reason⟩, scene.state, scene.calls.set caller .ringing⟩ := by
          apply sound.move here asked rfl led rfl
          intro other request progress _ allows
          exact allows.decide caller reason
        exact ⟨rfl, by simpa [Progress.step, StopFlag.raise, flag] using step⟩

theorem Sound.ringing (sound : Sound requests stage scene)
    (here : scene.calls[caller]? = some .ringing) :
    ∃ reason, stage = .decided caller reason ∧
      Sound requests (.rung caller reason) (scene.advance caller) := by
  obtain ⟨request, asked, allows⟩ := sound.calls caller _ here
  cases request with
  | wait => cases allows
  | raise reason =>
    cases allows
    have led : (Stage.rung caller reason).Led requests (scene.calls.set caller (.raised true)) :=
      ⟨asked, (set_calls here).mpr (Or.inl ⟨rfl, rfl⟩)⟩
    have shown : scene.flag.reason = (Stage.rung caller reason).reason? := sound.flag
    have step : Sound requests (.rung caller reason)
        ⟨scene.flag, bell.ring scene.state, scene.calls.set caller (.raised true)⟩ := by
      apply sound.move here asked shown led rfl
      intro other request progress apart allows
      exact allows.ring apart
    exact ⟨reason, rfl, by rwa [advance_eq here]⟩

theorem Sound.looking (sound : Sound requests stage scene)
    (here : scene.calls[caller]? = some .looking) :
    Sound requests stage (scene.advance caller) := by
  obtain ⟨request, asked, allows⟩ := sound.calls caller _ here
  cases request with
  | raise reason => cases allows
  | wait =>
    rw [advance_eq here]
    cases flag : scene.flag.reason with
    | some reason =>
        have shown : stage.reason? = some reason := by rw [← sound.flag, flag]
        have step : Sound requests stage
            ⟨scene.flag, scene.state, scene.calls.set caller (.told reason)⟩ :=
          sound.stay here (by simp) asked shown (fun _ _ _ => id)
        simpa [Progress.step, flag] using step
    | none =>
        -- It listened before it looked, and nobody has rung as long as the flag is clear.
        have clear : stage = .clear := by
          have shown := sound.flag
          cases stage <;> simp_all [Stage.reason?]
        subst clear
        have step : Sound requests .clear
            ⟨scene.flag, scene.state, scene.calls.set caller .listening⟩ :=
          sound.stay here (by simp) asked allows (fun _ _ _ => id)
        simpa [Progress.step, flag] using step

theorem Sound.listening (sound : Sound requests stage scene)
    (here : scene.calls[caller]? = some .listening) :
    Sound requests stage (scene.advance caller) := by
  obtain ⟨request, asked, allows⟩ := sound.calls caller _ here
  have carries : ∀ other start, other ≠ caller → bell.Meanwhile other start scene.state →
      bell.Meanwhile other start (bell.ask scene.state caller).2 := by
    intro other start apart earlier
    exact earlier.ask (fun same => absurd same.symm apart)
  cases request with
  | raise reason => cases allows
  | wait =>
    rw [advance_eq here]
    cases asks : (bell.ask scene.state caller).1 with
    | true =>
        have step : Sound requests stage
            ⟨scene.flag, (bell.ask scene.state caller).2, scene.calls.set caller .arriving⟩ :=
          sound.stay here (by simp) asked trivial carries
        simpa [Progress.step, asks] using step
    | false =>
        have still := allows.meanwhile (fun start earlier => earlier.ask (fun _ => asks))
        have step : Sound requests stage
            ⟨scene.flag, (bell.ask scene.state caller).2, scene.calls.set caller .listening⟩ :=
          sound.stay here (by simp) asked still carries
        simpa [Progress.step, asks] using step

theorem Sound.arriving (sound : Sound requests stage scene)
    (here : scene.calls[caller]? = some .arriving) :
    Sound requests stage (scene.advance caller) := by
  obtain ⟨request, asked, allows⟩ := sound.calls caller _ here
  cases request with
  | raise reason => cases allows
  | wait =>
    have listened : bell.Listened caller (bell.listen scene.state caller) := ⟨scene.state, .none⟩
    have own : stage.Allows (bell.listen scene.state caller) caller .wait .looking := listened
    have step : Sound requests stage
        ⟨scene.flag, bell.listen scene.state caller, scene.calls.set caller .looking⟩ := by
      apply sound.stay here (by simp) asked own
      intro other start apart earlier
      exact earlier.listen apart.symm
    rwa [advance_eq here]

-- Whoever comes next, the scene is sound again, and a stage that has rung is the last one.
theorem Sound.advance (sound : Sound requests stage scene) (caller : Nat) :
    ∃ next, Sound requests next (scene.advance caller) ∧
      ∀ winner reason, stage = .rung winner reason → next = stage := by
  cases here : scene.calls[caller]? with
  | none => exact ⟨stage, by simpa [Scene.advance, here] using sound, fun _ _ _ => rfl⟩
  | some progress =>
    cases progress with
    | raising reason =>
        rcases sound.raising here with ⟨rfl, decided⟩ | same
        · exact ⟨_, decided, by simp⟩
        · exact ⟨stage, same, fun _ _ _ => rfl⟩
    | ringing =>
        obtain ⟨reason, rfl, rung⟩ := sound.ringing here
        exact ⟨_, rung, by simp⟩
    | raised first => exact ⟨stage, by rwa [advance_done here rfl], fun _ _ _ => rfl⟩
    | arriving => exact ⟨stage, sound.arriving here, fun _ _ _ => rfl⟩
    | looking => exact ⟨stage, sound.looking here, fun _ _ _ => rfl⟩
    | listening => exact ⟨stage, sound.listening here, fun _ _ _ => rfl⟩
    | told reason => exact ⟨stage, by rwa [advance_done here rfl], fun _ _ _ => rfl⟩

theorem Sound.run (sound : Sound requests stage scene) (schedule : List Nat) :
    ∃ next, Sound requests next (scene.run schedule) := by
  induction schedule generalizing stage scene with
  | nil => exact ⟨stage, sound⟩
  | cons caller rest ih =>
      obtain ⟨next, step, _⟩ := sound.advance caller
      exact ih step

-- The flag is raised once; every later raise finds it as it is.
theorem flag_advance (scene : Scene bell) (caller : Nat) {reason : StopReason}
    (raised : scene.flag.reason = some reason) :
    (scene.advance caller).flag.reason = some reason := by
  unfold Scene.advance
  split
  · exact raised
  · next progress here =>
    cases progress <;> simp [Progress.step, StopFlag.raise, raised]

theorem flag_run (scene : Scene bell) (schedule : List Nat) {reason : StopReason}
    (raised : scene.flag.reason = some reason) : (scene.run schedule).flag.reason = some reason := by
  induction schedule generalizing scene with
  | nil => exact raised
  | cons caller rest ih => exact ih (scene.advance caller) (flag_advance scene caller raised)

theorem others_advance (scene : Scene bell) (apart : caller ≠ other) :
    (scene.advance caller).calls[other]? = scene.calls[other]? := by
  unfold Scene.advance
  split
  · rfl
  · simp [List.getElem?_set_ne apart]

def Progress.toGo : Progress → Nat
  | .listening => 3
  | .arriving => 2
  | .looking => 1
  | _ => 0

theorem toGo_le (progress : Progress) : progress.toGo ≤ 3 := by
  cases progress <;> simp [Progress.toGo]

-- After the ring every step of a wait brings it forward.
theorem Sound.forward {winner waiter : Nat} {reason : StopReason} (reaches : bell.ReachesAll)
    (sound : Sound requests (.rung winner reason) scene)
    (asked : requests[waiter]? = some .wait) (here : scene.calls[waiter]? = some progress)
    (more : progress.toGo ≠ 0) :
    ∃ next, (scene.advance waiter).calls[waiter]? = some next ∧ next.toGo + 1 = progress.toGo := by
  obtain ⟨request, its, allows⟩ := sound.calls waiter progress here
  obtain ⟨inside, -⟩ := List.getElem?_eq_some_iff.mp here
  have flag : scene.flag.reason = some reason := sound.flag
  rw [advance_eq here]
  cases progress with
  | arriving => exact ⟨.looking, by simp [Progress.step, inside], rfl⟩
  | looking => exact ⟨.told reason, by simp [Progress.step, flag, inside], rfl⟩
  | listening =>
      rw [asked] at its
      cases its
      have heard := Bell.Rang.heard reaches allows
      exact ⟨.arriving, by simp [Progress.step, heard, inside], rfl⟩
  | _ => simp [Progress.toGo] at more

theorem Sound.finished {winner waiter : Nat} {reason : StopReason}
    (sound : Sound requests (.rung winner reason) scene)
    (asked : requests[waiter]? = some .wait) (here : scene.calls[waiter]? = some progress)
    (done : progress.toGo = 0) : progress = .told reason := by
  obtain ⟨request, its, allows⟩ := sound.calls waiter progress here
  rw [asked] at its
  cases its
  cases progress with
  | told other =>
      cases allows
      rfl
  | raising _ => cases allows
  | ringing => cases allows
  | raised _ => cases allows
  | _ => simp [Progress.toGo] at done

theorem Sound.told {winner waiter : Nat} {reason : StopReason} (reaches : bell.ReachesAll)
    (sound : Sound requests (.rung winner reason) scene)
    (asked : requests[waiter]? = some .wait) (here : scene.calls[waiter]? = some progress)
    {schedule : List Nat} (enough : progress.toGo ≤ schedule.count waiter) :
    (scene.run schedule).calls[waiter]? = some (.told reason) := by
  induction schedule generalizing scene progress with
  | nil =>
      obtain rfl := sound.finished asked here (Nat.le_zero.mp enough)
      exact here
  | cons caller rest ih =>
      obtain ⟨next, step, last⟩ := sound.advance caller
      obtain rfl := last winner reason rfl
      by_cases own : caller = waiter
      · subst own
        rw [List.count_cons_self] at enough
        by_cases done : progress.toGo = 0
        · obtain rfl := sound.finished asked here done
          have still := advance_done here rfl
          exact ih step (by rwa [still]) (by simp [Progress.toGo])
        · obtain ⟨later, now, less⟩ := sound.forward reaches asked here done
          exact ih step now (by omega)
      · rw [List.count_cons_of_ne own] at enough
        exact ih step ((others_advance scene own).trans here) enough

-- The winning raise, before or after its ring, is the call that decided the stage.
theorem Sound.rung_of_raised {winner : Nat} (sound : Sound requests stage scene)
    (raised : scene.calls[winner]? = some (.raised true)) :
    ∃ reason, stage = .rung winner reason := by
  obtain ⟨request, asked, allows⟩ := sound.calls winner _ raised
  cases request with
  | wait => cases allows
  | raise reason => exact ⟨reason, allows⟩

theorem Sound.winner_unique {one two : Nat} (sound : Sound requests stage scene)
    (first : scene.calls[one]? = some (.raised true))
    (second : scene.calls[two]? = some (.raised true)) : one = two := by
  obtain ⟨reason, rfl⟩ := sound.rung_of_raised first
  obtain ⟨other, same⟩ := sound.rung_of_raised second
  cases same
  rfl

theorem Sound.winner {reason : StopReason} (sound : Sound requests stage scene)
    (flag : scene.flag.reason = some reason) :
    ∃ winner : Nat, requests[winner]? = some (.raise reason) ∧
      (scene.calls[winner]? = some .ringing ∨ scene.calls[winner]? = some (.raised true)) := by
  have shown := sound.flag
  have led := sound.led
  rw [flag] at shown
  cases stage with
  | clear => cases shown
  | decided winner other =>
      cases shown
      exact ⟨winner, led.1, Or.inl led.2⟩
  | rung winner other =>
      cases shown
      exact ⟨winner, led.1, Or.inr led.2⟩

theorem Sound.reason_of_told {waiter : Nat} {reason : StopReason}
    (sound : Sound requests stage scene) (told : scene.calls[waiter]? = some (.told reason)) :
    scene.flag.reason = some reason := by
  obtain ⟨request, asked, allows⟩ := sound.calls waiter _ told
  cases request with
  | raise other => cases allows
  | wait => exact sound.flag.trans allows

theorem Sound.heard {winner waiter : Nat} {reason : StopReason} (reaches : bell.ReachesAll)
    (sound : Sound requests (.rung winner reason) scene)
    (listens : scene.calls[waiter]? = some .listening) :
    (bell.ask scene.state waiter).1 = true := by
  obtain ⟨request, asked, allows⟩ := sound.calls waiter _ listens
  cases request with
  | raise other => cases allows
  | wait => exact Bell.Rang.heard reaches allows

theorem length_start : (Scene.start bell requests).calls.length = requests.length := by
  simp [Scene.start]

theorem length_advance (scene : Scene bell) (caller : Nat) :
    (scene.advance caller).calls.length = scene.calls.length := by
  unfold Scene.advance
  split
  · rfl
  · simp

theorem length_run (scene : Scene bell) (schedule : List Nat) :
    (scene.run schedule).calls.length = scene.calls.length := by
  induction schedule generalizing scene with
  | nil => rfl
  | cons caller rest ih => exact (ih (scene.advance caller)).trans (length_advance scene caller)

/-- Whatever calls there are and in whatever order they take their steps: one raise at most is the
first, the flag keeps the reason of this raise, and every wait that is over was told this reason. Once
the first raise has rung, whoever still listens has heard the bell, and every wait is over after three
more steps of its own. -/
theorem no_wake_up_is_lost (bell : Bell) (reaches : bell.ReachesAll) (requests : List Request)
    (schedule : List Nat) :
    let scene := (Scene.start bell requests).run schedule
    (∀ one two : Nat, scene.calls[one]? = some (.raised true) →
      scene.calls[two]? = some (.raised true) → one = two) ∧
    (∀ reason, scene.flag.reason = some reason →
      (∃ winner : Nat, requests[winner]? = some (.raise reason) ∧
        (scene.calls[winner]? = some .ringing ∨ scene.calls[winner]? = some (.raised true))) ∧
      ∀ later, (scene.run later).flag.reason = some reason) ∧
    (∀ (waiter : Nat) reason, scene.calls[waiter]? = some (.told reason) →
      scene.flag.reason = some reason) ∧
    ∀ winner : Nat, scene.calls[winner]? = some (.raised true) →
      ∃ reason, scene.flag.reason = some reason ∧
        (∀ waiter : Nat, scene.calls[waiter]? = some .listening →
          (bell.ask scene.state waiter).1 = true) ∧
        ∀ (waiter : Nat) later, requests[waiter]? = some .wait → 3 ≤ later.count waiter →
          (scene.run later).calls[waiter]? = some (.told reason) := by
  intro scene
  obtain ⟨stage, sound⟩ : ∃ stage, Sound requests stage scene :=
    (sound_start bell requests).run schedule
  constructor
  · intro one two first second
    exact sound.winner_unique first second
  constructor
  · intro reason flag
    exact ⟨sound.winner flag, fun later => flag_run scene later flag⟩
  constructor
  · intro waiter reason told
    exact sound.reason_of_told told
  · intro winner raised
    obtain ⟨reason, rfl⟩ := sound.rung_of_raised raised
    refine ⟨reason, sound.flag, fun waiter => sound.heard reaches, ?_⟩
    intro waiter later asked enough
    have inside : waiter < scene.calls.length := by
      obtain ⟨bound, -⟩ := List.getElem?_eq_some_iff.mp asked
      rw [length_run, length_start]
      exact bound
    have here := List.getElem?_eq_getElem inside
    exact sound.told reaches asked here (Nat.le_trans (toGo_le _) enough)

end StopCalls

/-- A bell that counts its rings. A caller keeps the count at which it began to listen, and has heard
the bell as soon as the count is another one. -/
def Bell.counting : Bell where
  State := Nat × (Nat → Nat)
  silent := (0, fun _ => 0)
  listen state caller :=
    (state.1, fun other => if other = caller then state.1 else state.2 other)
  ring state := (state.1 + 1, state.2)
  ask state caller := (state.2 caller != state.1, state)

theorem Bell.Meanwhile.counted {caller : Nat} {start state : Bell.counting.State}
    (meanwhile : Bell.counting.Meanwhile caller start state) :
    state.2 caller = start.2 caller ∧ start.1 ≤ state.1 := by
  induction meanwhile with
  | none => exact ⟨rfl, Nat.le_refl _⟩
  | ring _ ih => exact ⟨ih.1, Nat.le_succ_of_le ih.2⟩
  | listen _ apart ih =>
      refine ⟨?_, ih.2⟩
      simpa [counting, Ne.symm apart] using ih.1
  | ask _ _ ih => exact ih

theorem Bell.counting_reaches : Bell.counting.ReachesAll := by
  intro caller start before after first second
  have listened := first.counted
  have rung := second.counted
  simp only [counting, bne_iff_ne] at listened rung ⊢
  simp at listened
  omega

namespace StopCalls

-- One caller looks before the flag is raised and is woken by the ring, another one looks after it.
theorem two_waits_and_two_raises :
    let requests : List Request := [.wait, .raise .timeout, .wait, .raise .interrupted]
    let scene := (Scene.start Bell.counting requests).run [0, 2, 0, 1, 3, 2, 1]
    scene.calls = [.listening, .raised true, .told .timeout, .raised false] ∧
      (Bell.counting.ask scene.state 0).1 = true ∧
      (scene.run [0, 0, 0]).calls[0]? = some (.told .timeout) := by
  intro requests scene
  have calls : scene.calls = [.listening, .raised true, .told .timeout, .raised false] := by decide
  obtain ⟨-, -, told, woken⟩ := no_wake_up_is_lost Bell.counting Bell.counting_reaches requests
    [0, 2, 0, 1, 3, 2, 1]
  obtain ⟨reason, flag, heard, ends⟩ := woken 1 (by rw [calls]; rfl)
  have same := told 2 .timeout (by rw [calls]; rfl)
  rw [flag] at same
  cases same
  have rang := heard 0 (by rw [calls]; rfl)
  have ended := ends 0 [0, 0, 0] rfl (by decide)
  refine ⟨calls, ?_, ended⟩
  with_reducible exact rang

variable {bell : Bell} {scene : Scene bell} {caller : Nat} {progress : Progress}
  {reason : StopReason}

/-- A wait on a flag, with the raise that may come to it meanwhile. The wait is the first caller. -/
def Scene.awaiting (bell : Bell) (state : bell.State) (flag : StopFlag)
    (coming : Option StopReason) : Scene bell :=
  ⟨flag, state, .arriving :: (coming.map Progress.raising).toList⟩

theorem calls_advance (here : scene.calls[caller]? = some progress) :
    (scene.advance caller).calls[caller]? =
      some (progress.step bell scene.flag scene.state caller).1 := by
  obtain ⟨inside, -⟩ := List.getElem?_eq_some_iff.mp here
  rw [advance_eq here]
  simp [inside]

inductive Finding (reason : StopReason) : Progress → Nat → Prop
  | arriving : Finding reason .arriving 2
  | looking : Finding reason .looking 1
  | told : Finding reason (.told reason) 0

-- A wait that finds the flag raised needs no bell.
theorem Finding.ends {left : Nat} (finding : Finding reason progress left)
    (raised : scene.flag.reason = some reason) (here : scene.calls[caller]? = some progress)
    {schedule : List Nat} (enough : left ≤ schedule.count caller) :
    (scene.run schedule).calls[caller]? = some (.told reason) := by
  induction schedule generalizing scene progress left with
  | nil =>
      cases finding with
      | told => exact here
      | _ => simp at enough
  | cons next rest ih =>
      have flag := flag_advance scene next raised
      by_cases own : next = caller
      · subst own
        rw [List.count_cons_self] at enough
        have now := calls_advance here
        cases finding with
        | arriving => exact ih .looking flag now (by omega)
        | looking =>
            simp only [Progress.step, raised] at now
            exact ih .told flag now (by omega)
        | told => exact ih .told flag now (by omega)
      · rw [List.count_cons_of_ne own] at enough
        exact ih finding flag ((others_advance scene own).trans here) enough

inductive Raising : Progress → Nat → Prop
  | raising (reason : StopReason) : Raising (.raising reason) 2
  | ringing : Raising .ringing 1
  | raised (first : Bool) : Raising (.raised first) 0

theorem Raising.ends {left : Nat} (raising : Raising progress left)
    (here : scene.calls[caller]? = some progress) {schedule : List Nat}
    (enough : left ≤ schedule.count caller) :
    ∃ first, (scene.run schedule).calls[caller]? = some (.raised first) := by
  induction schedule generalizing scene progress left with
  | nil =>
      cases raising with
      | raised first => exact ⟨first, here⟩
      | _ => simp at enough
  | cons next rest ih =>
      by_cases own : next = caller
      · subst own
        rw [List.count_cons_self] at enough
        have now := calls_advance here
        cases raising with
        | raising wanted =>
            simp only [Progress.step] at now
            cases first : (scene.flag.raise wanted).1 with
            | true =>
                rw [first, if_pos rfl] at now
                exact ih .ringing now (by omega)
            | false =>
                rw [first, if_neg Bool.false_ne_true] at now
                exact ih (.raised false) now (by omega)
        | ringing => exact ih (.raised true) now (by omega)
        | raised first => exact ih (.raised first) now (by omega)
      · rw [List.count_cons_of_ne own] at enough
        exact ih raising ((others_advance scene own).trans here) enough

theorem sound_awaiting (state : bell.State) {flag : StopFlag} (clear : flag.reason = none)
    (coming : Option StopReason) :
    Sound (.wait :: (coming.map Request.raise).toList) .clear
      (Scene.awaiting bell state flag coming) := by
  refine ⟨clear, trivial, ?_⟩
  intro caller progress here
  cases caller with
  | zero =>
      obtain rfl : Progress.arriving = progress := by simpa [Scene.awaiting] using here
      exact ⟨.wait, rfl, trivial⟩
  | succ caller =>
      cases coming with
      | none => simp [Scene.awaiting] at here
      | some reason =>
          cases caller with
          | succ _ => simp [Scene.awaiting] at here
          | zero =>
              obtain rfl : Progress.raising reason = progress := by
                simpa [Scene.awaiting] using here
              exact ⟨.raise reason, rfl, rfl⟩

-- A raise that is over on its own was the first one, and has rung.
theorem Sound.rung_alone {stage : Stage} {first : Bool}
    (sound : Sound [.wait, .raise reason] stage scene)
    (done : scene.calls[1]? = some (.raised first)) : stage = .rung 1 reason := by
  have raised : stage.reason? ≠ none ∨ stage = .rung 1 reason := by
    obtain ⟨request, asked, allows⟩ := sound.calls 1 _ done
    cases asked
    cases first with
    | true => exact Or.inr allows
    | false => exact Or.inl allows
  -- The only raise there is decided the stage.
  have only {winner : Nat} {other : StopReason}
      (asked : [Request.wait, .raise reason][winner]? = some (.raise other)) :
      winner = 1 ∧ other = reason := by
    cases winner with
    | zero => cases asked
    | succ winner =>
      cases winner with
      | zero =>
          cases asked
          exact ⟨rfl, rfl⟩
      | succ _ => cases asked
  have led := sound.led
  cases stage with
  | clear => simp [Stage.reason?] at raised
  | decided winner other =>
      obtain ⟨asked, calls⟩ := led
      obtain ⟨rfl, rfl⟩ := only asked
      simp [done] at calls
  | rung winner other =>
      obtain ⟨rfl, rfl⟩ := only led.1
      rfl

/-- However the steps of a wait and of a raise that comes meanwhile fall: once the raise is over, three
more steps of the wait decide. The wait is over if the flag was raised before or by that raise, with
the reason that counts; else it never is. -/
theorem awaiting_told (reaches : bell.ReachesAll) (state : bell.State) (flag : StopFlag)
    (coming : Option StopReason) {early late : List Nat} (raised : 2 ≤ early.count 1)
    (enough : 3 ≤ late.count 0) :
    ((Scene.awaiting bell state flag coming).run (early ++ late)).calls[0]? = some (.told reason) ↔
      flag.reason.or coming = some reason := by
  have arriving : (Scene.awaiting bell state flag coming).calls[0]? = some .arriving := rfl
  cases before : flag.reason with
  | some first =>
      have told : ((Scene.awaiting bell state flag coming).run (early ++ late)).calls[0]? =
          some (.told first) :=
        Finding.arriving.ends before arriving (by rw [List.count_append]; omega)
      simp [told]
  | none =>
      have start := sound_awaiting state before coming
      cases coming with
      | none =>
          refine iff_of_false ?_ (by simp)
          intro told
          obtain ⟨stage, sound⟩ := start.run (early ++ late)
          obtain ⟨request, asked, allows⟩ := sound.calls 0 _ told
          cases asked
          have led := sound.led
          cases stage with
          | clear => cases allows
          | decided winner other => cases winner <;> cases led.1
          | rung winner other => cases winner <;> cases led.1
      | some wanted =>
          obtain ⟨stage, sound⟩ := start.run early
          have raising : (Scene.awaiting bell state flag (some wanted)).calls[1]? =
              some (.raising wanted) := rfl
          obtain ⟨first, ended⟩ := (Raising.raising wanted).ends raising raised
          obtain rfl := sound.rung_alone ended
          have inside : 0 < ((Scene.awaiting bell state flag (some wanted)).run early).calls.length := by
            rw [length_run]
            simp [Scene.awaiting]
          have here := List.getElem?_eq_getElem inside
          have told : ((Scene.awaiting bell state flag (some wanted)).run (early ++ late)).calls[0]? =
              some (.told wanted) := by
            rw [Scene.run, List.foldl_append]
            exact sound.told reaches rfl here (Nat.le_trans (toGo_le _) enough)
          simp [told]

end StopCalls

end MoteCapture
