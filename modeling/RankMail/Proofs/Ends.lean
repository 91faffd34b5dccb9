import RankMail.Outcome

set_option autoImplicit false

/-! # How actions end

`Outcome.Meets` says what holds after an action, whether it is done or fails. An action that aborts
or hangs leaves no state to say anything about; whether it may do so is a parameter `stuck`. With
`stuck` false an action that meets anything is known to come to an end.

The lemmas follow an action as it is written: `meets_bind` from one part to the next,
`meets_attempt` over a caught fault, `meets_within` into a part of the state.
-/

namespace RankMail

variable {State Part Value Result : Type}

/-- What holds after an action that has ended; one that aborts or hangs has to be excused. -/
def Outcome.Meets (stuck : Prop) (post : Except Fault Value → State → Prop) :
    Outcome State Value → Prop
  | done value state => post (.ok value) state
  | failed fault state => post (.error fault) state
  | aborted _ => stuck
  | hung => stuck

def Outcome.fault? : Outcome State Value → Option Fault
  | done _ _ => none
  | failed fault _ => some fault
  | aborted _ => none
  | hung => none

/-- The value an action is done with, and the state it has come to. -/
def Outcome.done? : Outcome State Value → Option (Value × State)
  | done value state => some (value, state)
  | failed _ _ => none
  | aborted _ => none
  | hung => none

theorem Outcome.eq_of_done? {outcome : Outcome State Value} {last : Value × State}
    (found : outcome.done? = some last) : outcome = .done last.1 last.2 := by
  cases outcome with
  | done value state =>
      obtain rfl := Option.some.inj found
      rfl
  | failed fault state => cases found
  | aborted cause => cases found
  | hung => cases found

namespace Outcome

variable {stuck : Prop} {outcome : Outcome State Value}
  {post weak : Except Fault Value → State → Prop}

theorem Meets.mono (meets : outcome.Meets stuck post)
    (weaken : ∀ result state, post result state → weak result state) :
    outcome.Meets stuck weak := by
  cases outcome with
  | done value state => exact weaken _ _ meets
  | failed fault state => exact weaken _ _ meets
  | aborted cause => exact meets
  | hung => exact meets

theorem Meets.excuse {other : Prop} (meets : outcome.Meets stuck post) (covers : stuck → other) :
    outcome.Meets other post := by
  cases outcome with
  | done value state => exact meets
  | failed fault state => exact meets
  | aborted cause => exact covers meets
  | hung => exact covers meets

theorem Meets.always (meets : outcome.Meets False post)
    (weaken : ∀ result state, post result state → weak result state) :
    outcome.Meets stuck weak := (meets.excuse False.elim).mono weaken

theorem Meets.both {other : Except Fault Value → State → Prop} (one : outcome.Meets stuck post)
    (two : outcome.Meets stuck other) :
    outcome.Meets stuck fun result state => post result state ∧ other result state := by
  cases outcome with
  | done value state => exact ⟨one, two⟩
  | failed fault state => exact ⟨one, two⟩
  | aborted cause => exact one
  | hung => exact one

/-- What an action is done with is what it has ended with, if it has not failed. -/
theorem Meets.told (meets : outcome.Meets stuck post) :
    outcome.Meets stuck fun result state =>
      outcome.done? = result.toOption.map (·, state) ∧ post result state := by
  cases outcome with
  | done value state => exact ⟨rfl, meets⟩
  | failed fault state => exact ⟨rfl, meets⟩
  | aborted cause => exact meets
  | hung => exact meets

/-- An action that has ended has come to a state, unless it is excused. -/
theorem Meets.state (meets : outcome.Meets stuck post) (sound : ¬stuck) :
    ∃ state, outcome.state? = some state := by
  cases outcome with
  | done value state => exact ⟨state, rfl⟩
  | failed fault state => exact ⟨state, rfl⟩
  | aborted cause => exact absurd meets sound
  | hung => exact absurd meets sound

/-- An action that always gives a value is done. -/
theorem Meets.done {holds : Value → State → Prop}
    (meets : outcome.Meets False fun result state =>
      ∃ value, result = .ok value ∧ holds value state) :
    ∃ value state, outcome = .done value state ∧ holds value state := by
  cases outcome with
  | done value state =>
      obtain ⟨_, same, holds⟩ := meets
      obtain rfl := Except.ok.inj same
      exact ⟨value, state, rfl, holds⟩
  | failed fault state =>
      obtain ⟨_, same, _⟩ := meets
      cases same
  | aborted cause => exact meets.elim
  | hung => exact meets.elim

theorem Meets.done_unit {outcome : Outcome State Unit} {holds : State → Prop}
    (meets : outcome.Meets False fun result state => result = .ok () ∧ holds state) :
    ∃ state, outcome = .done () state ∧ holds state := by
  have gives : outcome.Meets False fun result state =>
      ∃ value, result = .ok value ∧ (fun _ => holds) value state :=
    meets.mono fun _ _ both => ⟨(), both⟩
  obtain ⟨_, state, ends, holds⟩ := gives.done
  exact ⟨state, ends, holds⟩

theorem Meets.post_of_state {holds : State → Prop} {state : State}
    (meets : outcome.Meets stuck fun _ => holds) (ends : outcome.state? = some state) :
    holds state := by
  cases outcome with
  | done value state => cases ends; exact meets
  | failed fault state => cases ends; exact meets
  | aborted cause => cases ends
  | hung => cases ends

/-- Whatever holds in every case holds after an action, if that may abort or hang. -/
theorem meets_any (holds : ∀ result state, post result state) : outcome.Meets True post := by
  cases outcome with
  | done value state => exact holds _ _
  | failed fault state => exact holds _ _
  | aborted cause => trivial
  | hung => trivial

theorem meets_done {value : Value} {state : State} :
    (done value state).Meets stuck post ↔ post (.ok value) state := Iff.rfl

theorem meets_failed {fault : Fault} {state : State} :
    (failed fault state).Meets stuck post ↔ post (.error fault) state := Iff.rfl

theorem meets_mapState {change : State → Part} {post : Except Fault Value → Part → Prop} :
    (outcome.mapState change).Meets stuck post ↔
      outcome.Meets stuck fun result state => post result (change state) := by
  cases outcome <;> exact Iff.rfl

end Outcome

namespace Action

variable {stuck : Prop} {state : State}

/-- After the first part of an action comes the second, unless the first fails. -/
theorem meets_bind {action : Action State Value} {next : Value → Action State Result}
    {post : Except Fault Result → State → Prop}
    (meets : (action state).Meets stuck fun result after =>
      match result with
      | .ok value => (next value after).Meets stuck post
      | .error fault => post (.error fault) after) :
    ((action >>= next) state).Meets stuck post := by
  rw [bind_apply]
  cases ends : action state with
  | done value after => rw [ends] at meets; exact meets
  | failed fault after => rw [ends] at meets; exact meets
  | aborted cause => rw [ends] at meets; exact meets
  | hung => rw [ends] at meets; exact meets

/-- A caught fault is a value like others. -/
theorem meets_attempt {action : Action State Value}
    {post : Except Fault (Except Fault Value) → State → Prop}
    (meets : (action state).Meets stuck fun result after => post (.ok result) after) :
    (attempt action state).Meets stuck post := by
  unfold attempt
  cases ends : action state with
  | done value after => rw [ends] at meets; exact meets
  | failed fault after => rw [ends] at meets; exact meets
  | aborted cause => rw [ends] at meets; exact meets
  | hung => rw [ends] at meets; exact meets

theorem meets_within {part : State → Part} {replace : Part → State → State}
    {action : Action Part Value} {post : Except Fault Value → State → Prop} :
    (within part replace action state).Meets stuck post ↔
      (action (part state)).Meets stuck fun result inner => post result (replace inner state) :=
  Outcome.meets_mapState

/-- What is an abort instead of a value has to be excused. -/
theorem meets_ofAbort {value : Except Abort Value} {post : Except Fault Value → State → Prop}
    (meets : (∃ found, value = .ok found ∧ post (.ok found) state) ∨
      (∃ cause, value = .error cause) ∧ stuck) :
    (ofAbort value state).Meets stuck post := by
  rcases meets with ⟨found, rfl, holds⟩ | ⟨⟨cause, rfl⟩, excused⟩
  · exact holds
  · exact excused

/-- When an action is done, so are its parts. -/
theorem done_of_bind {action : Action State Value} {next : Value → Action State Result}
    {after : State} {result : Result} (ends : (action >>= next) state = .done result after) :
    ∃ value between, action state = .done value between ∧
      next value between = .done result after := by
  rw [bind_apply] at ends
  cases first : action state with
  | done value between =>
      rw [first] at ends
      exact ⟨value, between, rfl, ends⟩
  | failed | aborted | hung =>
      rw [first] at ends
      cases ends

/-- Another second part of an action makes no difference if it comes to the same wherever the first
part is done. -/
theorem bind_of_done {action : Action State Value} {next other : Value → Action State Result}
    {after : State} {result : Result}
    (same : ∀ value between, next value between = .done result after →
      other value between = .done result after)
    (ends : (action >>= next) state = .done result after) :
    (action >>= other) state = .done result after := by
  obtain ⟨value, between, first, last⟩ := done_of_bind ends
  rw [bind_done first]
  exact same value between last

end Action

end RankMail
