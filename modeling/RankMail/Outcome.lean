import RankMail.Fault

set_option autoImplicit false

/-! # Actions

An `Action` on a state ends in one of four ways, its `Outcome`: it is done with a value, it
fails and leaves the state as far as it got, it aborts, or it hangs, waiting for a word that only
somebody else could change. The first two go on with a state; after the last two there is none.

Actions form a monad, in which every end but the first ends the whole. `Action.within` runs an
action on a part of a larger state, and `Action.attempt` catches a fault.
-/

namespace RankMail

inductive Outcome (State Value : Type) where
  | done (value : Value) (state : State)
  | failed (fault : Fault) (state : State)
  | aborted (cause : Abort)
  | hung
deriving Repr, DecidableEq

namespace Outcome

variable {State Other Value Result : Type}

instance : Inhabited (Outcome State Value) := ⟨.hung⟩

def mapState (change : State → Other) : Outcome State Value → Outcome Other Value
  | done value state => .done value (change state)
  | failed fault state => .failed fault (change state)
  | aborted cause => .aborted cause
  | hung => .hung

/-- The state an outcome goes on with. -/
def state? : Outcome State Value → Option State
  | done _ state => some state
  | failed _ state => some state
  | aborted _ => none
  | hung => none

@[simp] theorem mapState_done (change : State → Other) (value : Value) (state : State) :
    mapState change (.done value state) = .done value (change state) := rfl

@[simp] theorem mapState_failed (change : State → Other) (fault : Fault) (state : State) :
    mapState change (.failed fault state : Outcome State Value) =
      .failed fault (change state) := rfl

@[simp] theorem state?_mapState (change : State → Other) (outcome : Outcome State Value) :
    (outcome.mapState change).state? = outcome.state?.map change := by
  cases outcome <;> rfl

end Outcome

/-- Something that can be done to a state. -/
def Action (State Value : Type) := State → Outcome State Value

namespace Action

variable {State Part Value Result : Type}

def pure (value : Value) : Action State Value := fun state => .done value state

def bind (action : Action State Value) (next : Value → Action State Result) :
    Action State Result := fun state =>
  match action state with
  | .done value after => next value after
  | .failed fault after => .failed fault after
  | .aborted cause => .aborted cause
  | .hung => .hung

instance : Monad (Action State) where
  pure := Action.pure
  bind := Action.bind

def fail (fault : Fault) : Action State Value := fun state => .failed fault state

/-- Ends for good. -/
def abort (cause : Abort) : Action State Value := fun _ => .aborted cause

def hang : Action State Value := fun _ => .hung

def get : Action State State := fun state => .done state state

def set (state : State) : Action State Unit := fun _ => .done () state

def modify (change : State → State) : Action State Unit := fun state => .done () (change state)

def look (view : State → Value) : Action State Value := fun state => .done (view state) state

/-- A value, or the fault there is instead. -/
def ofFault : Except Fault Value → Action State Value
  | .ok value => .pure value
  | .error fault => .fail fault

def ofAbort : Except Abort Value → Action State Value
  | .ok value => .pure value
  | .error cause => .abort cause

/-- Runs an action on a part of the state. -/
def within (part : State → Part) (replace : Part → State → State) (action : Action Part Value) :
    Action State Value := fun state =>
  (action (part state)).mapState fun changed => replace changed state

/-- Catches a fault and goes on with what has been done so far. -/
def attempt (action : Action State Value) : Action State (Except Fault Value) := fun state =>
  match action state with
  | .done value after => .done (.ok value) after
  | .failed fault after => .done (.error fault) after
  | .aborted cause => .aborted cause
  | .hung => .hung

/-! ## The monad laws, and what each action does -/

@[simp] theorem pure_apply (value : Value) (state : State) :
    (Pure.pure value : Action State Value) state = .done value state := rfl

theorem bind_apply (action : Action State Value) (next : Value → Action State Result)
    (state : State) :
    (action >>= next) state =
      match action state with
      | .done value after => next value after
      | .failed fault after => .failed fault after
      | .aborted cause => .aborted cause
      | .hung => .hung := rfl

/-- An action that is done passes its value and state on. -/
theorem bind_done {action : Action State Value} {state after : State} {value : Value}
    (ends : action state = .done value after) (next : Value → Action State Result) :
    (action >>= next) state = next value after := by
  rw [bind_apply, ends]

@[simp] theorem get_apply (state : State) :
    (get : Action State State) state = .done state state := rfl

@[simp] theorem set_apply (state other : State) :
    (set other : Action State Unit) state = .done () other := rfl

@[simp] theorem modify_apply (change : State → State) (state : State) :
    (modify change : Action State Unit) state = .done () (change state) := rfl

@[simp] theorem look_apply (view : State → Value) (state : State) :
    (look view : Action State Value) state = .done (view state) state := rfl

@[simp] theorem fail_apply (fault : Fault) (state : State) :
    (fail fault : Action State Value) state = .failed fault state := rfl

@[simp] theorem abort_apply (cause : Abort) (state : State) :
    (abort cause : Action State Value) state = .aborted cause := rfl

@[simp] theorem hang_apply (state : State) : (hang : Action State Value) state = .hung := rfl

@[simp] theorem ofFault_ok (value : Value) (state : State) :
    (ofFault (.ok value)) state = .done value state := rfl

@[simp] theorem ofFault_error (fault : Fault) (state : State) :
    (ofFault (.error fault) : Action State Value) state = .failed fault state := rfl

@[simp] theorem ofAbort_ok (value : Value) (state : State) :
    (ofAbort (.ok value)) state = .done value state := rfl

@[simp] theorem ofAbort_error (cause : Abort) (state : State) :
    (ofAbort (.error cause) : Action State Value) state = .aborted cause := rfl

theorem within_apply (part : State → Part) (replace : Part → State → State)
    (action : Action Part Value) (state : State) :
    (within part replace action) state =
      (action (part state)).mapState fun changed => replace changed state := rfl

theorem attempt_done {action : Action State Value} {state after : State} {value : Value}
    (ends : action state = .done value after) :
    (attempt action) state = .done (.ok value) after := by
  rw [attempt, ends]

theorem attempt_failed {action : Action State Value} {state after : State} {fault : Fault}
    (ends : action state = .failed fault after) :
    (attempt action) state = .done (.error fault) after := by
  rw [attempt, ends]

instance : LawfulMonad (Action State) := by
  refine LawfulMonad.mk' (Action State) ?_ ?_ ?_
  · intro Value action
    funext state
    show (action >>= _) state = _
    rw [bind_apply]
    cases action state <;> rfl
  · intro Value Result value next
    rfl
  · intro Value Middle Result action next last
    funext state
    simp only [bind_apply]
    cases action state <;> rfl

end Action

end RankMail
