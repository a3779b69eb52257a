import ComputeKernel.Run.Event
import ComputeKernel.Run.Failure

/-!
# Actions

An action works on a state and may fail on the way. Its outcome has the result, the state it has
reached and the events it reported. The state is there whether the action succeeded or not: what was
done before a failure stays done.
-/

namespace ComputeKernel

/-- What an action came to. -/
structure Outcome (σ α : Type) where
  result : Except Failure α
  state : σ
  events : List Event := []

/-- An action on a state. -/
def Action (σ α : Type) := σ → Outcome σ α

namespace Action

variable {σ τ α β κ : Type}

instance : Monad (Action σ) where
  pure a := fun s => { result := .ok a, state := s }
  bind x f := fun s =>
    match x s with
    | ⟨.error e, s, events⟩ => ⟨.error e, s, events⟩
    | ⟨.ok a, s, events⟩ =>
      let next := f a s
      { next with events := events ++ next.events }

/-- The state. -/
def get : Action σ σ := fun s => { result := .ok s, state := s }

/-- What can be read off the state. -/
def gets (f : σ → α) : Action σ α := fun s => { result := .ok (f s), state := s }

/-- What a check of the state finds. The state stays as it is. -/
def examine (f : σ → Except Failure α) : Action σ α := fun s => { result := f s, state := s }

/-- Change the state. -/
def modify (f : σ → σ) : Action σ Unit := fun s => { result := .ok (), state := f s }

/-- Fail. -/
def fail (e : Failure) : Action σ α := fun s => { result := .error e, state := s }

/-- Report an event. -/
def report (e : Event) : Action σ Unit := fun s => { result := .ok (), state := s, events := [e] }

/-- A result that was found without touching the state. -/
def ofExcept (r : Except Failure α) : Action σ α := fun s => { result := r, state := s }

/-- A step that gives a value and the next state, or an error and no change. -/
def step (f : σ → Except Failure (α × σ)) : Action σ α := fun s =>
  match f s with
  | .ok (a, next) => { result := .ok a, state := next }
  | .error e => { result := .error e, state := s }

/-- An action on a part of the state. -/
def zoom (part : σ → τ) (replace : τ → σ → σ) (a : Action τ α) : Action σ α := fun s =>
  let o := a (part s)
  { result := o.result, state := replace o.state s, events := o.events }

/-- An action for each item of a list, in order. The first failure ends it. -/
def forEach (items : List β) (f : β → Action σ Unit) : Action σ Unit :=
  match items with
  | [] => pure ()
  | item :: rest => f item >>= fun _ => forEach rest f

/-- An action on each value of a keyed list together with what lies around the list, in order of the
keys. The first failure ends it; the values after it stay as they are. -/
def onValues (f : κ → Action (α × τ) Unit) : List (κ × α) → τ → Outcome (List (κ × α) × τ) Unit
  | [], t => { result := .ok (), state := ([], t) }
  | (k, a) :: rest, t =>
    match f k (a, t) with
    | ⟨.error e, (a, t), events⟩ => ⟨.error e, ((k, a) :: rest, t), events⟩
    | ⟨.ok _, (a, t), events⟩ =>
      let o := onValues f rest t
      ⟨o.result, ((k, a) :: o.state.1, o.state.2), events ++ o.events⟩

end Action

end ComputeKernel
