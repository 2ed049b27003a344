import DiscoveryGraph.Error

/-!
# Scripts of cursor steps

A cursor is a state that steps move, and a step can fail. A failed step leaves
the cursor where it got to, and a script goes on from there. A script is
described by its trace: the result and the state after each step.
-/

namespace DiscoveryGraph.Cdr

variable {step state value : Type}

/-- An action on a cursor that can fail; what it did before it failed stays
done. -/
abbrev Action (state : Type) := ExceptT Error (StateM state)

namespace Action

/-- Runs an action from a state. -/
def runFrom (action : Action state value) (s : state) : Except Error value × state :=
  action.run.run s

@[simp]
theorem runFrom_pure (x : value) (s : state) :
    runFrom (pure x) s = (.ok x, s) := rfl

@[simp]
theorem runFrom_throw (e : Error) (s : state) :
    runFrom (throw e : Action state value) s = (.error e, s) := rfl

@[simp]
theorem runFrom_get (s : state) :
    runFrom (get : Action state state) s = (.ok s, s) := rfl

@[simp]
theorem runFrom_set (s next : state) :
    runFrom (set next : Action state PUnit) s = (.ok (), next) := rfl

@[simp]
theorem runFrom_modify (f : state → state) (s : state) :
    runFrom (modify f : Action state PUnit) s = (.ok (), f s) := rfl

/-- A second action runs from where the first one got to, if that succeeded. -/
@[simp]
theorem runFrom_bind {other : Type} (first : Action state value)
    (second : value → Action state other) (s : state) :
    (first >>= second).runFrom s =
      match first.runFrom s with
      | (.ok x, next) => (second x).runFrom next
      | (.error e, next) => (.error e, next) := by
  simp only [runFrom, ExceptT.run_bind, StateT.run_bind]
  rcases (ExceptT.run first).run s with ⟨_ | _, _⟩ <;> rfl

@[simp]
theorem runFrom_map {other : Type} (f : value → other) (action : Action state value)
    (s : state) :
    (f <$> action).runFrom s = ((action.runFrom s).1.map f, (action.runFrom s).2) := by
  simp only [runFrom, ExceptT.run_map, StateT.run_map]
  rfl

@[simp]
theorem runFrom_ite (p : Prop) [Decidable p] (yes no : Action state value) (s : state) :
    (if p then yes else no).runFrom s = if p then yes.runFrom s else no.runFrom s := by
  split <;> rfl

end Action

/-- The result and the state after each step of a script. -/
def trace (perform : step → Action state value) :
    List step → state → List (Except Error value × state)
  | [], _ => []
  | first :: rest, s =>
      let outcome := (perform first).runFrom s
      outcome :: trace perform rest outcome.2

/-- The state after a whole script. -/
def after (perform : step → Action state value) (steps : List step) (s : state) :
    state :=
  steps.foldl (fun s step => ((perform step).runFrom s).2) s

section Steps

variable {perform : step → Action state value} {first : step} {s next : state}
  {result : Except Error value}

theorem trace_cons (h : (perform first).runFrom s = (result, next)) (rest : List step) :
    trace perform (first :: rest) s = (result, next) :: trace perform rest next := by
  simp only [trace, h]

theorem after_cons (h : (perform first).runFrom s = (result, next)) (rest : List step) :
    after perform (first :: rest) s = after perform rest next := by
  rw [after, List.foldl_cons, h]
  rfl

theorem after_append (done rest : List step) (s : state) :
    after perform (done ++ rest) s = after perform rest (after perform done s) :=
  List.foldl_append

end Steps

end DiscoveryGraph.Cdr
