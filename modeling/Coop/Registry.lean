import Coop.Task

/-!
# Names of tasks

A registry maps names to task numbers. A task may have any number of names. The names are kept in
order of their characters.

* `Registry`, `Registry.Error`;
* `Registry.lookup`, `Registry.register`, `Registry.remove`, `Registry.unbind`.
-/

namespace Coop

/-- A table of names, in ascending order. -/
structure Registry where
  names : List (String × TaskId)
  deriving DecidableEq

/-- Why a change of the registry was refused. -/
inductive Registry.Error where
  /-- The name is taken by this task. -/
  | duplicate (holder : TaskId)
  | notFound
  /-- The task has to be dormant first. -/
  | busy (id : TaskId)
  deriving DecidableEq, Repr

/-- The wording of a refusal. -/
def Registry.Error.message : Registry.Error → String
  | .duplicate id => s!"name already registered to task {id.label}"
  | .notFound => "no task registered under that name"
  | .busy id => s!"task {id.label} is not dormant"

namespace Registry

/-- No names at all. -/
def empty : Registry := ⟨[]⟩

/-- The task a name stands for. -/
def lookup (r : Registry) (name : String) : Option TaskId := r.names.lookup name

/-- The table with an entry put in at its place. -/
def insert (name : String) (id : TaskId) (names : List (String × TaskId)) :
    List (String × TaskId) :=
  names.takeWhile (fun e => e.1 < name) ++ (name, id) :: names.dropWhile (fun e => e.1 < name)

/-- Binds a free name. -/
def register (r : Registry) (name : String) (id : TaskId) : Except Error Registry :=
  match r.lookup name with
  | some holder => .error (.duplicate holder)
  | none => .ok ⟨insert name id r.names⟩

/-- Frees a name; gives the task it stood for. -/
def remove (r : Registry) (name : String) : Except Error (TaskId × Registry) :=
  match r.lookup name with
  | none => .error .notFound
  | some id => .ok (id, ⟨r.names.filter (fun e => e.1 ≠ name)⟩)

/-- Frees every name of a task. -/
def unbind (r : Registry) (id : TaskId) : Registry := ⟨r.names.filter (fun e => e.2 ≠ id)⟩

/-- Whether a task has a name. -/
def isNamed (r : Registry) (id : TaskId) : Bool := r.names.any (fun e => e.2 == id)

end Registry

end Coop
