/-!
# The journal

Every operation of the library is a pure function, so the messages it logs are part of its result.
`Logged α` is a value together with the entries logged while it was computed, oldest first.

* `Level`, `Entry`, `Entry.render`;
* `Logged` with its monad structure, and the one effect `Logged.note`;
* `value_bind`, `log_bind`: the value of a composite ignores the log, and logs concatenate;
* `value_foldlM`: the value of a loop.
-/

universe u

namespace Coop

/-- How urgent an entry is. -/
inductive Level where
  | debug
  | info
  | warn
  | error
  deriving DecidableEq, Repr

/-- The word an entry of this level starts with. -/
def Level.label : Level → String
  | .debug => "DEBUG"
  | .info => "INFO"
  | .warn => "WARN"
  | .error => "ERROR"

/-- One message of the journal. -/
structure Entry where
  level : Level
  text : String
  deriving DecidableEq, Repr

/-- An entry as one line of text. -/
def Entry.render (e : Entry) : String := e.level.label ++ " " ++ e.text

/-- A value and what was logged while it was computed, oldest entry first. -/
structure Logged (α : Type u) where
  value : α
  log : List Entry

namespace Logged

instance : Monad Logged where
  pure a := ⟨a, []⟩
  bind x f :=
    let y := f x.value
    ⟨y.value, x.log ++ y.log⟩

/-- Logs one message. -/
def note (level : Level) (text : String) : Logged Unit := ⟨(), [⟨level, text⟩]⟩

/-- Logs a message of level `debug`. -/
def debug (text : String) : Logged Unit := note .debug text

/-- Logs a message of level `info`. -/
def info (text : String) : Logged Unit := note .info text

/-- Logs a message of level `warn`. -/
def warn (text : String) : Logged Unit := note .warn text

/-- Logs a message of level `error`. -/
def error (text : String) : Logged Unit := note .error text

section Laws

variable {α β : Type u}

@[ext] theorem ext {x y : Logged α} (hv : x.value = y.value) (hl : x.log = y.log) : x = y := by
  cases x; cases y; simp_all

@[simp] theorem value_pure (a : α) : (pure a : Logged α).value = a := rfl

@[simp] theorem log_pure (a : α) : (pure a : Logged α).log = [] := rfl

@[simp] theorem value_bind (x : Logged α) (f : α → Logged β) :
    (x >>= f).value = (f x.value).value := rfl

@[simp] theorem log_bind (x : Logged α) (f : α → Logged β) :
    (x >>= f).log = x.log ++ (f x.value).log := rfl

@[simp] theorem value_map (f : α → β) (x : Logged α) : (f <$> x).value = f x.value := rfl

@[simp] theorem log_map (f : α → β) (x : Logged α) : (f <$> x).log = x.log := by
  change x.log ++ [] = x.log
  simp

theorem value_foldlM {σ : Type u} {ι : Type} (f : σ → ι → Logged σ) (xs : List ι) (b : σ) :
    (xs.foldlM f b).value = xs.foldl (fun b x => (f b x).value) b := by
  induction xs generalizing b with
  | nil => rfl
  | cons x xs ih => rw [List.foldlM_cons, value_bind, ih, List.foldl_cons]

@[simp] theorem log_note (level : Level) (text : String) :
    (note level text).log = [⟨level, text⟩] := rfl

end Laws

instance : LawfulMonad Logged := LawfulMonad.mk' Logged
  (fun x => by ext <;> simp) (fun a f => by ext <;> simp) (fun x f g => by ext <;> simp)

end Logged

end Coop
