import Coop.Load
import Mathlib.Tactic.SplitIfs

/-!
# Loading, in two parts

Loading a file is finding and reading it, which leaves the kernel alone, and then putting what was
read into the task.

* `fetch`: the first part;
* `fetch_error`: it fails only if there is no such file or the volume refuses;
* **`value_load`**: the two parts, one after the other;
* `value_load_of_ne`: only a dormant task is loaded into.
-/

namespace Coop

variable {V : Type} [Volume V]

/-- Finds and reads the file a name stands for, and closes it again. -/
def fetch (config : Config) (vol : V) (name : String) : Except LoadError Contents × V :=
  match (openFirst vol name (candidates config.loadPath name)).value with
  | (.error e, vol) => (.error e, vol)
  | (.ok (handle, path), vol) =>
    let (contents, vol) := (readContents config.maxLoad vol handle path).value
    (contents, Volume.close vol handle)

theorem openFirst_error {name : String} {paths : List String} {vol : V} {e : LoadError}
    (h : (openFirst vol name paths).value.1 = .error e) :
    e = .notFound name ∨ ∃ s, e = .storage s := by
  induction paths generalizing vol with
  | nil =>
    cases h
    exact .inl rfl
  | cons path rest ih =>
    unfold openFirst at h
    rw [Logged.value_bind] at h
    cases ho : (Volume.openPath vol path).value with
    | mk result vol' =>
      rw [ho] at h
      cases result with
      | ok handle => cases h
      | error s =>
        cases s with
        | notFound => exact ih h
        | badHandle | tooManyOpen =>
          cases h
          exact .inr ⟨_, rfl⟩

theorem readBuffered_error {maxLoad : Nat} {vol : V} {handle : Handle} {path : String}
    {e : LoadError} (h : (readBuffered maxLoad vol handle path).value.1 = .error e) :
    ∃ s, e = .storage s := by
  unfold readBuffered at h
  cases hs : Volume.size vol handle with
  | error s =>
    rw [hs] at h
    cases h
    exact ⟨s, rfl⟩
  | ok size =>
    simp only [hs] at h
    by_cases hl : maxLoad < size
    · rw [if_pos hl, Logged.value_bind] at h
      cases hd : Volume.drain handle readChunk (Volume.extent vol handle + 1) vol .empty with
      | mk result vol' =>
        rw [hd] at h
        cases result with
        | error s =>
          cases h
          exact ⟨s, rfl⟩
        | ok bytes => cases h
    · rw [if_neg hl] at h
      cases hf : Volume.fill handle size size vol .empty with
      | mk result vol' =>
        rw [hf] at h
        cases result with
        | error s =>
          cases h
          exact ⟨s, rfl⟩
        | ok bytes =>
          dsimp only at h
          split_ifs at h

theorem readContents_error {maxLoad : Nat} {vol : V} {handle : Handle} {path : String}
    {e : LoadError} (h : (readContents maxLoad vol handle path).value.1 = .error e) :
    ∃ s, e = .storage s := by
  unfold readContents at h
  cases hm : Volume.mapped? vol handle with
  | none =>
    rw [hm] at h
    exact readBuffered_error h
  | some bytes =>
    simp only [hm] at h
    split_ifs at h

/-- A file is not read only if there is none, or if the volume refuses. -/
theorem fetch_error {config : Config} {vol : V} {name : String} {e : LoadError}
    (h : (fetch config vol name).1 = .error e) : e = .notFound name ∨ ∃ s, e = .storage s := by
  unfold fetch at h
  cases ho : (openFirst vol name (candidates config.loadPath name)).value with
  | mk opened vol' =>
    rw [ho] at h
    cases opened with
    | error e' =>
      cases h
      exact openFirst_error (congrArg Prod.fst ho)
    | ok found => exact .inr (readContents_error h)

namespace Kernel

variable {k : Kernel} {id : TaskId}

/-- **Loading is reading a file and putting what was read into the task.** -/
theorem value_load (hd : k.phase? id = some .dormant) (vol : V) (name : String) :
    (k.load vol id name).value =
      match fetch k.config vol name with
      | (.error e, vol) => (.error e, k, vol)
      | (.ok c, vol) => ((k.install id c).value.1, (k.install id c).value.2, vol) := by
  unfold load fetch
  rw [hd]
  dsimp only [Logged.value_bind]
  cases (openFirst vol name (candidates k.config.loadPath name)).value with
  | mk opened vol =>
    cases opened with
    | error e => rfl
    | ok found =>
      dsimp only [Logged.value_bind]
      cases readContents k.config.maxLoad vol found.1 found.2 with
      | mk read log =>
        obtain ⟨contents, vol⟩ := read
        cases contents <;> rfl

theorem value_load_of_ne (hd : k.phase? id ≠ some .dormant) (vol : V) (name : String) :
    ∃ e, (k.load vol id name).value = (.error e, k, vol) := by
  unfold load
  cases hp : k.phase? id with
  | none => exact ⟨_, rfl⟩
  | some p =>
    cases p with
    | dormant => exact absurd hp hd
    | ready | waiting | suspended => exact ⟨_, rfl⟩

end Kernel

end Coop
