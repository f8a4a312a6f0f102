import Coop.Volume

/-!
# Volumes that fail

A volume around another one that reads short, misreports sizes, or refuses now and then. It is what
the loader's clean-up is held against.
-/

namespace Coop

/-- The faults of a volume; the default has none. -/
structure Faults where
  /-- The most bytes one read brings. -/
  maxRead : Option Nat
  /-- What is added to every size; a size never falls below zero. -/
  sizeDelta : Int
  /-- The read that fails, counted from one. -/
  failRead : Option Nat
  /-- Whether asking for a size fails. -/
  failSize : Bool
  /-- The path that cannot be opened. -/
  failOpen : Option String

/-- A volume without faults. -/
def Faults.none : Faults := ⟨.none, 0, .none, false, .none⟩

/-- A volume with faults, and how many reads there were since they were set. -/
structure FaultyVolume (V : Type) where
  inner : V
  faults : Faults
  reads : Nat

namespace FaultyVolume

variable {V : Type}

/-- A volume as it is. -/
def sound (inner : V) : FaultyVolume V := ⟨inner, .none, 0⟩

/-- Sets the faults and starts counting reads anew. -/
def setFaults (v : FaultyVolume V) (faults : Faults) : FaultyVolume V := ⟨v.inner, faults, 0⟩

instance [Volume V] : Volume (FaultyVolume V) where
  openPath v path := do
    if v.faults.failOpen = some path then
      return (.error .tooManyOpen, v)
    let (result, inner) ← Volume.openPath v.inner path
    return (result, { v with inner := inner })
  size v handle :=
    if v.faults.failSize then .error .badHandle
    else (Volume.size v.inner handle).map (fun n => (Int.ofNat n + v.faults.sizeDelta).toNat)
  mapped? v handle := Volume.mapped? v.inner handle
  read v handle offset len :=
    let count := v.reads + 1
    if v.faults.failRead = some count then (.error .badHandle, { v with reads := count })
    else
      let len := match v.faults.maxRead with
        | .none => len
        | some most => min len most
      let (result, inner) := Volume.read v.inner handle offset len
      (result, { v with inner := inner, reads := count })
  close v handle := { v with inner := Volume.close v.inner handle }
  extent v handle := Volume.extent v.inner handle

end FaultyVolume

end Coop
