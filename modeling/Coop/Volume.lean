import Coop.Bytes
import Coop.Journal

/-!
# Volumes

Where files come from. A volume opens a path and gives a handle; through the handle it tells the
size of the file, lends its bytes if they lie in addressable memory, and reads stretches of it.

* `StorageError`, `Handle`;
* `Volume`: the operations of a volume;
* `Volume.fill`, `Volume.drain`: reading up to a size, and up to the end.
-/

namespace Coop

/-- Why a volume refused. -/
inductive StorageError where
  | notFound
  | badHandle
  | tooManyOpen
  deriving DecidableEq, Repr

/-- The wording of a refusal. -/
def StorageError.message : StorageError → String
  | .notFound => "no such file"
  | .badHandle => "stale file handle"
  | .tooManyOpen => "too many open files"

/-- An open file of a volume. -/
abbrev Handle := Nat

/-- The operations of a volume. -/
class Volume (V : Type) where
  /-- Opens a path. -/
  openPath : V → String → Logged (Except StorageError Handle × V)
  /-- The size of an open file. -/
  size : V → Handle → Except StorageError Nat
  /-- The bytes of an open file, if they lie in addressable memory. -/
  mapped? : V → Handle → Option ByteArray
  /-- At most the given number of bytes from an offset on. -/
  read : V → Handle → (offset len : Nat) → Except StorageError ByteArray × V
  /-- Closes an open file. -/
  close : V → Handle → V
  /-- An offset from which on reading an open file brings nothing. -/
  extent : V → Handle → Nat

namespace Volume

variable {V : Type} [Volume V]

/-- Reads on until `size` bytes are there or a read brings nothing, at most `reads` times. -/
def fill (handle : Handle) (size : Nat) :
    (reads : Nat) → V → ByteArray → Except StorageError ByteArray × V
  | 0, vol, done => (.ok done, vol)
  | reads + 1, vol, done =>
    if size ≤ done.size then (.ok done, vol)
    else
      match read vol handle done.size (size - done.size) with
      | (.error e, vol) => (.error e, vol)
      | (.ok bytes, vol) =>
        if bytes.isEmpty then (.ok done, vol) else fill handle size reads vol (done ++ bytes)

/-- Reads on in chunks until a read brings nothing, at most `reads` times. -/
def drain (handle : Handle) (chunk : Nat) :
    (reads : Nat) → V → ByteArray → Except StorageError ByteArray × V
  | 0, vol, done => (.ok done, vol)
  | reads + 1, vol, done =>
    match read vol handle done.size chunk with
    | (.error e, vol) => (.error e, vol)
    | (.ok bytes, vol) =>
      if bytes.isEmpty then (.ok done, vol) else drain handle chunk reads vol (done ++ bytes)

end Volume

end Coop
