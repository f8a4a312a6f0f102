import Coop.Kernel
import Coop.Volume

/-!
# Loading files into tasks

A name is looked up in the directories of the load path, and the file found becomes the image of a
dormant task by one of four routes: a file in addressable memory is run where it is if it is an
image and compiled otherwise; any other file is read, and then stored if it is an image and compiled
otherwise. A file over the load limit is never taken for an image. The file is closed again on every
way out.

* `Route`, `LoadError`;
* `candidates`, `openFirst`: finding the file;
* `Contents`, `readContents`: what is found in it;
* `Kernel.compileBytes`, `Kernel.install`: putting that into the task;
* `Kernel.load`.
-/

namespace Coop

/-- How a file got into its task. -/
inductive Route where
  | mappedImage
  | mappedSource
  | bufferedImage
  | bufferedSource
  deriving DecidableEq, Repr

/-- Whether a route reads nothing. -/
def Route.isFast : Route → Bool
  | .mappedImage | .mappedSource => true
  | .bufferedImage | .bufferedSource => false

/-- Why a file could not be loaded. -/
inductive LoadError where
  | notFound (name : String)
  | storage (e : StorageError)
  | compile (e : CompileError)
  | heapExhausted (e : Exhausted)
  | busy (id : TaskId)
  | noSuchTask (id : TaskId)
  | registry (e : Registry.Error)
  deriving DecidableEq, Repr

/-- The wording of a failed load. -/
def LoadError.message : LoadError → String
  | .notFound name => name ++ ": not found"
  | .storage e => "storage: " ++ e.message
  | .compile e => "compile error: " ++ e.text
  | .heapExhausted e => e.message
  | .busy id => s!"task {id.label} is running"
  | .noSuchTask id => s!"no task {id.label}"
  | .registry e => e.message

/-- The most bytes one read of an oversized file asks for. -/
def readChunk : Nat := 512

/-! ## Finding the file -/

/-- The paths a name may stand for, in order: an absolute name only itself. -/
def candidates (loadPath : List String) (name : String) : List String :=
  if name.toList.head? = some '/' then [name]
  else loadPath.map (fun dir => dir ++ "/" ++ name) ++ [name]

section Volume

variable {V : Type} [Volume V]

/-- Opens the first path that exists; any other refusal ends the search. -/
def openFirst (vol : V) (name : String) :
    List String → Logged (Except LoadError (Handle × String) × V)
  | [] => return (.error (.notFound name), vol)
  | path :: rest => do
    let (result, vol) ← Volume.openPath vol path
    match result with
    | .ok handle => return (.ok (handle, path), vol)
    | .error .notFound => openFirst vol name rest
    | .error e => return (.error (.storage e), vol)

/-! ## Reading it -/

/-- What a file turned out to hold, and the route that goes with it. -/
structure Contents where
  route : Route
  bytes : ByteArray
  deriving DecidableEq

/-- Reads an open file that does not lie in addressable memory. -/
def readBuffered (maxLoad : Nat) (vol : V) (handle : Handle) (path : String) :
    Logged (Except LoadError Contents × V) := do
  match Volume.size vol handle with
  | .error e => return (.error (.storage e), vol)
  | .ok size =>
    if maxLoad < size then
      Logged.info s!"load {path}: {size} bytes over {maxLoad}, compiling as source"
      match Volume.drain handle readChunk (Volume.extent vol handle + 1) vol .empty with
      | (.error e, vol) => return (.error (.storage e), vol)
      | (.ok bytes, vol) => return (.ok ⟨.bufferedSource, bytes⟩, vol)
    else
      match Volume.fill handle size size vol .empty with
      | (.error e, vol) => return (.error (.storage e), vol)
      | (.ok bytes, vol) =>
        if Image.isImage bytes then
          Logged.info s!"load {path}: image read ({bytes.size} bytes)"
          return (.ok ⟨.bufferedImage, bytes⟩, vol)
        else
          Logged.info s!"load {path}: compiling {bytes.size} bytes of source"
          return (.ok ⟨.bufferedSource, bytes⟩, vol)

/-- Finds out what an open file holds. -/
def readContents (maxLoad : Nat) (vol : V) (handle : Handle) (path : String) :
    Logged (Except LoadError Contents × V) := do
  match Volume.mapped? vol handle with
  | some bytes =>
    if Image.isImage bytes then
      Logged.info s!"load {path}: image mapped at 0x{hexPadded 8 0}"
      return (.ok ⟨.mappedImage, bytes⟩, vol)
    else
      Logged.info s!"load {path}: compiling mapped source"
      return (.ok ⟨.mappedSource, bytes⟩, vol)
  | none => readBuffered maxLoad vol handle path

end Volume

/-! ## Putting it into the task -/

namespace Kernel

/-- Compiles a script given as bytes. -/
def compileBytes (k : Kernel) (id : TaskId) (bytes : ByteArray) :
    Logged (Except LoadError Unit × Kernel) := do
  match String.fromUTF8? bytes with
  | none => return (.error (.compile ⟨0, .notText⟩), k)
  | some source =>
    let (ok, k) ← k.compile id source
    return (if ok then .ok () else .error (.compile (k.compileError id)), k)

/-- Puts the contents of a file into a task. -/
def install (k : Kernel) (id : TaskId) (c : Contents) :
    Logged (Except LoadError Route × Kernel) := do
  match c.route, k.task? id with
  | .mappedImage, some t => return (.ok c.route, k.put (t.mapImage c.bytes))
  | .bufferedImage, some t =>
    match t.loadImage c.bytes with
    | (.ok (), t) => return (.ok c.route, k.put t)
    | (.error e, t) => return (.error (.heapExhausted e), k.put t)
  | .mappedImage, none | .bufferedImage, none => return (.error (.noSuchTask id), k)
  | .mappedSource, _ | .bufferedSource, _ =>
    let (result, k) ← k.compileBytes id c.bytes
    return (result.map (fun _ => c.route), k)

/-- Puts the file a name stands for into a dormant task, without launching it. -/
def load {V : Type} [Volume V] (k : Kernel) (vol : V) (id : TaskId) (name : String) :
    Logged (Except LoadError Route × Kernel × V) := do
  match k.phase? id with
  | none => return (.error (.noSuchTask id), k, vol)
  | some .dormant =>
    let (opened, vol) ← openFirst vol name (candidates k.config.loadPath name)
    match opened with
    | .error e => return (.error e, k, vol)
    | .ok (handle, path) =>
      let (contents, vol) ← readContents k.config.maxLoad vol handle path
      let vol := Volume.close vol handle
      match contents with
      | .error e => return (.error e, k, vol)
      | .ok c =>
        let (result, k) ← k.install id c
        return (result, k, vol)
  | some _ => return (.error (.busy id), k, vol)

end Kernel

end Coop
