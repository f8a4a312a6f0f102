import Coop.Text.Decimal
import Coop.Text.Pieces
import Coop.Text.Utf8

/-!
# Tunables

The board's settings, read from a text of `key=value` lines. Lines that say nothing known are
skipped, the last line for a key wins, and the result is brought into range at the end.

* `Config`, `Config.default`;
* `Config.apply`: what one assignment does;
* `Config.sanitize`: the ranges;
* `Config.parse`: the settings a text describes;
* `sanitize_default`: the defaults are in range.
-/

namespace Coop

/-- The settings of a kernel. -/
structure Config where
  /-- Milliseconds a tick stands for, and a wait sleeps between polls. -/
  quantumMs : Nat
  /-- Instructions a task may run in one turn. -/
  timeslice : Nat
  /-- Bytes of a task's private heap. -/
  heapSize : Nat
  /-- The largest file read into one buffer. -/
  maxLoad : Nat
  /-- The priority of new tasks; zero runs first. -/
  priority : UInt8
  /-- The directories relative names are looked up in, in order. -/
  loadPath : List String
  deriving DecidableEq

namespace Config

/-- The settings of a board without a configuration file. -/
def default : Config where
  quantumMs := 5
  timeslice := 32
  heapSize := 16384
  maxLoad := 8192
  priority := 128
  loadPath := ["/lib", "/bin"]

/-- How many directories of a load path are kept. -/
def maxLoadPaths : Nat := 4

/-- Whether a byte is a space, a tab or a carriage return. -/
def isMargin (b : UInt8) : Bool := b == 0x20 || b == 0x09 || b == 0x0d

/-- Drops the margin at both ends. -/
def strip (bs : List UInt8) : List UInt8 :=
  ((bs.dropWhile isMargin).reverse.dropWhile isMargin).reverse

/-- A decimal number below `2 ^ 32`. -/
def readNumber? (bs : List UInt8) : Option Nat := readDecimal? 0x100000000 digitOfByte? bs

/-- A directory without its trailing slashes. -/
def dropSlashes (s : String) : String :=
  String.ofList (s.toList.reverse.dropWhile (· == '/')).reverse

/-- The directories of a load path: the first few non-empty entries between colons that are text. -/
def readPaths (bs : List UInt8) : List String :=
  ((((pieces (· == 0x3a) bs).map strip).filter (fun p => !p.isEmpty)).take maxLoadPaths).filterMap
    (fun p => (String.fromUTF8? p.toByteArray).map dropSlashes)

/-- What the assignment of a value to a key does to the settings. Unknown keys and malformed numbers
do nothing. -/
def apply (c : Config) (key value : List UInt8) : Config :=
  match String.fromUTF8? key.toByteArray with
  | some "quantum_ms" => match readNumber? value with
    | some n => { c with quantumMs := n }
    | none => c
  | some "timeslice" => match readNumber? value with
    | some n => { c with timeslice := min n 0xffff }
    | none => c
  | some "heap_size" => match readNumber? value with
    | some n => { c with heapSize := n }
    | none => c
  | some "max_load" => match readNumber? value with
    | some n => { c with maxLoad := n }
    | none => c
  | some "priority" => match readNumber? value with
    | some n => { c with priority := UInt8.ofNat (min n 0xff) }
    | none => c
  | some "load_path" => { c with loadPath := readPaths value }
  | _ => c

/-- What a line does to the settings. -/
def line (c : Config) (raw : List UInt8) : Config :=
  let text := strip raw
  if text.head? = some 0x23 then c
  else
    match splitOnce (· == 0x3d) text with
    | none => c
    | some (key, value) => c.apply (strip key) (strip value)

/-- Brings every setting into its range. -/
def sanitize (c : Config) : Config :=
  let heap := max 1024 (min c.heapSize 262144)
  { c with
    quantumMs := max 1 (min c.quantumMs 100)
    timeslice := max 1 (min c.timeslice 1024)
    heapSize := heap
    maxLoad := min c.maxLoad heap }

/-- The settings a text describes. -/
def parse (text : ByteArray) : Config :=
  ((pieces (· == 0x0a) text.data.toList).foldl line default).sanitize

theorem sanitize_default : default.sanitize = default := by decide

theorem maxLoad_le_heapSize (text : ByteArray) : (parse text).maxLoad ≤ (parse text).heapSize := by
  simp only [parse, sanitize]
  omega

end Config

end Coop
