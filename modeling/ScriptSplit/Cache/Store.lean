import ScriptSplit.Cache.Entry
import ScriptSplit.Disk.Tree
import ScriptSplit.Hash.Blake3
import ScriptSplit.Number.Word64

/-!
# The cache

Reports are kept in a directory, one file a key, and are found again only for the same content.

* `Cache.create`: makes the directory.
* `Cache.lookup`, `Cache.store`, `Cache.invalidate`, `Cache.tryClear`: the operations.
* `Cache.stats`: the number, the size and the times of the entries.
-/

namespace ScriptSplit

/-- A directory of entries. A cache that is switched off keeps nothing. -/
structure Cache where
  enabled : Bool
  dir : String
  /-- The age beyond which entries do not count, in hours; zero means none. -/
  ttlHours : Int
  deriving DecidableEq, Repr

namespace Cache

/-- The cache that keeps nothing. -/
def off : Cache := ⟨false, "", 0⟩

/-- A cache in a directory, which is made. -/
def create (d : Disk) (dir : String) (ttlHours : Int) : Except PathError (Cache × Disk) :=
  (d.mkdirAll dir).map fun d => (⟨true, dir, ttlHours⟩, d)

/-- The age beyond which entries do not count, as a signed number of 64 bits. -/
def ttl (c : Cache) : Int := Word64.wrap (c.ttlHours * 3600000000000)

/-- The time from one moment to a later one, within what can be measured. -/
def span (start now : Int) : Int := Word64.clamp (now - start)

/-- An entry of the given moment is too old. -/
def isExpired (c : Cache) (now : Int) (timestamp : Moment) : Bool :=
  0 < c.ttl && c.ttl < span timestamp.nanos now

/-- The file of a key. -/
def keyPath (c : Cache) (key : String) : String :=
  Path.join c.dir (Hash.Blake3.hex (Bytes.ofString key) ++ ".json")

/-- The data of a key, if they came from the same content and are not too old. Entries that are too old
are removed. -/
def lookup (c : Cache) (d : Disk) (now : Int) (key : String) (content : Bytes) : Option Bytes × Disk :=
  if !c.enabled then (none, d)
  else
    match d.read (c.keyPath key) with
    | .error _ => (none, d)
    | .ok raw =>
      match Entry.ofBytes? raw with
      | none => (none, d)
      | some e =>
        if e.key ≠ key || e.hash ≠ Hash.Blake3.hex content then (none, d)
        else if c.isExpired now e.timestamp then
          (none, match d.remove (c.keyPath key) with
            | .ok d => d
            | .error _ => d)
        else (some e.data, d)

/-- Why nothing is stored. -/
inductive StoreError where
  /-- The data are no JSON text, or the moment has no text. -/
  | notJson
  | path (cause : PathError)
  deriving DecidableEq, Repr

/-- The text of an error. -/
def StoreError.message : StoreError → String
  | notJson => "not JSON"
  | path cause => cause.message

/-- The text of a new entry. -/
def entryText? (now : Int) (key : String) (content data : Bytes) : Option Bytes := do
  let timestamp ← Moment.ofNanos? now
  Entry.bytes? ⟨key, Hash.Blake3.hex content, timestamp, data⟩

/-- Keeps data under a key, in place of older ones. The entry is written to a new file in the directory,
which then takes the place of the file of the key. -/
def store (c : Cache) (d : Disk) (now : Int) (key : String) (content data : Bytes) : Except StoreError Disk :=
  if !c.enabled then .ok d
  else
    match entryText? now key content data with
    | none => .error .notJson
    | some raw =>
      match d.find .follow c.dir with
      | .error e => .error (.path ⟨"open", c.dir ++ "/.entry", e⟩)
      | .ok (.dir _) =>
        match d.replace (c.keyPath key) raw with
        | .ok d => .ok d
        | .error e => .error (.path e)
      | .ok _ => .error (.path ⟨"open", c.dir ++ "/.entry", .notDirectory⟩)

/-- Removes the entry of a key, if there is one. -/
def invalidate (c : Cache) (d : Disk) (key : String) : Except PathError Disk :=
  if !c.enabled then .ok d
  else
    match d.remove (c.keyPath key) with
    | .ok d => .ok d
    | .error e => if e.cause = .noEntry then .ok d else .error e

/-- Removes the directory with all entries. -/
def tryClear (c : Cache) (d : Disk) : Except PathError Disk :=
  if c.enabled then d.tryRemoveAll c.dir else .ok d

/-- What is left when the directory is removed. -/
def clear (c : Cache) (d : Disk) : Disk :=
  match c.tryClear d with
  | .ok d => d
  | .error _ => d

/-- The number of entries, their size in bytes and the times at which they were made. -/
structure Stats where
  entries : Nat
  totalSize : Nat
  /-- In nanoseconds; files that are no entries have none. -/
  times : List Int
  deriving DecidableEq, Repr

/-- No entries. -/
def Stats.none : Stats := ⟨0, 0, []⟩

/-- Adds one more entry file. -/
def Stats.add (s : Stats) (content : Bytes) : Stats :=
  let time := (Entry.ofBytes? content).map (·.timestamp.nanos)
  ⟨s.entries + 1, s.totalSize + content.length, s.times ++ time.toList⟩

mutual

/-- The entries at and below a node. -/
def countNode (name : String) (s : Stats) : Node → Stats
  | .file content => if Path.ext name = ".json" then s.add content else s
  | .link target => if Path.ext name = ".json" then s.add (Bytes.ofString target) else s
  | .dir entries => countEntries s entries

/-- The entries below a directory. -/
def countEntries (s : Stats) : List (String × Node) → Stats
  | [] => s
  | (name, n) :: rest => countEntries (countNode name s n) rest

end

/-- The number, the size and the times of the entries. -/
def stats (c : Cache) (d : Disk) : Stats :=
  if !c.enabled then .none
  else
    match d.find .keep c.dir with
    | .ok n => countNode (Path.base c.dir) .none n
    | .error _ => .none

/-- The age of the oldest and of the newest entry, in nanoseconds. -/
def Stats.ages (s : Stats) (now : Int) : Int × Int :=
  let ages := s.times.map (now - ·)
  (ages.foldl max 0, ages.foldl min (ages.headD 0))

end Cache

end ScriptSplit
