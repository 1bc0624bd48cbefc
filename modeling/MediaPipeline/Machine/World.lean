import MediaPipeline.Machine.Disk
import MediaPipeline.Text.Bytes

/-!
# Open files

What programs read from and write to: open files with the position of the next
byte, and buffers that stand for pipes. Two programs that share an open file
share its position.
-/

namespace MediaPipeline.Machine

/-- Something that is open for reading or writing. -/
inductive Stream where
  /-- A file that is written from a position on, or always at its end. -/
  | file (id : Nat) (position : Nat) (atEnd : Bool)
  /-- Bytes to be read from a position on. -/
  | source (data : ByteArray) (position : Nat)
  /-- Bytes that were written. -/
  | sink (data : ByteArray)
  | device (d : Device)

/-- A disk and everything that is open. Streams are known by their numbers. -/
structure World where
  disk : Disk
  streams : Array Stream

namespace World

/-- Open a stream. -/
def openStream (w : World) (s : Stream) : Nat × World :=
  (w.streams.size, { w with streams := w.streams.push s })

/-- Bytes with others written over them from a position on. -/
def overwrite (data : ByteArray) (position : Nat) (bytes : ByteArray) : ByteArray :=
  if position = data.size then data ++ bytes
  else
    let padding : ByteArray := ⟨Array.replicate (position - data.size) 0⟩
    data.extract 0 position ++ padding ++ bytes ++
      data.extract (position + bytes.size) data.size

/-- Write bytes to a stream; false if it is not open for writing. -/
def write (w : World) (stream : Nat) (bytes : ByteArray) : Bool × World :=
  match w.streams[stream]? with
  | some (.file id position atEnd) =>
    let start := if atEnd then ((w.disk.contentOf id).map (·.size)).getD position else position
    let disk := w.disk.change id fun data => overwrite data start bytes
    (true, ⟨disk, w.streams.set! stream (.file id (start + bytes.size) atEnd)⟩)
  | some (.sink data) => (true, { w with streams := w.streams.set! stream (.sink (data ++ bytes)) })
  | some (.device _) => (true, w)
  | _ => (false, w)

/-- Write text to a stream. -/
def print (w : World) (stream : Nat) (text : String) : World := (w.write stream text.toUTF8).2

/-- The bytes that a stream still holds, at most `limit` of them, which are read. -/
def read (w : World) (stream : Nat) (limit : Option Nat) : ByteArray × World :=
  match w.streams[stream]? with
  | some (.source data position) =>
    let stop := match limit with
      | some n => min data.size (position + n)
      | none => data.size
    (data.extract position stop,
      { w with streams := w.streams.set! stream (.source data (max position stop)) })
  | some (.device .zeros) => (⟨Array.replicate (limit.getD 0) 0⟩, w)
  | _ => (.empty, w)

/-- Read up to the end of the line, which is dropped; nothing at the end of the
stream. A last line without end is given with `false`. -/
def readLine (w : World) (stream : Nat) : Option (ByteArray × Bool) × World :=
  match w.streams[stream]? with
  | some (.source data position) =>
    if data.size ≤ position then (none, w)
    else
      let rest := data.extract position data.size
      match rest.data.findIdx? (· == 10) with
      | some n =>
        (some (rest.extract 0 n, true),
          { w with streams := w.streams.set! stream (.source data (position + n + 1)) })
      | none =>
        (some (rest, false), { w with streams := w.streams.set! stream (.source data data.size) })
  | _ => (none, w)

/-- The bytes that were written to a sink. -/
def sunk (w : World) (stream : Nat) : ByteArray :=
  match w.streams[stream]? with
  | some (.sink data) => data
  | _ => .empty

/-- Open a file for writing. -/
def openForWriting (w : World) (cwd : Place) (atEnd : Bool) (path : String) :
    Except OsError Nat × World :=
  match w.disk.openForWriting cwd atEnd path with
  | .error e => (.error e, w)
  | .ok (.file id, disk) =>
    let (n, w) := openStream { w with disk := disk } (.file id 0 atEnd)
    (.ok n, w)
  | .ok (.device d, disk) =>
    let (n, w) := openStream { w with disk := disk } (.device d)
    (.ok n, w)

/-- Open a file for reading. -/
def openForReading (w : World) (cwd : Place) (path : String) : Except OsError Nat × World :=
  match w.disk.lookup cwd true path with
  | .error e => (.error e, w)
  | .ok (_, .file _ data _) =>
    let (n, w) := w.openStream (.source data 0)
    (.ok n, w)
  | .ok (_, .device d) =>
    let (n, w) := w.openStream (.device d)
    (.ok n, w)
  | .ok (_, .directory) => (.error .isADirectory, w)
  | .ok _ => (.error .permissionDenied, w)

end World

end MediaPipeline.Machine
