import ChangeFeed.Sink.Message

/-!
# Line output

Every message on a line of its own. A device takes pieces of bounded size and may be full; a write
ends when all of its pieces were taken and the device was flushed.
-/

namespace ChangeFeed.Sink

/-- A byte device. -/
structure Device where
  /-- The greatest number of bytes that one call takes, if there is one. -/
  piece : Option Nat
  /-- The number of bytes that it still takes, if they are limited. -/
  room : Option Nat
  flushFails : Bool
  /-- What was taken, the last piece first. -/
  pieces : List Bytes
  deriving Inhabited

/-- Why a line was not written. -/
inductive LineFault where
  /-- The device is full. -/
  | full
  /-- The device took nothing. -/
  | stuck
  | flush
  deriving DecidableEq, Inhabited

def LineFault.message : LineFault → String
  | .full => "pipe closed"
  | .stuck => "write zero"
  | .flush => "flush failed"

namespace Device

def written (d : Device) : Bytes := d.pieces.reverse.flatten

/-- One call: the bytes that were not taken. -/
def take (d : Device) (bytes : Bytes) : Except LineFault Bytes × Device :=
  if d.room = some 0 then (.error .full, d)
  else
    let count := min bytes.length (min (d.piece.getD bytes.length) (d.room.getD bytes.length))
    if count = 0 then (.error .stuck, d)
    else (.ok (bytes.drop count),
      { d with room := d.room.map (· - count), pieces := bytes.take count :: d.pieces })

/-- Calls until all bytes were taken; the fuel is their number. -/
def takeAll : Nat → Device → Bytes → Except LineFault Unit × Device
  | _, d, [] => (.ok (), d)
  | 0, d, _ => (.error .stuck, d)
  | fuel + 1, d, bytes =>
    match d.take bytes with
    | (.ok rest, d) => takeAll fuel d rest
    | (.error e, d) => (.error e, d)

/-- Writes a payload, then a line feed, then flushes. -/
def writeLine (d : Device) (payload : Bytes) : Except LineFault Unit × Device :=
  match d.takeAll payload.length payload with
  | (.error e, d) => (.error e, d)
  | (.ok (), d) =>
    match d.takeAll 1 [0x0a] with
    | (.error e, d) => (.error e, d)
    | (.ok (), d) => (if d.flushFails then .error .flush else .ok (), d)

end Device

end ChangeFeed.Sink
