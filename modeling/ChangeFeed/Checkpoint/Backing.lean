import ChangeFeed.Checkpoint.Store

/-!
# Where checkpoints are kept

Checkpoints are kept in memory or on a disk. Either store may fail to read or to write; what fails
changes nothing. `Backing.next` is what a use leaves behind: writes through the store, writes by
others, failures that come and go, and the closing and opening of a store on a disk.
-/

namespace ChangeFeed.Checkpoint

/-- A store of checkpoints. -/
inductive Backing where
  | memory (s : Flaky)
  /-- A store on a disk, and why its reads and its writes fail, if they do. -/
  | disk (s : Durable) (readFault writeFault : Option String)
  deriving Inhabited

/-- The kinds of stores. -/
inductive Medium where
  | memory | disk
  deriving DecidableEq, Inhabited

namespace Backing

/-- A store of a kind that nothing was written to. -/
def fresh : Medium → Backing
  | .memory => .memory ⟨.empty, false, false⟩
  | .disk => .disk .fresh none none

def get : Backing → String → Except Error (Option Bytes)
  | .memory s, key => s.get key
  | .disk _ (some fault) _, _ => .error (.embedded fault)
  | .disk s none _, key => .ok (s.live.get? key)

def put : Backing → String → Bytes → Except Error Unit × Backing
  | .memory s, key, value => ((s.put key value).1, .memory (s.put key value).2)
  | .disk s readFault (some fault), _, _ =>
    (.error (.embedded fault), .disk s readFault (some fault))
  | .disk s readFault none, key, value => (.ok (), .disk (s.put key value) readFault none)

/-- Reads the watermark of a key. -/
def restore (b : Backing) (key : String) : Except Error Nat := (b.get key).map Store.watermarkOf

def persist (b : Backing) (key : String) (watermark : UInt64) : Except Error Unit × Backing :=
  b.put key (Watermark.encode watermark.toNat)

/-- A write by someone else. -/
def plant : Backing → String → Bytes → Backing
  | .memory s, key, value => .memory { s with store := s.store.put key value }
  | .disk s readFault writeFault, key, value => .disk (s.put key value) readFault writeFault

/-- From now on reads and writes fail as told. -/
def fail : Backing → Option String → Option String → Backing
  | .memory s, reads, writes => .memory { s with readsFail := reads.isSome, writesFail := writes.isSome }
  | .disk s _ _, reads, writes => .disk s reads writes

/-- Closes a store on a disk and opens it again; what is in memory stays there. -/
def reopen : Backing → Backing
  | .memory s => .memory s
  | .disk s readFault writeFault => .disk s.reopen readFault writeFault

end Backing

/-- What is done with a store. -/
inductive Use where
  | persist (key : String) (watermark : UInt64)
  | restore (key : String)
  /-- Bytes that need not be a watermark. -/
  | put (key : String) (value : Bytes)
  /-- The same by someone else. -/
  | plant (key : String) (value : Bytes)
  | fail (reads writes : Option String)
  | reopen
  deriving Inhabited

namespace Backing

def next (b : Backing) : Use → Backing
  | .persist key watermark => (b.persist key watermark).2
  | .restore _ => b
  | .put key value => (b.put key value).2
  | .plant key value => b.plant key value
  | .fail reads writes => b.fail reads writes
  | .reopen => b.reopen

def after (b : Backing) (uses : List Use) : Backing := uses.foldl next b

end Backing

end ChangeFeed.Checkpoint
