import ChangeFeed.Error
import ChangeFeed.Checkpoint.Watermark

/-!
# Checkpoint stores

A store maps keys to byte strings. `Store.restore` reads a watermark out of it: a key that was never
written and a value that is no watermark restore as 0, while a read that fails is an error and never
a number. `Flaky` is a store whose reads or writes may fail, and `Durable` one on a disk.
-/

namespace ChangeFeed.Checkpoint

/-- The values of a store by key. -/
structure Store where
  entries : List (String × Bytes)
  deriving DecidableEq, Inhabited

namespace Store

def empty : Store := ⟨[]⟩

def get? (store : Store) (key : String) : Option Bytes := store.entries.lookup key

/-- Replaces the value of a key, or appends it. -/
def set (key : String) (value : Bytes) : List (String × Bytes) → List (String × Bytes)
  | [] => [(key, value)]
  | (k, v) :: rest => if k = key then (key, value) :: rest else (k, v) :: set key value rest

/-- The store after writing a key. -/
def put (store : Store) (key : String) (value : Bytes) : Store := ⟨set key value store.entries⟩

theorem lookup_set_self (key : String) (value : Bytes) (entries : List (String × Bytes)) :
    (set key value entries).lookup key = some value := by
  induction entries with
  | nil => simp [set]
  | cons entry rest ih =>
    obtain ⟨k, v⟩ := entry
    by_cases h : k = key
    · simp [set, h]
    · have h' : (key == k) = false := by simpa using Ne.symm h
      simp [set, h, List.lookup_cons, ih, h']

theorem lookup_set_of_ne {key other : String} (h : other ≠ key) (value : Bytes)
    (entries : List (String × Bytes)) :
    (set key value entries).lookup other = entries.lookup other := by
  induction entries with
  | nil => simp [set, h]
  | cons entry rest ih =>
    obtain ⟨k, v⟩ := entry
    by_cases h' : k = key
    · subst h'
      have h'' : (other == k) = false := by simpa using h
      simp [set, List.lookup_cons, h'']
    · simp [set, h', List.lookup_cons, ih]

@[simp] theorem get?_put_self (store : Store) (key : String) (value : Bytes) :
    (store.put key value).get? key = some value :=
  lookup_set_self key value store.entries

theorem get?_put_of_ne {key other : String} (h : other ≠ key) (store : Store) (value : Bytes) :
    (store.put key value).get? other = store.get? other :=
  lookup_set_of_ne h value store.entries

def size (store : Store) : Nat := store.entries.length

/-- The watermark that a value restores to. -/
def watermarkOf (raw : Option Bytes) : Nat := (raw.bind Watermark.decode).getD 0

def restore (store : Store) (key : String) : Nat := watermarkOf (store.get? key)

/-- The store after a watermark was written. -/
def persist (store : Store) (key : String) (watermark : Nat) : Store :=
  store.put key (Watermark.encode watermark)

end Store

/-- A store whose reads or writes may fail; a failed write changes nothing. -/
structure Flaky where
  store : Store
  readsFail : Bool
  writesFail : Bool
  deriving Inhabited

namespace Flaky

def get (s : Flaky) (key : String) : Except Error (Option Bytes) :=
  if s.readsFail then .error (.checkpoint key "store unreachable") else .ok (s.store.get? key)

def put (s : Flaky) (key : String) (value : Bytes) : Except Error Unit × Flaky :=
  if s.writesFail then (.error (.checkpoint key "store unavailable"), s)
  else (.ok (), { s with store := s.store.put key value })

/-- Reads the watermark of a key. -/
def restore (s : Flaky) (key : String) : Except Error Nat :=
  (s.get key).map Store.watermarkOf

def persist (s : Flaky) (key : String) (watermark : Nat) : Except Error Unit × Flaky :=
  s.put key (Watermark.encode watermark)

end Flaky

/-- A store on a disk: what is written is on the disk before the write ends. -/
structure Durable where
  live : Store
  disk : Store
  deriving Inhabited

namespace Durable

/-- A store on an empty disk. -/
def fresh : Durable := ⟨.empty, .empty⟩

/-- Brings everything written to the disk. -/
def flush (s : Durable) : Durable := { s with disk := s.live }

def put (s : Durable) (key : String) (value : Bytes) : Durable :=
  flush { s with live := s.live.put key value }

/-- Closes the store and opens what is on the disk. -/
def reopen (s : Durable) : Durable := { s with live := s.disk }

/-- A write survives the closing of the store. -/
@[simp] theorem reopen_put (s : Durable) (key : String) (value : Bytes) :
    (s.put key value).reopen = s.put key value := rfl

def text (s : Durable) : String :=
  "SledCheckpointStore \x7b tree_len: " ++ toString s.live.size ++ " \x7d"

end Durable

/-- Shows the key of a checkpoint. -/
def keyText (key : String) : String := "Checkpointer \x7b key: " ++ Text.quoted key ++ " \x7d"

end ChangeFeed.Checkpoint
