import Oathgate.LibRes
import Oathgate.LibRows
/-!
# DbBase — the tables of the tool and its transactions (`oathgate`: `database.rs`, `database/migration.rs`)

A table is the list of its rows, and a row the value its model type is read from.  `transaction` runs a body on the
tables and keeps its changes only when the body returns and the commit goes through.
-/
namespace Oathgate

open Lib

abbrev Uuid := BitVec 128

/-- A command's error: one of its own texts, a constraint of the schema, or a failure of SQLite, of a file or of a
system call. -/
inductive AppError where
  | msg (text : String)
  | unique (column : String)
  | database
  | io
  | errno
  deriving DecidableEq, Repr

/-- A kernel and its row in `kernels`. -/
structure Kernel where
  id : Uuid
  hash : String
  name : String
  version : String
  default : Bool
  deriving DecidableEq, Repr

inductive DiskFormat where
  | raw
  | qcow2
  deriving DecidableEq, Repr

/-- A disk image and its row in `images`. -/
structure DiskImage where
  id : Uuid
  hash : String
  name : String
  format : DiskFormat
  root : Option (BitVec 8)
  deriving DecidableEq, Repr

/-- A row of `devices`. -/
structure DeviceRow where
  id : Uuid
  pid : Option (BitVec 32)
  name : String
  deriving DecidableEq, Repr

/-- A row of `shards`. -/
structure ShardRow where
  id : Uuid
  name : String
  pid : Option (BitVec 32)
  cid : BitVec 32
  cpu : String
  memory : BitVec 16
  kernel : Uuid
  bootdisk : Uuid
  deriving DecidableEq, Repr

structure Database where
  devices : List DeviceRow
  kernels : List Kernel
  images : List DiskImage
  shards : List ShardRow
  deriving DecidableEq, Repr

namespace Database

variable {α : Type}

/-- The tables of `version_000`. -/
def empty : Database := ⟨[], [], [], []⟩

/-- `Database::transaction`.  With `commits` false SQLite fails somewhere between `BEGIN` and the end of `COMMIT`. -/
def transaction (commits : Bool) (f : Database → Res AppError (α × Database)) (db : Database) :
    Res AppError α × Database :=
  match f db with
  | .ok (a, db') => if commits then (.ok a, db') else (.err .database, db)
  | .err e => (.err e, db)
  | .panic p => (.panic p, db)

/-- **A transaction that gives a value committed what its body did**; any other leaves the tables as they were. -/
theorem transaction_cases (commits : Bool) (f : Database → Res AppError (α × Database)) (db : Database) :
    (∃ a db', f db = .ok (a, db') ∧ db.transaction commits f = (.ok a, db')) ∨
      (∀ a, (db.transaction commits f).1 ≠ .ok a) ∧ (db.transaction commits f).2 = db := by
  unfold transaction
  cases hf : f db with
  | err e => exact Or.inr ⟨fun _ h => (by cases h), rfl⟩
  | panic p => exact Or.inr ⟨fun _ h => (by cases h), rfl⟩
  | ok x =>
    obtain ⟨a, db'⟩ := x
    cases commits with
    | true => exact Or.inl ⟨a, db', rfl, rfl⟩
    | false => exact Or.inr ⟨fun _ h => (by cases h), rfl⟩

/-- An upsert on the id into a table whose hashes are `UNIQUE`.  The row it replaces, if any, may have the hash. -/
def upsertUnique {R : Type} (id : R → Uuid) (hash : R → String) (column : String) (rows : List R) (r : R) :
    Res AppError (List R) :=
  if rows.any (fun x => decide (id x ≠ id r ∧ hash x = hash r)) then .err (.unique column)
  else .ok (upsert id rows r)

theorem upsertUnique_ok {R : Type} {id : R → Uuid} {hash : R → String} {column : String} {rows rows' : List R} {r : R}
    (h : upsertUnique id hash column rows r = .ok rows') : rows' = upsert id rows r := by
  unfold upsertUnique at h
  split at h
  · cases h
  · exact (Res.ok.inj h).symm

end Database
end Oathgate
