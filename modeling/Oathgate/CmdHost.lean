import Oathgate.DbBase
import Oathgate.LibBuf
import Oathgate.LibFiles
/-!
# CmdHost — what a command works on (`oathgate`: `main.rs`, `cmd.rs`, `process.rs`, `fork.rs`)

A command reads and changes the tables, the files and the processes it started earlier.  What it finds besides them
(answers of the user, of SQLite, of the disk and of the kernel) stands in an `Env`, one for each command.
-/
namespace Oathgate

open Lib

abbrev Pid := BitVec 32

/-- What `kill` returns. -/
inductive Kill where
  | ok
  | esrch
  | eperm
  | other
  deriving DecidableEq, Repr

/-- The kernel's side of `kill`: which live processes the user may not signal, and what stands behind the pids of
processes that are gone, which other programs may have by now. -/
structure Os where
  denied : Pid → Bool
  foreign : Pid → Kill

/-- One turn of the loop of `process::stop`: who died before it, and whether its signal could be sent. -/
structure Turn where
  deaths : List Pid
  os : Os
  sent : Bool

/-- A process that `Forker::fork` started, and whether the parent could read its pid. -/
structure Fork where
  pid : Pid
  told : Bool

structure Env where
  /-- SQLite answers the queries. -/
  read : Bool
  /-- SQLite carries the upsert through. -/
  saved : Bool
  /-- SQLite carries the deletion through. -/
  deleted : Bool
  /-- The next id, context id and name of the generators. -/
  id : Uuid
  cid : BitVec 32
  name : Option String
  /-- What the user answers to a prompt. -/
  answers : String → Res AppError Bool
  /-- The configuration could be read, and the bridge or the hypervisor and the subscriber be built. -/
  loaded : Bool
  built : Bool
  subscriber : Bool
  fork : Option Fork
  os : Os
  turns : Nat → Turn
  /-- Where the disk lets an entry be made or opened. -/
  disk : Path → Bool
  copyFails : Option Nat
  removeFails : Option (Path → Bool)

/-- `State`: the options of the tool. -/
structure State where
  base : Path
  skipConfirm : Bool

/-- **What commands share**: the tables, the files, and the processes the tool started that are still alive. -/
structure Host where
  db : Database
  files : Files Byte
  alive : List Pid

/-- The name that was given, or the next one of the generator: `generate_name` unwraps what it yields. -/
def Env.nameOr (env : Env) (name : Option String) : Res AppError String :=
  match name.or env.name with
  | some name => .ok name
  | none => .panic .unwrap

def confirm (st : State) (env : Env) (prompt : String) : Res AppError Unit :=
  if st.skipConfirm then .ok ()
  else do
    let yes ← env.answers prompt
    if yes then .ok () else .err (.msg "user cancelled operation")

/-- `State::subdir`, which makes the directory when nothing stands there and does not look at the outcome. -/
def State.subdir (st : State) (disk : Path → Bool) (name : String) (fs : Files Byte) : Path × Files Byte :=
  let dir := st.base.join name
  if (fs dir.resolve).isSome then (dir, fs) else (dir, (fs.createDirAll disk dir).2)

theorem State.subdir_fst (st : State) (disk : Path → Bool) (name : String) (fs : Files Byte) :
    (st.subdir disk name fs).1 = st.base.join name := by
  unfold subdir
  simp only
  split
  · rfl
  · rfl

/-- **Asking for a directory of the tool only adds directories.** -/
theorem State.adds_subdir (st : State) (disk : Path → Bool) (name : String) (fs : Files Byte) :
    Files.Adds (st.base.join name).resolve fs (st.subdir disk name fs).2 := by
  unfold subdir
  simp only
  split
  · exact fun _ => Or.inl rfl
  · exact Files.adds_createDirAll disk _ fs

theorem State.subdir_length {st : State} {sub : String} (h : Path.Plain sub) :
    (st.base.join sub).resolve.length = st.base.resolve.length + 1 := by
  rw [Path.join_of_plain h, Path.resolve_snoc h.2.2.2, List.length_append, List.length_singleton]

/-! ## Processes -/

inductive ProcessState where
  | running (pid : Pid)
  | permissionDenied (pid : Pid)
  | dead (pid : Pid)
  | stopped
  deriving DecidableEq, Repr

def ProcessState.optional : ProcessState → Option Pid
  | .running pid => some pid
  | .permissionDenied pid => some pid
  | .dead _ => none
  | .stopped => none

def ProcessState.isRunning : ProcessState → Bool
  | .running _ => true
  | _ => false

/-- `kill` with no signal. -/
def kill (os : Os) (alive : List Pid) (pid : Pid) : Kill :=
  if pid ∈ alive then if os.denied pid then .eperm else .ok else os.foreign pid

namespace Process

def check (os : Os) (alive : List Pid) (pid : Pid) : Res AppError ProcessState :=
  match kill os alive pid with
  | .ok => .ok (.running pid)
  | .esrch => .ok (.dead pid)
  | .eperm => .ok (.permissionDenied pid)
  | .other => .err .errno

/-- The check at the head of the loop of `process::stop`: the outcome it ends with, or none to go on. -/
def stopCheck (os : Os) (alive : List Pid) (pid : Pid) : Option (Res AppError Unit) :=
  match check os alive pid with
  | .err e => some (.err e)
  | .panic p => some (.panic p)
  | .ok (.dead _) => some (.ok ())
  | .ok .stopped => some (.ok ())
  | .ok (.permissionDenied _) => some (.err (.msg "permission denied"))
  | .ok (.running _) => none

/-- The loop of `process::stop` from `i = 4 - left` on: a check, then `SIGTERM`, or `SIGKILL` the last time. -/
def stopFrom (turns : Nat → Turn) (pid : Pid) (left : Nat) (alive : List Pid) : Res AppError Unit × List Pid :=
  let turn := turns (4 - left)
  let alive := alive.filter (fun p => decide (p ∉ turn.deaths))
  match stopCheck turn.os alive pid with
  | some r => (r, alive)
  | none =>
    match left with
    | 0 => (.err (.msg "process did not respond to sigterm or sigkill"), alive)
    | left + 1 => if turn.sent then stopFrom turns pid left alive else (.err .errno, alive)

def stop (turns : Nat → Turn) (pid : Pid) (alive : List Pid) : Res AppError Unit × List Pid :=
  stopFrom turns pid 4 alive

/-- **A live process is never found dead.** -/
theorem check_of_alive {os : Os} {alive : List Pid} {pid : Pid} (h : pid ∈ alive) :
    check os alive pid = .ok (if os.denied pid then .permissionDenied pid else .running pid) := by
  unfold check kill
  rw [if_pos h]
  cases os.denied pid with
  | true => rfl
  | false => rfl

theorem stopCheck_ok {os : Os} {alive : List Pid} {pid : Pid} (h : stopCheck os alive pid = some (.ok ())) :
    pid ∉ alive := by
  intro hpid
  unfold stopCheck at h
  rw [check_of_alive hpid] at h
  cases hden : os.denied pid with
  | true => simp [hden] at h
  | false => simp [hden] at h

/-- **Stopping only ends processes, and the one that it reports stopped is gone.** -/
theorem stop_spec (turns : Nat → Turn) (pid : Pid) (alive : List Pid) :
    (∀ p ∈ (stop turns pid alive).2, p ∈ alive) ∧
    ((stop turns pid alive).1 = .ok () → pid ∉ (stop turns pid alive).2) := by
  suffices h : ∀ left alive, (∀ p ∈ (stopFrom turns pid left alive).2, p ∈ alive) ∧
      ((stopFrom turns pid left alive).1 = .ok () → pid ∉ (stopFrom turns pid left alive).2) from h 4 alive
  intro left
  induction left with
  | zero =>
    intro alive
    unfold stopFrom
    simp only
    cases hcheck : stopCheck (turns (4 - 0)).os (alive.filter _) pid with
    | none => exact ⟨fun p hp => List.mem_of_mem_filter hp, fun h => by cases h⟩
    | some r =>
      refine ⟨fun p hp => List.mem_of_mem_filter hp, ?_⟩
      rintro rfl
      exact stopCheck_ok hcheck
  | succ left ih =>
    intro alive
    unfold stopFrom
    simp only
    cases hcheck : stopCheck (turns (4 - (left + 1))).os (alive.filter _) pid with
    | none =>
      simp only
      split
      · obtain ⟨hsub, hok⟩ := ih (alive.filter (fun p => decide (p ∉ (turns (4 - (left + 1))).deaths)))
        exact ⟨fun p hp => List.mem_of_mem_filter (hsub p hp), hok⟩
      · exact ⟨fun p hp => List.mem_of_mem_filter hp, fun h => by cases h⟩
    | some r =>
      refine ⟨fun p hp => List.mem_of_mem_filter hp, ?_⟩
      rintro rfl
      exact stopCheck_ok hcheck

end Process

/-! ## Steps on the host -/

namespace Host

/-- A transaction on the tables of the host. -/
def transaction {α : Type} (commits : Bool) (f : Database → Res AppError (α × Database)) (host : Host) :
    Res AppError α × Host :=
  ((host.db.transaction commits f).1, { host with db := (host.db.transaction commits f).2 })

/-- A transaction that only reads. -/
def query {α : Type} (commits : Bool) (q : Database → Res AppError α) (host : Host) : Res AppError α × Host :=
  host.transaction commits fun db => (q db).bind fun a => .ok (a, db)

/-- Processes die on their own. -/
def die (pids : List Pid) (host : Host) : Host :=
  { host with alive := host.alive.filter (fun p => decide (p ∉ pids)) }

/-- `Forker::fork` in the parent. -/
def fork (env : Env) (host : Host) : Res AppError Pid × Host :=
  match env.fork with
  | none => (.err .errno, host)
  | some f => (if f.told then .ok f.pid else .err .errno, { host with alive := f.pid :: host.alive })

/-- `stop` of a device and of a shard: the state it leaves them in, or an error. -/
def stop (env : Env) (denied : String) (state : ProcessState) (host : Host) : Res AppError ProcessState × Host :=
  match state with
  | .running pid =>
    Res.andThen ((Process.stop env.turns pid host.alive).1,
      { host with alive := (Process.stop env.turns pid host.alive).2 }) fun _ host => (.ok .stopped, host)
  | .dead _ => (.ok .stopped, host)
  | .stopped => (.ok .stopped, host)
  | .permissionDenied _ => (.err (.msg denied), host)

/-- A step on the files, with its error as the command's. -/
def onFiles (f : Files Byte → Res IoError Unit × Files Byte) (host : Host) : Res AppError Unit × Host :=
  ((f host.files).1.mapErr fun _ => .io, { host with files := (f host.files).2 })

/-- The effect of asking for a directory of the tool. -/
def subdir (st : State) (env : Env) (name : String) (host : Host) : Host :=
  { host with files := (st.subdir env.disk name host.files).2 }

/-- A step that fails when the environment says so. -/
def guard (holds : Bool) (e : AppError) (host : Host) : Res AppError Unit × Host :=
  (if holds then .ok () else .err e, host)

theorem guard_ok {holds : Bool} {e : AppError} {host host' : Host} {u : Unit}
    (h : host.guard holds e = (.ok u, host')) : holds = true ∧ host' = host := by
  obtain ⟨h1, rfl⟩ := Prod.mk.inj h
  cases holds with
  | true => exact ⟨rfl, rfl⟩
  | false => cases h1

/-- **A query leaves the host as it is**, and what it gives comes from the tables. -/
theorem query_host {α : Type} (commits : Bool) (q : Database → Res AppError α) (host : Host) :
    (host.query commits q).2 = host := by
  unfold query transaction Database.transaction
  simp only
  cases q host.db with
  | err e => rfl
  | panic p => rfl
  | ok a =>
    cases commits with
    | true => rfl
    | false => rfl

theorem query_ok {α : Type} {commits : Bool} {q : Database → Res AppError α} {host host' : Host} {a : α}
    (h : host.query commits q = (.ok a, host')) : host' = host ∧ commits = true ∧ q host.db = .ok a := by
  have hhost : (host.query commits q).2 = host := query_host commits q host
  rw [h] at hhost
  refine ⟨hhost, ?_⟩
  have hres := congrArg Prod.fst h
  unfold query transaction Database.transaction at hres
  simp only at hres
  cases hq : q host.db with
  | err e => rw [hq] at hres; cases hres
  | panic p => rw [hq] at hres; cases hres
  | ok b =>
    rw [hq] at hres
    cases commits with
    | true => exact ⟨rfl, hres⟩
    | false => cases hres

/-- A change of the tables is made when SQLite carries it through. -/
theorem transaction_update (commits : Bool) (f : Database → Database) (host : Host) :
    host.transaction commits (fun db => .ok ((), f db)) =
      if commits then (.ok (), { host with db := f host.db }) else (.err .database, host) := by
  unfold transaction Database.transaction
  cases commits with
  | true => rfl
  | false => rfl

/-! ## A quiet environment -/

def sampleState : State := { base := ["oathgate"], skipConfirm := true }

/-- An environment where everything goes well, with the next id and the next process. -/
def sampleEnv (id : Uuid) (fork : Option Fork) : Env :=
  { read := true, saved := true, deleted := true, id, cid := 20000, name := none, answers := fun _ => .ok true,
    loaded := true, built := true, subscriber := true, fork, os := ⟨fun _ => false, fun _ => .esrch⟩,
    turns := fun _ => ⟨[], ⟨fun _ => false, fun _ => .esrch⟩, true⟩, disk := fun _ => true, copyFails := none,
    removeFails := none }

def emptyHost : Host := { db := Database.empty, files := fun _ => none, alive := [] }

end Host
end Oathgate
