import Oathgate.CmdBridge
import Oathgate.DbKernel
/-!
# CmdShard — shards and the shard commands (`oathgate`: `database/shard.rs`, `cmd/shard.rs`)

A shard is a row, and a directory under its name with a link to its kernel and a copy of its disk.
-/
namespace Oathgate

open Lib

/-- Where installed kernels and images stand. -/
def State.kernelFile (st : State) (kernel : Kernel) : Path :=
  (((st.base.join "kernels").join kernel.hash).withExtension "bin").resolve

def State.imageFile (st : State) (image : DiskImage) : Path :=
  (((st.base.join "images").join image.hash).withExtension "img").resolve

namespace Kernel

/-- `Kernel::path` -/
def path (st : State) (disk : Path → Bool) (k : Kernel) (fs : Files Byte) : Path × Files Byte :=
  (((st.subdir disk "kernels" fs).1.join k.hash).withExtension "bin", (st.subdir disk "kernels" fs).2)

theorem path_fst (st : State) (disk : Path → Bool) (kernel : Kernel) (fs : Files Byte) :
    (kernel.path st disk fs).1.resolve = st.kernelFile kernel := by
  unfold path
  rw [State.subdir_fst]
  rfl

end Kernel

namespace DiskImage

/-- `DiskImage::path` -/
def path (st : State) (disk : Path → Bool) (image : DiskImage) (fs : Files Byte) : Path × Files Byte :=
  (((st.subdir disk "images" fs).1.join image.hash).withExtension "img", (st.subdir disk "images" fs).2)

theorem path_fst (st : State) (disk : Path → Bool) (image : DiskImage) (fs : Files Byte) :
    (image.path st disk fs).1.resolve = st.imageFile image := by
  unfold path
  rw [State.subdir_fst]
  rfl

/-- `DiskImage::get`, the first row with the name. -/
def get (name : String) (db : Database) : Res AppError DiskImage :=
  match db.images.find? (fun row => decide (row.name = name)) with
  | some image => .ok image
  | none => .err .database

end DiskImage

namespace Database

structure Shard where
  id : Uuid
  cid : BitVec 32
  name : String
  state : ProcessState
  cpu : String
  memory : BitVec 16
  kernel : Kernel
  bootDisk : DiskImage
  deriving DecidableEq, Repr

namespace Shard

/-- The state that `ShardParams::from_row` finds.  A check that fails is unwrapped. -/
def stateOf (os : Os) (alive : List Pid) : Option Pid → Res AppError ProcessState
  | some pid => (Process.check os alive pid).unwrap
  | none => .ok .stopped

/-- `ShardParams::from_row` and `Shard::from_row` -/
def fromRow (os : Os) (alive : List Pid) (row : ShardRow) (kernel : Kernel) (bootDisk : DiskImage) :
    Res AppError Shard := do
  let state ← stateOf os alive row.pid
  return { id := row.id, cid := row.cid, name := row.name, state, cpu := row.cpu, memory := row.memory, kernel,
           bootDisk }

theorem fromRow_ok {os : Os} {alive : List Pid} {row : ShardRow} {kernel : Kernel} {image : DiskImage} {shard : Shard}
    (h : fromRow os alive row kernel image = .ok shard) :
    stateOf os alive row.pid = .ok shard.state ∧ shard.id = row.id ∧ shard.name = row.name := by
  obtain ⟨state, hstate, hret⟩ := (Res.bind_eq_ok _ _ _).1 h
  cases hret
  exact ⟨hstate, rfl, rfl⟩

/-- A row of `shards` with the rows of `kernels` and `images` that the query joins to it. -/
def joinRow (db : Database) (row : ShardRow) : Option (ShardRow × Kernel × DiskImage) := do
  let kernel ← db.kernels.find? (fun k => decide (k.id = row.kernel))
  let image ← db.images.find? (fun i => decide (i.id = row.bootdisk))
  return (row, kernel, image)

/-- The first joined row with the name. -/
def find (db : Database) (name : String) : Option (ShardRow × Kernel × DiskImage) :=
  (db.shards.filter (fun row => decide (row.name = name))).findSome? (joinRow db)

/-- A joined row is a row of `shards` with the name. -/
theorem find_mem {db : Database} {name : String} {row : ShardRow} {kernel : Kernel} {image : DiskImage}
    (h : find db name = some (row, kernel, image)) : row ∈ db.shards ∧ row.name = name := by
  obtain ⟨row', hmem, hjoin⟩ := List.exists_of_findSome?_eq_some h
  obtain ⟨hmem, hname⟩ := List.mem_filter.1 hmem
  unfold joinRow at hjoin
  simp only [Option.bind_eq_bind, Option.bind_eq_some_iff, Option.pure_def, Option.some.injEq, Prod.mk.injEq] at hjoin
  obtain ⟨_, _, _, _, rfl, -⟩ := hjoin
  exact ⟨hmem, by simpa using hname⟩

def get (env : Env) (name : String) (host : Host) : Res AppError (Option Shard) × Host :=
  host.query env.read fun db =>
    match find db name with
    | none => .ok none
    | some (row, kernel, image) => do
      let shard ← fromRow env.os host.alive row kernel image
      return some shard

def toRow (shard : Shard) : ShardRow :=
  { id := shard.id, name := shard.name, pid := shard.state.optional, cid := shard.cid, cpu := shard.cpu,
    memory := shard.memory, kernel := shard.kernel.id, bootdisk := shard.bootDisk.id }

def save (env : Env) (shard : Shard) (host : Host) : Res AppError Unit × Host :=
  host.transaction env.saved fun db => .ok ((), { db with shards := upsert ShardRow.id db.shards shard.toRow })

def delete (env : Env) (shard : Shard) (host : Host) : Res AppError Unit × Host :=
  host.transaction env.deleted fun db => .ok ((), { db with shards := deleteKey ShardRow.id db.shards shard.id })

def isRunning (shard : Shard) : Bool := shard.state.isRunning

def setRunning (pid : Pid) (shard : Shard) : Shard := { shard with state := .running pid }

def stop (env : Env) (shard : Shard) (host : Host) : Res AppError Shard × Host :=
  Res.andThen (host.stop env "unable to stop shard: permission denied" shard.state) fun state host =>
    (.ok { shard with state }, host)

/-! ### The directory -/

/-- `Shard::dir` of a shard's name. -/
def dir (st : State) (disk : Path → Bool) (name : String) (fs : Files Byte) : Path × Files Byte :=
  ((st.subdir disk "shards" fs).1.join name, (st.subdir disk "shards" fs).2)

/-- `Shard::kernel_path` and `Shard::boot_disk_path`, but for the extension. -/
def filePath (ext : String) (st : State) (disk : Path → Bool) (name : String) (fs : Files Byte) :
    Path × Files Byte :=
  (((dir st disk name fs).1.join name).withExtension ext, (dir st disk name fs).2)

def kernelPath := filePath "bin"

def bootDiskPath := filePath "img"

/-- The three file steps of `Shard::deploy`. -/
def makeDir (st : State) (env : Env) (name : String) (fs : Files Byte) : Res IoError Unit × Files Byte :=
  let dir := dir st env.disk name fs
  dir.2.createDirAll env.disk dir.1

def linkKernel (st : State) (env : Env) (name : String) (kernel : Kernel) (fs : Files Byte) :
    Res IoError Unit × Files Byte :=
  let src := kernel.path st env.disk fs
  let dst := kernelPath st env.disk name src.2
  dst.2.hardLink env.disk src.1 dst.1

def copyBootDisk (st : State) (env : Env) (name : String) (image : DiskImage) (fs : Files Byte) :
    Res IoError Unit × Files Byte :=
  let src := image.path st env.disk fs
  let dst := bootDiskPath st env.disk name src.2
  dst.2.copy env.disk env.copyFails src.1 dst.1

def deploy (st : State) (env : Env) (shard : Shard) (host : Host) : Res AppError Unit × Host :=
  Res.andThen (host.onFiles (makeDir st env shard.name)) fun _ host =>
  Res.andThen (host.onFiles (linkKernel st env shard.name shard.kernel)) fun _ host =>
    host.onFiles (copyBootDisk st env shard.name shard.bootDisk)

/-- The file step of `Shard::purge`. -/
def removeDir (st : State) (env : Env) (name : String) (fs : Files Byte) : Res IoError Unit × Files Byte :=
  let dir := dir st env.disk name fs
  dir.2.removeDirAll env.removeFails dir.1

def purge (st : State) (env : Env) (shard : Shard) (host : Host) : Res AppError Unit × Host :=
  Res.andThen (shard.delete env host) fun _ host => host.onFiles (removeDir st env shard.name)

end Shard
end Database

/-- `DeployOpts`, with the defaults of the memory and the cpu filled in. -/
structure DeployOpts where
  name : Option String
  image : String
  kernel : Option String
  memory : BitVec 16
  cpu : String
  network : List String
  deriving DecidableEq, Repr

namespace ShardCmd

open Database

def getShard (env : Env) (name : String) (host : Host) : Res AppError Shard × Host :=
  Res.andThen (Shard.get env name host) fun shard host =>
    match shard with
    | some shard => (.ok shard, host)
    | none => (.err (.msg "shard not found"), host)

theorem getShard_host (env : Env) (name : String) (host : Host) : (getShard env name host).2 = host := by
  apply Res.andThen_keeps (P := fun s => s = host)
  · exact host.query_host env.read _
  · rintro (_ | shard) s rfl
    · rfl
    · rfl

/-- **A shard that is found is the first joined row with its name.** -/
theorem getShard_ok {env : Env} {name : String} {host host' : Host} {shard : Shard}
    (h : getShard env name host = (.ok shard, host')) :
    host' = host ∧ env.read = true ∧
      ∃ row kernel image, Shard.find host.db name = some (row, kernel, image) ∧
        Shard.fromRow env.os host.alive row kernel image = .ok shard := by
  obtain ⟨found, s, hget, hret⟩ := Res.andThen_eq_ok.1 h
  obtain ⟨rfl, hread, hfound⟩ := Host.query_ok hget
  cases found with
  | none => cases hret
  | some d =>
    cases hret
    cases hrow : Shard.find host'.db name with
    | none =>
      rw [hrow] at hfound
      cases hfound
    | some joined =>
      obtain ⟨row, kernel, image⟩ := joined
      rw [hrow] at hfound
      obtain ⟨d, hshard, hd⟩ := (Res.bind_eq_ok _ _ _).1 hfound
      cases hd
      exact ⟨rfl, hread, row, kernel, image, rfl, hshard⟩

/-- The kernel that a deploy asks for, or the default one. -/
def chooseKernel (opts : DeployOpts) (db : Database) : Res AppError Kernel :=
  match opts.kernel with
  | none => Kernel.getDefault db
  | some name => Kernel.get name db

/-- `ShardBuilder::build` with every field set; the networks it is given are not kept. -/
def build (env : Env) (name : String) (opts : DeployOpts) (kernel : Kernel) (bootDisk : DiskImage) : Shard :=
  { id := env.id, cid := env.cid, name, state := .stopped, cpu := opts.cpu, memory := opts.memory, kernel, bootDisk }

def shardDeploy (st : State) (env : Env) (opts : DeployOpts) (host : Host) : Res AppError Unit × Host :=
  Res.andThen (env.nameOr opts.name, host) fun name host =>
  Res.andThen (host.guard env.read .database) fun _ host =>
  Res.andThen (DiskImage.get opts.image host.db, host) fun image host =>
  Res.andThen (chooseKernel opts host.db, host) fun kernel host =>
  Res.andThen (Device.getMany env opts.network host) fun _ host =>
  Res.andThen (confirm st env "Deploy Shard?", host) fun _ host =>
  Res.andThen ((build env name opts kernel image).save env host) fun _ host =>
    (build env name opts kernel image).deploy st env host

/-- **A deploy stops before it changed anything, or comes to save its shard and then to deploy it.** -/
theorem shardDeploy_cases (st : State) (env : Env) (opts : DeployOpts) (host : Host) :
    Res.StopsOr host (fun x => ∃ name image kernel, env.nameOr opts.name = .ok name ∧ env.read = true ∧
      DiskImage.get opts.image host.db = .ok image ∧ chooseKernel opts host.db = .ok kernel ∧
      (∃ devices, (Device.getMany env opts.network host).1 = .ok devices) ∧
      confirm st env "Deploy Shard?" = .ok () ∧
      x = Res.andThen ((build env name opts kernel image).save env host) fun _ host =>
        (build env name opts kernel image).deploy st env host) (shardDeploy st env opts host) := by
  apply Res.stopsOr_andThen
  · rfl
  intro name hname
  apply Res.stopsOr_andThen
  · rfl
  intro _ hread
  apply Res.stopsOr_andThen
  · rfl
  intro image himage
  apply Res.stopsOr_andThen
  · rfl
  intro kernel hkernel
  apply Res.stopsOr_andThen
  · exact Device.getMany_host env opts.network host
  intro devices hdevices
  apply Res.stopsOr_andThen
  · rfl
  intro _ hconfirm
  have hquery : env.read = true := (Host.guard_ok (Prod.ext hread rfl)).1
  exact Or.inr ⟨name, image, kernel, hname, hquery, himage, hkernel, ⟨devices, hdevices⟩, hconfirm, rfl⟩

def shardRun (st : State) (env : Env) (name : String) (host : Host) : Res AppError Unit × Host :=
  Res.andThen (getShard env name host) fun shard host =>
  Res.andThen ((host.subdir st env "shards").guard env.built .errno) fun _ host =>
  Res.andThen (host.guard env.subscriber .database) fun _ host =>
  Res.andThen (host.fork env) fun pid host =>
    Shard.save env (shard.setRunning pid) host

def stopShard (st : State) (env : Env) (name : String) (host : Host) : Res AppError Unit × Host :=
  Res.andThen (getShard env name host) fun shard host =>
  Res.andThen (confirm st env "Stop shard?", host) fun _ host =>
  Res.andThen (Shard.stop env shard host) fun shard host =>
    Shard.save env shard host

def shardDelete (st : State) (env : Env) (name : String) (host : Host) : Res AppError Unit × Host :=
  Res.andThen (getShard env name host) fun shard host =>
  if shard.isRunning then (.err (.msg "shard is running. stop shard before deleting"), host)
  else
    Res.andThen (confirm st env "Delete shard?", host) fun _ host =>
      Shard.purge st env shard host

end ShardCmd
end Oathgate
