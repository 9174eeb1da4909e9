import Oathgate.CmdShard
import Oathgate.LibRun
/-!
# CmdTracked — live processes and the rows that record them

`Recorded` says that a row of `devices` or `shards` holds a pid.  Stopping a process and dropping the row of one that is
gone lose no live process, over any history of commands and deaths (`live_processes_recorded`); starting what already
runs does (`second_start_loses_first`).
-/
namespace Oathgate

open Lib Database Bridge ShardCmd

inductive Command where
  | createBridge (name : Option String)
  | startBridge (name : String)
  | stopBridge (name : String)
  | deleteBridge (name : String)
  | shardDeploy (opts : DeployOpts)
  | shardRun (name : String)
  | stopShard (name : String)
  | shardDelete (name : String)

namespace Host

def execute (st : State) (env : Env) (host : Host) : Command → Res AppError Unit × Host
  | .createBridge name => createBridge env name host
  | .startBridge name => startBridge st env name host
  | .stopBridge name => stopBridge st env name host
  | .deleteBridge name => deleteBridge st env name host
  | .shardDeploy opts => shardDeploy st env opts host
  | .shardRun name => shardRun st env name host
  | .stopShard name => stopShard st env name host
  | .shardDelete name => shardDelete st env name host

inductive Event where
  | command (env : Env) (c : Command)
  | die (pids : List Pid)

/-- A generated id is the id of no row, and a process that is forked has a pid of its own. -/
def Fresh (env : Env) (host : Host) : Prop :=
  (∀ row ∈ host.db.devices, row.id ≠ env.id) ∧ (∀ row ∈ host.db.shards, row.id ≠ env.id) ∧
    ∀ f, env.fork = some f → f.pid ∉ host.alive

def Step (st : State) (host : Host) (e : Event) (host' : Host) : Prop :=
  match e with
  | .command env c => Fresh env host ∧ host' = (host.execute st env c).2
  | .die pids => host' = host.die pids

/-- No bridge, no shard, and no process started yet. -/
def Start (host : Host) : Prop := host.db.devices = [] ∧ host.db.shards = [] ∧ host.alive = []

/-- Some row holds the pid. -/
def Recorded (db : Database) (pid : Pid) : Prop :=
  (∃ row ∈ db.devices, row.pid = some pid) ∨ ∃ row ∈ db.shards, row.pid = some pid

instance (db : Database) (pid : Pid) : Decidable (Recorded db pid) := inferInstanceAs (Decidable (_ ∨ _))

/-- **Every live process is recorded.** -/
def Tracked (host : Host) : Prop := ∀ pid ∈ host.alive, Recorded host.db pid

/-- The tables without the device or the shard of an id. -/
def withoutDevice (db : Database) (id : Uuid) : Database :=
  { db with devices := deleteKey DeviceRow.id db.devices id }

def withoutShard (db : Database) (id : Uuid) : Database := { db with shards := deleteKey ShardRow.id db.shards id }

/-- **What a command has to find, so that it loses no live process.**  A start that gets to the fork finds no live
process recorded in the row it writes alone, and its new pid is read and saved; a deletion that goes through finds no
live process recorded in its row alone that the user may not signal. -/
def Safe (st : State) (env : Env) (host : Host) : Command → Prop
  | .startBridge name => ∀ f row, env.fork = some f → env.read = true → env.built = true → env.subscriber = true →
      host.db.devices.find? (fun row => decide (row.name = name)) = some row →
      (∀ pid ∈ host.alive, row.pid = some pid → Recorded (withoutDevice host.db row.id) pid) ∧
        f.told = true ∧ env.saved = true
  | .shardRun name => ∀ f row kernel image, env.fork = some f → env.read = true → env.built = true →
      env.subscriber = true → Shard.find host.db name = some (row, kernel, image) →
      (∀ pid ∈ host.alive, row.pid = some pid → Recorded (withoutShard host.db row.id) pid) ∧
        f.told = true ∧ env.saved = true
  | .deleteBridge name => ∀ row, env.read = true → env.deleted = true → confirm st env "Delete bridge?" = .ok () →
      host.db.devices.find? (fun row => decide (row.name = name)) = some row →
      ∀ pid ∈ host.alive, row.pid = some pid → env.os.denied pid = true →
        Recorded (withoutDevice host.db row.id) pid
  | .shardDelete name => ∀ row kernel image, env.read = true → env.deleted = true →
      confirm st env "Delete shard?" = .ok () → Shard.find host.db name = some (row, kernel, image) →
      ∀ pid ∈ host.alive, row.pid = some pid → env.os.denied pid = true →
        Recorded (withoutShard host.db row.id) pid
  | _ => True

/-! ## What a loaded row says of its process -/

/-- The state that a pid was loaded in tells a live process apart. -/
def Loaded (os : Os) (alive : List Pid) (pid : Option Pid) (state : ProcessState) : Prop :=
  ∀ p ∈ alive, pid = some p → state = if os.denied p then .permissionDenied p else .running p

theorem loaded_device (os : Os) (alive : List Pid) (row : DeviceRow) :
    Loaded os alive row.pid (Device.fromRow os alive row).state := by
  intro p hp hrow
  unfold Device.fromRow
  simp only [hrow, Process.check_of_alive hp]

theorem loaded_shard {os : Os} {alive : List Pid} {row : ShardRow} {kernel : Kernel} {image : DiskImage}
    {shard : Shard} (h : Shard.fromRow os alive row kernel image = .ok shard) :
    Loaded os alive row.pid shard.state ∧ shard.id = row.id := by
  obtain ⟨hstate, hid, -⟩ := Shard.fromRow_ok h
  refine ⟨?_, hid⟩
  intro p hp hrow
  rw [hrow, Shard.stateOf, Process.check_of_alive hp] at hstate
  exact (Res.ok.inj hstate).symm

/-- A live process that was not found running is one that the user may not signal. -/
theorem Loaded.denied {os : Os} {alive : List Pid} {pid : Option Pid} {state : ProcessState}
    (h : Loaded os alive pid state) (hrun : state.isRunning ≠ true) {p : Pid} (hp : p ∈ alive)
    (hpid : pid = some p) : os.denied p = true := by
  have hstate := h p hp hpid
  cases hdenied : os.denied p with
  | true => rfl
  | false =>
    simp only [hdenied, Bool.false_eq_true, ↓reduceIte] at hstate
    exact absurd (by rw [hstate]; rfl) hrun

/-- Processes ended, and nothing else happened to the tables and the processes. -/
def Ends (host host' : Host) : Prop := host'.db = host.db ∧ ∀ p ∈ host'.alive, p ∈ host.alive

theorem stop_ends (env : Env) (denied : String) (state : ProcessState) (host : Host) :
    Ends host (host.stop env denied state).2 := by
  cases state with
  | running q =>
    apply Res.andThen_keeps (P := Ends host)
    · exact ⟨rfl, (Process.stop_spec env.turns q host.alive).1⟩
    · exact fun _ _ h => h
  | dead q => exact ⟨rfl, fun _ hp => hp⟩
  | stopped => exact ⟨rfl, fun _ hp => hp⟩
  | permissionDenied q => exact ⟨rfl, fun _ hp => hp⟩

/-- **What was stopped has no live process any more.** -/
theorem stop_gone {env : Env} {denied : String} {state state' : ProcessState} {host host' : Host} {os : Os}
    {pid : Option Pid} (h : host.stop env denied state = (.ok state', host')) (hload : Loaded os host.alive pid state)
    (p : Pid) (hp : p ∈ host'.alive) : pid ≠ some p := by
  intro hpid
  have hends := stop_ends env denied state host
  rw [h] at hends
  have hstate := hload p (hends.2 p hp) hpid
  cases hden : os.denied p with
  | true =>
    simp only [hden, ↓reduceIte] at hstate
    subst hstate
    cases h
  | false =>
    simp only [hden, Bool.false_eq_true, ↓reduceIte] at hstate
    subst hstate
    obtain ⟨_, s, hstop, hret⟩ := Res.andThen_eq_ok.1 h
    obtain ⟨hok, rfl⟩ := Prod.mk.inj hstop
    cases hret
    exact (Process.stop_spec env.turns p host.alive).2 hok hp

/-! ## The rows -/

theorem recorded_split_device {db : Database} {pid : Pid} (h : Recorded db pid) (id : Uuid) :
    (∃ row ∈ db.devices, row.id = id ∧ row.pid = some pid) ∨ Recorded (withoutDevice db id) pid := by
  rcases h with ⟨row, hrow, hpid⟩ | h
  · by_cases hid : row.id = id
    · exact Or.inl ⟨row, hrow, hid, hpid⟩
    · exact Or.inr (Or.inl ⟨row, mem_deleteKey.2 ⟨hrow, hid⟩, hpid⟩)
  · exact Or.inr (Or.inr h)

theorem recorded_split_shard {db : Database} {pid : Pid} (h : Recorded db pid) (id : Uuid) :
    (∃ row ∈ db.shards, row.id = id ∧ row.pid = some pid) ∨ Recorded (withoutShard db id) pid := by
  rcases h with h | ⟨row, hrow, hpid⟩
  · exact Or.inr (Or.inl h)
  · by_cases hid : row.id = id
    · exact Or.inl ⟨row, hrow, hid, hpid⟩
    · exact Or.inr (Or.inr ⟨row, mem_deleteKey.2 ⟨hrow, hid⟩, hpid⟩)

theorem recorded_upsert_device {db : Database} {r : DeviceRow} {pid : Pid}
    (h : Recorded (withoutDevice db r.id) pid ∨ r.pid = some pid) :
    Recorded { db with devices := upsert DeviceRow.id db.devices r } pid := by
  rcases h with (⟨row, hrow, hpid⟩ | h) | h
  · exact Or.inl ⟨row, mem_upsert.2 (Or.inr (mem_deleteKey.1 hrow)), hpid⟩
  · exact Or.inr h
  · exact Or.inl ⟨r, mem_upsert.2 (Or.inl rfl), h⟩

theorem recorded_upsert_shard {db : Database} {r : ShardRow} {pid : Pid}
    (h : Recorded (withoutShard db r.id) pid ∨ r.pid = some pid) :
    Recorded { db with shards := upsert ShardRow.id db.shards r } pid := by
  rcases h with (h | ⟨row, hrow, hpid⟩) | h
  · exact Or.inl h
  · exact Or.inr ⟨row, mem_upsert.2 (Or.inr (mem_deleteKey.1 hrow)), hpid⟩
  · exact Or.inr ⟨r, mem_upsert.2 (Or.inl rfl), h⟩

/-- A pid recorded beside a device is so when the device was saved again. -/
theorem recorded_beside_saved {db : Database} {r : DeviceRow} {pid : Pid} (h : Recorded (withoutDevice db r.id) pid) :
    Recorded (withoutDevice { db with devices := upsert DeviceRow.id db.devices r } r.id) pid := by
  rcases h with ⟨row, hrow, hpid⟩ | h
  · obtain ⟨hmem, hid⟩ := mem_deleteKey.1 hrow
    exact Or.inl ⟨row, mem_deleteKey.2 ⟨mem_upsert.2 (Or.inr ⟨hmem, hid⟩), hid⟩, hpid⟩
  · exact Or.inr h

/-- **The invariant**: rows are told apart by their ids, and live processes are recorded. -/
structure Valid (host : Host) : Prop where
  devices : (host.db.devices.map DeviceRow.id).Nodup
  shards : (host.db.shards.map ShardRow.id).Nodup
  tracked : Tracked host

namespace Valid

variable {host : Host}

theorem mono (h : Valid host) {host' : Host} (hends : Ends host host') : Valid host' := by
  obtain ⟨hdb, halive⟩ := hends
  refine ⟨by rw [hdb]; exact h.devices, by rw [hdb]; exact h.shards, ?_⟩
  intro pid hpid
  rw [hdb]
  exact h.tracked pid (halive pid hpid)

theorem onFiles (h : Valid host) (f : Files Byte → Res IoError Unit × Files Byte) : Valid (host.onFiles f).2 :=
  h.mono ⟨rfl, fun _ hp => hp⟩

theorem subdir (h : Valid host) (st : State) (env : Env) (name : String) : Valid (host.subdir st env name) :=
  h.mono ⟨rfl, fun _ hp => hp⟩

/-- A live process that a row does not hold is recorded beside the row. -/
theorem beside_device (h : Valid host) {row : DeviceRow} (hrow : row ∈ host.db.devices) {pid : Pid}
    (hpid : pid ∈ host.alive) (hne : row.pid ≠ some pid) : Recorded (withoutDevice host.db row.id) pid := by
  rcases recorded_split_device (h.tracked pid hpid) row.id with ⟨row', hrow', hid, hrowpid⟩ | hbeside
  · rw [eq_of_key_eq h.devices hrow' hrow hid] at hrowpid
    exact absurd hrowpid hne
  · exact hbeside

theorem beside_shard (h : Valid host) {row : ShardRow} (hrow : row ∈ host.db.shards) {pid : Pid}
    (hpid : pid ∈ host.alive) (hne : row.pid ≠ some pid) : Recorded (withoutShard host.db row.id) pid := by
  rcases recorded_split_shard (h.tracked pid hpid) row.id with ⟨row', hrow', hid, hrowpid⟩ | hbeside
  · rw [eq_of_key_eq h.shards hrow' hrow hid] at hrowpid
    exact absurd hrowpid hne
  · exact hbeside

end Valid

/-- **Saving a device loses no process that is recorded beside it or that it holds.** -/
theorem valid_saveDevice {env : Env} {device : Device} {host : Host}
    (hdevices : (host.db.devices.map DeviceRow.id).Nodup) (hshards : (host.db.shards.map ShardRow.id).Nodup)
    (hsaved : ∀ pid ∈ host.alive,
      Recorded (withoutDevice host.db device.id) pid ∨ device.state.optional = some pid)
    (hfailed : env.saved = false → Tracked host) : Valid (device.save env host).2 := by
  unfold Device.save
  rw [transaction_update]
  cases hs : env.saved with
  | false => exact ⟨hdevices, hshards, hfailed hs⟩
  | true =>
    refine ⟨nodup_upsert hdevices _, hshards, ?_⟩
    intro pid hpid
    exact recorded_upsert_device (hsaved pid hpid)

theorem valid_saveShard {env : Env} {shard : Shard} {host : Host}
    (hdevices : (host.db.devices.map DeviceRow.id).Nodup) (hshards : (host.db.shards.map ShardRow.id).Nodup)
    (hsaved : ∀ pid ∈ host.alive, Recorded (withoutShard host.db shard.id) pid ∨ shard.state.optional = some pid)
    (hfailed : env.saved = false → Tracked host) : Valid (shard.save env host).2 := by
  unfold Shard.save
  rw [transaction_update]
  cases hs : env.saved with
  | false => exact ⟨hdevices, hshards, hfailed hs⟩
  | true =>
    refine ⟨hdevices, nodup_upsert hshards _, ?_⟩
    intro pid hpid
    exact recorded_upsert_shard (hsaved pid hpid)

/-- **A device with no process alone in its row may be saved**, with any state. -/
theorem Valid.saveDevice {host : Host} (h : Valid host) (env : Env) {device : Device}
    (hbeside : ∀ pid ∈ host.alive, Recorded (withoutDevice host.db device.id) pid) :
    Valid (device.save env host).2 := by
  apply valid_saveDevice h.devices h.shards
  · exact fun pid hpid => Or.inl (hbeside pid hpid)
  · exact fun _ => h.tracked

theorem Valid.saveShard {host : Host} (h : Valid host) (env : Env) {shard : Shard}
    (hbeside : ∀ pid ∈ host.alive, Recorded (withoutShard host.db shard.id) pid) :
    Valid (shard.save env host).2 := by
  apply valid_saveShard h.devices h.shards
  · exact fun pid hpid => Or.inl (hbeside pid hpid)
  · exact fun _ => h.tracked

/-! ## Creating and starting -/

variable {st : State} {env : Env} {host : Host}

theorem valid_createBridge (h : Valid host) (hfresh : Fresh env host) (name : Option String) :
    Valid (createBridge env name host).2 := by
  unfold createBridge
  cases name.or env.name with
  | none => exact h
  | some name =>
    apply Res.andThen_cases (P := fun x => Valid x.2)
    · intro _ s hguard
      obtain ⟨-, rfl⟩ := guard_ok hguard
      apply h.saveDevice
      intro pid hpid
      rcases recorded_split_device (h.tracked pid hpid) env.id with ⟨row, hrow, hid, -⟩ | hbeside
      · exact absurd hid (hfresh.1 row hrow)
      · exact hbeside
    · exact fun _ _ => h

/-- The part that `start_bridge` and `shard_run` share, from the fork on. -/
theorem valid_forking {e : AppError} {save : Pid → Host → Res AppError Unit × Host} (h : Valid host)
    (hsave : ∀ f, env.fork = some f → env.built = true → env.subscriber = true →
      f.told = true ∧ Valid (save f.pid { host with alive := f.pid :: host.alive }).2) :
    Valid (Res.andThen (host.guard env.built e) fun _ host =>
      Res.andThen (host.guard env.subscriber .database) fun _ host =>
      Res.andThen (host.fork env) fun pid host => save pid host).2 := by
  apply Res.andThen_cases (P := fun x => Valid x.2)
  · intro _ s hguard
    obtain ⟨hbuilt, rfl⟩ := guard_ok hguard
    apply Res.andThen_cases (P := fun x => Valid x.2)
    · intro _ s hguard
      obtain ⟨hsub, rfl⟩ := guard_ok hguard
      cases hfork : env.fork with
      | none =>
        have hnone : s.fork env = (.err .errno, s) := by
          unfold fork
          rw [hfork]
        rw [hnone]
        exact h
      | some f =>
        obtain ⟨htold, hvalid⟩ := hsave f hfork hbuilt hsub
        have hsome : s.fork env = (.ok f.pid, { s with alive := f.pid :: s.alive }) := by
          unfold fork
          rw [hfork]
          simp only [htold, ↓reduceIte]
        rw [hsome]
        exact hvalid
    · exact fun _ _ => h
  · exact fun _ _ => h

theorem valid_startBridge (h : Valid host) {name : String} (hsafe : Safe st env host (.startBridge name)) :
    Valid (startBridge st env name host).2 := by
  apply Res.andThen_cases (P := fun x => Valid x.2)
  · intro device s hget
    obtain ⟨rfl, hread, row, hrow, rfl⟩ := getBridge_ok hget
    apply valid_forking (h.subdir st env "networks")
    intro f hfork hbuilt hsub
    obtain ⟨halone, htold, hsaved⟩ := hsafe f row hfork hread hbuilt hsub hrow
    refine ⟨htold, ?_⟩
    apply valid_saveDevice
    · exact h.devices
    · exact h.shards
    · intro pid hpid
      rcases List.mem_cons.1 hpid with rfl | hpid
      · exact Or.inr rfl
      · by_cases hrowpid : row.pid = some pid
        · exact Or.inl (halone pid hpid hrowpid)
        · exact Or.inl (h.beside_device (List.mem_of_find?_eq_some hrow) hpid hrowpid)
    · intro hfailed
      rw [hsaved] at hfailed
      cases hfailed
  · intro r _
    rw [getBridge_host]
    exact h

theorem valid_shardRun (h : Valid host) {name : String} (hsafe : Safe st env host (.shardRun name)) :
    Valid (shardRun st env name host).2 := by
  apply Res.andThen_cases (P := fun x => Valid x.2)
  · intro shard s hget
    obtain ⟨rfl, hread, row, kernel, image, hfind, hshard⟩ := getShard_ok hget
    obtain ⟨-, hid⟩ := loaded_shard hshard
    apply valid_forking (h.subdir st env "shards")
    intro f hfork hbuilt hsub
    obtain ⟨halone, htold, hsaved⟩ := hsafe f row kernel image hfork hread hbuilt hsub hfind
    refine ⟨htold, ?_⟩
    apply valid_saveShard
    · exact h.devices
    · exact h.shards
    · intro pid hpid
      rcases List.mem_cons.1 hpid with rfl | hpid
      · exact Or.inr rfl
      · rw [show (shard.setRunning f.pid).id = row.id from hid]
        by_cases hrowpid : row.pid = some pid
        · exact Or.inl (halone pid hpid hrowpid)
        · exact Or.inl (h.beside_shard (Shard.find_mem hfind).1 hpid hrowpid)
    · intro hfailed
      rw [hsaved] at hfailed
      cases hfailed
  · intro r _
    rw [getShard_host]
    exact h

theorem valid_deploy (h : Valid host) (shard : Shard) : Valid (shard.deploy st env host).2 := by
  apply Res.andThen_keeps (h.onFiles _)
  intro _ s h
  apply Res.andThen_keeps (h.onFiles _)
  intro _ s h
  exact h.onFiles _

theorem valid_shardDeploy (h : Valid host) (hfresh : Fresh env host) (opts : DeployOpts) :
    Valid (shardDeploy st env opts host).2 := by
  rcases shardDeploy_cases st env opts host with ⟨-, hhost⟩ | ⟨name, image, kernel, -, -, -, -, -, -, hsaves⟩
  · rw [hhost]
    exact h
  · rw [hsaves]
    apply Res.andThen_keeps
    · apply h.saveShard
      intro pid hpid
      rcases recorded_split_shard (h.tracked pid hpid) env.id with ⟨row, hrow, hid, -⟩ | hbeside
      · exact absurd hid (hfresh.2.1 row hrow)
      · exact hbeside
    · exact fun _ s hs => valid_deploy hs _

/-! ## Stopping and deleting -/

theorem stopDevice_ends (env : Env) (device : Device) (host : Host) : Ends host (device.stop env host).2 := by
  apply Res.andThen_keeps (P := Ends host)
  · exact stop_ends env _ device.state host
  · exact fun _ _ h => h

/-- A device that was stopped holds no live process, and its row may be written over. -/
theorem stopDevice_beside (h : Valid host) {row : DeviceRow} (hrow : row ∈ host.db.devices) {device : Device}
    {host' : Host} (hstop : (Device.fromRow env.os host.alive row).stop env host = (.ok device, host')) :
    device.id = row.id ∧ ∀ pid ∈ host'.alive, Recorded (withoutDevice host'.db row.id) pid := by
  have hends := stopDevice_ends env (Device.fromRow env.os host.alive row) host
  rw [hstop] at hends
  obtain ⟨state, s, hstopped, hret⟩ := Res.andThen_eq_ok.1 hstop
  cases hret
  refine ⟨rfl, ?_⟩
  intro pid hpid
  rw [hends.1]
  exact h.beside_device hrow (hends.2 pid hpid) (stop_gone hstopped (loaded_device env.os host.alive row) pid hpid)

theorem stopShard_ends (env : Env) (shard : Shard) (host : Host) : Ends host (shard.stop env host).2 := by
  apply Res.andThen_keeps (P := Ends host)
  · exact stop_ends env _ shard.state host
  · exact fun _ _ h => h

theorem stopShard_beside (h : Valid host) {row : ShardRow} (hrow : row ∈ host.db.shards) {kernel : Kernel}
    {image : DiskImage} {loaded shard : Shard} {host' : Host}
    (hload : Shard.fromRow env.os host.alive row kernel image = .ok loaded)
    (hstop : loaded.stop env host = (.ok shard, host')) :
    shard.id = row.id ∧ ∀ pid ∈ host'.alive, Recorded (withoutShard host'.db row.id) pid := by
  obtain ⟨hstate, hid⟩ := loaded_shard hload
  have hends := stopShard_ends env loaded host
  rw [hstop] at hends
  obtain ⟨state, s, hstopped, hret⟩ := Res.andThen_eq_ok.1 hstop
  cases hret
  refine ⟨hid, ?_⟩
  intro pid hpid
  rw [hends.1]
  exact h.beside_shard hrow (hends.2 pid hpid) (stop_gone hstopped hstate pid hpid)

/-- A device that was stopped may be saved. -/
theorem valid_saveStopped (h : Valid host) {row : DeviceRow} (hrow : row ∈ host.db.devices) {device : Device}
    {host' : Host} (hstop : (Device.fromRow env.os host.alive row).stop env host = (.ok device, host')) :
    Valid (device.save env host').2 := by
  have hends := stopDevice_ends env (Device.fromRow env.os host.alive row) host
  rw [hstop] at hends
  obtain ⟨hid, hbeside⟩ := stopDevice_beside h hrow hstop
  apply (h.mono hends).saveDevice
  rw [hid]
  exact hbeside

theorem valid_stopBridge (h : Valid host) (name : String) : Valid (stopBridge st env name host).2 := by
  refine Res.andThen_cases (P := fun x => Valid x.2) ?_ (fun _ _ => by rw [getBridge_host]; exact h)
  intro device s hget
  obtain ⟨rfl, hread, row, hrow, rfl⟩ := getBridge_ok hget
  refine Res.andThen_cases (P := fun x => Valid x.2) ?_ (fun _ _ => h)
  intro _ s hconfirm
  obtain ⟨-, rfl⟩ := Prod.mk.inj hconfirm
  have hends := stopDevice_ends env (Device.fromRow env.os s.alive row) s
  refine Res.andThen_cases (P := fun x => Valid x.2) ?_ (fun _ _ => h.mono hends)
  intro device s' hstop
  exact valid_saveStopped h (List.mem_of_find?_eq_some hrow) hstop

theorem valid_stopShard (h : Valid host) (name : String) : Valid (stopShard st env name host).2 := by
  refine Res.andThen_cases (P := fun x => Valid x.2) ?_ (fun _ _ => by rw [getShard_host]; exact h)
  intro loaded s hget
  obtain ⟨rfl, hread, row, kernel, image, hfind, hload⟩ := getShard_ok hget
  refine Res.andThen_cases (P := fun x => Valid x.2) ?_ (fun _ _ => h)
  intro _ s hconfirm
  obtain ⟨-, rfl⟩ := Prod.mk.inj hconfirm
  have hends := stopShard_ends env loaded s
  refine Res.andThen_cases (P := fun x => Valid x.2) ?_ (fun _ _ => h.mono hends)
  intro shard s' hstop
  rw [hstop] at hends
  obtain ⟨hid, hbeside⟩ := stopShard_beside h (Shard.find_mem hfind).1 hload hstop
  apply (h.mono hends).saveShard
  rw [hid]
  exact hbeside

theorem valid_stopRunning (h : Valid host) {row : DeviceRow} (hrow : row ∈ host.db.devices) :
    Valid (stopRunning st env (Device.fromRow env.os host.alive row) host).2 := by
  unfold stopRunning
  split
  · refine Res.andThen_cases (P := fun x => Valid x.2) ?_ (fun _ _ => h)
    intro _ s hconfirm
    obtain ⟨-, rfl⟩ := Prod.mk.inj hconfirm
    have hends := stopDevice_ends env (Device.fromRow env.os host.alive row) host
    refine Res.andThen_cases (P := fun x => Valid x.2) ?_ (fun _ _ => h.mono hends)
    intro device s hstop
    apply Res.andThen_keeps
    · exact valid_saveStopped h hrow hstop
    · exact fun _ _ hs => hs
  · exact h

/-- **After the first part of a deletion the row records no process alone**, when it did not record alone one that the
user may not signal. -/
theorem stopRunning_beside (h : Valid host) {row : DeviceRow} (hrow : row ∈ host.db.devices)
    (hden : ∀ pid ∈ host.alive, row.pid = some pid → env.os.denied pid = true →
      Recorded (withoutDevice host.db row.id) pid) {device : Device} {host' : Host}
    (hstop : stopRunning st env (Device.fromRow env.os host.alive row) host = (.ok device, host')) :
    device.id = row.id ∧ ∀ pid ∈ host'.alive, Recorded (withoutDevice host'.db row.id) pid := by
  unfold stopRunning at hstop
  by_cases hrun : (Device.fromRow env.os host.alive row).isRunning = true
  · rw [if_pos hrun] at hstop
    obtain ⟨_, s, hconfirm, hstop⟩ := Res.andThen_eq_ok.1 hstop
    obtain ⟨-, rfl⟩ := Prod.mk.inj hconfirm
    obtain ⟨stopped, s, hstopped, hstop⟩ := Res.andThen_eq_ok.1 hstop
    obtain ⟨_, s', hsave, hret⟩ := Res.andThen_eq_ok.1 hstop
    cases hret
    obtain ⟨hid, hbeside⟩ := stopDevice_beside h hrow hstopped
    unfold Device.save at hsave
    rw [transaction_update] at hsave
    cases hsaved : env.saved with
    | false =>
      rw [hsaved] at hsave
      cases hsave
    | true =>
      rw [hsaved] at hsave
      cases hsave
      refine ⟨hid, ?_⟩
      intro pid hpid
      have hrec := hbeside pid hpid
      rw [← hid] at hrec ⊢
      exact recorded_beside_saved hrec
  · rw [if_neg hrun] at hstop
    cases hstop
    refine ⟨rfl, ?_⟩
    intro pid hpid
    by_cases hrowpid : row.pid = some pid
    · exact hden pid hpid hrowpid ((loaded_device env.os host.alive row).denied hrun hpid hrowpid)
    · exact h.beside_device hrow hpid hrowpid

theorem valid_deleteBridge (h : Valid host) {name : String} (hsafe : Safe st env host (.deleteBridge name)) :
    Valid (deleteBridge st env name host).2 := by
  refine Res.andThen_cases (P := fun x => Valid x.2) ?_ (fun _ _ => by rw [getBridge_host]; exact h)
  intro device s hget
  obtain ⟨rfl, hread, row, hrow, rfl⟩ := getBridge_ok hget
  have hmem := List.mem_of_find?_eq_some hrow
  have hvalid : Valid (stopRunning st env (Device.fromRow env.os s.alive row) s).2 := valid_stopRunning h hmem
  refine Res.andThen_cases (P := fun x => Valid x.2) ?_ (fun _ _ => hvalid)
  intro device s' hstopped
  rw [hstopped] at hvalid
  refine Res.andThen_cases (P := fun x => Valid x.2) ?_ (fun _ _ => hvalid)
  intro _ s'' hanswer
  obtain ⟨hconfirm, rfl⟩ := Prod.mk.inj hanswer
  unfold Device.delete
  rw [transaction_update]
  cases hdeleted : env.deleted with
  | false => exact hvalid
  | true =>
    have hden := hsafe row hread hdeleted hconfirm hrow
    obtain ⟨hid, hbeside⟩ := stopRunning_beside h hmem hden hstopped
    refine ⟨nodup_deleteKey hvalid.devices _, hvalid.shards, ?_⟩
    intro pid hpid
    have hrec := hbeside pid hpid
    rw [← hid] at hrec
    exact hrec

theorem valid_shardDelete (h : Valid host) {name : String} (hsafe : Safe st env host (.shardDelete name)) :
    Valid (shardDelete st env name host).2 := by
  refine Res.andThen_cases (P := fun x => Valid x.2) ?_ (fun _ _ => by rw [getShard_host]; exact h)
  intro shard s hget
  obtain ⟨rfl, hread, row, kernel, image, hfind, hload⟩ := getShard_ok hget
  obtain ⟨hstate, hid⟩ := loaded_shard hload
  by_cases hrun : shard.isRunning = true
  · rw [if_pos hrun]
    exact h
  · rw [if_neg hrun]
    refine Res.andThen_cases (P := fun x => Valid x.2) ?_ (fun _ _ => h)
    intro _ s' hanswer
    obtain ⟨hconfirm, rfl⟩ := Prod.mk.inj hanswer
    apply Res.andThen_keeps
    · unfold Shard.delete
      rw [transaction_update]
      cases hdeleted : env.deleted with
      | false => exact h
      | true =>
        refine ⟨h.devices, nodup_deleteKey h.shards _, ?_⟩
        intro pid hpid
        rw [hid]
        by_cases hrowpid : row.pid = some pid
        · have hdenied := hstate.denied hrun hpid hrowpid
          exact hsafe row kernel image hread hdeleted hconfirm hfind pid hpid hrowpid hdenied
        · exact h.beside_shard (Shard.find_mem hfind).1 hpid hrowpid
    · exact fun _ s hs => hs.onFiles _

/-! ## Whole runs -/

/-- A step whose command finds what it has to. -/
def SafeStep (st : State) (host : Host) (e : Event) (host' : Host) : Prop :=
  Step st host e host' ∧ ∀ env c, e = .command env c → Safe st env host c

/-- **One step.** -/
theorem valid_step {e : Event} {host' : Host} (h : Valid host) (hstep : SafeStep st host e host') : Valid host' := by
  obtain ⟨hstep, hsafe⟩ := hstep
  cases e with
  | die pids =>
    cases hstep
    exact h.mono ⟨rfl, fun p hp => List.mem_of_mem_filter hp⟩
  | command env c =>
    obtain ⟨hfresh, rfl⟩ := hstep
    have hsafe := hsafe env c rfl
    cases c with
    | createBridge name => exact valid_createBridge h hfresh name
    | startBridge name => exact valid_startBridge h hsafe
    | stopBridge name => exact valid_stopBridge h name
    | deleteBridge name => exact valid_deleteBridge h hsafe
    | shardDeploy opts => exact valid_shardDeploy h hfresh opts
    | shardRun name => exact valid_shardRun h hsafe
    | stopShard name => exact valid_stopShard h name
    | shardDelete name => exact valid_shardDelete h hsafe

/-- **Live processes stay recorded**: in every run of bridge and shard commands and of deaths in between, from a start
without bridges, shards and processes, whose starts and deletions find what they have to. -/
theorem live_processes_recorded {start : Host} {events : List Event} (hstart : Start start)
    (hrun : Run (SafeStep st) start events host) : Tracked host := by
  obtain ⟨hdevices, hshards, halive⟩ := hstart
  have hvalid : Valid start := by
    refine ⟨by rw [hdevices]; exact List.nodup_nil, by rw [hshards]; exact List.nodup_nil, ?_⟩
    intro pid hpid
    rw [halive] at hpid
    cases hpid
  exact (Run.invariant (I := fun _ => Valid) hvalid (fun _ _ _ _ _ h hstep => valid_step h hstep) hrun).tracked

/-! ## A bridge that is started twice -/

def create : Event := .command (sampleEnv 1 none) (.createBridge (some "br0"))

def startAs (id : Uuid) (pid : Pid) : Event := .command (sampleEnv id (some ⟨pid, true⟩)) (.startBridge "br0")

/-- The hosts after a bridge was created, started, and started again. -/
def created : Host := (emptyHost.execute sampleState (sampleEnv 1 none) (.createBridge (some "br0"))).2

def started : Host := (created.execute sampleState (sampleEnv 2 (some ⟨100, true⟩)) (.startBridge "br0")).2

def restarted : Host := (started.execute sampleState (sampleEnv 3 (some ⟨101, true⟩)) (.startBridge "br0")).2

theorem step_created : Step sampleState emptyHost create created :=
  ⟨⟨by decide, by decide, fun _ h => (by cases h)⟩, rfl⟩

theorem step_started : Step sampleState created (startAs 2 100) started :=
  ⟨⟨by decide, by decide, fun _ h => (by cases h; decide)⟩, rfl⟩

theorem step_restarted : Step sampleState started (startAs 3 101) restarted :=
  ⟨⟨by decide, by decide, fun _ h => (by cases h; decide)⟩, rfl⟩

theorem live_bridge_recorded : Start emptyHost ∧
    Run (SafeStep sampleState) emptyHost [create, startAs 2 100] started ∧ Tracked started := by
  have hstart : Start emptyHost := ⟨rfl, rfl, rfl⟩
  have hrun : Run (SafeStep sampleState) emptyHost [create, startAs 2 100] started := by
    apply Run.cons (t := created)
    · refine ⟨step_created, ?_⟩
      intro env c h
      cases h
      trivial
    · apply Run.single
      refine ⟨step_started, ?_⟩
      intro env c h
      cases h
      intro f row hfork _ _ _ _
      cases hfork
      exact ⟨fun _ h => (by cases h), rfl, rfl⟩
  exact ⟨hstart, hrun, live_processes_recorded hstart hrun⟩

/-- **A second start loses the first process**: its pid is written over, and no row records it. -/
theorem second_start_loses_first :
    ¬ ∀ host, Run (Step sampleState) emptyHost [create, startAs 2 100, startAs 3 101] host → Tracked host := by
  intro h
  have hrun : Run (Step sampleState) emptyHost [create, startAs 2 100, startAs 3 101] restarted :=
    Run.cons step_created (Run.cons step_started (Run.single step_restarted))
  have hlost : ¬ Recorded restarted.db 100 := by decide
  exact hlost (h restarted hrun 100 (by decide))

end Host
end Oathgate
