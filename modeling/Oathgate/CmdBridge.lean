import Oathgate.CmdHost
/-!
# CmdBridge — devices and the bridge commands (`oathgate`: `database/device.rs`, `cmd/bridge.rs`)

A device is loaded from the first row with its name, with the state its pid is found in, and saved under its id.
-/
namespace Oathgate

open Lib

namespace Database

structure Device where
  id : Uuid
  name : String
  state : ProcessState
  deriving DecidableEq, Repr

namespace Device

/-- `Device::from_row`.  A check that fails counts as a dead process. -/
def fromRow (os : Os) (alive : List Pid) (row : DeviceRow) : Device :=
  { id := row.id
    name := row.name
    state :=
      match row.pid with
      | none => .stopped
      | some pid =>
        match Process.check os alive pid with
        | .ok state => state
        | _ => .dead pid }

def toRow (device : Device) : DeviceRow := { id := device.id, pid := device.state.optional, name := device.name }

def save (env : Env) (device : Device) (host : Host) : Res AppError Unit × Host :=
  host.transaction env.saved fun db =>
    .ok ((), { db with devices := upsert DeviceRow.id db.devices device.toRow })

def get (env : Env) (name : String) (host : Host) : Res AppError (Option Device) × Host :=
  host.query env.read fun db =>
    .ok ((db.devices.find? (fun row => decide (row.name = name))).map (fromRow env.os host.alive))

/-- `Device::get_many`, with an error that names what is missing. -/
def getMany (env : Env) (names : List String) (host : Host) : Res AppError (List Device) × Host :=
  Res.andThen
    (host.query env.read fun db =>
      .ok ((db.devices.filter (fun row => decide (row.name ∈ names))).map (fromRow env.os host.alive)))
    fun devices host =>
      if devices.length ≠ names.length then
        let missing := names.dedup.filter (fun name => decide (name ∉ devices.map Device.name))
        (.err (.msg ("unable to find the following devices: " ++ ", ".intercalate missing)), host)
      else (.ok devices, host)

theorem getMany_host (env : Env) (names : List String) (host : Host) : (getMany env names host).2 = host := by
  apply Res.andThen_keeps (P := fun s => s = host)
  · exact host.query_host env.read _
  · rintro devices s rfl
    simp only
    split
    · rfl
    · rfl

def delete (env : Env) (device : Device) (host : Host) : Res AppError Unit × Host :=
  host.transaction env.deleted fun db => .ok ((), { db with devices := deleteKey DeviceRow.id db.devices device.id })

def isRunning (device : Device) : Bool := device.state.isRunning

def setStarted (pid : Pid) (device : Device) : Device := { device with state := .running pid }

def stop (env : Env) (device : Device) (host : Host) : Res AppError Device × Host :=
  Res.andThen (host.stop env "unable to stop device: permission denied" device.state) fun state host =>
    (.ok { device with state }, host)

end Device
end Database

namespace Bridge

open Database

def getBridge (env : Env) (name : String) (host : Host) : Res AppError Device × Host :=
  Res.andThen (Device.get env name host) fun device host =>
    match device with
    | some device => (.ok device, host)
    | none => (.err (.msg ("device '" ++ name ++ "' not found")), host)

theorem getBridge_host (env : Env) (name : String) (host : Host) : (getBridge env name host).2 = host := by
  apply Res.andThen_keeps (P := fun s => s = host)
  · exact host.query_host env.read _
  · rintro (_ | device) s rfl
    · rfl
    · rfl

/-- **A bridge that is found is the first row with its name.** -/
theorem getBridge_ok {env : Env} {name : String} {host host' : Host} {device : Device}
    (h : getBridge env name host = (.ok device, host')) :
    host' = host ∧ env.read = true ∧
      ∃ row, host.db.devices.find? (fun row => decide (row.name = name)) = some row ∧
        device = Device.fromRow env.os host.alive row := by
  obtain ⟨found, s, hget, hret⟩ := Res.andThen_eq_ok.1 h
  obtain ⟨rfl, hread, hfound⟩ := Host.query_ok hget
  cases found with
  | none => cases hret
  | some d =>
    cases hret
    obtain ⟨row, hrow, hd⟩ := Option.map_eq_some_iff.1 (Res.ok.inj hfound)
    exact ⟨rfl, hread, row, hrow, hd.symm⟩

def createBridge (env : Env) (name : Option String) (host : Host) : Res AppError Unit × Host :=
  match name.or env.name with
  | none => (.err (.msg "unable to generate name for device, please provide one"), host)
  | some name =>
    Res.andThen (host.guard env.loaded .io) fun _ host =>
      Device.save env { id := env.id, name, state := .stopped } host

def startBridge (st : State) (env : Env) (name : String) (host : Host) : Res AppError Unit × Host :=
  Res.andThen (getBridge env name host) fun device host =>
  Res.andThen ((host.subdir st env "networks").guard env.built .io) fun _ host =>
  Res.andThen (host.guard env.subscriber .database) fun _ host =>
  Res.andThen (host.fork env) fun pid host =>
    Device.save env (device.setStarted pid) host

def stopBridge (st : State) (env : Env) (name : String) (host : Host) : Res AppError Unit × Host :=
  Res.andThen (getBridge env name host) fun device host =>
  Res.andThen (confirm st env "Stop bridge?", host) fun _ host =>
  Res.andThen (Device.stop env device host) fun device host =>
    Device.save env device host

/-- The first part of `delete_bridge`: a running bridge is stopped and saved. -/
def stopRunning (st : State) (env : Env) (device : Device) (host : Host) : Res AppError Device × Host :=
  if device.isRunning then
    Res.andThen (confirm st env "Stop bridge?", host) fun _ host =>
    Res.andThen (Device.stop env device host) fun device host =>
    Res.andThen (Device.save env device host) fun _ host => (.ok device, host)
  else (.ok device, host)

def deleteBridge (st : State) (env : Env) (name : String) (host : Host) : Res AppError Unit × Host :=
  Res.andThen (getBridge env name host) fun device host =>
  Res.andThen (stopRunning st env device host) fun device host =>
  Res.andThen (confirm st env "Delete bridge?", host) fun _ host =>
    Device.delete env device host

end Bridge
end Oathgate
