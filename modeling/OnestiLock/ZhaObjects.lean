import Mathlib.Data.List.Basic
import OnestiLock.ZhaDevices

/-! The objects of a running ZHA (`zha.py`): a proxy over each device, the
`.device` chain below it, and the Door Lock cluster somewhere on the chain. -/

namespace OnestiLock

open Python

/-- A zigpy cluster object, with the hooks it offers. -/
structure ZhaCluster where
  id : Nat
  typeName : Text
  onEvent : Bool
  addListener : Bool
  removeListener : Bool
  deriving DecidableEq

structure ZhaEndpoint where
  id : Int
  inClusters : List (Nat × ZhaCluster)

/-- One object of a chain; an attribute it does not have is `none`. -/
structure ZhaObject where
  endpoints : Option (List ZhaEndpoint)
  manufacturer : Option (Option Text)
  model : Option (Option Text)

/-- An item of `device_proxies`: the key as `str` writes it, the proxy, and the
objects `.device` leads to from it. -/
structure DeviceProxy where
  ieee : Text
  proxy : ZhaObject
  chain : List ZhaObject

/-- `get_zha_gateway_proxy`, `none` for its `ValueError`. -/
abbrev GatewayProxy := Option (List DeviceProxy)

def doorlockClusterId : Nat := 0x0101

def chainDepth : Nat := 4

/-- The first endpoint but endpoint 0 that has the cluster. -/
def ZhaObject.doorLockCluster (obj : ZhaObject) : Option ZhaCluster :=
  (obj.endpoints.getD []).findSome? (fun ep =>
    if ep.id = 0 then none else ep.inClusters.lookup doorlockClusterId)

def walkToDoorLockCluster : Nat → List ZhaObject → Option ZhaCluster
  | 0, _ => none
  | _ + 1, [] => none
  | depth + 1, obj :: chain => obj.doorLockCluster.or (walkToDoorLockCluster depth chain)

def DeviceProxy.doorLockCluster (device : DeviceProxy) : Option ZhaCluster :=
  walkToDoorLockCluster chainDepth (device.proxy :: device.chain)

def hasDoorLockCluster (device : DeviceProxy) : Bool := device.doorLockCluster.isSome

def deviceMetadata (device : DeviceProxy) : Option Text × Option Text :=
  let obj := device.chain.headD device.proxy
  (obj.manufacturer.getD (some []), obj.model.getD (some []))

def deviceProxies (gateway : GatewayProxy) : List DeviceProxy := gateway.getD []

section

variable (lower : Text → Text) (gateway : GatewayProxy) (ieee : Text)

def findDoorLockCluster : Option ZhaCluster :=
  (deviceProxies gateway).findSome? (fun device =>
    if lower device.ieee = lower ieee then device.doorLockCluster else none)

/-- `_lock_in_zha`. -/
def lockInZha : Bool := (deviceProxies gateway).any (fun device => lower device.ieee == lower ieee)

/-- `model_in_zha`. -/
def modelOfLock : Option Text :=
  match (deviceProxies gateway).find? (fun device => lower device.ieee == lower ieee) with
  | some device => (deviceMetadata device).2
  | none => some []

end

/-! The device list the flows and the discovery read is this one, object by
object. -/

def DeviceProxy.device (device : DeviceProxy) : ZhaDevice where
  ieee := device.ieee
  manufacturer := (deviceMetadata device).1
  model := (deviceMetadata device).2
  doorLock := hasDoorLockCluster device

def GatewayProxy.gateway (gateway : GatewayProxy) : Gateway := gateway.map (List.map DeviceProxy.device)

theorem iterDeviceProxies_gateway (gateway : GatewayProxy) :
    iterDeviceProxies gateway.gateway = (deviceProxies gateway).map DeviceProxy.device := by
  cases gateway <;> rfl

/-- A lock that a flow offers is in ZHA, with the cluster a write goes through. -/
theorem findDoorLockCluster_of_offered (lower : Text → Text) {gateway : GatewayProxy} {lock : Text × Option Text}
    (h : lock ∈ iterOnestiLocks gateway.gateway) :
    lockInZha lower gateway lock.1 = true ∧ (findDoorLockCluster lower gateway lock.1).isSome := by
  unfold iterOnestiLocks at h
  rw [iterDeviceProxies_gateway, List.mem_filterMap] at h
  obtain ⟨listed, hlisted, hoffered⟩ := h
  obtain ⟨device, hdevice, rfl⟩ := List.mem_map.mp hlisted
  split at hoffered
  · cases hoffered
  · rename_i hshown
    cases hoffered
    have hcluster : device.doorLockCluster.isSome := by
      simpa [DeviceProxy.device, hasDoorLockCluster, Option.isSome_iff_ne_none] using (not_or.mp hshown).2
    constructor
    · rw [lockInZha, List.any_eq_true]
      exact ⟨device, hdevice, by simp [DeviceProxy.device]⟩
    · rw [findDoorLockCluster, List.findSome?_isSome_iff]
      exact ⟨device, hdevice, by simpa [DeviceProxy.device] using hcluster⟩

end OnestiLock
