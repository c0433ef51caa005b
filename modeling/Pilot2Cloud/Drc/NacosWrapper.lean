import Mathlib.Data.String.Basic
import Pilot2Cloud.Foundation.SortedMap
import Pilot2Cloud.Foundation.Transitions

/-!
# The instances of a service

The wrapper keeps a table of the instances of each service that it has
subscribed to, merges every update of a service into it, and hands out the
instances of a service in turn.
-/

namespace Pilot2Cloud
namespace Drc

open Foundation

/-- An instance of a service, as Nacos lists it. -/
structure Instance where
  ip : String
  port : Int
  healthy : Bool

/-- The key of an instance in the table. -/
def Instance.key (instanceInfo : Instance) : String :=
  instanceInfo.ip ++ ":" ++ toString instanceInfo.port

/-- The instances of a service by their keys. -/
abbrev INSTANCE_INFO_MAP := SortedMap String Instance

/-- The two tables of the wrapper. -/
structure DrcNacosWrapper where
  ServiceInstanceMap : SortedMap String INSTANCE_INFO_MAP
  pollerInstanceMap : SortedMap String String

namespace DrcNacosWrapper

/-- The wrapper after its construction. -/
def start : DrcNacosWrapper := ⟨.empty, .empty⟩

/-- One instance of a first update. -/
def insertFirst (instanceMap : INSTANCE_INFO_MAP) (it : Instance) :
    INSTANCE_INFO_MAP :=
  instanceMap.insert it.key it

/-- One instance of a later update: a new one, one that has gone offline, or one
that is still there. -/
def mergeInstance (instanceMap : INSTANCE_INFO_MAP) (it : Instance) :
    INSTANCE_INFO_MAP :=
  match instanceMap.find it.key with
  | none => instanceMap.insert it.key it
  | some _ =>
      if it.healthy = false then instanceMap.erase it.key
      else instanceMap.assign it.key it

/-- `updataClusterInstance`, with what the query for the instances of the service
returned, which is no list when it failed.  The result is `none` when the table
entry of a service that is not in the table is read. -/
def updataClusterInstance (wrapper : DrcNacosWrapper) (serviceName : String)
    (query : Option (List Instance)) : Option DrcNacosWrapper :=
  let instances := query.getD []
  if instances.length ≤ 0 then
    match wrapper.ServiceInstanceMap.find serviceName with
    | none => none
    | some _ => some { wrapper with
        ServiceInstanceMap :=
          wrapper.ServiceInstanceMap.assign serviceName .empty }
  else
    match wrapper.ServiceInstanceMap.find serviceName with
    | none => some
        { ServiceInstanceMap := wrapper.ServiceInstanceMap.insert serviceName
            (instances.foldl insertFirst .empty)
          pollerInstanceMap :=
            wrapper.pollerInstanceMap.insert serviceName "" }
    | some instanceMap => some { wrapper with
        ServiceInstanceMap := wrapper.ServiceInstanceMap.assign serviceName
          (instances.foldl mergeInstance instanceMap) }

/-- The instance of the service that was handed out last. -/
def poller (wrapper : DrcNacosWrapper) (serviceName : String) : String :=
  (wrapper.pollerInstanceMap.find serviceName).getD ""

/-- The first instance that is not the one that was handed out last. -/
def nextInstance (last : String) : List (String × Instance) → Option Instance
  | [] => none
  | (key, it) :: rest =>
      if last.utf8ByteSize < 3 then some it
      else if last ≠ key then some it
      else nextInstance last rest

/-- What `GetHealthyInstance` returns: its value, and the address and the port,
which stay as they were when there is nothing to hand out. -/
structure Handed where
  value : Int
  instanceIP : String
  instancePort : String

/-- Hand out an instance. -/
def hand (wrapper : DrcNacosWrapper) (serviceName : String) (it : Instance) :
    Handed × DrcNacosWrapper :=
  let instanceIP := it.ip
  let instancePort := toString it.port
  (⟨0, instanceIP, instancePort⟩, { wrapper with
    pollerInstanceMap := wrapper.pollerInstanceMap.assign serviceName
      (instanceIP ++ ":" ++ instancePort) })

/-- `GetHealthyInstance`. -/
def GetHealthyInstance (wrapper : DrcNacosWrapper)
    (serviceName instanceIP instancePort : String) :
    Handed × DrcNacosWrapper :=
  match wrapper.ServiceInstanceMap.find serviceName with
  | none => (⟨-1, instanceIP, instancePort⟩, wrapper)
  | some instance_info =>
      match instance_info.entries with
      | [] => (⟨-1, instanceIP, instancePort⟩, wrapper)
      | [(_, it)] => wrapper.hand serviceName it
      | entries =>
          match nextInstance (wrapper.poller serviceName) entries with
          | none => (⟨0, instanceIP, instancePort⟩, wrapper)
          | some it => wrapper.hand serviceName it

end DrcNacosWrapper

end Drc
end Pilot2Cloud
