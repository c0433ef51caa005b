import Mathlib
import Pilot2Cloud.Timers.TimerManager

/-!
# The timer service

The service checks the parameters of its callers and passes the requests on to
the timer manager.  A session records what the callers and the receivers of
timeouts see; it gives each timer a number of its own, which, unlike an ID, is
never used again.
-/

namespace Pilot2Cloud
namespace Timers

/-- The timer service with its manager.  How many modules there are is a
constant of the build. -/
structure TimerService where
  enabled : Bool
  moduleMax : UInt32
  manager : TimerManager

namespace TimerService

/-- Start a one-shot timer; the tick that is under way does not count. -/
def pfTimerStart
    (service : TimerService) (srcModuleId duration typeId : UInt32)
    (param : UInt64) (hasTimerId : Bool) :
    TimerService × Except TimerReturnValue UInt32 :=
  if service.enabled = false then
    (service, .error .outOfService)
  else if service.moduleMax ≤ srcModuleId ∨ hasTimerId = false then
    (service, .error .paramError)
  else
    let (manager, result) :=
      service.manager.tmSetTimer srcModuleId (duration + 1) typeId param 0
    ({ service with manager := manager }, result)

/-- `pf_timer_cycle_start`. -/
def pfTimerCycleStart
    (service : TimerService) (srcModuleId duration typeId : UInt32)
    (param : UInt64) (hasTimerId : Bool) :
    TimerService × Except TimerReturnValue UInt32 :=
  if service.enabled = false then
    (service, .error .outOfService)
  else if service.moduleMax ≤ srcModuleId ∨ hasTimerId = false ∨
      duration = 0 then
    (service, .error .paramError)
  else
    let (manager, result) :=
      service.manager.tmSetTimer srcModuleId duration typeId param 1
    ({ service with manager := manager }, result)

/-- `pf_timer_stop`. -/
def pfTimerStop (service : TimerService) (timerId srcModuleId : UInt32) :
    TimerService × TimerReturnValue :=
  if service.enabled = false then
    (service, .outOfService)
  else
    let (manager, result) := service.manager.tmKillTimer timerId srcModuleId
    ({ service with manager := manager }, result)

/-- `pf_timer_restart`. -/
def pfTimerRestart (service : TimerService) (timerId srcModuleId : UInt32) :
    TimerService × TimerReturnValue :=
  if service.enabled = false then
    (service, .outOfService)
  else
    let (manager, result) := service.manager.tmRestartTimer timerId srcModuleId
    ({ service with manager := manager }, result)

end TimerService

/-- A timer as its starter describes it. -/
structure Started where
  moduleId : UInt32
  message : TimerExpireMsg
  duration : UInt32
  cyclic : Bool
  deriving DecidableEq

/-- What is seen of the timers. -/
inductive Event
  | started (serial : Nat) (timer : Started)
  | stopped (serial : Nat)
  | restarted (serial : Nat)
  | refused
  | ticked (timeouts : List (Nat × Timeout))

/-- A request to the service, or a tick of its clock. -/
inductive Request
  | start (srcModuleId duration typeId : UInt32) (param : UInt64)
      (hasTimerId : Bool)
  | cycleStart (srcModuleId duration typeId : UInt32) (param : UInt64)
      (hasTimerId : Bool)
  | stop (timerId srcModuleId : UInt32)
  | restart (timerId srcModuleId : UInt32)
  | tick (sends : Nat → Bool)

/-- The service, the number of timers started so far, the number of the timer
last started in each unit, and what was seen. -/
structure Session where
  service : TimerService
  timersStarted : Nat
  serialOf : Nat → Nat
  log : List Event

namespace Session

/-- No timer has been asked for. -/
def initial (service : TimerService) : Session :=
  ⟨service, 0, fun _ => 0, []⟩

/-- Another event is seen. -/
def record (session : Session) (service : TimerService) (event : Event) :
    Session :=
  { session with service := service, log := session.log ++ [event] }

/-- Give a started timer the next number. -/
def enroll (session : Session) (service : TimerService) (timer : Started) :
    Session :=
  let serial := session.timersStarted + 1
  { service := service
    timersStarted := serial
    serialOf := Function.update session.serialOf
      (timerIndex timer.message.timerId) serial
    log := session.log ++ [.started serial timer] }

@[simp] theorem serialOf_enroll
    {session : Session} {service : TimerService} {timer : Started} :
    (session.enroll service timer).serialOf =
      Function.update session.serialOf (timerIndex timer.message.timerId)
        (session.timersStarted + 1) :=
  rfl

/-- The number of the timer that an ID leads to. -/
def serialOfId (session : Session) (timerId : UInt32) : Nat :=
  session.serialOf (timerIndex timerId)

/-- The session after a request, if the walk of a tick has the fuel to end. -/
def perform (fuel : Nat) (session : Session) : Request → Option Session
  | .start srcModuleId duration typeId param hasTimerId =>
      match session.service.pfTimerStart srcModuleId duration typeId param
        hasTimerId with
      | (service, .ok timerId) => some (session.enroll service
          ⟨srcModuleId, ⟨timerId, typeId, param⟩, duration, false⟩)
      | (service, .error _) => some (session.record service .refused)
  | .cycleStart srcModuleId duration typeId param hasTimerId =>
      match session.service.pfTimerCycleStart srcModuleId duration typeId param
        hasTimerId with
      | (service, .ok timerId) => some (session.enroll service
          ⟨srcModuleId, ⟨timerId, typeId, param⟩, duration, true⟩)
      | (service, .error _) => some (session.record service .refused)
  | .stop timerId srcModuleId =>
      match session.service.pfTimerStop timerId srcModuleId with
      | (service, .success) => some (session.record service
          (.stopped (session.serialOfId timerId)))
      | (service, _) => some (session.record service .refused)
  | .restart timerId srcModuleId =>
      match session.service.pfTimerRestart timerId srcModuleId with
      | (service, .success) => some (session.record service
          (.restarted (session.serialOfId timerId)))
      | (service, _) => some (session.record service .refused)
  | .tick sends =>
      match session.service.manager.tmTick fuel sends with
      | none => none
      | some (manager, timeouts) => some (session.record
          { session.service with manager := manager }
          (.ticked (timeouts.map fun timeout =>
            (session.serialOfId timeout.message.timerId, timeout))))

end Session
end Timers
end Pilot2Cloud
