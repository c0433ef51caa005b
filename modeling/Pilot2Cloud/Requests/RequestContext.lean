import Pilot2Cloud.Foundation.Transitions
import Mathlib.Logic.Function.Basic
import Mathlib.Tactic.Common
import Mathlib.Tactic.Simps.Basic

/-!
# Matching replies to waiting requests

A `RequestContextManager` keeps the requests that wait for a reply in a table.
Worker threads register a context, publish a message and wait; reply threads
look a context up, store the result and wake its worker.  The table and every
context have a mutex of their own.

The threads of both managers run interleaved.  A step takes one mutex and runs
to the point where the thread needs another one or releases what it holds.
-/

namespace Pilot2Cloud
namespace Requests

open Foundation

/-- The managers of the payload and the flight commands, each with a table and
a mutex. -/
inductive Manager
  | payload
  | flyto
  deriving DecidableEq, Repr

/-- What a worker waits for: the reply to a message, as `pb2json` writes it, or
a notice of the dock. -/
inductive Purpose
  | sendRequestAndWait (jsonStr : String)
  | waitForDockNotice
  deriving DecidableEq, Repr

/-- One call that waits for a reply. -/
structure Call where
  manager : Manager
  tid : String
  purpose : Purpose
  deriving DecidableEq, Repr

/-- The table and the key under which a call registers. -/
def Call.entry (call : Call) : Manager × String :=
  (call.manager, call.tid)

/-- A message on `drc/down`, with the fields that matter here. -/
structure DrcUpDown (δ : Type) where
  method : String
  seq : Nat
  data : δ

/-- A message on `services`, with the fields that matter here. -/
structure ServicesDown (δ : Type) where
  tid : String
  bid : String
  method : String
  data : δ

/-- A camera command registers under its method. -/
def CameraController.sendRequest
    (pb2json : DrcUpDown δ → String) (drcHeartbeatCount : Nat)
    (message : DrcUpDown δ) : Call :=
  let message := { message with seq := drcHeartbeatCount }
  let methodKey := message.method
  ⟨.payload, methodKey, .sendRequestAndWait (pb2json message)⟩

/-- A gimbal command registers under its method, too. -/
def GimbalController.sendRequest
    (pb2json : DrcUpDown δ → String) (drcHeartbeatCount : Nat)
    (message : DrcUpDown δ) : Call :=
  let message := { message with seq := drcHeartbeatCount }
  let methodKey := message.method
  ⟨.payload, methodKey, .sendRequestAndWait (pb2json message)⟩

/-- A flight command registers under the `tid` generated for it. -/
def FlytoController.sendRequest
    (pb2json : ServicesDown δ → String) (tid bid method : String) (data : δ) :
    Call :=
  let message : ServicesDown δ := ⟨tid, bid, method, data⟩
  ⟨.flyto, tid, .sendRequestAndWait (pb2json message)⟩

/-- Setting the focal length of the camera, for an example. -/
def zoomRequest : Call :=
  CameraController.sendRequest
    (fun _ => "\x7b\"method\":\"drc_camera_focal_length_set\"\x7d") 0
    ⟨"drc_camera_focal_length_set", 0, ()⟩

/-- Threads are named by the call or the reply they handle. -/
inductive Thread
  | worker (call : Nat)
  | replier (reply : Nat)
  deriving DecidableEq, Repr

/-- `m_requestMutex` of a manager, or `mtx` of the context of a call. -/
inductive Lock
  | request (manager : Manager)
  | context (call : Nat)
  deriving DecidableEq, Repr

/-- `RequestContext`, with the owner of its mutex. -/
structure RequestContext where
  finished : Bool := false
  result : Int := -1
  mtx : Option Thread := none
  deriving DecidableEq, Repr

/-- Where a worker stands in its call. -/
inductive WorkerState
  /-- It takes the table's mutex next to register its context. -/
  | registering
  /-- It is registered and serialises its message. -/
  | publishing
  /-- The message could not be serialised: `cleanup` is next. -/
  | abandoning
  /-- The message is published, and it takes its context's mutex next. -/
  | locking
  /-- It waits in `wait_for` with its context's mutex released. -/
  | waiting
  /-- It timed out and holds its context's mutex: `cleanup` is next. -/
  | timedOut
  | returned (success : Bool)
  deriving DecidableEq, Repr

/-- Where a reply thread stands in `findAndUpdateRequest`.  A reply answers the
message of a call and carries a result. -/
inductive ReplierState
  | idle
  /-- It takes the table's mutex next to look its key up. -/
  | arrived (answers : Nat) (result : Int)
  /-- It found the context of a call and takes the context's mutex next. -/
  | found (call answers : Nat) (result : Int)
  | returned (matched : Bool)
  deriving DecidableEq, Repr

/-- The tables with their mutexes, the contexts and the threads. -/
structure State where
  pendingRequests : Manager × String → Option Nat
  requestMutex : Manager → Option Thread
  context : Nat → RequestContext
  worker : Nat → WorkerState
  replier : Nat → ReplierState

/-- Nothing has been requested. -/
def State.initial : State where
  pendingRequests _ := none
  requestMutex _ := none
  context _ := {}
  worker _ := .registering
  replier _ := .idle

/-- The steps of workers and reply threads, by the call or reply they handle. -/
inductive Action
  | register (call : Nat)
  | publish (call : Nat)
  | abandon (call : Nat)
  | lockContext (call : Nat)
  | wake (call : Nat) (timeout : Bool)
  | cleanup (call : Nat)
  | arrive (reply answers : Nat) (result : Int)
  | find (reply : Nat)
  | update (reply : Nat)
  deriving DecidableEq, Repr

/-- What a call returns once its context is finished. -/
def Purpose.success (purpose : Purpose) (context : RequestContext) : Bool :=
  match purpose with
  | .sendRequestAndWait _ => context.result == 0
  | .waitForDockNotice => true

/-- The message of a call has gone to the device. -/
def State.Published (calls : Nat → Call) (state : State) (call : Nat) : Prop :=
  match (calls call).purpose, state.worker call with
  | .waitForDockNotice, _ => False
  | .sendRequestAndWait _, .registering => False
  | .sendRequestAndWait _, .publishing => False
  | .sendRequestAndWait jsonStr, _ => jsonStr ≠ ""

instance (calls : Nat → Call) (state : State) (call : Nat) :
    Decidable (state.Published calls call) := by
  unfold State.Published
  split <;> infer_instance

/-- A worker stands here. -/
@[simps]
def State.setWorker (state : State) (call : Nat) (worker : WorkerState) :
    State :=
  { state with worker := Function.update state.worker call worker }

/-- A call has another context. -/
@[simps]
def State.setContext (state : State) (call : Nat) (context : RequestContext) :
    State :=
  { state with context := Function.update state.context call context }

/-- A reply thread stands here. -/
@[simps]
def State.setReplier (state : State) (reply : Nat) (replier : ReplierState) :
    State :=
  { state with replier := Function.update state.replier reply replier }

/-- The table's mutex of a manager has another owner. -/
@[simps]
def State.setMutex (state : State) (manager : Manager)
    (owner : Option Thread) : State :=
  { state with
    requestMutex := Function.update state.requestMutex manager owner }

/-- A key of the table has another entry. -/
@[simps]
def State.setEntry (state : State) (entry : Manager × String)
    (call : Option Nat) : State :=
  { state with
    pendingRequests := Function.update state.pendingRequests entry call }

/-- The first part of a call: register a new context. -/
def register (calls : Nat → Call) (state : State) (call : Nat) :
    Option State :=
  if state.worker call = .registering ∧
      state.requestMutex (calls call).manager = none then
    let state := state.setContext call {}
    let state := state.setEntry (calls call).entry (some call)
    some <| state.setWorker call <| match (calls call).purpose with
      | .sendRequestAndWait _ => .publishing
      | .waitForDockNotice => .locking
  else none

/-- Serialise the message and publish it if that worked. -/
def publish (calls : Nat → Call) (state : State) (call : Nat) :
    Option State :=
  if state.worker call = .publishing then
    some <| state.setWorker call <|
      if (calls call).purpose = .sendRequestAndWait "" then .abandoning
      else .locking
  else none

/-- Take the context's mutex to wait: an answered request returns, another one
releases the mutex until it is woken. -/
def lockContext (calls : Nat → Call) (state : State) (call : Nat) :
    Option State :=
  let context := state.context call
  if state.worker call = .locking ∧ context.mtx = none then
    some <| state.setWorker call <|
      if context.finished then
        .returned ((calls call).purpose.success context)
      else .waiting
  else none

/-- Wake up in `wait_for`, on a notification, spuriously or at the timeout. -/
def wake (calls : Nat → Call) (state : State) (call : Nat) (timeout : Bool) :
    Option State :=
  let context := state.context call
  if state.worker call = .waiting ∧ context.mtx = none then
    if context.finished then
      some <| state.setWorker call <|
        .returned ((calls call).purpose.success context)
    else if timeout then
      let context := { context with mtx := some (.worker call) }
      some <| (state.setContext call context).setWorker call .timedOut
    else some state
  else none

/-- `cleanup`: erase whatever is registered under the call's key. -/
@[simps!]
def eraseEntry (calls : Nat → Call) (state : State) (call : Nat) : State :=
  state.setEntry (calls call).entry none

/-- `cleanup` of a call whose message could not be serialised. -/
def abandon (calls : Nat → Call) (state : State) (call : Nat) :
    Option State :=
  if state.worker call = .abandoning ∧
      state.requestMutex (calls call).manager = none then
    some <| (eraseEntry calls state call).setWorker call (.returned false)
  else none

/-- `cleanup` of a call that timed out, which holds its context's mutex until
it returns. -/
def cleanup (calls : Nat → Call) (state : State) (call : Nat) :
    Option State :=
  if state.worker call = .timedOut ∧
      state.requestMutex (calls call).manager = none then
    let context := { state.context call with mtx := none }
    let state := (eraseEntry calls state call).setContext call context
    some <| state.setWorker call (.returned false)
  else none

/-- A reply of the device to a published message comes in. -/
def arrive (calls : Nat → Call) (state : State) (reply answers : Nat)
    (result : Int) : Option State :=
  if state.replier reply = .idle ∧ state.Published calls answers then
    some <| state.setReplier reply (.arrived answers result)
  else none

/-- The first part of `findAndUpdateRequest`.  A reply carries the method and
the `tid` of the message it answers, and so its key. -/
def find (calls : Nat → Call) (state : State) (reply : Nat) : Option State :=
  match state.replier reply with
  | .arrived answers result =>
      let entry := (calls answers).entry
      if state.requestMutex entry.1 = none then
        match state.pendingRequests entry with
        | none => some <| state.setReplier reply (.returned false)
        | some call =>
            let state := state.setMutex entry.1 (some (.replier reply))
            some <| state.setReplier reply (.found call answers result)
      else none
  | _ => none

/-- The second part of `findAndUpdateRequest`, under both mutexes. -/
def update (calls : Nat → Call) (state : State) (reply : Nat) : Option State :=
  match state.replier reply with
  | .found call answers result =>
      let entry := (calls answers).entry
      if (state.context call).mtx = none then
        let state := state.setContext call ⟨true, result, none⟩
        let state := (state.setEntry entry none).setMutex entry.1 none
        some <| state.setReplier reply (.returned true)
      else none
  | _ => none

/-- One step of one thread, if it can take it. -/
def step (calls : Nat → Call) (state : State) : Action → Option State
  | .register call => register calls state call
  | .publish call => publish calls state call
  | .abandon call => abandon calls state call
  | .lockContext call => lockContext calls state call
  | .wake call timeout => wake calls state call timeout
  | .cleanup call => cleanup calls state call
  | .arrive reply answers result => arrive calls state reply answers result
  | .find reply => find calls state reply
  | .update reply => update calls state reply

/-- One step leads to a state. -/
def Step (calls : Nat → Call) (state : State) (action : Action)
    (next : State) : Prop :=
  step calls state action = some next

end Requests
end Pilot2Cloud
