import SparseDevice.Session.Step

/-!
# Reports

A session is watched step by step: the answer, the events of the step as lines of text, and the
counters of every device that has a name. Where the order of events inside a step is left open,
because entries may go in any order or be acquired at once, the lines come sorted.

`Trial` is the shortest session around a single routine call.

## Main definitions

* `Report`: what is seen of a step.
* `Session.watch`: the reports of a list of steps.
* `Trial.run`: one routine call on a new device.
-/

namespace SparseDevice

/-- What a device has counted. -/
structure Counters where
  created : Nat
  bound : Nat
  destroyed : Nat
  live : Nat
deriving DecidableEq

/-- The counters of a device. -/
def Device.counters (d : Device) : Counters := ⟨d.created, d.bound, d.destroyed, d.live⟩

/-- What is seen of a step. -/
structure Report where
  answer : Answer
  /-- The events of the step, as lines of text. -/
  log : List String
  /-- The counters of the devices after the step. -/
  devices : List (String × Counters)

/-- Whether the events of a step have no order of their own. -/
def Step.isUnordered : Step → Bool
  | .race .. | .dropCache .. => true
  | _ => false

namespace Session

/-- Does one step and reports it. -/
def report (s : Session) (t : Step) : Session × Report :=
  let (after, answer) := s.step t
  let lines := (after.world.log.drop s.world.log.length).map Event.line
  let log := if t.isUnordered then lines.mergeSort fun a b => decide (a ≤ b) else lines
  let devices := after.devices.map fun (name, serial) =>
    (name, (after.world.device serial).counters)
  (after, ⟨answer, log, devices⟩)

/-- The reports of a list of steps. -/
def watch (s : Session) : List Step → List Report
  | [] => []
  | t :: rest =>
    let (s, report) := s.report t
    report :: s.watch rest

end Session

/-- How a single routine call is made. -/
inductive Trial where
  /-- Through a context that is prepared. -/
  | context
  /-- Through a context that is not prepared. -/
  | unpreparedContext
  /-- With a handle bound to a stream. -/
  | handle
  /-- With a handle fresh from the device. -/
  | unboundHandle
deriving DecidableEq

namespace Trial

/-- The steps before the call, and what it runs with. -/
def setting : Trial → List Step × Target
  | context =>
    ([.addDevice "device", .addCache "cache" "device", .addContext "context" "cache" ⟨0⟩,
      .prepareContext "context"], .context "context")
  | unpreparedContext =>
    ([.addDevice "device", .addCache "cache" "device", .addContext "context" "cache" ⟨0⟩],
      .context "context")
  | handle =>
    ([.addDevice "device", .createHandle "device" "handle",
      .bindHandle "device" "handle" ⟨0⟩], .handle "device" "handle")
  | unboundHandle =>
    ([.addDevice "device", .createHandle "device" "handle"], .handle "device" "handle")

/-- Makes a routine call on a new device whose routines are armed with a status: the answer and the
calls that got through. -/
def run (t : Trial) (armed : Status) (job : Job) : Answer × List Call :=
  let (steps, target) := t.setting
  let before := Session.empty.after (steps ++ [.arm "device" .routine armed])
  let (after, answer) := before.step (.run target job)
  (answer, (after.world.device 0).calls)

end Trial

end SparseDevice
