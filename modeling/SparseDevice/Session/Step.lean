import SparseDevice.Inspect

/-!
# Steps of a session

A step names what it works on and what it makes. A name that is in no table is answered as missing,
and then nothing happens. A step that ends in a fault leaves the session in the state in which the
fault occurred, and the session goes on.

## Main definitions

* `Step`: what a session can be told to do.
* `Answer`: what it answers.
* `Session.step`: one step.
-/

namespace SparseDevice

/-- What a routine call runs with. -/
inductive Target where
  /-- A context, which brings its device and its handle. -/
  | context (name : String)
  /-- A device and a handle that no entry owns. -/
  | handle (device name : String)
  /-- A device and the handle of an entry. -/
  | entry (device name : String)
  /-- A device and the handle of a shared entry. -/
  | reference (device name : String)
deriving DecidableEq

/-- What can be shown as text. -/
inductive Subject where
  | device
  | handle
  | entry
  | reference
  | cache
  | context
  | calls
deriving DecidableEq

/-- What a session can be told to do. -/
inductive Step where
  | addDevice (id : String)
  | arm (device : String) (kind : CallKind) (status : Status)
  | showCalls (device : String)
  | clearCalls (device : String)
  | createHandle (device id : String)
  | bindHandle (device handle : String) (stream : Stream)
  | destroyHandle (device handle : String)
  | showHandle (handle : String)
  | addEntry (id device : String) (stream : Stream)
  | prepareEntry (entry : String)
  | showEntry (entry : String)
  | entryHandle (entry : String)
  | rebindEntry (entry : String) (stream : Stream)
  | takeEntry (entry id : String)
  | assignEntry (entry source : String)
  | destroyEntry (entry : String)
  | dropEntry (entry : String)
  /-- A cache over a device that has a name. -/
  | addCache (id device : String) (layout : List (List Stream) := [])
  /-- A cache over a device of its own, which gets a name. -/
  | addCacheWithDevice (id device : String) (layout : List (List Stream) := [])
  | acquire (cache : String) (stream : Stream) (id : String)
  | get (cache : String) (stream : Stream) (id : String)
  | contains (cache : String) (stream : Stream)
  | showCache (cache : String)
  /-- Acquires all streams at once. -/
  | race (cache : String) (streams : List Stream)
  | dropCache (cache : String)
  | showReference (reference : String)
  | cloneReference (reference id : String)
  /-- Whether two references lead to the same entry. -/
  | sameEntry (reference other : String)
  | dropReference (reference : String)
  | addContext (id cache : String) (stream : Stream)
  | prepareContext (context : String)
  | showContext (context : String)
  | contextHandle (context id : String)
  | dropContext (context : String)
  | run (target : Target) (job : Job)
  | inspect (subject : Subject) (name : String)

/-- What a step that succeeds answers. -/
inductive Value where
  | nothing
  | flag (b : Bool)
  | text (t : String)
  | handle (h : Handle)
  | calls (cs : List Call)
  | entry (e : Entry) (device : Option String)
  | cache (streams : List Stream) (device : Option String)
  | race (distinct failures : Nat)
  | reference (h : Handle) (e : Entry)
  | context (ctx : Context)
deriving DecidableEq

/-- Why a step fails. -/
inductive Failure where
  /-- The device answered with a status. -/
  | status (s : Status)
  /-- A handle could not be brought up. -/
  | initialization (f : InitFailure)
  /-- A context refused. -/
  | context (e : ContextError)
deriving DecidableEq

/-- What a step answers. -/
inductive Answer where
  /-- A name is in no table. -/
  | missing
  /-- A cache cannot go while a context uses it. -/
  | busy
  | value (v : Value)
  | failure (f : Failure)
  | fault (f : Fault)
  /-- A routine came back: its reply or why it has none, and the job as it leaves it. -/
  | ran (result : Except Failure Reply) (job : Job)

namespace Answer

/-- Nothing to tell. -/
def done : Answer := .value .nothing

/-- An answer that a fault takes the place of. -/
def orFault (a : Answer) : Except Fault Unit → Answer
  | .ok () => a
  | .error f => .fault f

@[simp] theorem orFault_ok (a : Answer) : a.orFault (.ok ()) = a := rfl

@[simp] theorem orFault_error (a : Answer) (f : Fault) : a.orFault (.error f) = .fault f := rfl

end Answer

namespace Session

/-- Goes on with what a name stands for. -/
def named {β : Type} (s : Session) (found : Option β) (next : β → Session × Answer) :
    Session × Answer :=
  match found with
  | some b => next b
  | none => (s, .missing)

@[simp] theorem named_none {β : Type} (s : Session) (next : β → Session × Answer) :
    s.named none next = (s, .missing) := rfl

@[simp] theorem named_some {β : Type} (s : Session) (b : β) (next : β → Session × Answer) :
    s.named (some b) next = next b := rfl

/-- An answer that a fault takes the place of. -/
def answering (r : Session × Except Fault Unit) (a : Answer) : Session × Answer :=
  (r.1, a.orFault r.2)

/-- The handle of an entry, which has to be up. -/
def answerHandle (s : Session) (e : Entry) : Session × Answer :=
  match s.onWorld (·.require e) with
  | (s, .ok h) => (s, .value (.handle h))
  | (s, .error f) => (s, .fault f)

/-- Stores a reference to a shared entry and answers with its handle. -/
def answerShared (s : Session) (id : Nat) (name : String) : Session × Answer :=
  match s.putReference name id with
  | (s, .ok ()) => s.named (s.world.pool.get? id) s.answerHandle
  | (s, .error f) => (s, .fault f)

/-! ### Devices and handles -/

/-- Adds a device under a name. -/
def addDevice (s : Session) (id : String) : Session × Nat :=
  let (s, serial) := s.onWorld (·.addDevice)
  ({ s with devices := s.devices.insert id serial }, serial)

/-- Makes a handle and stores it. -/
def createHandle (s : Session) (serial : Nat) (id : String) : Session × Answer :=
  match s.onWorld (·.onDevice serial (·.create)) with
  | (s, .ok h) => ({ s with handles := s.handles.insert id h }, .value (.handle h))
  | (s, .error t) => (s, .failure (.status t))

/-- Binds a handle to a stream. -/
def bindHandle (s : Session) (serial : Nat) (name : String) (h : Handle) (stream : Stream) :
    Session × Answer :=
  match s.onWorld (·.onDevice serial (·.bind h stream)) with
  | (s, .ok h) => ({ s with handles := s.handles.insert name h }, .done)
  | (s, .error t) => (s, .failure (.status t))

/-- Takes a handle out of its table and gives it to a device, its own or another. -/
def destroyHandle (s : Session) (serial : Nat) (name : String) (h : Handle) : Session × Answer :=
  match { s with handles := s.handles.erase name }.onWorld (·.onDevice serial (·.destroy h)) with
  | (s, .ok ()) => (s, .done)
  | (s, .error t) => (s, .failure (.status t))

/-! ### Entries -/

/-- Brings an entry up. -/
def prepareEntry (s : Session) (name : String) (e : Entry) : Session × Answer :=
  match s.onWorld (·.prepare e) with
  | (s, e, .ok ()) => ({ s with entries := s.entries.insert name e }, .done)
  | (s, _, .error f) => (s, .failure (.initialization f))

/-- Binds the handle of an entry to another stream; the stream of the entry stays. -/
def rebindEntry (s : Session) (name : String) (e : Entry) (stream : Stream) : Session × Answer :=
  match s.onWorld (·.require e) with
  | (s, .error f) => (s, .fault f)
  | (s, .ok h) =>
    match s.onWorld (·.onDevice e.device (·.bind h stream)) with
    | (s, .ok h) =>
      ({ s with entries := s.entries.insert name { e with handle := some h } }, .done)
    | (s, .error t) => (s, .failure (.status t))

/-- Moves the handle of an entry into a new entry. -/
def takeEntry (s : Session) (name : String) (e : Entry) (id : String) : Session × Answer :=
  answering ({ s with entries := s.entries.insert name e.emptied }.putEntry id e) .done

/-- Lets an entry take over everything from another one, which goes. -/
def assignEntry (s : Session) (name : String) (e : Entry) (sourceName : String) (source : Entry) :
    Session × Answer :=
  match { s with entries := s.entries.erase sourceName }.onWorld (·.assign e source) with
  | (s, e, outcome) => answering ({ s with entries := s.entries.insert name e }, outcome) .done

/-- Gives the handle of an entry back. -/
def destroyEntry (s : Session) (name : String) (e : Entry) : Session × Answer :=
  answering ({ s with entries := s.entries.insert name e.emptied }.onWorld (·.release e)) .done

/-! ### Caches -/

/-- Acquires the entry of a stream and stores a reference to it. -/
def acquire (s : Session) (number : Nat) (c : Cache) (stream : Stream) (id : String) :
    Session × Answer :=
  match s.onWorld (c.acquire · stream) with
  | (s, c, .ok entry) => (s.setCache number c).answerShared entry id
  | (s, _, .error f) => (s, .failure (.initialization f))

/-- Acquires the entries of several streams, and keeps no reference. -/
def race (s : Session) (number : Nat) (c : Cache) (streams : List Stream) : Session × Answer :=
  match s.onWorld (c.acquireAll · streams) with
  | (s, c, answers) =>
    let entries := answers.filterMap (·.toOption)
    (s.setCache number c,
      .value (.race entries.eraseDups.length (answers.length - entries.length)))

/-! ### Contexts -/

/-- Prepares a context, which does nothing if it is prepared. -/
def prepareContext (s : Session) (name : String) (ctx : Context) (c : Cache) : Session × Answer :=
  match ctx.entry with
  | some _ => (s, .done)
  | none =>
    match s.onWorld (c.acquire · ctx.stream) with
    | (s, c, .ok entry) =>
      ({ s.setCache ctx.cache c with
          contexts := s.contexts.insert name { ctx with entry := some entry } }, .done)
    | (s, _, .error f) => (s, .failure (.context (.handle f)))

/-- Stores a clone of the reference of a context. -/
def contextHandle (s : Session) (ctx : Context) (id : String) : Session × Answer :=
  match ctx.entry with
  | some entry => s.answerShared entry id
  | none =>
    match s.onWorld ctx.require with
    | (s, .ok h) => (s, .value (.handle h))
    | (s, .error f) => (s, .fault f)

/-! ### Routines -/

/-- Runs a routine through a context. -/
def runContext (s : Session) (ctx : Context) (c : Cache) (job : Job) : Session × Answer :=
  match s.onWorld (ctx.execute · c.device job) with
  | (s, .ok (.ok reply, job)) => (s, .ran (.ok reply) job)
  | (s, .ok (.error e, job)) => (s, .ran (.error (.context e)) job)
  | (s, .error f) => (s, .fault f)

/-- Runs a routine on a device with a handle, whichever device made it. -/
def runHandle (s : Session) (serial : Nat) (h : Handle) (job : Job) : Session × Answer :=
  match s.onWorld (·.execute serial h job) with
  | (s, .ok (.ok reply, job)) => (s, .ran (.ok reply) job)
  | (s, .ok (.error t, job)) => (s, .ran (.error (.status t)) job)
  | (s, .error t) => (s, .fault (.trap t))

/-- Runs a routine on a device with the handle of an entry, which has to be up. -/
def runEntry (s : Session) (serial : Nat) (e : Entry) (job : Job) : Session × Answer :=
  match s.onWorld (·.require e) with
  | (s, .ok h) => s.runHandle serial h job
  | (s, .error f) => (s, .fault f)

/-- Runs a routine. -/
def run (s : Session) (job : Job) : Target → Session × Answer
  | .context name =>
    s.named (s.contexts.get? name) fun ctx =>
      s.named (s.cachePool.get? ctx.cache) fun c => s.runContext ctx c job
  | .handle device name =>
    s.named (s.devices.get? device) fun serial =>
      s.named (s.handles.get? name) fun h => s.runHandle serial h job
  | .entry device name =>
    s.named (s.devices.get? device) fun serial =>
      s.named (s.entries.get? name) fun e => s.runEntry serial e job
  | .reference device name =>
    s.named (s.devices.get? device) fun serial =>
      s.named (s.shared? name) fun e => s.runEntry serial e job

/-! ### Texts -/

/-- The text of an object, if there is one under the name. -/
def inspect? (s : Session) (name : String) : Subject → Option String
  | .device => (s.devices.get? name).map fun serial => Inspect.device (s.world.device serial)
  | .handle => (s.handles.get? name).map Inspect.handle
  | .entry => (s.entries.get? name).map Inspect.entry
  | .reference => (s.shared? name).map Inspect.reference
  | .cache => (s.cache? name).map fun p => Inspect.cache s.world p.2
  | .context =>
    (s.contexts.get? name).bind fun ctx =>
      (s.cachePool.get? ctx.cache).map fun c => Inspect.context s.world c ctx
  | .calls => (s.devices.get? name).map fun serial => Inspect.calls (s.world.device serial).calls

/-! ### One step -/

/-- Does one step. -/
def step (s : Session) : Step → Session × Answer
  | .addDevice id => ((s.addDevice id).1, .done)
  | .arm device kind status =>
    s.named (s.devices.get? device) fun serial =>
      ((s.onWorld (·.onDevice serial fun d => (d.arm kind status, ()))).1, .done)
  | .showCalls device =>
    s.named (s.devices.get? device) fun serial =>
      (s, .value (.calls (s.world.device serial).calls))
  | .clearCalls device =>
    s.named (s.devices.get? device) fun serial =>
      ((s.onWorld (·.onDevice serial fun d => (d.clearCalls, ()))).1, .done)
  | .createHandle device id =>
    s.named (s.devices.get? device) fun serial => s.createHandle serial id
  | .bindHandle device handle stream =>
    s.named (s.devices.get? device) fun serial =>
      s.named (s.handles.get? handle) fun h => s.bindHandle serial handle h stream
  | .destroyHandle device handle =>
    s.named (s.devices.get? device) fun serial =>
      s.named (s.handles.get? handle) fun h => s.destroyHandle serial handle h
  | .showHandle handle => s.named (s.handles.get? handle) fun h => (s, .value (.handle h))
  | .addEntry id device stream =>
    s.named (s.devices.get? device) fun serial =>
      answering (s.putEntry id (.new serial stream)) .done
  | .prepareEntry entry => s.named (s.entries.get? entry) fun e => s.prepareEntry entry e
  | .showEntry entry =>
    s.named (s.entries.get? entry) fun e => (s, .value (.entry e (s.deviceName? e.device)))
  | .entryHandle entry => s.named (s.entries.get? entry) s.answerHandle
  | .rebindEntry entry stream =>
    s.named (s.entries.get? entry) fun e => s.rebindEntry entry e stream
  | .takeEntry entry id => s.named (s.entries.get? entry) fun e => s.takeEntry entry e id
  | .assignEntry entry source =>
    s.named (s.entries.get? source) fun origin =>
      s.named ((s.entries.erase source).get? entry) fun e => s.assignEntry entry e source origin
  | .destroyEntry entry => s.named (s.entries.get? entry) fun e => s.destroyEntry entry e
  | .dropEntry entry =>
    s.named (s.entries.get? entry) fun _ => answering (s.dropEntry entry) .done
  | .addCache id device layout =>
    s.named (s.devices.get? device) fun serial =>
      answering (s.putCache id (.new serial layout)) .done
  | .addCacheWithDevice id device layout =>
    let (s, serial) := s.addDevice device
    answering (s.putCache id (.new serial layout)) .done
  | .acquire cache stream id =>
    s.named (s.cache? cache) fun (number, c) => s.acquire number c stream id
  | .get cache stream id =>
    s.named (s.cache? cache) fun (_, c) =>
      match c.lookup stream with
      | some entry => s.answerShared entry id
      | none => (s, .done)
  | .contains cache stream =>
    s.named (s.cache? cache) fun (_, c) => (s, .value (.flag (c.contains stream)))
  | .showCache cache =>
    s.named (s.cache? cache) fun (_, c) =>
      (s, .value (.cache (Stream.sort c.streams) (s.deviceName? c.device)))
  | .race cache streams => s.named (s.cache? cache) fun (number, c) => s.race number c streams
  | .dropCache cache =>
    s.named (s.caches.get? cache) fun number =>
      if s.contexts.vals.any fun ctx => decide (ctx.cache = number) then (s, .busy)
      else answering (s.dropCache cache) .done
  | .showReference reference =>
    s.named (s.shared? reference) fun e =>
      match s.onWorld (·.require e) with
      | (s, .ok h) => (s, .value (.reference h e))
      | (s, .error f) => (s, .fault f)
  | .cloneReference reference id =>
    s.named (s.references.get? reference) fun entry => answering (s.putReference id entry) .done
  | .sameEntry reference other =>
    s.named (s.references.get? reference) fun entry =>
      s.named (s.references.get? other) fun otherEntry =>
        (s, .value (.flag (decide (entry = otherEntry))))
  | .dropReference reference =>
    s.named (s.references.get? reference) fun _ => answering (s.dropReference reference) .done
  | .addContext id cache stream =>
    s.named (s.caches.get? cache) fun number =>
      answering (s.putContext id (.new number stream)) .done
  | .prepareContext context =>
    s.named (s.contexts.get? context) fun ctx =>
      s.named (s.cachePool.get? ctx.cache) fun c => s.prepareContext context ctx c
  | .showContext context => s.named (s.contexts.get? context) fun ctx => (s, .value (.context ctx))
  | .contextHandle context id =>
    s.named (s.contexts.get? context) fun ctx => s.contextHandle ctx id
  | .dropContext context =>
    s.named (s.contexts.get? context) fun _ => answering (s.dropContext context) .done
  | .run target job => s.run job target
  | .inspect subject name =>
    s.named (s.inspect? name subject) fun text => (s, .value (.text text))

/-- The session after a list of steps. -/
def after (s : Session) (steps : List Step) : Session := steps.foldl (fun s t => (s.step t).1) s

@[simp] theorem after_nil (s : Session) : s.after [] = s := rfl

@[simp] theorem after_cons (s : Session) (t : Step) (steps : List Step) :
    s.after (t :: steps) = (s.step t).1.after steps := rfl

theorem after_append (s : Session) (first later : List Step) :
    s.after (first ++ later) = (s.after first).after later := by
  simp [after]

end Session

end SparseDevice
