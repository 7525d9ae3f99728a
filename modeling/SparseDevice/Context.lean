import SparseDevice.Cache

/-!
# Contexts

A context runs routines on one stream. It is made without touching the device and has to be
prepared, which acquires the entry of its stream from a cache. A routine call through a context
checks three things in this order: that the context is prepared, that the operands fit together,
and that the device accepts the call. A check that cannot hold a size which it computes ends the call
before the device is asked.

## Main definitions

* `Context`: a stream, the cache it goes to for all its life, and the entry once it is acquired.
* `ContextError`: what goes wrong in a context.
* `Context.execute`: a routine call.
-/

namespace SparseDevice

/-- What a context answers when a call fails. -/
inductive ContextError where
  /-- The handle could not be brought up. -/
  | handle (f : InitFailure)
  /-- The device answered a routine call with a status. -/
  | native (entryPoint : String) (status : Status)
  /-- The operands do not fit together. -/
  | invalidArgument (e : ArgumentError)
deriving DecidableEq

namespace ContextError

/-- The message of the error. -/
def message : ContextError → String
  | handle f => f.message
  | native entryPoint status => s!"{entryPoint} failed: {status.text}"
  | invalidArgument e => e.message

end ContextError

/-- What runs routines on one stream. -/
structure Context where
  /-- The number of the cache. -/
  cache : Nat
  stream : Stream
  /-- The shared entry, once it is acquired. -/
  entry : Option Nat
deriving DecidableEq

namespace Context

/-- A context that is not prepared. -/
def new (cache : Nat) (stream : Stream) : Context := ⟨cache, stream, none⟩

/-- Whether the context is prepared. -/
def initialized (ctx : Context) : Bool := ctx.entry.isSome

/-- The handle of a context, which has to be prepared. -/
def require (w : World) (ctx : Context) : World × Except Fault Handle :=
  match ctx.entry.bind w.pool.get? with
  | some e => w.require e
  | none => w.raise (.contractViolation ctx.stream.label)

/-- Runs a routine on the stream of the context: its reply or what went wrong, and the call as the
routine leaves it. -/
def execute {ρ : Type} [Routine ρ] (w : World) (ctx : Context) (device : Nat) (r : ρ) :
    World × Except Fault (Except ContextError Reply × ρ) :=
  match ctx.require w with
  | (w, .error f) => (w, .error f)
  | (w, .ok h) =>
    match Routine.check r with
    | .error (.argument e) => (w, .ok (.error (.invalidArgument e), r))
    | .error .overflow => (w, .error (.trap .sizeOverflow))
    | .ok () =>
      match w.execute device h r with
      | (w, .error t) => (w, .error (.trap t))
      | (w, .ok (.error s, r)) => (w, .ok (.error (.native (Routine.entryPoint r) s), r))
      | (w, .ok (.ok reply, r)) => (w, .ok (.ok reply, r))

end Context

end SparseDevice
