import SparseDevice.Session.State

/-!
# The fields of an object as text

Each kind of object can be shown with its name and its fields. What an object shows is part of how
it is told apart from others in a report: an entry shows its stream but not its handle, a cache
shows its entries but not its device, and a device shows its counters but not its calls.

## Main definitions

* `Inspect.record`, `Inspect.present?`: the form of all texts.
* `Inspect.status`, `Inspect.device` and so on: the text of each kind of object.
-/

namespace SparseDevice

namespace Inspect

/-- A name and its fields, in braces. -/
def record (name : String) (fields : List (String × String)) : String :=
  name ++ " \x7b " ++ ", ".intercalate (fields.map fun f => f.1 ++ ": " ++ f.2) ++ " \x7d"

/-- A value that may be missing. -/
def present? : Option String → String
  | none => "None"
  | some text => "Some(" ++ text ++ ")"

/-- The text of a status. -/
def status (s : Status) : String := "NativeStatus(" ++ toString s.code.toInt ++ ")"

/-- The text of a device. -/
def device (d : Device) : String :=
  record "HostLibrary"
    [("next_id", toString d.created), ("created", toString d.created),
      ("bound", toString d.bound), ("destroyed", toString d.destroyed),
      ("fail_create", toString d.armed.create.code.toInt),
      ("fail_bind", toString d.armed.bind.code.toInt),
      ("fail_destroy", toString d.armed.destroy.code.toInt),
      ("fail_routine", toString d.armed.routine.code.toInt)]

/-- The text of a handle. -/
def handle (h : Handle) : String :=
  record "HostHandle"
    [("id", toString h.id), ("stream", present? (h.stream.map (·.label)))]

/-- The text of an entry. -/
def entry (e : Entry) : String := record "HandleEntry" [("stream", e.stream.label)]

/-- The text of a reference to an entry. -/
def reference (e : Entry) : String := record "HandleRef" [("entry", entry e)]

/-- The text of a cache. -/
def cache (w : World) (c : Cache) : String :=
  let slot (p : Stream × Nat) : String :=
    p.1.label ++ ": " ++ ((w.pool.get? p.2).map entry).getD ""
  record "HandleCache"
    [("handles", "\x7b" ++ ", ".intercalate (c.slots.map slot) ++ "\x7d")]

/-- The text of a context and its cache. -/
def context (w : World) (c : Cache) (ctx : Context) : String :=
  record "SparseContext"
    [("cache", cache w c), ("stream", ctx.stream.label),
      ("handle", present? ((ctx.entry.bind w.pool.get?).map reference))]

/-- The text of a routine call. -/
def call (c : Call) : String :=
  record "HostCall"
    [("entry_point", "\"" ++ c.entryPoint ++ "\""), ("handle", toString c.handle),
      ("stream", c.stream.label)]

/-- The text of a list of routine calls. -/
def calls (cs : List Call) : String := "[" ++ ", ".intercalate (cs.map call) ++ "]"

end Inspect

end SparseDevice
