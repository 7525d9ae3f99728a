import SparseDevice.Cache
import SparseDevice.Proofs.Ownership.World

/-!
# The life of an entry

Each operation on an entry is put together from the operations of one device. The lemmas here say
what comes out of each of them: the entry as it is afterwards, and the handles that were made and
taken back on the way. A handle that is bound to no entry in the end was given back, and a handle
that an entry gives back goes to the device that made it, which is what `Key.homeward` records.

## Main results

* `World.turnover_release`: an entry gives back the handle that it has.
* `World.prepare_cases`: an entry is up already, comes up, or stays down and nothing is left behind.
* `World.assign_cases`: the handles of both entries go on in one of them or are given back.
* `Cache.supply_cases`: what an acquisition can come to.
-/

namespace SparseDevice

open Handle (Key)

namespace Entry

variable {e : Entry}

/-- What a genuine entry gives back goes home. -/
theorem Genuine.homeward_keys (hg : e.Genuine) {h : Handle} (he : e.handle = some h) :
    e.keys.map Key.homeward = [(e.device, h.key)] := by
  rw [keys_of_handle he, List.map_singleton, Key.homeward, Handle.key, hg h he]

theorem genuine_up (e : Entry) (id : Nat) (s : Option Stream) :
    Genuine { e with handle := some ⟨e.device, id, s⟩ } := by
  intro h hh
  cases hh
  rfl

end Entry

namespace World

variable {w : World} {e : Entry}

/-- An entry has a handle, or asking it for one is a fault. -/
theorem require_cases (w : World) (e : Entry) :
    (∃ h, w.require e = (w, .ok h)) ∨ ∃ f, w.require e = (w.emit (.fault f), .error f) := by
  rw [require]
  cases e.handle with
  | none => exact .inr ⟨_, rfl⟩
  | some h => exact .inl ⟨h, rfl⟩

section Numbered

variable (hn : w.Numbered) (hd : e.device < w.devices.length)

include hn hd

/-- An entry gives back the handle that it has. -/
theorem turnover_release (hg : e.Genuine) :
    Turnover w (w.release e).1 [] (e.keys.map Key.homeward) := by
  rw [release]
  cases he : e.handle with
  | none =>
    rw [Entry.keys_of_none he]
    exact .refl w
  | some h =>
    rw [hg.homeward_keys he]
    have hdestroy := (turnover_emit w (.destroying e.stream)).trans
      (turnover_destroy (w := w.emit (.destroying e.stream)) hn hd h)
    rcases hx : (w.emit (.destroying e.stream)).onDevice e.device (·.destroy h) with ⟨w', r⟩
    rw [hx] at hdestroy
    simp only [hx]
    cases r with
    | ok u => exact hdestroy
    | error t => exact hdestroy.trans (turnover_emit _ _)

theorem prepare_cases :
    ((∃ h, e.handle = some h) ∧ w.prepare e = (w, e, .ok ())) ∨
      (e.handle = none ∧ ∃ w' id,
        w.prepare e = (w', { e with handle := some ⟨e.device, id, some e.stream⟩ }, .ok ()) ∧
          Turnover w w' [(e.device, id)] []) ∨
      (e.handle = none ∧ ∃ w' f made,
        w.prepare e = (w', e, .error f) ∧ Turnover w w' made (made.map Key.homeward)) := by
  rw [prepare]
  cases he : e.handle with
  | some h => exact .inl ⟨⟨h, rfl⟩, rfl⟩
  | none =>
    refine .inr ?_
    rcases onDevice_create_cases hn hd with ⟨w₁, id, hc, hmade⟩ | ⟨w₁, t, hc, hmade⟩
    · rcases onDevice_bind_cases (hmade.lt hd) ⟨e.device, id, none⟩ e.stream with
        ⟨w₂, hb, hbound⟩ | ⟨w₂, t, hb, hbound⟩
      · refine .inl ⟨rfl, ?_⟩
        simp only [hc, hb]
        exact ⟨_, id, rfl, (hmade.trans hbound).trans (turnover_emit _ _)⟩
      · -- the fresh handle has no stream and no owner, so it goes back at once
        refine .inr ⟨rfl, ?_⟩
        have hup := hmade.trans hbound
        have hback := hup.trans
          (turnover_destroy (hup.numbered hn) (hup.lt hd) ⟨e.device, id, none⟩)
        rcases hx : w₂.onDevice e.device (·.destroy ⟨e.device, id, none⟩) with ⟨w₃, r⟩
        rw [hx] at hback
        simp only [hc, hb, hx]
        cases r with
        | ok u => exact ⟨_, _, [(e.device, id)], rfl, hback⟩
        | error t => exact ⟨_, _, [(e.device, id)], rfl, hback.trans (turnover_emit _ _)⟩
    · refine .inr ⟨rfl, ?_⟩
      simp only [hc]
      exact ⟨w₁, _, [], rfl, hmade⟩

end Numbered

/-- The target takes over the source, or both have given back their handles. -/
theorem assign_cases {target source : Entry} (hn : w.Numbered)
    (ht : target.device < w.devices.length) (hs : source.device < w.devices.length)
    (htarget : target.Genuine) (hsource : source.Genuine) :
    (∃ w' r, w.assign target source = (w', source, r) ∧
        Turnover w w' [] (target.keys.map Key.homeward)) ∨
      ∃ w' r, w.assign target source = (w', target.emptied, r) ∧
        Turnover w w' [] ((source.keys ++ target.keys).map Key.homeward) := by
  rw [assign]
  have hrelease := turnover_release hn ht htarget
  rcases hx : w.release target with ⟨w₁, r⟩
  rw [hx] at hrelease
  cases r with
  | ok u => exact .inl ⟨w₁, _, rfl, hrelease⟩
  | error f =>
    refine .inr ⟨_, _, rfl, ?_⟩
    rw [List.map_append]
    exact hrelease.trans (turnover_release (hrelease.numbered hn) (hrelease.lt hs) hsource)

end World

namespace Cache

variable {w : World} {c : Cache}

/-- An acquisition finds the entry of the stream, makes one that is up and keeps it, or comes to
nothing. -/
theorem supply_cases (hn : w.Numbered) (hd : c.device < w.devices.length) (s : Stream) :
    (∃ id, c.lookup s = some id ∧ c.supply w s = (w, c, .ok id)) ∨
      (c.lookup s = none ∧ ∃ w' e,
        c.supply w s = ((w'.share e).1, { c with slots := c.slots.insert s w.pool.added },
            .ok w.pool.added) ∧
          World.Turnover w w' e.keys [] ∧ e.Ready ∧ e.stream = s ∧ e.device = c.device) ∨
      (c.lookup s = none ∧ ∃ w' f made,
        c.supply w s = (w', c, .error f) ∧
          World.Turnover w w' made (made.map Key.homeward)) := by
  rw [supply]
  cases hc : c.lookup s with
  | some id => exact .inl ⟨id, rfl, rfl⟩
  | none =>
    refine .inr ?_
    have hemit := World.turnover_emit w (.creating s)
    rcases World.prepare_cases (w := w.emit (.creating s)) (e := .new c.device s) hn hd with
      ⟨⟨h, hh⟩, -⟩ | ⟨-, w', id, hp, hup⟩ | ⟨-, w', f, made, hp, hdown⟩
    · cases hh
    · have hpool : w'.pool = w.pool := hup.pool
      refine .inl ⟨rfl, w', { Entry.new c.device s with handle := some ⟨c.device, id, some s⟩ }, ?_,
        hemit.trans hup, ⟨_, rfl, rfl, rfl⟩, rfl, rfl⟩
      rw [← hpool]
      simp only [hp]
      rfl
    · refine .inr ⟨rfl, w', f, made, ?_, ?_⟩
      · simp only [hp]
      · simpa using hemit.trans hdown

end Cache

end SparseDevice
