import SparseDevice.Proofs.Ownership.Sound

/-!
# The books of a session

A handle is in one place: it belongs to a name, to an entry that is not shared, to a shared entry,
or it was taken back. The ledger of a session lists the handles place by place. What is said about
an operation is that the ledger and the list of handles made change by the same handles, so that an
operation that leaves a handle behind, or gives one back twice, does not balance.

## Main definitions

* `Session.owned`, `Session.ledger`: the handles that have an owner; these and those taken back.
* `Session.Outcome`: what may be said of an operation; `lost` are handles that it forgets and
  `strays` those that it gives to another device than their own.
* `Session.Keeps`: an operation with neither.

## Main results

* `Session.Keeps.trans`: operations may follow each other.
* `Session.SoundBut.keeps_withWorld`, `Session.SoundBut.keeps_withEntries`: the books of an
  operation from what it makes and gives back.
-/

namespace SparseDevice

open Handle (Key)

namespace Session

variable {s s' s'' : Session} {loose loose' looseCaches looseCaches' : List Nat}

/-- The handles that belong to a name or to an entry, once for each owner. -/
def owned (s : Session) : List Key :=
  s.handles.vals.map Handle.key ++
    (s.entries.vals.flatMap Entry.keys ++ s.world.pool.vals.flatMap Entry.keys)

/-- The handles that are somewhere, once for each place. -/
def ledger (s : Session) : List Key := s.owned ++ s.world.retired

/-- What an operation does to the books, besides leaving a session with these loose ends: it
forgets `lost`, and of the handles that it gives back all but `strays` go home. -/
structure Outcome (lost : List Key) (strays : List (Nat × Key)) (loose looseCaches : List Nat)
    (s s' : Session) : Prop where
  sound : s'.SoundBut loose looseCaches
  balance : (lost ++ s'.ledger ++ s.world.made).Perm (s.ledger ++ s'.world.made)
  returns : ∃ back : List Key,
    s'.world.returns.Perm (strays ++ back.map Key.homeward ++ s.world.returns)

/-- An operation that forgets no handle and gives none to another device than its own. -/
abbrev Keeps (loose looseCaches : List Nat) (s s' : Session) : Prop :=
  Outcome [] [] loose looseCaches s s'

theorem SoundBut.keeps_refl (h : s.SoundBut loose looseCaches) : Keeps loose looseCaches s s :=
  ⟨h, .refl _, [], .refl _⟩

theorem Keeps.trans (h : Keeps loose looseCaches s s') (h' : Keeps loose' looseCaches' s' s'') :
    Keeps loose' looseCaches' s s'' := by
  obtain ⟨back, hback⟩ := h.returns
  obtain ⟨back', hback'⟩ := h'.returns
  refine ⟨h'.sound, List.perm_iff_count.mpr fun k => ?_, back' ++ back, ?_⟩
  · have hk := h.balance.count_eq k
    have hk' := h'.balance.count_eq k
    simp only [List.nil_append, List.count_append] at hk hk' ⊢
    omega
  · rw [List.map_append, List.nil_append, List.append_assoc]
    exact hback'.trans (hback.append_left (back'.map Key.homeward))

/-- An operation balances if the handles made and those given back make up the difference between
the owners before and after. -/
theorem SoundBut.outcome {lost m b : List Key} {strays : List (Nat × Key)}
    (h : s'.SoundBut loose looseCaches) (hm : s'.world.made.Perm (m ++ s.world.made))
    (hr : s'.world.returns.Perm (strays ++ b.map Key.homeward ++ s.world.returns))
    (ho : (lost ++ s'.owned ++ (strays.map Prod.snd ++ b)).Perm (m ++ s.owned)) :
    Outcome lost strays loose looseCaches s s' := by
  refine ⟨h, List.perm_iff_count.mpr ?_, b, hr⟩
  intro k
  have hretired : s'.world.retired.Perm (strays.map Prod.snd ++ b ++ s.world.retired) := by
    have := hr.map Prod.snd
    simpa [World.retired, Key.homeward, Function.comp_def] using this
  have hmk := hm.count_eq k
  have hrk := hretired.count_eq k
  have hok := ho.count_eq k
  simp only [ledger, List.count_append] at hmk hrk hok ⊢
  omega

/-! ### Operations that leave the entries alone -/

/-- A world that makes handles and gives all of them back at once. -/
theorem SoundBut.keeps_withWorld {w : World} {m : List Key}
    (h : s.SoundBut loose looseCaches)
    (ht : s.world.Turnover w m (m.map Key.homeward)) :
    Keeps loose looseCaches s { s with world := w } := by
  refine (h.withWorld ht).outcome ht.made ht.returns ?_
  have howned : owned { s with world := w } = s.owned := by simp only [owned, ht.pool]
  rw [howned]
  exact List.perm_append_comm

theorem SoundBut.keeps_idle {w : World} (h : s.SoundBut loose looseCaches)
    (ht : s.world.Turnover w [] []) : Keeps loose looseCaches s { s with world := w } :=
  h.keeps_withWorld (m := []) ht

/-- Names, references, contexts and caches may change without any effect on the books. -/
theorem SoundBut.keeps_of_eq (h : s'.SoundBut loose looseCaches) (hw : s'.world = s.world)
    (hh : s'.handles = s.handles) (he : s'.entries = s.entries) :
    Keeps loose looseCaches s s' := by
  refine h.outcome (m := []) (b := []) (by rw [hw]; exact .refl _) (by rw [hw]; exact .refl _) ?_
  simp only [owned, hw, hh, he, List.map_nil, List.nil_append, List.append_nil]
  exact .refl _

/-! ### Entries that are not shared -/

/-- The table of entries and the world change together: the handles that were made and those that
were given back make up the difference. -/
theorem SoundBut.keeps_withEntries {w : World} {t : Table String Entry} {m b : List Key}
    (h : s.SoundBut loose looseCaches) (ht : s.world.Turnover w m (b.map Key.homeward))
    (hk : t.Keyed) (he : ∀ e ∈ t.vals, e.device < s.world.devices.length ∧ e.Genuine)
    (hperm : (b ++ t.vals.flatMap Entry.keys).Perm (m ++ s.entries.vals.flatMap Entry.keys)) :
    Keeps loose looseCaches s { s with world := w, entries := t } := by
  refine ((h.withEntries hk he).withWorld ht).outcome ht.made ht.returns ?_
  refine List.perm_iff_count.mpr ?_
  intro k
  have hpk := hperm.count_eq k
  simp only [owned, ht.pool, List.map_nil, List.nil_append, List.count_append] at hpk ⊢
  omega

end Session

end SparseDevice
