import SparseDevice.Proofs.Ownership.Step

/-!
# Runs

What every step preserves holds after every run. A run starts from the empty session; what it may
not do, if anything, is said step by step, with the session in which the step is taken.

## Main definitions

* `Session.Along`: every step of a run is taken where it may be taken.
* `Session.Within`: no handle is in two places, and only handles that were made are in any.
* `Session.Complete`: every handle that was made is in one place.
* `World.Home`: a device took back its own handles and nobody else took those.

## Main results

* `Session.after_sound`: a session is sound after every run.
* `Session.after_within`: no run puts a handle in two places.
* `Session.after_complete`: a run that makes no handle under a name in use loses none.
* `Session.after_home`: a run that gives handles of a device to it alone keeps its count right.
-/

namespace SparseDevice

open Handle (Key)

/-- A device took back none but its own handles, and no other device took any of these. -/
def World.Home (serial : Nat) (w : World) : Prop :=
  ∀ p ∈ w.returns, p.1 = serial ↔ p.2.1 = serial

namespace Session

variable {s : Session}

/-- Every step of a run is taken in a session that allows it. -/
def Along (allows : Session → Step → Prop) (s : Session) : List Step → Prop
  | [] => True
  | t :: rest => allows s t ∧ Along allows (s.step t).1 rest

instance decidableAlong (allows : Session → Step → Prop) [∀ s t, Decidable (allows s t)] :
    ∀ s steps, Decidable (Along allows s steps)
  | _, [] => instDecidableTrue
  | s, t :: rest =>
    have : Decidable (Along allows (s.step t).1 rest) := decidableAlong allows _ rest
    instDecidableAnd

/-- What each step preserves in a sound session holds after a run. -/
theorem after_of_step {allows : Session → Step → Prop} {P : Session → Prop}
    (hstep : ∀ s t, s.Sound → P s → allows s t → P (s.step t).1) (h : s.Sound) (hs : P s)
    (steps : List Step) (hall : Along allows s steps) : (s.after steps).Sound ∧ P (s.after steps) := by
  induction steps generalizing s with
  | nil => exact ⟨h, hs⟩
  | cons t rest ih =>
    obtain ⟨lost, hout, -⟩ := step_outcome h t
    exact ih hout.sound (hstep s t h hs hall.1) hall.2

theorem along_true (s : Session) (steps : List Step) : Along (fun _ _ => True) s steps := by
  induction steps generalizing s with
  | nil => exact trivial
  | cons t rest ih => exact ⟨trivial, ih _⟩

/-- A session is sound after every run. -/
theorem after_sound (steps : List Step) : (empty.after steps).Sound :=
  (after_of_step (P := fun _ => True) (fun _ _ _ _ _ => trivial) sound_empty trivial steps
    (along_true empty steps)).1

/-! ### No handle in two places -/

/-- No handle is in two places, and only handles that were made are in any. -/
def Within (s : Session) : Prop := ∀ k, s.ledger.count k ≤ s.world.made.count k

theorem within_empty : empty.Within := fun _ => Nat.le_refl _

theorem Within.step (h : s.Sound) (hs : s.Within) (t : Step) : (s.step t).1.Within := by
  intro k
  obtain ⟨lost, hout, -⟩ := step_outcome h t
  have hbalance := hout.balance.count_eq k
  have hk := hs k
  simp only [List.count_append] at hbalance
  omega

/-- No handle is twice in the ledger. -/
theorem Within.nodup (hs : s.Within) (h : s.Sound) : s.ledger.Nodup := by
  refine List.nodup_iff_count_le_one.mpr ?_
  intro k
  have hmade := List.nodup_iff_count_le_one.mp (World.nodup_made h.numbered) k
  exact Nat.le_trans (hs k) hmade

/-- No run puts a handle in two places. -/
theorem after_within (steps : List Step) : (empty.after steps).Within :=
  (after_of_step (fun _ t h hs _ => hs.step h t) sound_empty within_empty steps
    (along_true empty steps)).2

theorem Within.mem_made (hs : s.Within) {k : Key} (hk : k ∈ s.ledger) : k ∈ s.world.made := by
  have hpos := List.count_pos_iff.mpr hk
  exact List.count_pos_iff.mp (Nat.lt_of_lt_of_le hpos (hs k))

/-! ### No handle in no place -/

/-- Every handle that was made is in one place. -/
def Complete (s : Session) : Prop := s.ledger.Perm s.world.made

theorem Complete.within (hs : s.Complete) : s.Within := fun k => Nat.le_of_eq (hs.count_eq k)

theorem complete_empty : empty.Complete := List.Perm.refl _

theorem Complete.step (h : s.Sound) (hs : s.Complete) {t : Step} (ht : s.Spares t) :
    (s.step t).1.Complete := by
  obtain ⟨lost, hout, hlost⟩ := step_outcome h t
  refine List.perm_iff_count.mpr ?_
  intro k
  have hbalance := hout.balance.count_eq k
  have hk := hs.count_eq k
  simp only [hlost ht, List.nil_append, List.count_append] at hbalance
  omega

/-- A run that makes no handle under a name in use loses none. -/
theorem after_complete {steps : List Step} (hall : Along Spares empty steps) :
    (empty.after steps).Complete :=
  (after_of_step (fun _ _ h hs ht => hs.step h ht) sound_empty complete_empty steps hall).2

/-! ### Handles that come home -/

/-- A step gives handles of a device to it alone, and no others to it. -/
def Returns (serial : Nat) (s : Session) (t : Step) : Prop :=
  ∀ p ∈ s.strays t, p.1 = serial ↔ p.2.1 = serial

instance (serial : Nat) (s : Session) (t : Step) : Decidable (s.Returns serial t) :=
  inferInstanceAs (Decidable (∀ p ∈ s.strays t, p.1 = serial ↔ p.2.1 = serial))

theorem home_empty (serial : Nat) : empty.world.Home serial := nofun

theorem home_step {serial : Nat} (h : s.Sound) (hs : s.world.Home serial) {t : Step}
    (ht : s.Returns serial t) : (s.step t).1.world.Home serial := by
  obtain ⟨lost, hout, -⟩ := step_outcome h t
  obtain ⟨back, hback⟩ := hout.returns
  intro p hp
  rcases List.mem_append.mp (hback.mem_iff.mp hp) with hnew | hold
  · rcases List.mem_append.mp hnew with hstray | hhome
    · exact ht p hstray
    · obtain ⟨k, -, rfl⟩ := List.mem_map.mp hhome
      exact Iff.rfl
  · exact hs p hold

/-- A run that gives handles of a device to it alone keeps its count right. -/
theorem after_home {serial : Nat} {steps : List Step} (hall : Along (Returns serial) empty steps) :
    (empty.after steps).world.Home serial :=
  (after_of_step (P := fun s => s.world.Home serial) (fun _ _ h hs ht => home_step h hs ht)
    sound_empty (home_empty serial) steps hall).2

end Session

end SparseDevice
