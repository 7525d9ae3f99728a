import Mathlib.Data.List.Nodup
import Mathlib.Data.List.Perm.Basic
import SparseDevice.Pool

/-!
# Tables as lists of values

Who counts the owners of something goes through the values of a table, and who uses the table looks
up a key. The two views agree as long as a key has one pair. The operations keep it that way, so
this is a property of the tables that occur and not of the type.

## Main definitions

* `Table.Keyed`: a key has one pair.
* `Pool.Sound`: a pool gives out fresh numbers.

## Main results

* `Table.Keyed.vals_perm`: the values are the value under a key and those that are left without it.
* `Table.Keyed.key_unique`: a mark that occurs once is found under one key.
* `Pool.Sound.vals_add`: a new item comes in addition to the others.
-/

namespace SparseDevice

namespace Table

variable {κ β : Type} [DecidableEq κ]

/-- A key has one pair. -/
def Keyed (t : Table κ β) : Prop := t.keys.Nodup

omit [DecidableEq κ] in
theorem keyed_nil : Keyed ([] : Table κ β) := List.nodup_nil

theorem Keyed.erase {t : Table κ β} (h : t.Keyed) (k : κ) : (t.erase k).Keyed :=
  (List.filter_sublist.map Prod.fst).nodup h

/-- An insertion takes the old pair of its key away first. -/
theorem Keyed.insert {t : Table κ β} (h : t.Keyed) (k : κ) (v : β) : (t.insert k v).Keyed := by
  refine List.nodup_cons.mpr ⟨?_, h.erase k⟩
  intro hk
  obtain ⟨p, hp, rfl⟩ := List.mem_map.mp hk
  simpa using (List.mem_filter.mp hp).2

/-! ### Values -/

@[simp] theorem vals_insert (t : Table κ β) (k : κ) (v : β) :
    (t.insert k v).vals = v :: (t.erase k).vals := rfl

/-- Of two insertions under a key the later one stays. -/
@[simp] theorem insert_insert (t : Table κ β) (k : κ) (v v' : β) :
    (t.insert k v).insert k v' = t.insert k v' := by
  simp [insert, erase]

theorem mem_of_get? {t : Table κ β} {k : κ} {v : β} (h : t.get? k = some v) : (k, v) ∈ t := by
  induction t with
  | nil => cases h
  | cons p t ih =>
    rw [get?_cons] at h
    split at h
    · next hk =>
      cases h
      rw [hk]
      exact List.mem_cons_self
    · exact List.mem_cons_of_mem _ (ih h)

theorem mem_vals_of_get? {t : Table κ β} {k : κ} {v : β} (h : t.get? k = some v) : v ∈ t.vals :=
  List.mem_map_of_mem (mem_of_get? h)

theorem mem_vals_of_mem_erase {t : Table κ β} {k : κ} {v : β} (h : v ∈ (t.erase k).vals) :
    v ∈ t.vals :=
  (List.filter_sublist.map Prod.snd).subset h

/-- A key that is not found cannot be taken out. -/
theorem erase_of_get?_eq_none {t : Table κ β} {k : κ} (h : t.get? k = none) : t.erase k = t := by
  induction t with
  | nil => rfl
  | cons p t ih =>
    rw [get?_cons] at h
    split at h
    · cases h
    · next hk =>
      rw [erase] at ih ⊢
      rw [List.filter_cons_of_pos (by simpa using Ne.symm hk), ih h]

theorem get?_eq_none_of_not_mem_keys {t : Table κ β} {k : κ} (h : k ∉ t.keys) :
    t.get? k = none := by
  induction t with
  | nil => rfl
  | cons p t ih =>
    have hp : k ≠ p.1 := fun hk => h (hk ▸ List.mem_cons_self)
    rw [get?_cons, if_neg hp, ih fun hk => h (List.mem_cons_of_mem _ hk)]

/-- The pair of a key, and the pairs that are left without it. -/
theorem Keyed.perm {t : Table κ β} (h : t.Keyed) (k : κ) :
    t.Perm ((t.get? k).toList.map (k, ·) ++ t.erase k) := by
  induction t with
  | nil => exact List.Perm.refl _
  | cons p t ih =>
    obtain ⟨hp, ht⟩ := List.nodup_cons.mp h
    by_cases hk : k = p.1
    · have herase : Table.erase (p :: t) k = t := by
        rw [Table.erase, List.filter_cons_of_neg (by simp [hk])]
        exact erase_of_get?_eq_none (get?_eq_none_of_not_mem_keys (hk ▸ hp))
      rw [get?_cons, if_pos hk, herase, hk]
      exact List.Perm.refl _
    · have herase : Table.erase (p :: t) k = p :: Table.erase t k :=
        List.filter_cons_of_pos (by simpa using Ne.symm hk)
      rw [get?_cons, if_neg hk, herase]
      exact ((ih ht).cons p).trans List.perm_middle.symm

/-- The value under a key, and the values that are left without it. -/
theorem Keyed.vals_perm {t : Table κ β} (h : t.Keyed) (k : κ) :
    t.vals.Perm ((t.get? k).toList ++ (t.erase k).vals) := by
  have := (h.perm k).map Prod.snd
  simpa [vals, Function.comp_def] using this

theorem Keyed.vals_perm_of_get? {t : Table κ β} (h : t.Keyed) {k : κ} {v : β}
    (hv : t.get? k = some v) : t.vals.Perm (v :: (t.erase k).vals) := by
  have := h.vals_perm k
  rwa [hv] at this

/-- What the value under a key has, and what those have that are left without it. -/
theorem Keyed.flatMap_erase {μ : Type} {t : Table κ β} (h : t.Keyed) (f : β → List μ) (k : κ) :
    ((t.get? k).toList.flatMap f ++ (t.erase k).vals.flatMap f).Perm (t.vals.flatMap f) := by
  rw [← List.flatMap_append]
  exact (h.vals_perm k).symm.flatMap_right f

/-- What a new value brings comes in addition, but for what the old value had. -/
theorem Keyed.flatMap_insert {μ : Type} {t : Table κ β} (h : t.Keyed) (f : β → List μ) (k : κ)
    (v : β) :
    ((t.get? k).toList.flatMap f ++ (t.insert k v).vals.flatMap f).Perm
      (f v ++ t.vals.flatMap f) := by
  rw [vals_insert, List.flatMap_cons]
  exact (List.perm_append_comm_assoc _ _ _).trans ((h.flatMap_erase f k).append_left (f v))

/-- A pair is found under its key, since no other pair of that key is in front of it. -/
theorem Keyed.get?_of_mem {t : Table κ β} (h : t.Keyed) {k : κ} {v : β} (hp : (k, v) ∈ t) :
    t.get? k = some v := by
  have hk : t.get? k ≠ none := by
    intro hnone
    rw [← erase_of_get?_eq_none hnone] at hp
    simpa using (List.mem_filter.mp hp).2
  obtain ⟨w, hw⟩ := Option.ne_none_iff_exists'.mp hk
  have hpair : (k, v) = (k, w) := List.inj_on_of_nodup_map h hp (mem_of_get? hw) rfl
  cases hpair
  exact hw

/-- Every value is found under some key. -/
theorem Keyed.exists_get? {t : Table κ β} (h : t.Keyed) {v : β} (hv : v ∈ t.vals) :
    ∃ k, t.get? k = some v := by
  obtain ⟨⟨k, v⟩, hp, rfl⟩ := List.mem_map.mp hv
  exact ⟨k, h.get?_of_mem hp⟩

theorem Keyed.mem_vals_iff {t : Table κ β} (h : t.Keyed) {v : β} :
    v ∈ t.vals ↔ ∃ k, t.get? k = some v :=
  ⟨h.exists_get?, fun ⟨_, hk⟩ => mem_vals_of_get? hk⟩

theorem mem_keys_iff {t : Table κ β} {k : κ} : k ∈ t.keys ↔ ∃ v, t.get? k = some v := by
  constructor
  · intro hk
    refine Option.ne_none_iff_exists'.mp ?_
    intro hnone
    rw [← erase_of_get?_eq_none hnone] at hk
    obtain ⟨p, hp, rfl⟩ := List.mem_map.mp hk
    simpa using (List.mem_filter.mp hp).2
  · rintro ⟨v, hv⟩
    exact List.mem_map_of_mem (mem_of_get? hv)

/-- Where no mark occurs twice, a mark is found under one key. -/
theorem Keyed.key_unique {μ : Type} {t : Table κ β} (h : t.Keyed) {f : β → List μ}
    (hf : (t.vals.flatMap f).Nodup) {m : μ} {j k : κ} {v w : β} (hj : t.get? j = some v)
    (hk : t.get? k = some w) (hv : m ∈ f v) (hw : m ∈ f w) : j = k := by
  by_contra hne
  have hrest : w ∈ (t.erase j).vals :=
    mem_vals_of_get? ((get?_erase_of_ne t (Ne.symm hne)).trans hk)
  have hnodup := ((h.vals_perm_of_get? hj).flatMap_right f).nodup_iff.mp hf
  rw [List.flatMap_cons, List.nodup_append] at hnodup
  exact hnodup.2.2 m hv m (List.mem_flatMap.mpr ⟨w, hrest, hw⟩) rfl

/-! ### Parts of a table -/

omit [DecidableEq κ] in
/-- The order of the pairs has no part in this. -/
theorem Keyed.congr {t t' : Table κ β} (h : t.Keyed) (hp : t'.Perm t) : t'.Keyed :=
  (hp.map Prod.fst).nodup_iff.mpr h

omit [DecidableEq κ] in
/-- A part of a table has one pair for a key as well. -/
theorem Keyed.left {t t' : Table κ β} (h : Keyed (t ++ t')) : t.Keyed := by
  rw [Keyed, keys, List.map_append] at h
  exact (List.nodup_append.mp h).1

omit [DecidableEq κ] in
theorem Keyed.right {t t' : Table κ β} (h : Keyed (t ++ t')) : t'.Keyed := by
  rw [Keyed, keys, List.map_append] at h
  exact (List.nodup_append.mp h).2.1

/-- Nothing is lost where the pairs of some keys are picked. -/
theorem Keyed.pick_perm {t : Table κ β} (h : t.Keyed) (ks : List κ) :
    ((t.pick ks).1 ++ (t.pick ks).2).Perm t := by
  induction ks generalizing t with
  | nil => exact List.Perm.refl _
  | cons k ks ih =>
    have hk := h.perm k
    rw [pick]
    cases hv : t.get? k with
    | none => exact ih h
    | some v =>
      rw [hv] at hk
      exact ((ih (h.erase k)).cons (k, v)).trans hk.symm

end Table

/-! ### Pools -/

namespace Pool

variable {β : Type}

/-- The numbers that were given out are those below the next one, each to one item. -/
structure Sound (p : Pool β) : Prop where
  keyed : p.items.Keyed
  lt_added : ∀ id b, p.get? id = some b → id < p.added

theorem sound_empty : (empty : Pool β).Sound where
  keyed := Table.keyed_nil
  lt_added := fun _ _ h => nomatch h

variable {p : Pool β}

/-- The next number is fresh. -/
theorem Sound.get?_added (h : p.Sound) : p.get? p.added = none := by
  cases hb : p.get? p.added with
  | none => rfl
  | some b => exact absurd (h.lt_added _ _ hb) (Nat.lt_irrefl _)

theorem get?_add_self (p : Pool β) (b : β) : (p.add b).1.get? p.added = some b := by
  rw [get?_add]
  exact if_pos rfl

/-- A new item does not get in the way of the others. -/
theorem Sound.get?_add_of_some (h : p.Sound) (b : β) {id : Nat} {b' : β}
    (hb : p.get? id = some b') : (p.add b).1.get? id = some b' := by
  rw [get?_add]
  exact (if_neg (Nat.ne_of_lt (h.lt_added id b' hb))).trans hb

theorem Sound.add (h : p.Sound) (b : β) : (p.add b).1.Sound := by
  refine ⟨h.keyed.insert _ _, ?_⟩
  intro id b' hb
  rw [get?_add] at hb
  split at hb
  · next hid => exact hid ▸ Nat.lt_succ_self _
  · exact Nat.lt_succ_of_lt (h.lt_added id b' hb)

theorem get?_set_self (p : Pool β) (id : Nat) (b : β) : (p.set id b).get? id = some b := by
  rw [get?_set, if_pos rfl]

theorem get?_set_of_ne (p : Pool β) {id id' : Nat} (b : β) (h : id' ≠ id) :
    (p.set id b).get? id' = p.get? id' := by
  rw [get?_set, if_neg h]

/-- What is found after a change is the new item, or was found before under another number. -/
theorem cases_of_get?_set {id id' : Nat} {b b' : β} (h : (p.set id b).get? id' = some b') :
    (id' = id ∧ b' = b) ∨ (id' ≠ id ∧ p.get? id' = some b') := by
  by_cases hid : id' = id
  · subst hid
    rw [get?_set_self] at h
    cases h
    exact .inl ⟨rfl, rfl⟩
  · rw [get?_set_of_ne p b hid] at h
    exact .inr ⟨hid, h⟩

/-- A change needs an item to put the new one in place of. -/
theorem Sound.set (h : p.Sound) {id : Nat} {b : β} (hb : p.get? id = some b) (b' : β) :
    (p.set id b').Sound := by
  refine ⟨h.keyed.insert _ _, ?_⟩
  intro id' b'' hb''
  rcases cases_of_get?_set hb'' with ⟨rfl, -⟩ | ⟨-, hb''⟩
  · exact h.lt_added id' b hb
  · exact h.lt_added id' b'' hb''

/-- A number is not given out again after its item has gone. -/
theorem Sound.erase (h : p.Sound) (id : Nat) : (p.erase id).Sound := by
  refine ⟨h.keyed.erase _, ?_⟩
  intro id' b hb
  rw [get?_erase] at hb
  split at hb
  · cases hb
  · exact h.lt_added id' b hb

theorem Sound.mem_vals_iff (h : p.Sound) {b : β} : b ∈ p.vals ↔ ∃ id, p.get? id = some b :=
  h.keyed.mem_vals_iff

/-- A new item comes in addition to the others. -/
theorem Sound.vals_add (h : p.Sound) (b : β) : (p.add b).1.vals = b :: p.vals := by
  show b :: (p.items.erase p.added).vals = _
  rw [Table.erase_of_get?_eq_none h.get?_added]
  rfl

theorem Sound.vals_perm_of_get? (h : p.Sound) {id : Nat} {b : β} (hb : p.get? id = some b) :
    p.vals.Perm (b :: (p.erase id).vals) :=
  h.keyed.vals_perm_of_get? hb

@[simp] theorem set_set (p : Pool β) (id : Nat) (b b' : β) :
    (p.set id b).set id b' = p.set id b' := by
  simp [set]

end Pool

end SparseDevice
