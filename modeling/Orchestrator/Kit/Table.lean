import Mathlib.Data.List.Basic
import Mathlib.Data.List.Nodup
import Mathlib.Data.List.Perm.Subperm

/-! # Tables of rows with a primary key

A table is a list of rows in insertion order whose keys are pairwise distinct;
the distinctness is a field, so no operation can build a table with two rows of
one key. Counting lemmas relate the number of rows with a property before and
after a change.
-/

namespace Kit

/-- A number above every entry is fresh. -/
theorem le_foldr_max {numbers : List Nat} {number : Nat} (h : number ∈ numbers) :
    number ≤ numbers.foldr max 0 := by
  induction numbers with
  | nil => cases h
  | cons head numbers ih =>
      rcases List.mem_cons.mp h with rfl | h
      · exact Nat.le_max_left _ _
      · exact Nat.le_trans (ih h) (Nat.le_max_right _ _)

/-- Rows with pairwise distinct keys. -/
structure Table {α κ : Type*} (key : α → κ) where
  rows : List α
  keysNodup : (rows.map key).Nodup

namespace Table

variable {α κ : Type*} {key : α → κ}

instance [DecidableEq α] : DecidableEq (Table key)
  | ⟨rows, _⟩, ⟨rows', _⟩ =>
      decidable_of_iff (rows = rows') (by simp)

@[ext] theorem ext {t t' : Table key} (h : t.rows = t'.rows) : t = t' := by
  cases t; cases t'; simpa using h

/-- The table without rows. -/
def empty : Table key := ⟨[], by simp⟩

@[simp] theorem empty_rows : (empty : Table key).rows = [] := rfl

/-- The key determines the row. -/
theorem eq_of_key (t : Table key) {x y : α} (hx : x ∈ t.rows) (hy : y ∈ t.rows)
    (h : key x = key y) : x = y :=
  List.inj_on_of_nodup_map t.keysNodup hx hy h

/-- Keep the rows that satisfy `p`. -/
def filter (t : Table key) (p : α → Bool) : Table key where
  rows := t.rows.filter p
  keysNodup := t.keysNodup.sublist (List.filter_sublist.map key)

@[simp] theorem mem_filter {t : Table key} {p : α → Bool} {x : α} :
    x ∈ (t.filter p).rows ↔ x ∈ t.rows ∧ p x := by
  simp [filter]

/-! ## Counting rows -/

/-- The number of rows that satisfy `p`. -/
def count (t : Table key) (p : α → Bool) : Nat := t.rows.countP p

theorem count_eq_zero {t : Table key} {p : α → Bool} (h : ∀ x ∈ t.rows, p x = false) :
    t.count p = 0 := by
  rw [count, List.countP_eq_zero]
  intro x hx
  simp [h x hx]

/-- If every counted row of `t'` has a counted row with its key in `t`, no more
rows are counted in `t'`. -/
theorem count_le_of_forall {t t' : Table key} {p q : α → Bool}
    (h : ∀ x ∈ t'.rows, q x → ∃ y ∈ t.rows, key y = key x ∧ p y) :
    t'.count q ≤ t.count p := by
  -- The counted keys of `t'` are distinct, and each is a counted key of `t`.
  have hsub : (t'.rows.filter q).map key ⊆ (t.rows.filter p).map key := by
    intro k hk
    obtain ⟨x, hx, rfl⟩ := List.mem_map.mp hk
    obtain ⟨hx, hqx⟩ := List.mem_filter.mp hx
    obtain ⟨y, hy, hkey, hpy⟩ := h x hx hqx
    exact List.mem_map.mpr ⟨y, List.mem_filter.mpr ⟨hy, hpy⟩, hkey⟩
  have hnodup : ((t'.rows.filter q).map key).Nodup :=
    t'.keysNodup.sublist (List.filter_sublist.map key)
  have hle := (hnodup.subperm hsub).length_le
  simpa [count, List.countP_eq_length_filter] using hle

/-- The same with one key exempt: at most one more row is counted. -/
theorem count_le_succ_of_forall {t t' : Table key} {p q : α → Bool} (k : κ)
    (h : ∀ x ∈ t'.rows, key x ≠ k → q x → ∃ y ∈ t.rows, key y = key x ∧ p y) :
    t'.count q ≤ t.count p + 1 := by
  -- As above, with the exempt key put in front.
  have hsub : (t'.rows.filter q).map key ⊆ k :: (t.rows.filter p).map key := by
    intro k' hk'
    obtain ⟨x, hx, rfl⟩ := List.mem_map.mp hk'
    obtain ⟨hx, hqx⟩ := List.mem_filter.mp hx
    by_cases hk : key x = k
    · rw [hk]
      exact List.mem_cons_self
    · obtain ⟨y, hy, hkey, hpy⟩ := h x hx hk hqx
      exact List.mem_cons_of_mem _
        (List.mem_map.mpr ⟨y, List.mem_filter.mpr ⟨hy, hpy⟩, hkey⟩)
  have hnodup : ((t'.rows.filter q).map key).Nodup :=
    t'.keysNodup.sublist (List.filter_sublist.map key)
  have hle := (hnodup.subperm hsub).length_le
  simpa [count, List.countP_eq_length_filter] using hle

theorem count_mono {t : Table key} {p q : α → Bool} (h : ∀ x ∈ t.rows, q x → p x) :
    t.count q ≤ t.count p :=
  count_le_of_forall fun x hx hq => ⟨x, hx, rfl, h x hx hq⟩

section Keyed

variable [DecidableEq κ]

/-- The row with key `k`. -/
def find? (t : Table key) (k : κ) : Option α := t.rows.find? fun x => key x = k

/-- Replace the row that has the key of `r`; without such a row, no change. -/
def put (t : Table key) (r : α) : Table key where
  rows := t.rows.map fun x => if key x = key r then r else x
  keysNodup := by
    have hkeys : (t.rows.map fun x => if key x = key r then r else x).map key =
        t.rows.map key := by
      rw [List.map_map]
      refine List.map_congr_left fun x _ => ?_
      by_cases h : key x = key r <;> simp [h]
    rw [hkeys]
    exact t.keysNodup

/-- Append a row whose key is new; a row whose key is taken changes nothing. -/
def insert (t : Table key) (r : α) : Table key :=
  if h : key r ∈ t.rows.map key then t
  else ⟨t.rows ++ [r], by
    rw [List.map_append, List.map_singleton]
    exact t.keysNodup.append (List.nodup_singleton _)
      (by rw [List.disjoint_singleton]; exact h)⟩

/-- Insert, or replace the row that has this key. -/
def upsert (t : Table key) (r : α) : Table key := (t.put r).insert r

/-- Drop the row with key `k`. -/
def erase (t : Table key) (k : κ) : Table key := t.filter fun x => key x ≠ k

/-! ## Looking rows up -/

theorem find?_eq_some_iff {t : Table key} {k : κ} {x : α} :
    t.find? k = some x ↔ x ∈ t.rows ∧ key x = k := by
  constructor
  · intro h
    exact ⟨List.mem_of_find?_eq_some h, by simpa using List.find?_some h⟩
  · rintro ⟨hx, rfl⟩
    have hsome : (t.rows.find? fun y => key y = key x).isSome := by
      rw [List.find?_isSome]
      exact ⟨x, hx, by simp⟩
    obtain ⟨y, hy⟩ := Option.isSome_iff_exists.mp hsome
    have hkey : key y = key x := by simpa using List.find?_some hy
    rw [find?, hy, t.eq_of_key (List.mem_of_find?_eq_some hy) hx hkey]

theorem find?_eq_none_iff {t : Table key} {k : κ} :
    t.find? k = none ↔ ∀ x ∈ t.rows, key x ≠ k := by
  simp [find?]

theorem mem_of_find? {t : Table key} {k : κ} {x : α} (h : t.find? k = some x) : x ∈ t.rows :=
  (find?_eq_some_iff.mp h).1

theorem key_of_find? {t : Table key} {k : κ} {x : α} (h : t.find? k = some x) : key x = k :=
  (find?_eq_some_iff.mp h).2

theorem find?_of_mem {t : Table key} {x : α} (h : x ∈ t.rows) : t.find? (key x) = some x :=
  find?_eq_some_iff.mpr ⟨h, rfl⟩

/-! ## Replacing one row -/

theorem mem_put {t : Table key} {r x : α} :
    x ∈ (t.put r).rows ↔
      (x = r ∧ ∃ y ∈ t.rows, key y = key r) ∨ (x ∈ t.rows ∧ key x ≠ key r) := by
  simp only [put, List.mem_map]
  constructor
  · rintro ⟨y, hy, rfl⟩
    by_cases h : key y = key r
    · exact Or.inl ⟨by simp [h], y, hy, h⟩
    · exact Or.inr (by simpa [h] using hy)
  · rintro (⟨rfl, y, hy, h⟩ | ⟨hx, h⟩)
    · exact ⟨y, hy, by simp [h]⟩
    · exact ⟨x, hx, by simp [h]⟩

theorem find?_put_self {t : Table key} {r y : α} (h : t.find? (key r) = some y) :
    (t.put r).find? (key r) = some r := by
  rw [find?_eq_some_iff, mem_put]
  exact ⟨Or.inl ⟨rfl, y, mem_of_find? h, key_of_find? h⟩, rfl⟩

theorem find?_put_of_ne {t : Table key} {r : α} {k : κ} (h : k ≠ key r) :
    (t.put r).find? k = t.find? k := by
  ext x
  simp only [find?_eq_some_iff, mem_put]
  constructor
  · rintro ⟨⟨rfl, _⟩ | ⟨hx, _⟩, rfl⟩
    · exact absurd rfl h
    · exact ⟨hx, rfl⟩
  · rintro ⟨hx, rfl⟩
    exact ⟨Or.inr ⟨hx, h⟩, rfl⟩

/-! ## Adding and dropping rows -/

theorem mem_insert {t : Table key} {r x : α} (h : t.find? (key r) = none) :
    x ∈ (t.insert r).rows ↔ x ∈ t.rows ∨ x = r := by
  have hnew : key r ∉ t.rows.map key := by
    simpa using find?_eq_none_iff.mp h
  simp [insert, hnew]

theorem mem_of_mem_insert {t : Table key} {r x : α} (h : x ∈ (t.insert r).rows) :
    x ∈ t.rows ∨ x = r := by
  unfold insert at h
  split at h
  · exact Or.inl h
  · simpa using h

theorem mem_insert_of_mem {t : Table key} {r x : α} (h : x ∈ t.rows) :
    x ∈ (t.insert r).rows := by
  unfold insert
  split
  · exact h
  · exact List.mem_append_left _ h

theorem find?_insert_self {t : Table key} {r : α} (h : t.find? (key r) = none) :
    (t.insert r).find? (key r) = some r :=
  find?_eq_some_iff.mpr ⟨(mem_insert h).mpr (Or.inr rfl), rfl⟩

theorem find?_insert_of_ne {t : Table key} {r : α} {k : κ} (h : k ≠ key r) :
    (t.insert r).find? k = t.find? k := by
  ext x
  simp only [find?_eq_some_iff]
  constructor
  · rintro ⟨hx, rfl⟩
    rcases mem_of_mem_insert hx with hx | rfl
    · exact ⟨hx, rfl⟩
    · exact absurd rfl h
  · rintro ⟨hx, rfl⟩
    exact ⟨mem_insert_of_mem hx, rfl⟩

/-- A taken key keeps its row. -/
theorem insert_of_find? {t : Table key} {r y : α} (h : t.find? (key r) = some y) :
    t.insert r = t := by
  have htaken : key r ∈ t.rows.map key :=
    List.mem_map.mpr ⟨y, mem_of_find? h, key_of_find? h⟩
  simp [insert, htaken]

theorem insert_eq_self_iff {t : Table key} {r : α} :
    t.insert r = t ↔ t.find? (key r) ≠ none := by
  constructor
  · intro h hnone
    have hself := find?_insert_self hnone
    rw [h, hnone] at hself
    cases hself
  · intro h
    obtain ⟨y, hy⟩ := Option.ne_none_iff_exists'.mp h
    exact insert_of_find? hy

theorem put_of_find?_eq_none {t : Table key} {r : α} (h : t.find? (key r) = none) :
    t.put r = t := by
  have hkeys := find?_eq_none_iff.mp h
  ext1
  refine (List.map_congr_left fun x hx => ?_).trans (List.map_id t.rows)
  simp [hkeys x hx]

theorem put_eq_self_iff {t : Table key} {r y : α} (h : t.find? (key r) = some y) :
    t.put r = t ↔ y = r := by
  constructor
  · intro hput
    have hself := find?_put_self h
    rw [hput, h] at hself
    exact Option.some.inj hself
  · rintro rfl
    ext1
    refine (List.map_congr_left fun x hx => ?_).trans (List.map_id t.rows)
    by_cases hkey : key x = key y
    · simp [t.eq_of_key hx (mem_of_find? h) hkey]
    · simp [hkey]

/-! ## Inserting or replacing -/

/-- An upsert replaces the row of a taken key and appends otherwise. -/
theorem upsert_eq {t : Table key} {r : α} :
    t.upsert r = if t.find? (key r) = none then t.insert r else t.put r := by
  unfold upsert
  split_ifs with h
  · rw [put_of_find?_eq_none h]
  · obtain ⟨y, hy⟩ := Option.ne_none_iff_exists'.mp h
    exact insert_of_find? (find?_put_self hy)

theorem find?_upsert_self {t : Table key} {r : α} : (t.upsert r).find? (key r) = some r := by
  rw [upsert_eq]
  split_ifs with h
  · exact find?_insert_self h
  · obtain ⟨y, hy⟩ := Option.ne_none_iff_exists'.mp h
    exact find?_put_self hy

theorem find?_upsert_of_ne {t : Table key} {r : α} {k : κ} (h : k ≠ key r) :
    (t.upsert r).find? k = t.find? k := by
  rw [upsert_eq]
  split_ifs
  · exact find?_insert_of_ne h
  · exact find?_put_of_ne h

theorem upsert_eq_self_iff {t : Table key} {r : α} :
    t.upsert r = t ↔ t.find? (key r) = some r := by
  constructor
  · intro h
    have hself := find?_upsert_self (t := t) (r := r)
    rwa [h] at hself
  · intro h
    have htaken : ¬ t.find? (key r) = none := by simp [h]
    rw [upsert_eq, if_neg htaken, put_eq_self_iff h]

/-! ## Counting across a change -/

/-- Replacing a row changes the count by the difference between the two rows. -/
theorem count_put {t : Table key} {r y : α} (p : α → Bool) (h : t.find? (key r) = some y) :
    (t.put r).count p + (if p y then 1 else 0) = t.count p + (if p r then 1 else 0) := by
  obtain ⟨hy, hkey⟩ := find?_eq_some_iff.mp h
  -- Split the table at the row; neither part has its key, so `put` keeps both.
  obtain ⟨before, after, hrows⟩ := List.append_of_mem hy
  have hnodup := t.keysNodup
  rw [hrows, List.map_append, List.map_cons, List.nodup_append] at hnodup
  obtain ⟨_, hafter, hdisj⟩ := hnodup
  have hb : before.map (fun x => if key x = key r then r else x) = before := by
    refine (List.map_congr_left fun x hx => ?_).trans (List.map_id before)
    have hne : key x ≠ key y := hdisj _ (List.mem_map_of_mem hx) _ (by simp)
    simp [← hkey, hne]
  have ha : after.map (fun x => if key x = key r then r else x) = after := by
    refine (List.map_congr_left fun x hx => ?_).trans (List.map_id after)
    have hne : key x ≠ key y := fun heq =>
      (List.nodup_cons.mp hafter).1 (heq ▸ List.mem_map_of_mem hx)
    simp [← hkey, hne]
  simp only [count, put, hrows, List.map_append, List.map_cons, hb, ha, hkey, if_true,
    List.countP_append, List.countP_cons]
  omega

end Keyed

end Table

/-! ## Entries of a record -/

/-- Among different keys, the value of a key is the one that stands with it. -/
theorem lookup_eq_some_iff_mem {β : Type*} {entries : List (String × β)} {key : String}
    {found : β} (different : (entries.map (·.1)).Nodup) :
    entries.lookup key = some found ↔ (key, found) ∈ entries := by
  induction entries with
  | nil => simp
  | cons entry entries ih =>
      obtain ⟨head, first⟩ := entry
      rw [List.map_cons, List.nodup_cons] at different
      by_cases hkey : key = head
      · subst hkey
        have hother : (key, found) ∉ entries :=
          fun hmem => different.1 (List.mem_map.mpr ⟨_, hmem, rfl⟩)
        simp [List.lookup_cons_self, hother, eq_comm]
      · have hskip : (key == head) = false := beq_eq_false_iff_ne.mpr hkey
        rw [List.lookup_cons, hskip, ih different.2]
        simp [hkey]

theorem lookup_perm {β : Type*} {entries entries' : List (String × β)}
    (different : (entries.map (·.1)).Nodup) (h : entries.Perm entries') (key : String) :
    entries.lookup key = entries'.lookup key := by
  have different' : (entries'.map (·.1)).Nodup := (h.map _).nodup_iff.mp different
  apply Option.ext
  intro found
  rw [lookup_eq_some_iff_mem different, lookup_eq_some_iff_mem different']
  exact h.mem_iff

theorem lookup_mapValues {α β : Type} (f : α → β) (entries : List (String × α)) (key : String) :
    (entries.map fun entry => (entry.1, f entry.2)).lookup key = (entries.lookup key).map f := by
  induction entries with
  | nil => rfl
  | cons entry entries ih =>
      obtain ⟨head, value⟩ := entry
      rw [List.map_cons, List.lookup_cons, List.lookup_cons, ih]
      cases key == head with
      | true => rfl
      | false => rfl

end Kit
