import Mathlib.Data.List.Forall2
import Orchestrator.Kit.Table
import Orchestrator.Kit.Json

/-! # JSON values up to the order of their keys

An object is the list of its entries. Two values are the same up to the order of keys when
one becomes the other by reordering the entries of objects, at any depth; this is what a
store that keeps objects without an order gives back.
-/

namespace Kit

inductive Json
  | null
  | bool (value : Bool)
  | number (value : JsonNumber)
  | string (text : List CodePoint)
  | array (items : List Json)
  | object (entries : List (String × Json))

/-- Induction with a hypothesis for every item and for the value of every entry. -/
theorem Json.rec_mem {motive : Json → Prop} (null : motive .null)
    (bool : ∀ value, motive (.bool value)) (number : ∀ value, motive (.number value))
    (string : ∀ text, motive (.string text))
    (array : ∀ items, (∀ item ∈ items, motive item) → motive (.array items))
    (object : ∀ entries, (∀ entry ∈ entries, motive entry.2) → motive (.object entries))
    (value : Json) : motive value := by
  refine @Json.rec motive (fun items => ∀ item ∈ items, motive item)
    (fun entries => ∀ entry ∈ entries, motive entry.2) (fun entry => motive entry.2)
    null bool number string array object ?_ ?_ ?_ ?_ (fun _ _ h => h) value
  · exact fun _ h => absurd h List.not_mem_nil
  · intro item items hitem hitems other hother
    rcases List.mem_cons.mp hother with rfl | hother
    · exact hitem
    · exact hitems other hother
  · exact fun _ h => absurd h List.not_mem_nil
  · intro entry entries hentry hentries other hother
    rcases List.mem_cons.mp hother with rfl | hother
    · exact hentry
    · exact hentries other hother

/-- The keys of every object are among `IsKey`, and different. -/
inductive Json.WellKeyed (IsKey : String → Prop) : Json → Prop
  | null : WellKeyed IsKey .null
  | bool (value : Bool) : WellKeyed IsKey (.bool value)
  | number (value : JsonNumber) : WellKeyed IsKey (.number value)
  | string (text : List CodePoint) : WellKeyed IsKey (.string text)
  | array {items : List Json} (values : ∀ item ∈ items, WellKeyed IsKey item) :
      WellKeyed IsKey (.array items)
  | object {entries : List (String × Json)} (keys : ∀ entry ∈ entries, IsKey entry.1)
      (different : (entries.map (·.1)).Nodup)
      (values : ∀ entry ∈ entries, WellKeyed IsKey entry.2) : WellKeyed IsKey (.object entries)

/-- One value becomes the other by reordering the entries of objects. -/
inductive SameValue : Json → Json → Prop
  | refl (value : Json) : SameValue value value
  | trans {first second third : Json} (left : SameValue first second)
      (right : SameValue second third) : SameValue first third
  | item {value value' : Json} (before after : List Json) (h : SameValue value value') :
      SameValue (.array (before ++ value :: after)) (.array (before ++ value' :: after))
  | entry {value value' : Json} (before : List (String × Json)) (key : String)
      (after : List (String × Json)) (h : SameValue value value') :
      SameValue (.object (before ++ (key, value) :: after))
        (.object (before ++ (key, value') :: after))
  | reorder {entries entries' : List (String × Json)} (different : (entries.map (·.1)).Nodup)
      (h : entries.Perm entries') : SameValue (.object entries) (.object entries')

variable {IsKey : String → Prop} {value value' : Json}

/-! ## Each value in its place -/

/-- The same key, and the same value up to the order of keys. -/
def SameEntry (left right : String × Json) : Prop := left.1 = right.1 ∧ SameValue left.2 right.2

theorem SameValue.symm (h : SameValue value value') : SameValue value' value := by
  induction h with
  | refl value => exact .refl value
  | trans _ _ ihleft ihright => exact .trans ihright ihleft
  | item before after _ ih => exact .item before after ih
  | entry before key after _ ih => exact .entry before key after ih
  | reorder different h => exact .reorder ((h.map _).nodup_iff.mp different) h.symm

theorem SameValue.array {items items' : List Json} (before : List Json)
    (h : List.Forall₂ SameValue items items') :
    SameValue (.array (before ++ items)) (.array (before ++ items')) := by
  induction h generalizing before with
  | nil => exact .refl _
  | @cons item item' items items' hitem _ ih =>
      have hrest := ih (before ++ [item'])
      rw [List.append_assoc, List.append_assoc] at hrest
      exact .trans (.item before items hitem) hrest

theorem SameValue.object {entries entries' : List (String × Json)}
    (before : List (String × Json)) (h : List.Forall₂ SameEntry entries entries') :
    SameValue (.object (before ++ entries)) (.object (before ++ entries')) := by
  induction h generalizing before with
  | nil => exact .refl _
  | @cons entry entry' entries entries' hentry _ ih =>
      obtain ⟨key, item⟩ := entry
      obtain ⟨key', item'⟩ := entry'
      obtain ⟨rfl, hitem⟩ := hentry
      have hrest := ih (before ++ [(key, item')])
      rw [List.append_assoc, List.append_assoc] at hrest
      exact .trans (.entry before key entries hitem) hrest

/-- The keys stay the same, and different. -/
theorem SameValue.wellKeyed (h : SameValue value value') (hvalue : value.WellKeyed IsKey) :
    value'.WellKeyed IsKey := by
  induction h with
  | refl => exact hvalue
  | trans _ _ ihleft ihright => exact ihright (ihleft hvalue)
  | item before after _ ih =>
      cases hvalue with
      | array values =>
          refine .array fun item hmem => ?_
          rcases List.mem_append.mp hmem with hbefore | hafter
          · exact values item (List.mem_append_left _ hbefore)
          · rcases List.mem_cons.mp hafter with rfl | hafter
            · exact ih (values _ (List.mem_append_right _ List.mem_cons_self))
            · exact values item (List.mem_append_right _ (List.mem_cons_of_mem _ hafter))
  | @entry item item' before key after _ ih =>
      cases hvalue with
      | object keys different values =>
          have hkey : (key, item) ∈ before ++ (key, item) :: after :=
            List.mem_append_right before List.mem_cons_self
          refine .object (fun entry hmem => ?_) ?_ fun entry hmem => ?_
          · rcases List.mem_append.mp hmem with hbefore | hafter
            · exact keys entry (List.mem_append_left _ hbefore)
            · rcases List.mem_cons.mp hafter with rfl | hafter
              · exact keys (key, item) hkey
              · exact keys entry (List.mem_append_right _ (List.mem_cons_of_mem _ hafter))
          · rw [List.map_append, List.map_cons] at different ⊢
            exact different
          · rcases List.mem_append.mp hmem with hbefore | hafter
            · exact values entry (List.mem_append_left _ hbefore)
            · rcases List.mem_cons.mp hafter with rfl | hafter
              · exact ih (values _ hkey)
              · exact values entry (List.mem_append_right _ (List.mem_cons_of_mem _ hafter))
  | reorder different h =>
      cases hvalue with
      | object keys _ values =>
          exact .object (fun entry hmem => keys entry (h.mem_iff.mpr hmem))
            ((h.map _).nodup_iff.mp different) fun entry hmem => values entry (h.mem_iff.mpr hmem)

/-! ## What the other value has -/

def Json.IsScalar : Json → Prop
  | .array _ => False
  | .object _ => False
  | _ => True

theorem SameValue.of_scalar (h : SameValue value value') (hscalar : value.IsScalar) :
    value' = value := by
  induction h with
  | refl => rfl
  | trans _ _ ihleft ihright =>
      have hleft := ihleft hscalar
      rw [← hleft] at hscalar
      exact (ihright hscalar).trans hleft
  | item => exact hscalar.elim
  | entry => exact hscalar.elim
  | reorder => exact hscalar.elim

theorem sameItems_trans {first second third : List Json}
    (hleft : List.Forall₂ SameValue first second)
    (hright : List.Forall₂ SameValue second third) : List.Forall₂ SameValue first third := by
  induction hleft generalizing third with
  | nil => exact hright
  | cons hitem _ ih =>
      cases hright with
      | cons hitem' hrest => exact .cons (.trans hitem hitem') (ih hrest)

theorem SameValue.of_array {items : List Json} (h : SameValue (.array items) value') :
    ∃ items', value' = .array items' ∧ List.Forall₂ SameValue items items' := by
  generalize hvalue : Json.array items = value at h
  induction h generalizing items with
  | refl value =>
      exact ⟨items, hvalue.symm, List.forall₂_same.mpr fun item _ => .refl item⟩
  | trans _ _ ihleft ihright =>
      obtain ⟨items₁, rfl, hleft⟩ := ihleft hvalue
      obtain ⟨items₂, rfl, hright⟩ := ihright rfl
      exact ⟨items₂, rfl, sameItems_trans hleft hright⟩
  | item before after h _ =>
      obtain rfl := Json.array.inj hvalue
      refine ⟨_, rfl, List.rel_append ?_ (.cons h ?_)⟩
      · exact List.forall₂_same.mpr fun item _ => .refl item
      · exact List.forall₂_same.mpr fun item _ => .refl item
  | entry => cases hvalue
  | reorder => cases hvalue

theorem rel_refl (found : Option Json) : Option.Rel SameValue found found := by
  cases found with
  | none => exact .none
  | some item => exact .some (.refl item)

/-- The value of a key, and whether there is one, up to the order of keys. -/
theorem SameValue.of_object {entries : List (String × Json)}
    (h : SameValue (.object entries) value') :
    ∃ entries', value' = .object entries' ∧
      ∀ key, Option.Rel SameValue (entries.lookup key) (entries'.lookup key) := by
  generalize hvalue : Json.object entries = value at h
  induction h generalizing entries with
  | refl value => exact ⟨entries, hvalue.symm, fun key => rel_refl _⟩
  | trans _ _ ihleft ihright =>
      -- Key by key through the object in between.
      obtain ⟨entries₁, rfl, hleft⟩ := ihleft hvalue
      obtain ⟨entries₂, rfl, hright⟩ := ihright rfl
      refine ⟨entries₂, rfl, fun key => ?_⟩
      have hl := hleft key
      have hr := hright key
      revert hl hr
      generalize entries.lookup key = left
      generalize entries₁.lookup key = middle
      generalize entries₂.lookup key = right
      intro hl hr
      cases hl with
      | none =>
          cases hr with
          | none => exact .none
      | some hfirst =>
          cases hr with
          | some hsecond => exact .some (.trans hfirst hsecond)
  | item => cases hvalue
  | @entry item item' before key after h _ =>
      obtain rfl := Json.object.inj hvalue
      refine ⟨_, rfl, fun other => ?_⟩
      rw [List.lookup_append, List.lookup_append]
      cases before.lookup other with
      | some found => exact rel_refl _
      | none =>
          rw [Option.none_or, Option.none_or, List.lookup_cons, List.lookup_cons]
          cases other == key with
          | true => exact .some h
          | false => exact rel_refl _
  | reorder different h =>
      obtain rfl := Json.object.inj hvalue
      refine ⟨_, rfl, fun key => ?_⟩
      rw [lookup_perm different h key]
      exact rel_refl _

end Kit
