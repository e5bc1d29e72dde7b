import Mathlib.Data.List.Sort
import Orchestrator.Kit.JsonValue
import Orchestrator.Repositories.DiscoveredTasks
import Orchestrator.Repositories.StageTables

/-! # Canonical texts of JSON values

`stableJson` (`repositories/task.repository.ts`) and the comparisons made with it: of a
contract with the persisted one, of recorded heads, and of contract digests. The text of a
value ends where it ends, whatever follows, so equal texts are read as equal values; keys in
a total order make the text independent of the order they came in.
-/

namespace Orchestrator

open Kit

/-- A text as the code points of a string. -/
def codePoints (text : String) : List CodePoint := text.toList.map .character

/-- `"key":value`. -/
def entryText (entry : String × List Char) : List Char :=
  quote (codePoints entry.1) ++ ':' :: entry.2

section StableJson

variable (localeCompare : String → String → Int)

/-- `entries.sort(([left], [right]) => left.localeCompare(right))`. -/
def sortedEntries {α : Type} (entries : List (String × α)) : List (String × α) :=
  entries.mergeSort fun left right => localeCompare left.1 right.1 ≤ 0

-- The texts of the entries are made before the sort, which looks at the keys only.
mutual

def stableJson : Json → List Char
  | .array items => '[' :: (commaJoined (stableItems items) ++ [']'])
  | .object entries =>
      '\x7b' :: (commaJoined ((sortedEntries localeCompare (stableEntries entries)).map entryText) ++
        ['\x7d'])
  | .null => ['n', 'u', 'l', 'l']
  | .bool true => ['t', 'r', 'u', 'e']
  | .bool false => ['f', 'a', 'l', 's', 'e']
  | .number value => numberText value
  | .string text => quote text

def stableItems : List Json → List (List Char)
  | [] => []
  | item :: items => stableJson item :: stableItems items

def stableEntries : List (String × Json) → List (String × List Char)
  | [] => []
  | (key, value) :: entries => (key, stableJson value) :: stableEntries entries

end

/-- On these keys `localeCompare` is a total order that tells different keys apart. -/
structure TotalOrderOn (IsKey : String → Prop) : Prop where
  total : ∀ left right, IsKey left → IsKey right →
    localeCompare left right ≤ 0 ∨ localeCompare right left ≤ 0
  trans : ∀ left middle right, IsKey left → IsKey middle → IsKey right →
    localeCompare left middle ≤ 0 → localeCompare middle right ≤ 0 → localeCompare left right ≤ 0
  antisymm : ∀ left right, IsKey left → IsKey right →
    localeCompare left right ≤ 0 → localeCompare right left ≤ 0 → left = right

variable {localeCompare} {IsKey : String → Prop}

/-! ## The order of the keys -/

section SortedEntries

variable {α : Type} {entries entries' : List (String × α)}

theorem sortedEntries_perm (entries : List (String × α)) :
    (sortedEntries localeCompare entries).Perm entries := List.mergeSort_perm _ _

/-- The order needs to be total on the keys of the list only. -/
theorem sortedEntries_pairwise (horder : TotalOrderOn localeCompare IsKey)
    (hkeys : ∀ entry ∈ entries, IsKey entry.1) :
    (sortedEntries localeCompare entries).Pairwise fun left right =>
      localeCompare left.1 right.1 ≤ 0 := by
  let keyed : List { entry : String × α // IsKey entry.1 } :=
    entries.attach.map fun entry => ⟨entry.1, hkeys entry.1 entry.2⟩
  let atMost : { entry : String × α // IsKey entry.1 } → { entry : String × α // IsKey entry.1 } →
      Bool := fun left right => localeCompare left.1.1 right.1.1 ≤ 0
  have hkeyed : keyed.map Subtype.val = entries := by
    rw [List.map_map]
    exact List.attach_map_subtype_val entries
  have hsorted : (keyed.mergeSort atMost).Pairwise fun left right => atMost left right := by
    apply List.pairwise_mergeSort
    · intro left middle right hleft hright
      have hleft' : localeCompare left.1.1 middle.1.1 ≤ 0 := of_decide_eq_true hleft
      have hright' : localeCompare middle.1.1 right.1.1 ≤ 0 := of_decide_eq_true hright
      exact decide_eq_true
        (horder.trans _ middle.1.1 _ left.2 middle.2 right.2 hleft' hright')
    · intro left right
      rw [Bool.or_eq_true]
      exact (horder.total _ _ left.2 right.2).imp decide_eq_true decide_eq_true
  have hmap : (keyed.mergeSort atMost).map Subtype.val = sortedEntries localeCompare entries := by
    unfold sortedEntries
    rw [← hkeyed]
    exact List.map_mergeSort fun _ _ _ _ => rfl
  rw [← hmap, List.pairwise_map]
  exact hsorted.imp of_decide_eq_true

/-- The order in which different keys came in is forgotten. -/
theorem sortedEntries_eq_of_perm (horder : TotalOrderOn localeCompare IsKey)
    (hkeys : ∀ entry ∈ entries, IsKey entry.1) (different : (entries.map (·.1)).Nodup)
    (h : entries.Perm entries') :
    sortedEntries localeCompare entries = sortedEntries localeCompare entries' := by
  have hkeys' : ∀ entry ∈ entries', IsKey entry.1 := fun entry hmem =>
    hkeys entry (h.mem_iff.mpr hmem)
  have hperm : (sortedEntries localeCompare entries).Perm (sortedEntries localeCompare entries') :=
    (sortedEntries_perm entries).trans (h.trans (sortedEntries_perm entries').symm)
  refine hperm.eq_of_pairwise ?_ (sortedEntries_pairwise horder hkeys)
    (sortedEntries_pairwise horder hkeys')
  intro left right hleft hright hle hge
  have hleft' : left ∈ entries := (sortedEntries_perm entries).mem_iff.mp hleft
  have hright' : right ∈ entries :=
    h.mem_iff.mpr ((sortedEntries_perm entries').mem_iff.mp hright)
  have hkey : left.1 = right.1 :=
    horder.antisymm _ _ (hkeys left hleft') (hkeys right hright') hle hge
  exact List.inj_on_of_nodup_map different hleft' hright' hkey

/-- The sort looks at the keys only. -/
theorem sortedEntries_map {β : Type} (f : α → β) (entries : List (String × α)) :
    sortedEntries localeCompare (entries.map fun entry => (entry.1, f entry.2)) =
      (sortedEntries localeCompare entries).map fun entry => (entry.1, f entry.2) := by
  unfold sortedEntries
  rw [List.map_mergeSort]
  intro left _ right _
  rfl

end SortedEntries

/-! ## The text of a value -/

theorem stableItems_eq (items : List Json) :
    stableItems localeCompare items = items.map (stableJson localeCompare) := by
  induction items with
  | nil => rfl
  | cons item items ih => rw [stableItems, ih, List.map_cons]

theorem stableEntries_eq (entries : List (String × Json)) :
    stableEntries localeCompare entries =
      entries.map fun entry => (entry.1, stableJson localeCompare entry.2) := by
  induction entries with
  | nil => rfl
  | cons entry entries ih => rw [stableEntries, ih, List.map_cons]

theorem stableJson_array (items : List Json) :
    stableJson localeCompare (.array items) =
      '[' :: (commaJoined (items.map (stableJson localeCompare)) ++ [']']) := by
  rw [stableJson, stableItems_eq]

theorem stableJson_object (entries : List (String × Json)) :
    stableJson localeCompare (.object entries) =
      '\x7b' :: (commaJoined ((sortedEntries localeCompare entries).map fun entry =>
        entryText (entry.1, stableJson localeCompare entry.2)) ++ ['\x7d']) := by
  rw [stableJson, stableEntries_eq, sortedEntries_map, List.map_map]
  rfl

/-- Values that differ in the order of keys have one text. -/
theorem stableJson_eq_of_sameValue (horder : TotalOrderOn localeCompare IsKey)
    {value value' : Json} (hkeys : value.WellKeyed IsKey) (h : SameValue value value') :
    stableJson localeCompare value = stableJson localeCompare value' := by
  induction h with
  | refl => rfl
  | trans left right ihleft ihright =>
      exact (ihleft hkeys).trans (ihright (left.wellKeyed hkeys))
  | @item item item' before after _ ih =>
      have hitem : item.WellKeyed IsKey := by
        cases hkeys with
        | array values => exact values item (List.mem_append_right _ List.mem_cons_self)
      simp only [stableJson_array, List.map_append, List.map_cons, ih hitem]
  | @entry item item' before key after _ ih =>
      have hitem : item.WellKeyed IsKey := by
        cases hkeys with
        | object _ _ values =>
            exact values (key, item) (List.mem_append_right _ List.mem_cons_self)
      simp only [stableJson, stableEntries_eq, List.map_append, List.map_cons, ih hitem]
  | @reorder entries entries' different h =>
      cases hkeys with
      | object keys _ _ =>
          rw [stableJson_object, stableJson_object,
            sortedEntries_eq_of_perm horder keys different h]

/-! ## Reading the value back -/

inductive JsonKind
  | null | bool | number | string | array | object | other

def kind : Json → JsonKind
  | .null => .null
  | .bool _ => .bool
  | .number _ => .number
  | .string _ => .string
  | .array _ => .array
  | .object _ => .object

/-- The kind of value whose text begins with this character. -/
def kindOfFirst (first : Char) : JsonKind :=
  if isNumberChar first then .number
  else if first = 'n' then .null
  else if first = 't' ∨ first = 'f' then .bool
  else if first = '"' then .string
  else if first = '[' then .array
  else if first = '\x7b' then .object
  else .other

theorem stableJson_cons (value : Json) :
    ∃ first rest, stableJson localeCompare value = first :: rest ∧
      kindOfFirst first = kind value := by
  cases value with
  | null => exact ⟨'n', _, rfl, rfl⟩
  | bool value =>
      cases value with
      | true => exact ⟨'t', _, rfl, rfl⟩
      | false => exact ⟨'f', _, rfl, rfl⟩
  | number value =>
      obtain ⟨first, rest, htext, hfirst⟩ := numberText_cons value
      refine ⟨first, rest, htext, ?_⟩
      unfold kindOfFirst
      rw [if_pos hfirst]
      rfl
  | string text => exact ⟨'"', _, rfl, rfl⟩
  | array items => exact ⟨'[', _, rfl, rfl⟩
  | object entries => exact ⟨'\x7b', _, rfl, rfl⟩

theorem kind_eq_of_text {value value' : Json} {rest rest' : List Char}
    (h : stableJson localeCompare value ++ rest = stableJson localeCompare value' ++ rest') :
    kind value = kind value' := by
  obtain ⟨first, more, htext, hkind⟩ := @stableJson_cons localeCompare value
  obtain ⟨first', more', htext', hkind'⟩ := @stableJson_cons localeCompare value'
  rw [htext, htext'] at h
  rw [← hkind, ← hkind', List.head_eq_of_cons_eq h]

theorem codePoints_injective {left right : String} (h : codePoints left = codePoints right) :
    left = right := by
  have hlist : left.toList = right.toList :=
    List.map_injective_iff.mpr (fun _ _ hpoint => CodePoint.character.inj hpoint) h
  exact String.toList_inj.mp hlist

/-- The text of a value ends where it ends, whatever follows, and says what value it is. -/
theorem sameValue_of_text {value value' : Json} {rest rest' : List Char}
    (hkeys : value.WellKeyed IsKey) (hkeys' : value'.WellKeyed IsKey)
    (hrest : EndsValue rest) (hrest' : EndsValue rest')
    (h : stableJson localeCompare value ++ rest = stableJson localeCompare value' ++ rest') :
    SameValue value value' ∧ rest = rest' := by
  have hkind := kind_eq_of_text h
  induction value using Json.rec_mem generalizing value' rest rest' with
  | null =>
      cases value' with
      | null => exact ⟨.refl _, List.append_cancel_left h⟩
      | _ => cases hkind
  | bool value =>
      cases value' with
      | bool value' =>
          cases value with
          | true =>
              cases value' with
              | true => exact ⟨.refl _, List.append_cancel_left h⟩
              | false => exact absurd (List.head_eq_of_cons_eq h) (by decide)
          | false =>
              cases value' with
              | true => exact absurd (List.head_eq_of_cons_eq h) (by decide)
              | false => exact ⟨.refl _, List.append_cancel_left h⟩
      | _ => cases hkind
  | number value =>
      cases value' with
      | number value' =>
          simp only [stableJson] at h
          obtain ⟨rfl, hafter⟩ := numberText_inj hrest hrest' h
          exact ⟨.refl _, hafter⟩
      | _ => cases hkind
  | string text =>
      cases value' with
      | string text' =>
          simp only [stableJson] at h
          obtain ⟨rfl, hafter⟩ := quote_inj h
          exact ⟨.refl _, hafter⟩
      | _ => cases hkind
  | array items ih =>
      cases value' with
      | array items' =>
          cases hkeys with
          | array values =>
          cases hkeys' with
          | array values' =>
          rw [stableJson_array, stableJson_array] at h
          simp only [List.cons_append, List.append_assoc] at h
          have hlist := List.tail_eq_of_cons_eq h
          have hread := @commaJoined_inj Json (stableJson localeCompare) SameValue ']' items items'
            rest rest' rfl (by decide) (fun item => by
              obtain ⟨first, more, htext, hfirst⟩ := @stableJson_cons localeCompare item
              refine ⟨first, more, htext, ?_⟩
              rintro rfl
              cases item <;> cases hfirst)
            (fun item hitem item' hitem' after after' hafter hafter' htext =>
              ih item hitem (values item hitem) (values' item' hitem') hafter hafter' htext
                (kind_eq_of_text htext)) hlist
          exact ⟨.array [] hread.1, hread.2⟩
      | _ => cases hkind
  | object entries ih =>
      cases value' with
      | object entries' =>
          cases hkeys with
          | object keys different values =>
          cases hkeys' with
          | object keys' different' values' =>
          rw [stableJson_object, stableJson_object] at h
          simp only [List.cons_append, List.append_assoc] at h
          have hlist := List.tail_eq_of_cons_eq h
          have hperm := @sortedEntries_perm localeCompare Json entries
          have hperm' := @sortedEntries_perm localeCompare Json entries'
          have hread := @commaJoined_inj (String × Json)
            (fun entry => entryText (entry.1, stableJson localeCompare entry.2)) SameEntry '\x7d'
            (sortedEntries localeCompare entries) (sortedEntries localeCompare entries')
            rest rest' rfl (by decide) (fun entry => ⟨'"', _, rfl, by decide⟩)
            (fun entry hentry entry' hentry' after after' hafter hafter' htext => by
              simp only [entryText, List.append_assoc] at htext
              obtain ⟨hkey, hvalue⟩ := quote_inj htext
              have hvalue' := List.tail_eq_of_cons_eq hvalue
              have hmem := hperm.mem_iff.mp hentry
              have hmem' := hperm'.mem_iff.mp hentry'
              have hsame := ih entry hmem (values entry hmem) (values' entry' hmem') hafter hafter'
                hvalue' (kind_eq_of_text hvalue')
              exact ⟨⟨codePoints_injective hkey, hsame.1⟩, hsame.2⟩) hlist
          -- Both objects are the sorted ones up to order, and those agree entry by entry.
          have hsorted : SameValue (.object entries)
              (.object (sortedEntries localeCompare entries)) := .reorder different hperm.symm
          have hsorted' : SameValue (.object (sortedEntries localeCompare entries'))
              (.object entries') := .reorder ((hperm'.map _).nodup_iff.mpr different') hperm'
          exact ⟨.trans hsorted (.trans (.object [] hread.1) hsorted'), hread.2⟩
      | _ => cases hkind

/-- `stableJson` tells exactly the values that differ by more than the order of keys. -/
theorem stableJson_eq_iff (horder : TotalOrderOn localeCompare IsKey) {value value' : Json}
    (hkeys : value.WellKeyed IsKey) (hkeys' : value'.WellKeyed IsKey) :
    stableJson localeCompare value = stableJson localeCompare value' ↔ SameValue value value' := by
  constructor
  · intro h
    have happend : stableJson localeCompare value ++ [] = stableJson localeCompare value' ++ [] := by
      rw [h]
    exact (sameValue_of_text hkeys hkeys' endsValue_nil endsValue_nil happend).1
  · exact stableJson_eq_of_sameValue horder hkeys

end StableJson

end Orchestrator
