import Mathlib.Data.List.Infix

/-! # UTF-16

The code units of a text, in which the lengths and positions of a string are counted.
-/

namespace Kit

/-- The number of code units of a character. -/
def utf16Width (character : Char) : Nat := if character.toNat < 0x10000 then 1 else 2

def utf16Length : List Char → Nat
  | [] => 0
  | character :: text => utf16Width character + utf16Length text

@[simp] theorem utf16Length_nil : utf16Length [] = 0 := rfl

@[simp] theorem utf16Length_cons (character : Char) (text : List Char) :
    utf16Length (character :: text) = utf16Width character + utf16Length text := rfl

@[simp] theorem utf16Length_append (left right : List Char) :
    utf16Length (left ++ right) = utf16Length left + utf16Length right := by
  induction left with
  | nil => exact (Nat.zero_add _).symm
  | cons character left ih =>
      rw [List.cons_append, utf16Length_cons, utf16Length_cons, ih, Nat.add_assoc]

/-! ## Code units -/

/-- A code unit that stands for half a character. -/
def IsHigh (unit : Nat) : Prop := 0xD800 ≤ unit ∧ unit < 0xDC00

def IsLow (unit : Nat) : Prop := 0xDC00 ≤ unit ∧ unit < 0xE000

/-- The character itself, or a surrogate pair. -/
def utf16Units (character : Char) : List Nat :=
  if character.toNat < 0x10000 then [character.toNat]
  else
    [0xD800 + (character.toNat - 0x10000) / 0x400, 0xDC00 + (character.toNat - 0x10000) % 0x400]

def utf16 (text : List Char) : List Nat := text.flatMap utf16Units

@[simp] theorem utf16_nil : utf16 [] = [] := rfl

@[simp] theorem utf16_cons (character : Char) (text : List Char) :
    utf16 (character :: text) = utf16Units character ++ utf16 text := rfl

@[simp] theorem utf16_append (left right : List Char) :
    utf16 (left ++ right) = utf16 left ++ utf16 right := List.flatMap_append

@[simp] theorem length_utf16 (text : List Char) : (utf16 text).length = utf16Length text := by
  induction text with
  | nil => rfl
  | cons character text ih =>
      rw [utf16_cons, List.length_append, ih, utf16Length_cons]
      unfold utf16Units utf16Width
      split_ifs
      · rfl
      · rfl

/-- A text has as many units as characters only if each character is one unit. -/
theorem length_le_utf16Length (text : List Char) : text.length ≤ utf16Length text := by
  induction text with
  | nil => exact Nat.le_refl 0
  | cons character text ih =>
      have hwidth : 1 ≤ utf16Width character := by
        unfold utf16Width
        split_ifs
        · exact Nat.le_refl 1
        · exact Nat.le_succ 1
      rw [List.length_cons, utf16Length_cons]
      omega

theorem small_of_utf16Length {text : List Char} (h : utf16Length text = text.length) :
    ∀ character ∈ text, character.toNat < 0x10000 := by
  induction text with
  | nil =>
      intro character hmem
      cases hmem
  | cons head text ih =>
      have hrest := length_le_utf16Length text
      rw [List.length_cons, utf16Length_cons] at h
      unfold utf16Width at h
      split_ifs at h with hsmall
      · intro character hmem
        rcases List.mem_cons.mp hmem with rfl | hmem
        · exact hsmall
        · exact ih (by omega) character hmem
      · omega

theorem toNat_cases (character : Char) :
    character.toNat < 0xD800 ∨ 0xE000 ≤ character.toNat ∧ character.toNat < 0x110000 :=
  character.valid

/-- A character is one code unit, or a high and a low one. -/
theorem utf16Units_cases (character : Char) :
    (character.toNat < 0x10000 ∧ utf16Units character = [character.toNat] ∧
        ¬ IsHigh character.toNat ∧ ¬ IsLow character.toNat) ∨
      (0x10000 ≤ character.toNat ∧ ∃ high low, utf16Units character = [high, low] ∧
        IsHigh high ∧ IsLow low ∧
        character.toNat = 0x10000 + (high - 0xD800) * 0x400 + (low - 0xDC00)) := by
  have hvalid := toNat_cases character
  unfold utf16Units
  split_ifs with hsmall
  · left
    unfold IsHigh IsLow
    refine ⟨hsmall, rfl, ?_, ?_⟩
    · omega
    · omega
  · right
    unfold IsHigh IsLow
    refine ⟨by omega, _, _, rfl, ?_, ?_, ?_⟩
    · omega
    · omega
    · omega

theorem utf16Units_ne_nil (character : Char) : utf16Units character ≠ [] := by
  unfold utf16Units
  split_ifs
  · exact List.cons_ne_nil _ _
  · exact List.cons_ne_nil _ _

theorem surrogates_of_utf16Units {character : Char} {high low : Nat}
    (h : utf16Units character = [high, low]) :
    0x10000 ≤ character.toNat ∧ IsHigh high ∧ IsLow low := by
  rcases utf16Units_cases character with ⟨_, hsingle, _⟩ |
    ⟨hlarge, high', low', hpair, hhigh, hlow, _⟩
  · rw [h] at hsingle
    cases hsingle
  · rw [h] at hpair
    cases hpair
    exact ⟨hlarge, hhigh, hlow⟩

/-- The units of one character are no start of those of another one. -/
theorem utf16Units_unique {character other : Char} {left right : List Nat}
    (h : utf16Units character ++ left = utf16Units other ++ right) :
    character = other ∧ left = right := by
  rcases utf16Units_cases character with ⟨_, hunits, hhigh, _⟩ | ⟨_, high, low, hunits, hhigh, _,
    hcode⟩
  · rcases utf16Units_cases other with ⟨_, hothers, _, _⟩ | ⟨_, high', low', hothers, hhigh', _, _⟩
    · rw [hunits, hothers] at h
      rcases List.cons.inj h with ⟨hsame, hrest⟩
      exact ⟨Char.toNat_inj.mp hsame, hrest⟩
    · rw [hunits, hothers] at h
      rcases List.cons.inj h with ⟨hsame, _⟩
      rw [hsame] at hhigh
      exact absurd hhigh' hhigh
  · rcases utf16Units_cases other with ⟨_, hothers, hhigh', _⟩ | ⟨_, high', low', hothers, _, _,
      hcode'⟩
    · rw [hunits, hothers] at h
      rcases List.cons.inj h with ⟨hsame, _⟩
      rw [hsame] at hhigh
      exact absurd hhigh hhigh'
    · rw [hunits, hothers] at h
      rcases List.cons.inj h with ⟨rfl, hlows⟩
      rcases List.cons.inj hlows with ⟨rfl, hrest⟩
      exact ⟨Char.toNat_inj.mp (hcode.trans hcode'.symm), hrest⟩

/-- A character of one unit is found among the units exactly if it is in the text. -/
theorem toNat_mem_utf16 {character : Char} (h : character.toNat < 0x10000) {text : List Char} :
    character.toNat ∈ utf16 text ↔ character ∈ text := by
  rcases utf16Units_cases character with ⟨_, hunits, hhigh, hlow⟩ | ⟨hlarge, _⟩
  · constructor
    · intro hmem
      rcases List.mem_flatMap.mp hmem with ⟨other, hother, hunit⟩
      rcases utf16Units_cases other with ⟨_, hothers, _⟩ | ⟨_, high, low, hothers, hhigh', hlow', _⟩
      · rw [hothers] at hunit
        rw [Char.toNat_inj.mp (List.mem_singleton.mp hunit)]
        exact hother
      · rw [hothers] at hunit
        rcases List.mem_cons.mp hunit with hsame | hrest
        · rw [hsame] at hhigh
          exact absurd hhigh' hhigh
        · rw [List.mem_singleton.mp hrest] at hlow
          exact absurd hlow' hlow
    · intro hmem
      refine List.mem_flatMap.mpr ⟨character, hmem, ?_⟩
      rw [hunits]
      exact List.mem_singleton_self _
  · omega

/-- What begins with the units of a character begins with the character. -/
theorem begins_of_utf16 {character : Char} {text : List Char} {rest : List Nat}
    (h : utf16 text = utf16Units character ++ rest) :
    ∃ behind, text = character :: behind ∧ rest = utf16 behind := by
  cases text with
  | nil => exact absurd (List.append_eq_nil_iff.mp h.symm).1 (utf16Units_ne_nil character)
  | cons head behind =>
      rcases utf16Units_unique h with ⟨rfl, hrest⟩
      exact ⟨behind, rfl, hrest.symm⟩

/-- The units are split between two characters, or within one. -/
theorem split_utf16 {text : List Char} {left right : List Nat}
    (h : utf16 text = left ++ right) :
    (∃ before behind, text = before ++ behind ∧ left = utf16 before ∧ right = utf16 behind) ∨
      ∃ before character behind high low, text = before ++ character :: behind ∧
        utf16Units character = [high, low] ∧ left = utf16 before ++ [high] ∧
        right = low :: utf16 behind := by
  induction text generalizing left with
  | nil =>
      rcases List.append_eq_nil_iff.mp h.symm with ⟨rfl, rfl⟩
      exact Or.inl ⟨[], [], rfl, rfl, rfl⟩
  | cons head text ih =>
      -- The split lies behind the units of the head.
      have hbehind : ∀ {left' : List Nat}, left = utf16Units head ++ left' →
          utf16 text = left' ++ right →
          (∃ before behind, head :: text = before ++ behind ∧ left = utf16 before ∧
              right = utf16 behind) ∨
            ∃ before character behind high low, head :: text = before ++ character :: behind ∧
              utf16Units character = [high, low] ∧ left = utf16 before ++ [high] ∧
              right = low :: utf16 behind := by
        intro left' hleft hrest
        rcases ih hrest with ⟨before, behind, htext, rfl, hright⟩ |
          ⟨before, character, behind, high, low, htext, hunits, rfl, hright⟩
        · exact Or.inl ⟨head :: before, behind, by rw [htext]; rfl, hleft, hright⟩
        · refine Or.inr ⟨head :: before, character, behind, high, low, by rw [htext]; rfl, hunits,
            ?_, hright⟩
          rw [hleft, utf16_cons, List.append_assoc]
      cases left with
      | nil => exact Or.inl ⟨[], head :: text, rfl, rfl, h.symm⟩
      | cons first left =>
          rw [utf16_cons] at h
          rcases utf16Units_cases head with ⟨_, hunits, _⟩ | ⟨_, high, low, hunits, _⟩
          · rw [hunits] at h
            rcases List.cons.inj h with ⟨rfl, hrest⟩
            apply hbehind _ hrest
            rw [hunits]
            rfl
          · rw [hunits] at h
            rcases List.cons.inj h with ⟨rfl, hlows⟩
            cases left with
            | nil => exact Or.inr ⟨[], head, text, high, low, rfl, hunits, rfl, hlows.symm⟩
            | cons second left =>
                rcases List.cons.inj hlows with ⟨rfl, hrest⟩
                apply @hbehind left _ hrest
                rw [hunits]
                rfl

/-! ## Positions -/

/-- The characters that lie within the first `limit` code units. -/
def utf16Take : Nat → List Char → List Char
  | _, [] => []
  | limit, character :: text =>
      if utf16Width character ≤ limit then
        character :: utf16Take (limit - utf16Width character) text
      else []

/-- `text.slice(0, limit)`. A character that the limit cuts in half is left out, since one half is
no character of a text. -/
def utf16Slice (limit : Nat) (text : String) : String :=
  String.ofList (utf16Take limit text.toList)

/-- `text.slice(-limit)`. -/
def utf16Tail (limit : Nat) (text : String) : String :=
  String.ofList (utf16Take limit text.toList.reverse).reverse

theorem utf16Take_isPrefix (limit : Nat) (text : List Char) : utf16Take limit text <+: text := by
  induction text generalizing limit with
  | nil => exact List.prefix_rfl
  | cons character text ih =>
      unfold utf16Take
      split_ifs
      · exact List.cons_prefix_cons.mpr ⟨rfl, ih _⟩
      · exact List.nil_prefix

theorem utf16Length_take_le (limit : Nat) (text : List Char) :
    utf16Length (utf16Take limit text) ≤ limit := by
  induction text generalizing limit with
  | nil => exact Nat.zero_le limit
  | cons character text ih =>
      unfold utf16Take
      split_ifs with hfits
      · have hrest := ih (limit - utf16Width character)
        rw [utf16Length_cons]
        omega
      · exact Nat.zero_le limit

/-- What lies within the limit is taken. -/
theorem isPrefix_utf16Take {start text : List Char} {limit : Nat} (h : start <+: text)
    (hlimit : utf16Length start ≤ limit) : start <+: utf16Take limit text := by
  induction text generalizing start limit with
  | nil => exact h
  | cons character text ih =>
      rcases List.prefix_cons_iff.mp h with rfl | ⟨rest, rfl, hrest⟩
      · exact List.nil_prefix
      · rw [utf16Length_cons] at hlimit
        have hfits : utf16Width character ≤ limit := by omega
        have htaken : rest <+: utf16Take (limit - utf16Width character) text := by
          apply ih hrest
          omega
        unfold utf16Take
        rw [if_pos hfits]
        exact List.cons_prefix_cons.mpr ⟨rfl, htaken⟩

end Kit
