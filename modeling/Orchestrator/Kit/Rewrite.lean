import Orchestrator.Kit.Occurrences

/-! # Leftmost rewriting

A text is read from left to right. Where a rule matches, the matched part is replaced and
the reading goes on behind it, so that what was put in is never read again. A second notion
forgets where the rule matched: segments of a text are replaced by a marker. Words that the
marker keeps apart occur in the outcome only where they occurred before.
-/

namespace Kit

variable {α : Type*}

/-! ## Markers -/

/-- What is put in place of a segment: brackets around a text. -/
structure Marker (α : Type*) where
  opening : α
  inner : List α
  closing : α

namespace Marker

variable (marker : Marker α)

def text : List α := marker.opening :: marker.inner ++ [marker.closing]

/-- The marker keeps the word apart from what stands around it. -/
structure Separates (word : List α) : Prop where
  nonempty : word ≠ []
  opening : marker.opening ∉ word
  closing : marker.closing ∉ word
  inner : ¬ word <:+: marker.inner

variable {marker} {word text : List α}

/-- A word that is kept apart occurs behind the marker. -/
theorem Separates.occurs (h : marker.Separates word) (hoccurs : word <:+: marker.text ++ text) :
    word <:+: text := by
  have hsplit : marker.text ++ text =
      [] ++ marker.opening :: (marker.inner ++ marker.closing :: text) := by
    simp [Marker.text]
  rw [hsplit] at hoccurs
  rcases infix_append_cons h.opening hoccurs with hnil | hinner
  · exact absurd (List.infix_nil.mp hnil) h.nonempty
  · rcases infix_append_cons h.closing hinner with hinner | htext
    · exact absurd hinner h.inner
    · exact htext

end Marker

/-- Segments of a text are replaced by a marker. -/
inductive Replaced (marker : List α) : List α → List α → Prop
  | nil : Replaced marker [] []
  | keep {text outcome : List α} (character : α) (h : Replaced marker text outcome) :
      Replaced marker (character :: text) (character :: outcome)
  | cut {text outcome : List α} (segment : List α) (h : Replaced marker text outcome) :
      Replaced marker (segment ++ text) (marker ++ outcome)

namespace Replaced

variable {marker : Marker α} {word text outcome : List α}

theorem refl (marker text : List α) : Replaced marker text text := by
  induction text with
  | nil => exact .nil
  | cons character text ih => exact .keep character ih

/-- A prefix that is kept apart was one before. -/
theorem begins (hword : marker.opening ∉ word) (h : Replaced marker.text text outcome)
    (hbegins : word <+: outcome) : word <+: text := by
  induction h generalizing word with
  | nil => exact hbegins
  | keep character _ ih =>
      rcases List.prefix_cons_iff.mp hbegins with rfl | ⟨rest, rfl, hrest⟩
      · exact List.nil_prefix
      · have hsame := ih (fun hmem => hword (List.mem_cons_of_mem _ hmem)) hrest
        exact List.cons_prefix_cons.mpr ⟨rfl, hsame⟩
  | cut segment _ _ =>
      rcases List.prefix_cons_iff.mp hbegins with rfl | ⟨rest, rfl, _⟩
      · exact List.nil_prefix
      · exact absurd List.mem_cons_self hword

/-- A word that is kept apart occurred before. -/
theorem occurs (hword : marker.Separates word) (h : Replaced marker.text text outcome)
    (hoccurs : word <:+: outcome) : word <:+: text := by
  induction h with
  | nil => exact hoccurs
  | @keep text outcome character hrest ih =>
      rcases List.infix_cons_iff.mp hoccurs with hbegins | hoccurs
      · exact ((Replaced.keep character hrest).begins hword.opening hbegins).isInfix
      · exact (ih hoccurs).trans (List.suffix_cons character text).isInfix
  | @cut text outcome segment _ ih =>
      exact (ih (hword.occurs hoccurs)).trans (List.suffix_append segment text).isInfix

end Replaced

/-! ## Rules -/

/-- The length of the match at the head of a text, and what replaces it. -/
abbrev Rule (α : Type*) := List α → Option (Nat × List α)

/-- The text with every leftmost match replaced; `skip` characters belong to the last one. -/
def rewrite (rule : Rule α) : Nat → List α → List α
  | _, [] => []
  | skip + 1, _ :: text => rewrite rule skip text
  | 0, character :: text =>
      match rule (character :: text) with
      | some (length, replacement) => replacement ++ rewrite rule (length - 1) text
      | none => character :: rewrite rule 0 text

section Rewrite

variable {rule : Rule α} {character : α} {text : List α}

@[simp] theorem rewrite_nil (skip : Nat) : rewrite rule skip [] = [] := by
  cases skip with
  | zero => rfl
  | succ skip => rfl

theorem rewrite_skip (skip : Nat) : rewrite rule skip text = rewrite rule 0 (text.drop skip) := by
  induction skip generalizing text with
  | zero => rfl
  | succ skip ih =>
      cases text with
      | nil => rfl
      | cons character text => exact ih

theorem rewrite_none (h : rule (character :: text) = none) :
    rewrite rule 0 (character :: text) = character :: rewrite rule 0 text := by
  rw [rewrite, h]

theorem rewrite_some {length : Nat} {replacement : List α}
    (h : rule (character :: text) = some (length, replacement)) :
    rewrite rule 0 (character :: text) = replacement ++ rewrite rule 0 (text.drop (length - 1)) := by
  rw [rewrite, h, ← rewrite_skip]

/-- Rewriting to a marker replaces segments by it. -/
theorem replaced_rewrite {marker : List α}
    (h : ∀ text length replacement, rule text = some (length, replacement) → replacement = marker)
    (skip : Nat) (text : List α) :
    Replaced marker (text.drop skip) (rewrite rule skip text) := by
  induction text generalizing skip with
  | nil =>
      rw [List.drop_nil, rewrite_nil]
      exact .nil
  | cons character text ih =>
      cases skip with
      | succ skip => exact ih skip
      | zero =>
          rw [List.drop_zero]
          cases hrule : rule (character :: text) with
          | none =>
              rw [rewrite_none hrule]
              exact .keep character (ih 0)
          | some found =>
              rw [rewrite_some hrule, ← rewrite_skip, h _ _ _ hrule]
              have hcut := Replaced.cut (character :: text.take (found.1 - 1)) (ih (found.1 - 1))
              rwa [List.cons_append, List.take_append_drop] at hcut

/-- How a text is rewritten: what is kept, and what is replaced. -/
inductive Rewritten (rule : Rule α) : List α → List α → Prop
  | nil : Rewritten rule [] []
  | keep {character : α} {text outcome : List α} (hrule : rule (character :: text) = none)
      (h : Rewritten rule text outcome) : Rewritten rule (character :: text) (character :: outcome)
  | replace {text rest outcome replacement : List α} {length : Nat} (hne : text ≠ [])
      (hrule : rule text = some (length, replacement)) (hrest : text.drop length = rest)
      (h : Rewritten rule rest outcome) : Rewritten rule text (replacement ++ outcome)

/-- The rule replaces at least one character. -/
def Consumes (rule : Rule α) : Prop :=
  ∀ text length replacement, rule text = some (length, replacement) → 0 < length

theorem rewritten_rewrite (hrule : Consumes rule) (text : List α) :
    Rewritten rule text (rewrite rule 0 text) := by
  -- The induction is on the length, for what follows a replaced part.
  induction hlength : text.length using Nat.strongRecOn generalizing text with
  | ind length ih =>
      cases text with
      | nil => exact .nil
      | cons character text =>
          have hshorter : text.length < length := by
            rw [← hlength]
            exact Nat.lt_succ_self _
          cases hfound : rule (character :: text) with
          | none =>
              rw [rewrite_none hfound]
              exact .keep hfound (ih text.length hshorter text rfl)
          | some found =>
              rcases found with ⟨matched, replacement⟩
              have hpositive := hrule _ _ _ hfound
              have hrest : (character :: text).drop matched = text.drop (matched - 1) := by
                cases matched with
                | zero => exact absurd hpositive (Nat.lt_irrefl 0)
                | succ matched => rfl
              have hsmaller : (text.drop (matched - 1)).length < length := by
                rw [List.length_drop]
                omega
              rw [rewrite_some hfound]
              exact .replace (List.cons_ne_nil _ _) hfound hrest (ih _ hsmaller _ rfl)

end Rewrite

/-! ## One word -/

section Words

variable [DecidableEq α]

/-- The rule that replaces a word. -/
def wordRule (word replacement : List α) : Rule α := fun text =>
  if word.isPrefixOf text then some (word.length, replacement) else none

/-- `text.split(word).join(replacement)`. -/
def replaceWord (word replacement text : List α) : List α :=
  rewrite (wordRule word replacement) 0 text

theorem replaced_replaceWord (word marker text : List α) :
    Replaced marker text (replaceWord word marker text) := by
  refine replaced_rewrite ?_ 0 text
  intro text length replacement hrule
  unfold wordRule at hrule
  split_ifs at hrule
  cases hrule
  rfl

/-- A word that its marker keeps apart is gone. -/
theorem not_infix_replaceWord {marker : Marker α} {word : List α} (hword : marker.Separates word)
    (text : List α) : ¬ word <:+: replaceWord word marker.text text := by
  have hgone : ∀ skip, ¬ word <:+: rewrite (wordRule word marker.text) skip text := by
    induction text with
    | nil =>
        intro skip hoccurs
        rw [rewrite_nil] at hoccurs
        exact hword.nonempty (List.infix_nil.mp hoccurs)
    | cons character text ih =>
        intro skip hoccurs
        cases skip with
        | succ skip => exact ih skip hoccurs
        | zero =>
            by_cases hmatch : word.isPrefixOf (character :: text)
            · have hrule : wordRule word marker.text (character :: text) =
                  some (word.length, marker.text) := if_pos hmatch
              rw [rewrite_some hrule, ← rewrite_skip] at hoccurs
              exact ih _ (hword.occurs hoccurs)
            · have hrule : wordRule word marker.text (character :: text) = none := if_neg hmatch
              rw [rewrite_none hrule] at hoccurs
              rcases List.infix_cons_iff.mp hoccurs with hbegins | hoccurs
              · -- A match that begins here would have been one of the text.
                have hsame : word <+: character :: text := by
                  refine Replaced.begins hword.opening ?_ hbegins
                  exact .keep character (replaced_replaceWord word marker.text text)
                exact hmatch (List.isPrefixOf_iff_prefix.mpr hsame)
              · exact ih 0 hoccurs
  exact hgone 0

end Words

end Kit
