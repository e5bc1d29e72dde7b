import Mathlib.Data.List.Infix

/-! # Occurrences of a word

Where a word stands in a text that is put together from parts. A word does not reach across a
character that it does not have, nor back from its own first character, if it has that
character only once. Texts are compared under a fold of their characters, such as to lower
case. What stands between two marks, one opening and one closing, is read back from the text.
-/

namespace Kit

variable {α : Type*}

/-! ## Separators -/

/-- A prefix without `separator` ends before it. -/
theorem prefix_append_cons {word before after : List α} {separator : α}
    (hword : separator ∉ word) (h : word <+: before ++ separator :: after) : word <+: before := by
  induction before generalizing word with
  | nil =>
      rcases List.prefix_cons_iff.mp h with rfl | ⟨rest, rfl, _⟩
      · exact List.nil_prefix
      · exact absurd List.mem_cons_self hword
  | cons head before ih =>
      rcases List.prefix_cons_iff.mp h with rfl | ⟨rest, rfl, hrest⟩
      · exact List.nil_prefix
      · have hsame : rest <+: before := ih (fun hmem => hword (List.mem_cons_of_mem _ hmem)) hrest
        exact List.cons_prefix_cons.mpr ⟨rfl, hsame⟩

/-- A word without `separator` does not reach across it. -/
theorem infix_append_cons {word before after : List α} {separator : α}
    (hword : separator ∉ word) (h : word <:+: before ++ separator :: after) :
    word <:+: before ∨ word <:+: after := by
  induction before with
  | nil =>
      rcases List.infix_cons_iff.mp h with hbegins | hrest
      · left
        have hnil : word <+: [] := @prefix_append_cons α word [] after separator hword hbegins
        exact hnil.isInfix
      · exact Or.inr hrest
  | cons head before ih =>
      rcases List.infix_cons_iff.mp h with hbegins | hrest
      · left
        have hbefore : word <+: head :: before :=
          @prefix_append_cons α word (head :: before) after separator hword hbegins
        exact hbefore.isInfix
      · rcases ih hrest with hbefore | hafter
        · exact Or.inl (hbefore.trans (List.suffix_cons head before).isInfix)
        · exact Or.inr hafter

/-- A word whose first character occurs in it only once ends before the next such character. -/
theorem prefix_append_head {first separator : α} {tail before after : List α}
    (htail : separator ∉ tail) (h : first :: tail <+: (first :: before) ++ separator :: after) :
    first :: tail <+: first :: before := by
  rcases List.cons_prefix_cons.mp h with ⟨_, hrest⟩
  exact List.cons_prefix_cons.mpr ⟨rfl, prefix_append_cons htail hrest⟩

/-- A word does not begin where its first character is not. -/
theorem infix_of_head {head : α} {tail before after : List α} (hbefore : head ∉ before)
    (h : head :: tail <:+: before ++ after) : head :: tail <:+: after := by
  induction before with
  | nil => exact h
  | cons first before ih =>
      rcases List.infix_cons_iff.mp h with hbegins | hrest
      · rw [(List.cons_prefix_cons.mp hbegins).1] at hbefore
        exact absurd List.mem_cons_self hbefore
      · exact ih (fun hmem => hbefore (List.mem_cons_of_mem _ hmem)) hrest

/-- The parts before the first separator of a text are the same, and so is what follows. -/
theorem append_cons_inj {separator : α} {before other after rest : List α}
    (hbefore : separator ∉ before) (hother : separator ∉ other)
    (h : before ++ separator :: after = other ++ separator :: rest) :
    before = other ∧ after = rest := by
  induction before generalizing other with
  | nil =>
      cases other with
      | nil => exact ⟨rfl, (List.cons.inj h).2⟩
      | cons head other => exact absurd ((List.cons.inj h).1 ▸ List.mem_cons_self) hother
  | cons head before ih =>
      cases other with
      | nil => exact absurd ((List.cons.inj h).1 ▸ List.mem_cons_self) hbefore
      | cons first other =>
          rcases List.cons.inj h with ⟨rfl, hrest⟩
          have hsame := ih (fun hmem => hbefore (List.mem_cons_of_mem _ hmem))
            (fun hmem => hother (List.mem_cons_of_mem _ hmem)) hrest
          exact ⟨congrArg (head :: ·) hsame.1, hsame.2⟩

/-- A part between separators has none. -/
theorem not_mem_of_mem_splitOn [DecidableEq α] {separator : α} {text part : List α}
    (h : part ∈ text.splitOn separator) : separator ∉ part := by
  induction text generalizing part with
  | nil =>
      rw [List.splitOn_nil, List.mem_singleton] at h
      rw [h]
      exact List.not_mem_nil
  | cons first text ih =>
      rw [List.splitOn_cons_eq_if_modifyHead] at h
      by_cases hfirst : (first == separator) = true
      · rw [if_pos hfirst] at h
        rcases List.mem_cons.mp h with rfl | hmem
        · exact List.not_mem_nil
        · exact ih hmem
      · rw [if_neg hfirst] at h
        have hne : first ≠ separator := fun heq => hfirst (beq_iff_eq.mpr heq)
        rcases List.exists_cons_of_ne_nil (List.splitOn_ne_nil separator text) with
          ⟨head, parts, hsplit⟩
        rw [hsplit] at h ih
        rcases List.mem_cons.mp h with rfl | hmem
        · intro hmem
          rcases List.mem_cons.mp hmem with heq | hmem
          · exact hne heq.symm
          · exact ih List.mem_cons_self hmem
        · exact ih (List.mem_cons_of_mem _ hmem)

theorem infix_intercalate_of_mem {separator part : List α} {parts : List (List α)}
    (h : part ∈ parts) : part <:+: separator.intercalate parts := by
  induction parts with
  | nil => exact absurd h List.not_mem_nil
  | cons first parts ih =>
      cases parts with
      | nil =>
          rw [List.intercalate_singleton, List.mem_singleton.mp h]
      | cons second parts =>
          rw [List.intercalate_cons_cons]
          rcases List.mem_cons.mp h with rfl | hrest
          · rw [List.append_assoc]
            exact (List.prefix_append _ _).isInfix
          · exact (ih hrest).trans (List.suffix_append _ _).isInfix

/-- A part stands in the text. -/
theorem infix_of_mem_splitOn [DecidableEq α] {separator : α} {text part : List α}
    (h : part ∈ text.splitOn separator) : part <:+: text := by
  have hwhole : [separator].intercalate (text.splitOn separator) = text :=
    List.intercalate_splitOn separator
  rw [← hwhole]
  exact infix_intercalate_of_mem h

/-- Parts that each end in a separator are read back, with what stands behind the last. -/
theorem splitOn_flatMap_append [DecidableEq α] {separator : α} {parts : List (List α)}
    {last : List α} (h : ∀ part ∈ parts, separator ∉ part) (hlast : separator ∉ last) :
    (parts.flatMap (· ++ [separator]) ++ last).splitOn separator = parts ++ [last] := by
  induction parts with
  | nil => exact List.splitOn_eq_singleton hlast
  | cons part parts ih =>
      have hpart : separator ∉ part := h part List.mem_cons_self
      have hrest := ih (fun other hmem => h other (List.mem_cons_of_mem _ hmem))
      rw [List.flatMap_cons, List.append_assoc, List.append_assoc, List.singleton_append,
        List.splitOn_append_cons_self_of_not_mem hpart, hrest, List.cons_append]

theorem splitOn_flatMap [DecidableEq α] {separator : α} {parts : List (List α)}
    (h : ∀ part ∈ parts, separator ∉ part) :
    (parts.flatMap (· ++ [separator])).splitOn separator = parts ++ [[]] := by
  have hsplit := splitOn_flatMap_append h (@List.not_mem_nil _ separator)
  rwa [List.append_nil] at hsplit

/-- There is one part more than there are separators. -/
theorem length_splitOn [DecidableEq α] (separator : α) (text : List α) :
    (text.splitOn separator).length = text.count separator + 1 := by
  induction text with
  | nil => rfl
  | cons first text ih =>
      rw [List.splitOn_cons_eq_if_modifyHead, List.count_cons]
      split
      · rw [List.length_cons, ih]
      · rw [List.length_modifyHead, ih, Nat.add_zero]

/-- What stands in front, without separators, belongs to the first part. -/
theorem splitOn_append_of_not_mem [DecidableEq α] {separator : α} {front : List α}
    (h : separator ∉ front) (text : List α) :
    (front ++ text).splitOn separator = (text.splitOn separator).modifyHead (front ++ ·) := by
  induction front with
  | nil =>
      rw [List.nil_append]
      cases text.splitOn separator with
      | nil => rfl
      | cons first parts => rfl
  | cons first front ih =>
      have hfirst : ¬ (first == separator) = true := by
        intro heq
        rw [beq_iff_eq.mp heq] at h
        exact h List.mem_cons_self
      rw [List.cons_append, List.splitOn_cons_eq_if_modifyHead, if_neg hfirst,
        ih fun hmem => h (List.mem_cons_of_mem _ hmem)]
      cases text.splitOn separator with
      | nil => rfl
      | cons head parts => rfl

/-! ## Counting -/

section Count

variable [DecidableEq α]

/-- The number of places at which the word begins. -/
def occurrences (word text : List α) : Nat := text.tails.countP word.isPrefixOf

theorem occurrences_eq_zero {word text : List α} :
    occurrences word text = 0 ↔ ¬ word <:+: text := by
  unfold occurrences
  rw [List.countP_eq_zero]
  constructor
  · rintro hnone ⟨before, after, htext⟩
    have hsuffix : word ++ after ∈ text.tails := by
      rw [List.mem_tails, ← htext, List.append_assoc]
      exact List.suffix_append _ _
    exact hnone _ hsuffix (List.isPrefixOf_iff_prefix.mpr (List.prefix_append _ _))
  · intro hnone tail hmem hbegins
    have hstarts := List.isPrefixOf_iff_prefix.mp hbegins
    exact hnone (hstarts.isInfix.trans ((List.mem_tails _ _).mp hmem).isInfix)

theorem occurrences_cons (word : List α) (character : α) (text : List α) :
    occurrences word (character :: text) =
      occurrences word text + if word.isPrefixOf (character :: text) then 1 else 0 := by
  unfold occurrences
  rw [List.tails_cons, List.countP_cons]

/-- Parts are counted one by one, if the word does not begin in the one and end in the other. -/
theorem occurrences_append {word before after : List α} (hne : word ≠ [])
    (h : ∀ rest, rest ≠ [] → word <+: rest ++ after → word <+: rest) :
    occurrences word (before ++ after) = occurrences word before + occurrences word after := by
  induction before with
  | nil =>
      have hnone : occurrences word [] = 0 := by
        refine occurrences_eq_zero.mpr ?_
        intro hnil
        exact hne (List.infix_nil.mp hnil)
      rw [List.nil_append, hnone, Nat.zero_add]
  | cons character before ih =>
      have hsame : word.isPrefixOf (character :: (before ++ after)) =
          word.isPrefixOf (character :: before) := by
        rw [Bool.eq_iff_iff, List.isPrefixOf_iff_prefix, List.isPrefixOf_iff_prefix]
        constructor
        · exact h (character :: before) (List.cons_ne_nil _ _)
        · intro hbegins
          exact hbegins.trans (List.prefix_append (character :: before) after)
      rw [List.cons_append, occurrences_cons, occurrences_cons, ih, hsame]
      omega

theorem occurrences_head {head : α} {tail : List α} (htail : head ∉ tail)
    (before after : List α) :
    occurrences (head :: tail) (before ++ head :: after) =
      occurrences (head :: tail) before + occurrences (head :: tail) (head :: after) := by
  apply occurrences_append (List.cons_ne_nil head tail)
  intro rest hrest hbegins
  cases rest with
  | nil => exact absurd rfl hrest
  | cons first rest =>
      rcases List.cons_prefix_cons.mp hbegins with ⟨rfl, _⟩
      exact prefix_append_head htail hbegins

/-- A word does not begin where its first character is not. -/
theorem occurrences_skip {head : α} {tail before : List α} (hbefore : head ∉ before)
    (after : List α) :
    occurrences (head :: tail) (before ++ after) = occurrences (head :: tail) after := by
  induction before with
  | nil => rfl
  | cons first before ih =>
      have hhere : ¬ (head :: tail).isPrefixOf (first :: (before ++ after)) = true := by
        intro hbegins
        have hsame := (List.cons_prefix_cons.mp (List.isPrefixOf_iff_prefix.mp hbegins)).1
        exact hbefore (hsame ▸ List.mem_cons_self)
      rw [List.cons_append, occurrences_cons, if_neg hhere, Nat.add_zero]
      exact ih fun hmem => hbefore (List.mem_cons_of_mem _ hmem)

/-- The word itself is counted once. -/
theorem occurrences_self {head : α} {tail : List α} (htail : head ∉ tail) (after : List α) :
    occurrences (head :: tail) (head :: tail ++ after) =
      occurrences (head :: tail) after + 1 := by
  have hbegins : (head :: tail).isPrefixOf (head :: (tail ++ after)) = true :=
    List.isPrefixOf_iff_prefix.mpr (List.prefix_append (head :: tail) after)
  rw [List.cons_append, occurrences_cons, if_pos hbegins, occurrences_skip htail]

end Count

/-! ## Marks -/

section Marks

variable {β : Type*} [DecidableEq β]

/-- What stands before the first occurrence of the word, and what stands behind it. -/
def cutAt (fold : α → β) (word : List β) : List α → Option (List α × List α)
  | [] => none
  | character :: text =>
      if word.isPrefixOf ((character :: text).map fold) then
        some ([], (character :: text).drop word.length)
      else (cutAt fold word text).map fun cut => (character :: cut.1, cut.2)

variable {fold : α → β}

theorem cutAt_eq_none {word : List β} {text : List α} (h : ¬ word <:+: text.map fold) :
    cutAt fold word text = none := by
  induction text with
  | nil => rfl
  | cons character text ih =>
      have hhere : ¬ word.isPrefixOf ((character :: text).map fold) = true := by
        intro hbegins
        exact h (List.isPrefixOf_iff_prefix.mp hbegins).isInfix
      have hrest : ¬ word <:+: text.map fold := by
        intro hoccurs
        exact h (hoccurs.trans (List.suffix_cons _ _).isInfix)
      rw [cutAt, if_neg hhere, ih hrest]
      rfl

/-- The text is cut at a mark, if the word has its first character once and does not stand
before the mark. -/
theorem cutAt_append {head : β} {tail : List β} (htail : head ∉ tail) {before mark after : List α}
    (hmark : mark.map fold = head :: tail) (hbefore : ¬ head :: tail <:+: before.map fold) :
    cutAt fold (head :: tail) (before ++ mark ++ after) = some (before, after) := by
  have hlength : (head :: tail).length = mark.length := by rw [← hmark, List.length_map]
  induction before with
  | nil =>
      rw [List.nil_append]
      cases mark with
      | nil => cases hmark
      | cons first mark =>
          have hbegins : (head :: tail).isPrefixOf ((first :: (mark ++ after)).map fold) = true := by
            rw [List.isPrefixOf_iff_prefix, ← List.cons_append, List.map_append, hmark]
            exact List.prefix_append _ _
          rw [List.cons_append, cutAt, if_pos hbegins, hlength, ← List.cons_append, List.drop_left]
  | cons character before ih =>
      have hhere : ¬ (head :: tail).isPrefixOf
          ((character :: (before ++ mark ++ after)).map fold) = true := by
        intro hbegins
        have hstarts := List.isPrefixOf_iff_prefix.mp hbegins
        rw [List.map_cons, List.map_append, List.map_append, hmark, List.append_assoc,
          List.cons_append] at hstarts
        rcases List.cons_prefix_cons.mp hstarts with ⟨hsame, _⟩
        rw [hsame] at hstarts hbefore htail
        exact hbefore (prefix_append_head htail hstarts).isInfix
      have hrest : ¬ head :: tail <:+: before.map fold := by
        intro hoccurs
        exact hbefore (hoccurs.trans (List.suffix_cons _ _).isInfix)
      rw [List.cons_append, List.cons_append, cutAt, if_neg hhere, ih hrest]
      rfl

/-! ## Blocks -/

/-- A text with blocks: what stands before the first, and each one with what stands behind it. -/
structure Layout (α : Type*) where
  first : List α
  blocks : List (List α × List α)

namespace Layout

/-- The text, with the marks around each block. -/
def text (opening closing : List α) (layout : Layout α) : List α :=
  layout.first ++ layout.blocks.flatMap fun block =>
    opening ++ block.1 ++ closing ++ block.2

/-- What stands outside of the blocks. -/
def outside (layout : Layout α) : List (List α) := layout.first :: layout.blocks.map (·.2)

/-- A text in front. -/
def behind (text : List α) (layout : Layout α) : Layout α := ⟨text ++ layout.first, layout.blocks⟩

/-- A block in front. -/
def block (inner : List α) (layout : Layout α) : Layout α :=
  ⟨[], (inner, layout.first) :: layout.blocks⟩

variable {opening closing : List α}

theorem text_behind (text : List α) (layout : Layout α) :
    (layout.behind text).text opening closing = text ++ layout.text opening closing := by
  unfold Layout.text behind
  rw [List.append_assoc]

theorem text_block (inner : List α) (layout : Layout α) :
    (layout.block inner).text opening closing =
      opening ++ inner ++ closing ++ layout.text opening closing := by
  unfold Layout.text block
  rw [List.flatMap_cons, List.nil_append, List.append_assoc]

theorem length_blocks_le (hopening : opening ≠ []) (layout : Layout α) :
    layout.blocks.length ≤ (layout.text opening closing).length := by
  rcases layout with ⟨first, blocks⟩
  induction blocks generalizing first with
  | nil => exact Nat.zero_le _
  | cons block blocks ih =>
      have hrest := ih block.2
      have hpositive := List.length_pos_of_ne_nil hopening
      unfold Layout.text at hrest ⊢
      simp only [List.flatMap_cons, List.length_append, List.length_cons] at hrest ⊢
      omega

end Layout

/-- The closing word is counted once for every block. -/
theorem occurrences_layout [DecidableEq α] {fold : α → β} {head : β} {tail : List β}
    (htail : head ∉ tail) {first : α} {others closing : List α} (hfirst : fold first = head)
    (hclosing : closing.map fold = head :: tail) (layout : Layout α)
    (houtside : ∀ part ∈ layout.outside, ¬ head :: tail <:+: part.map fold)
    (hblocks : ∀ block ∈ layout.blocks,
      ¬ head :: tail <:+: (first :: others ++ block.1).map fold) :
    occurrences (head :: tail) ((layout.text (first :: others) closing).map fold) =
      layout.blocks.length := by
  rcases layout with ⟨lead, blocks⟩
  induction blocks generalizing lead with
  | nil =>
      unfold Layout.text
      rw [List.flatMap_nil, List.append_nil]
      exact occurrences_eq_zero.mpr (houtside lead List.mem_cons_self)
  | cons block blocks ih =>
      have htext : (Layout.text (first :: others) closing ⟨lead, block :: blocks⟩).map fold =
          lead.map fold ++ head :: (others ++ block.1).map fold ++ head :: (tail ++
            (Layout.text (first :: others) closing ⟨block.2, blocks⟩).map fold) := by
        have hmark : ∀ rest, head :: (tail ++ rest) = closing.map fold ++ rest := by
          intro rest
          rw [hclosing]
          rfl
        rw [hmark, ← hfirst]
        unfold Layout.text
        simp only [List.flatMap_cons, List.map_append, List.map_cons, List.append_assoc,
          List.cons_append]
      have hlead := occurrences_eq_zero.mpr (houtside lead List.mem_cons_self)
      have hblock := occurrences_eq_zero.mpr (hblocks block List.mem_cons_self)
      rw [List.cons_append, List.map_cons, hfirst] at hblock
      have hrest := ih block.2 (fun part hmem => houtside part (List.mem_cons_of_mem _ hmem))
        (fun other hmem => hblocks other (List.mem_cons_of_mem _ hmem))
      rw [htext, occurrences_head htail, occurrences_head htail, hlead, hblock, ← List.cons_append,
        occurrences_self htail, hrest]
      dsimp only
      rw [List.length_cons]
      omega

/-- A text split at the opening marks, and from there at the next closing mark; at most `limit`
blocks are read. -/
def readLayout (fold : α → β) (opening closing : List β) : Nat → List α → Layout α
  | 0, text => ⟨text, []⟩
  | limit + 1, text =>
      match cutAt fold opening text with
      | none => ⟨text, []⟩
      | some (outside, rest) =>
          match cutAt fold closing rest with
          | none => ⟨text, []⟩
          | some (block, rest) =>
              let layout := readLayout fold opening closing limit rest
              ⟨outside, (block, layout.first) :: layout.blocks⟩

/-- A layout is read back, if no opening mark stands outside of its blocks, and no closing mark
inside of one. -/
theorem readLayout_text {head head' : β} {tail tail' : List β} (htail : head ∉ tail)
    (htail' : head' ∉ tail') {opening closing : List α} (hopening : opening.map fold = head :: tail)
    (hclosing : closing.map fold = head' :: tail') (layout : Layout α)
    (houtside : ∀ part ∈ layout.outside, ¬ head :: tail <:+: part.map fold)
    (hblocks : ∀ block ∈ layout.blocks, ¬ head' :: tail' <:+: block.1.map fold) {limit : Nat}
    (hlimit : layout.blocks.length ≤ limit) :
    readLayout fold (head :: tail) (head' :: tail') limit (layout.text opening closing) =
      layout := by
  rcases layout with ⟨first, blocks⟩
  -- Induction on the blocks: the first opening mark is that of the first block.
  induction blocks generalizing first limit with
  | nil =>
      have hnone : cutAt fold (head :: tail) (Layout.text opening closing ⟨first, []⟩) = none := by
        unfold Layout.text
        rw [List.flatMap_nil, List.append_nil]
        exact cutAt_eq_none (houtside first List.mem_cons_self)
      have htext : Layout.text opening closing ⟨first, []⟩ = first := List.append_nil first
      cases limit with
      | zero => rw [readLayout, htext]
      | succ limit => rw [readLayout, hnone, htext]
  | cons block blocks ih =>
      cases limit with
      | zero => cases hlimit
      | succ limit =>
          have htext : Layout.text opening closing ⟨first, block :: blocks⟩ =
              first ++ opening ++ (block.1 ++ closing ++
                Layout.text opening closing ⟨block.2, blocks⟩) := by
            unfold Layout.text
            simp only [List.flatMap_cons, List.append_assoc]
          have hrest : readLayout fold (head :: tail) (head' :: tail') limit
              (Layout.text opening closing ⟨block.2, blocks⟩) = ⟨block.2, blocks⟩ := by
            apply ih
            · intro part hmem
              exact houtside part (List.mem_cons_of_mem _ hmem)
            · intro other hmem
              exact hblocks other (List.mem_cons_of_mem _ hmem)
            · exact Nat.le_of_succ_le_succ hlimit
          rw [readLayout, htext, cutAt_append htail hopening (houtside first List.mem_cons_self)]
          dsimp only
          rw [cutAt_append htail' hclosing (hblocks block List.mem_cons_self)]
          dsimp only
          rw [hrest]

end Marks

/-! ## A word among separators -/

/-- The text is the word, with nothing but separators before and after it. -/
def Embedded (separates : α → Prop) (word text : List α) : Prop :=
  ∃ before after, text = before ++ word ++ after ∧ (∀ a ∈ before, separates a) ∧
    ∀ a ∈ after, separates a

section Embedded

variable {separates : α → Prop} {word part : List α}

theorem Embedded.mono {separates' : α → Prop} {text : List α}
    (hsep : ∀ a, separates a → separates' a) (h : Embedded separates word text) :
    Embedded separates' word text := by
  obtain ⟨before, after, htext, hbefore, hafter⟩ := h
  exact ⟨before, after, htext, fun a hmem => hsep a (hbefore a hmem),
    fun a hmem => hsep a (hafter a hmem)⟩

theorem Embedded.append {text right : List α} (h : Embedded separates word text)
    (hright : ∀ a ∈ right, separates a) : Embedded separates word (text ++ right) := by
  obtain ⟨before, after, rfl, hbefore, hafter⟩ := h
  refine ⟨before, after ++ right, List.append_assoc _ _ _, hbefore, ?_⟩
  intro a hmem
  exact (List.mem_append.mp hmem).elim (hafter a) (hright a)

theorem Embedded.behind {text left : List α} (h : Embedded separates word text)
    (hleft : ∀ a ∈ left, separates a) : Embedded separates word (left ++ text) := by
  obtain ⟨before, after, rfl, hbefore, hafter⟩ := h
  refine ⟨left ++ before, after, by simp only [List.append_assoc], ?_, hafter⟩
  intro a hmem
  exact (List.mem_append.mp hmem).elim (hleft a) (hbefore a)

theorem intercalate_cons_of_ne_nil {joint first : List α} {parts : List (List α)}
    (h : parts ≠ []) :
    joint.intercalate (first :: parts) = first ++ joint ++ joint.intercalate parts := by
  cases parts with
  | nil => exact absurd rfl h
  | cons second parts => exact List.intercalate_cons_cons

theorem separates_intercalate {joint : List α} (hjoint : ∀ a ∈ joint, separates a)
    {parts : List (List α)} (h : ∀ part ∈ parts, ∀ a ∈ part, separates a) :
    ∀ a ∈ joint.intercalate parts, separates a := by
  induction parts with
  | nil =>
      intro a hmem
      cases hmem
  | cons first parts ih =>
      have hfirst := h first List.mem_cons_self
      cases parts with
      | nil =>
          rw [List.intercalate_singleton]
          exact hfirst
      | cons second parts =>
          have hrest := ih fun part hmem => h part (List.mem_cons_of_mem _ hmem)
          rw [List.intercalate_cons_cons]
          intro a hmem
          rcases List.mem_append.mp hmem with hfront | hback
          · exact (List.mem_append.mp hfront).elim (hfirst a) (hjoint a)
          · exact hrest a hback

/-- The parts next to the one with the word are separators only. -/
theorem Embedded.intercalate {joint : List α} (hjoint : ∀ a ∈ joint, separates a)
    {before after : List (List α)} (hbefore : ∀ part ∈ before, ∀ a ∈ part, separates a)
    (hafter : ∀ part ∈ after, ∀ a ∈ part, separates a) (h : Embedded separates word part) :
    Embedded separates word (joint.intercalate (before ++ part :: after)) := by
  induction before with
  | nil =>
      cases after with
      | nil =>
          rw [List.nil_append, List.intercalate_singleton]
          exact h
      | cons second after =>
          rw [List.nil_append, List.intercalate_cons_cons, List.append_assoc]
          refine h.append ?_
          intro a hmem
          exact (List.mem_append.mp hmem).elim (hjoint a) (separates_intercalate hjoint hafter a)
  | cons first before ih =>
      have hrest := ih fun other hmem => hbefore other (List.mem_cons_of_mem _ hmem)
      rw [List.cons_append, intercalate_cons_of_ne_nil (by simp)]
      refine hrest.behind ?_
      intro a hmem
      exact (List.mem_append.mp hmem).elim (hbefore first List.mem_cons_self a) (hjoint a)

/-- So are empty parts that were left out in front. -/
theorem Embedded.of_dropWhile {joint : List α} (hjoint : ∀ a ∈ joint, separates a)
    {parts : List (List α)}
    (h : Embedded separates word (joint.intercalate (parts.dropWhile List.isEmpty))) :
    Embedded separates word (joint.intercalate parts) := by
  induction parts with
  | nil => exact h
  | cons first parts ih =>
      cases first with
      | cons a first => exact h
      | nil =>
          have hrest := ih h
          cases parts with
          | nil => exact hrest
          | cons second parts =>
              rw [List.intercalate_cons_cons, List.nil_append]
              exact hrest.behind hjoint

/-- A word without separators stands in one of the parts. -/
theorem Embedded.exists_part {joint : α} (hjoint : separates joint) (hne : word ≠ [])
    (hword : ∀ a ∈ word, ¬ separates a) {parts : List (List α)}
    (h : Embedded separates word ([joint].intercalate parts)) :
    ∃ before part after, parts = before ++ part :: after ∧ Embedded separates word part ∧
      ∀ other ∈ before ++ after, ∀ a ∈ other, separates a := by
  have hheadless : ∀ {rest after : List α} {a : α}, separates a →
      a :: rest ≠ word ++ after := by
    intro rest after a hseparates heq
    cases word with
    | nil => exact hne rfl
    | cons first word =>
        rw [(List.cons.inj heq).1] at hseparates
        exact hword first List.mem_cons_self hseparates
  induction parts with
  | nil =>
      obtain ⟨before, after, htext, _⟩ := h
      have hnil := (List.append_eq_nil_iff.mp htext.symm).1
      exact absurd (List.append_eq_nil_iff.mp hnil).2 hne
  | cons first parts ih =>
      cases parts with
      | nil =>
          rw [List.intercalate_singleton] at h
          refine ⟨[], first, [], rfl, h, ?_⟩
          intro other hmem
          cases hmem
      | cons second parts =>
          obtain ⟨before, after, htext, hbefore, hafter⟩ := h
          rw [List.intercalate_cons_cons, List.append_assoc, List.singleton_append,
            List.append_assoc] at htext
          rcases List.append_eq_append_iff.mp htext with ⟨middle, hmiddle, hrest⟩ |
            ⟨middle, hmiddle, hrest⟩
          · -- The word begins behind the first part and its separator.
            cases middle with
            | nil => exact absurd hrest (hheadless hjoint)
            | cons a middle =>
                obtain ⟨rfl, hbehind⟩ := List.cons.inj hrest
                have hlater : Embedded separates word
                    ([joint].intercalate (second :: parts)) := by
                  refine ⟨middle, after, hbehind.trans (List.append_assoc _ _ _).symm, ?_, hafter⟩
                  intro b hmem
                  exact hbefore b (hmiddle ▸ List.mem_append_right _ (List.mem_cons_of_mem _ hmem))
                obtain ⟨earlier, part, later, hparts, hpart, hothers⟩ := ih hlater
                refine ⟨first :: earlier, part, later, by rw [hparts]; rfl, hpart, ?_⟩
                intro other hmem
                rcases List.mem_cons.mp hmem with rfl | hmem
                · intro b hb
                  exact hbefore b (hmiddle ▸ List.mem_append_left _ hb)
                · exact hothers other hmem
          · -- The word ends within the first part.
            have hends : ∃ ending, middle = word ++ ending ∧
                after = ending ++ joint :: [joint].intercalate (second :: parts) := by
              rcases List.append_eq_append_iff.mp hrest with ⟨ending, hending, hafter'⟩ |
                ⟨ending, hending, hafter'⟩
              · exact ⟨ending, hending, hafter'⟩
              · cases ending with
                | nil =>
                    rw [List.append_nil] at hending
                    rw [List.nil_append] at hafter'
                    exact ⟨[], by rw [hending, List.append_nil], hafter'.symm⟩
                | cons b ending =>
                    obtain ⟨hsame, _⟩ := List.cons.inj hafter'
                    refine absurd hjoint (hword joint ?_)
                    rw [hending, hsame]
                    exact List.mem_append_right _ List.mem_cons_self
            obtain ⟨ending, rfl, rfl⟩ := hends
            refine ⟨[], first, second :: parts, rfl, ⟨before, ending, ?_, hbefore, ?_⟩, ?_⟩
            · rw [hmiddle, List.append_assoc]
            · intro b hmem
              exact hafter b (List.mem_append_left _ hmem)
            · intro other hmem b hb
              apply hafter b
              apply List.mem_append_right
              apply List.mem_cons_of_mem
              exact (infix_intercalate_of_mem hmem).subset hb

end Embedded

end Kit
