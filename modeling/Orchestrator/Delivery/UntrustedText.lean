import Mathlib.Data.List.DropRight
import Orchestrator.Delivery.DeliverySupport
import Orchestrator.Execution.Secrets

/-! # Secrets in published text

Text is redacted, then stripped of control and format characters, then made harmless, trimmed
and cut off. Redaction looks for a secret as it is written, so a secret with a character in
it that the next step takes away is put together again. The other way in which a secret comes
back is the ellipsis that a cut appends.
-/

namespace Orchestrator

open Kit

/-! ## The characters that are removed -/

/-- The characters of the Unicode category C: control and format characters, surrogates, and
code points without a character. -/
structure OtherCharacters where
  other : Char → Bool
  zeroWidthSpace : other '\u200b' = true

namespace OtherCharacters

variable (characters : OtherCharacters)

/-- `[^\P{C}\n\t]` does not match. -/
def keeps (character : Char) : Bool :=
  !characters.other character || character = '\n' || character = '\t'

/-- `text.replace(/[^\P{C}\n\t]/gu, '')`. -/
def strip (text : List Char) : List Char := text.filter characters.keeps

/-- Nothing of the character is left at either end of a published text. -/
def fades (character : Char) : Bool := isBlank character || !characters.keeps character

/-- A text without what fades at its ends. -/
def core (text : List Char) : List Char :=
  (text.dropWhile characters.fades).rdropWhile characters.fades

end OtherCharacters

/-- `trim`, on characters. -/
def trimBlank (text : List Char) : List Char := (text.dropWhile isBlank).rdropWhile isBlank

theorem trimText_ofList (text : List Char) :
    (trimText (String.ofList text)).toList = trimBlank text := by
  unfold trimText trimBlank List.rdropWhile
  rw [String.toList_ofList, String.toList_ofList]

/-! ## The zero-width spaces that are put in -/

/-- What `neutralize` puts between a character and the text behind it. -/
def spacer (character : Char) : List Char → List Char
  | [] => []
  | next :: _ =>
      if (character = '@' && (next.isAlphanum || next = '_' || next = '-')) ||
          (character = '#' && next.isDigit) then ['\u200b']
      else []

theorem neutralize_cons (character : Char) (text : List Char) :
    neutralize (character :: text) = character :: spacer character text ++ neutralize text := by
  cases text with
  | nil => rfl
  | cons next text =>
      rw [neutralize]
      dsimp only [spacer]
      split_ifs
      · rfl
      · rfl

theorem spacer_cases (character : Char) (text : List Char) :
    spacer character text = [] ∨ spacer character text = ['\u200b'] := by
  cases text with
  | nil => exact Or.inl rfl
  | cons next text =>
      dsimp only [spacer]
      split_ifs
      · exact Or.inr rfl
      · exact Or.inl rfl

/-- The character is none that `neutralize` puts something behind. -/
def plain (character : Char) : Prop := character ≠ '@' ∧ character ≠ '#'

theorem spacer_of_plain {character : Char} (h : plain character) (text : List Char) :
    spacer character text = [] := by
  cases text with
  | nil => rfl
  | cons next text => simp [spacer, h.1, h.2]

/-- The spacer depends on the next character only. -/
theorem spacer_append {character : Char} {text rest : List Char} (h : text ≠ []) :
    spacer character (text ++ rest) = spacer character text := by
  cases text with
  | nil => exact absurd rfl h
  | cons next text => rfl

theorem neutralize_of_plain {text : List Char} (h : ∀ character ∈ text, plain character) :
    neutralize text = text := by
  induction text with
  | nil => rfl
  | cons character text ih =>
      rw [neutralize_cons, spacer_of_plain (h character List.mem_cons_self),
        ih fun other hmem => h other (List.mem_cons_of_mem _ hmem)]
      rfl

/-- A text is split behind a plain character. -/
theorem neutralize_append {left right : List Char}
    (h : ∀ character ∈ left.getLast?, plain character) :
    neutralize (left ++ right) = neutralize left ++ neutralize right := by
  induction left with
  | nil => rfl
  | cons character left ih =>
      cases left with
      | nil =>
          have hplain : plain character := h character rfl
          rw [List.singleton_append, neutralize_cons, spacer_of_plain hplain]
          rfl
      | cons next left =>
          rw [List.cons_append, neutralize_cons, spacer_append (List.cons_ne_nil next left),
            ih h, neutralize_cons character (next :: left)]
          simp

/-- A plain word is found unchanged at the end. -/
theorem neutralize_append_word {word : List Char} (hword : ∀ character ∈ word, plain character)
    (left : List Char) : ∃ shown, neutralize (left ++ word) = shown ++ word := by
  induction left with
  | nil => exact ⟨[], neutralize_of_plain hword⟩
  | cons character left ih =>
      rcases ih with ⟨shown, hshown⟩
      refine ⟨character :: spacer character (left ++ word) ++ shown, ?_⟩
      rw [List.cons_append, neutralize_cons, hshown, List.append_assoc]

/-- A word without the characters that `neutralize` looks for or puts in. -/
structure Untouched (word : List Char) : Prop where
  nonempty : word ≠ []
  plain : ∀ character ∈ word, plain character
  spacer : '\u200b' ∉ word

/-- A plain start of the outcome is the start of the text. -/
theorem starts_of_neutralize {word : List Char} (hplain : ∀ character ∈ word, plain character)
    (hspacer : '\u200b' ∉ word) {text rest : List Char} (h : neutralize text = word ++ rest) :
    ∃ behind, text = word ++ behind := by
  induction word generalizing text with
  | nil => exact ⟨text, rfl⟩
  | cons character word ih =>
      cases text with
      | nil => cases h
      | cons head text =>
          rw [neutralize_cons, List.cons_append, List.cons_append] at h
          rcases List.cons.inj h with ⟨rfl, hrest⟩
          rw [spacer_of_plain (hplain head List.mem_cons_self), List.nil_append] at hrest
          rcases ih (fun other hmem => hplain other (List.mem_cons_of_mem _ hmem))
            (fun hmem => hspacer (List.mem_cons_of_mem _ hmem)) hrest with ⟨behind, rfl⟩
          exact ⟨behind, rfl⟩

/-- An untouched word of the outcome stands in the text, at the same place. -/
theorem occurs_of_neutralize {word : List Char} (hword : Untouched word)
    {text shown rest : List Char} (h : neutralize text = shown ++ word ++ rest) :
    ∃ before behind, text = before ++ word ++ behind ∧
      neutralize (before ++ word) = shown ++ word := by
  induction text generalizing shown with
  | nil =>
      have hnil : shown ++ word ++ rest = [] := h.symm
      simp [hword.nonempty] at hnil
  | cons character text ih =>
      -- The outcome of the rest, behind what stands in front of it.
      have hbehind : ∀ {shown' : List Char}, neutralize text = shown' ++ word ++ rest →
          ∃ before behind, character :: text = before ++ word ++ behind ∧
            neutralize (before ++ word) =
              character :: spacer character text ++ shown' ++ word := by
        intro shown' hrest
        rcases ih hrest with ⟨before, behind, rfl, hsame⟩
        refine ⟨character :: before, behind, rfl, ?_⟩
        have hne : before ++ word ≠ [] := by simp [hword.nonempty]
        rw [List.cons_append, neutralize_cons, hsame, spacer_append hne]
        simp
      cases shown with
      | nil =>
          rcases starts_of_neutralize hword.plain hword.spacer h with ⟨behind, hbehind⟩
          exact ⟨[], behind, hbehind, neutralize_of_plain hword.plain⟩
      | cons first shown =>
          rw [neutralize_cons, List.cons_append, List.cons_append, List.cons_append] at h
          rcases List.cons.inj h with ⟨rfl, hrest⟩
          rcases spacer_cases character text with hnone | hspacer
          · rw [hnone] at hrest hbehind
            exact hbehind hrest
          · rw [hspacer] at hrest hbehind
            cases shown with
            | nil =>
                rcases List.exists_cons_of_ne_nil hword.nonempty with ⟨head, tail, hhead⟩
                rw [hhead] at hrest
                rcases List.cons.inj hrest with ⟨rfl, _⟩
                exact absurd (hhead ▸ List.mem_cons_self) hword.spacer
            | cons second shown =>
                rcases List.cons.inj hrest with ⟨rfl, htext⟩
                exact hbehind htext

/-! ## Trimming -/

theorem plain_of_isBlank {character : Char} (h : isBlank character = true) : plain character := by
  constructor
  · rintro rfl
    exact absurd h (by decide)
  · rintro rfl
    exact absurd h (by decide)

/-- Letters and digits are ASCII characters. -/
theorem toNat_le_of_isAlphanum {character : Char} (h : character.isAlphanum = true) :
    character.val.toNat ≤ 122 := by
  rcases Bool.or_eq_true_iff.mp h with halpha | hdigit
  · rcases Bool.or_eq_true_iff.mp halpha with hupper | hlower
    · have hbound : character.val.toNat ≤ 90 :=
        (of_decide_eq_true (p := _ ∧ _) hupper).2
      omega
    · exact of_decide_eq_true (Bool.and_eq_true_iff.mp hlower).2
  · have hbound : character.val.toNat ≤ 57 := of_decide_eq_true (Bool.and_eq_true_iff.mp hdigit).2
    omega

/-- No blank character is one that mentions and references are made of. -/
theorem not_wordLike_of_isBlank {next : Char} (h : isBlank next = true) :
    (next.isAlphanum || next = '_' || next = '-') = false ∧ next.isDigit = false := by
  rcases Bool.or_eq_true_iff.mp h with hlisted | hrange
  · have hall : ['\t', '\n', '\x0b', '\x0c', '\r', ' ', '\u00a0', '\u1680', '\u2028', '\u2029',
        '\u202f', '\u205f', '\u3000', '\ufeff'].all (fun blank =>
          !(blank.isAlphanum || blank = '_' || blank = '-') && !blank.isDigit) = true := by
      decide
    have hboth := List.all_eq_true.mp hall next (List.contains_iff_mem.mp hlisted)
    simpa using hboth
  · rcases Bool.and_eq_true_iff.mp hrange with ⟨hlow, _⟩
    have hlarge : 0x2000 ≤ next.val.toNat := of_decide_eq_true hlow
    have habove : ∀ other : Char, other.val.toNat < 0x2000 → next ≠ other := by
      rintro other hother rfl
      omega
    have hword : next.isAlphanum = false := by
      rw [← Bool.not_eq_true]
      intro halnum
      have hsmall := toNat_le_of_isAlphanum halnum
      omega
    have hdigit : next.isDigit = false := (Bool.or_eq_false_iff.mp hword).2
    refine ⟨?_, hdigit⟩
    rw [hword, decide_eq_false (habove '_' (by decide)), decide_eq_false (habove '-' (by decide))]
    rfl

theorem spacer_blank {next : Char} (h : isBlank next = true) (character : Char)
    (text : List Char) : spacer character (next :: text) = [] := by
  rcases not_wordLike_of_isBlank h with ⟨hword, hdigit⟩
  dsimp only [spacer]
  rw [hword, hdigit, Bool.and_false, Bool.and_false]
  rfl

theorem dropWhile_neutralize (text : List Char) :
    (neutralize text).dropWhile isBlank = neutralize (text.dropWhile isBlank) := by
  induction text with
  | nil => rfl
  | cons character text ih =>
      by_cases hblank : isBlank character = true
      · rw [neutralize_cons, spacer_of_plain (plain_of_isBlank hblank),
          List.dropWhile_cons_of_pos hblank, ← ih]
        exact List.dropWhile_cons_of_pos hblank
      · rw [List.dropWhile_cons_of_neg hblank, neutralize_cons]
        exact List.dropWhile_cons_of_neg hblank

/-- The last character stays the last one; it is put directly behind the others if it is
blank. -/
theorem neutralize_concat (text : List Char) (last : Char) :
    ∃ shown, neutralize (text ++ [last]) = shown ++ [last] ∧
      (isBlank last = true → shown = neutralize text) := by
  induction text with
  | nil => exact ⟨[], rfl, fun _ => rfl⟩
  | cons character text ih =>
      rcases ih with ⟨shown, hshown, hblank⟩
      refine ⟨character :: spacer character (text ++ [last]) ++ shown, ?_, ?_⟩
      · rw [List.cons_append, neutralize_cons, hshown, List.append_assoc]
      · intro hlast
        rw [hblank hlast, neutralize_cons]
        cases text with
        | nil => rw [List.nil_append, spacer_blank hlast]; rfl
        | cons next text => rfl

theorem rdropWhile_neutralize (text : List Char) :
    (neutralize text).rdropWhile isBlank = neutralize (text.rdropWhile isBlank) := by
  induction text using List.reverseRecOn with
  | nil => rfl
  | append_singleton text last ih =>
      rcases neutralize_concat text last with ⟨shown, hshown, hsame⟩
      by_cases hblank : isBlank last = true
      · rw [hshown, hsame hblank, List.rdropWhile_concat_pos _ _ _ hblank,
          List.rdropWhile_concat_pos _ _ _ hblank, ih]
      · rw [hshown, List.rdropWhile_concat_neg _ _ _ hblank,
          List.rdropWhile_concat_neg _ _ _ hblank, hshown]

theorem trimBlank_neutralize (text : List Char) :
    trimBlank (neutralize text) = neutralize (trimBlank text) := by
  unfold trimBlank
  rw [dropWhile_neutralize, rdropWhile_neutralize]

theorem dropWhile_strip (characters : OtherCharacters) (text : List Char) :
    (characters.strip text).dropWhile isBlank =
      characters.strip (text.dropWhile characters.fades) := by
  induction text with
  | nil => rfl
  | cons character text ih =>
      unfold OtherCharacters.strip at ih ⊢
      by_cases hkept : characters.keeps character = true
      · rw [List.filter_cons_of_pos hkept]
        by_cases hblank : isBlank character = true
        · have hfades : characters.fades character = true := by
            simp [OtherCharacters.fades, hblank]
          rw [List.dropWhile_cons_of_pos hblank, List.dropWhile_cons_of_pos hfades, ih]
        · have hstays : ¬ characters.fades character = true := by
            simp [OtherCharacters.fades, hblank, hkept]
          rw [List.dropWhile_cons_of_neg hblank, List.dropWhile_cons_of_neg hstays,
            List.filter_cons_of_pos hkept]
      · have hfades : characters.fades character = true := by
          simp [OtherCharacters.fades, hkept]
        rw [List.filter_cons_of_neg hkept, List.dropWhile_cons_of_pos hfades, ih]

theorem trimBlank_strip (characters : OtherCharacters) (text : List Char) :
    trimBlank (characters.strip text) = characters.strip (characters.core text) := by
  unfold trimBlank OtherCharacters.core
  rw [dropWhile_strip]
  generalize text.dropWhile characters.fades = rest
  -- From the other end, the text is read in reverse.
  have hreverse := dropWhile_strip characters rest.reverse
  unfold List.rdropWhile
  unfold OtherCharacters.strip at hreverse ⊢
  rw [← List.filter_reverse, hreverse, List.filter_reverse]

/-! ## What is published -/

/-- The delivery dependencies with the redaction and the removal of this file. -/
def OtherCharacters.publishing (characters : OtherCharacters) (deps : DeliveryDependencies)
    (rules : List RedactionRule) (knownSecrets : List String) : DeliveryDependencies :=
  { deps with
    redactSecrets := fun text => redactSecrets rules text knownSecrets
    stripControl := fun text => String.ofList (characters.strip text.toList) }

section Published

variable (characters : OtherCharacters) (deps : DeliveryDependencies)
  (rules : List RedactionRule) (knownSecrets : List String)

/-- The text behind every step but the cut. -/
def OtherCharacters.shown (redacted : List Char) : List Char :=
  neutralize (characters.strip (characters.core redacted))

theorem toList_untrustedText (text : String) (limit : Nat) :
    (untrustedText (characters.publishing deps rules knownSecrets) text limit).toList =
      if limit < utf16Length (characters.shown (redactSecrets rules text knownSecrets).toList)
      then utf16Take limit (characters.shown (redactSecrets rules text knownSecrets).toList) ++
        ['…']
      else characters.shown (redactSecrets rules text knownSecrets).toList := by
  have hcleaned : (trimText (String.ofList (neutralize ((characters.publishing deps rules
      knownSecrets).stripControl (redactSecrets rules text knownSecrets)).toList))).toList =
      characters.shown (redactSecrets rules text knownSecrets).toList := by
    dsimp only [OtherCharacters.publishing]
    rw [trimText_ofList, String.toList_ofList, trimBlank_neutralize, trimBlank_strip]
    rfl
  unfold untrustedText utf16Slice
  dsimp only
  have hredacted : (characters.publishing deps rules knownSecrets).redactSecrets text =
      redactSecrets rules text knownSecrets := rfl
  rw [hredacted, hcleaned]
  split_ifs
  · rw [String.toList_append, String.toList_ofList]
    rfl
  · exact hcleaned

/-! ## How a secret comes back -/

/-- A secret that is long enough, and that neither the marker nor `neutralize` has a part in. -/
structure Publishable (secret : String) : Prop extends Redactable secret where
  long : 8 ≤ utf16Length secret.toList
  plain : ∀ character ∈ secret.toList, plain character
  zeroWidthSpace : '\u200b' ∉ secret.toList

/-- The secret is spelled with removed characters in it, within the limit. -/
def Interrupted (limit : Nat) (redacted secret : List Char) : Prop :=
  ∃ before stretch after, characters.core redacted = before ++ stretch ++ after ∧
    characters.strip stretch = secret ∧
    (∃ character ∈ stretch, characters.keeps character = false) ∧
    utf16Length (neutralize (characters.strip (before ++ stretch))) ≤ limit

/-- All of the secret but an ellipsis at its end is spelled where the text is cut off. -/
def Completed (limit : Nat) (redacted secret : List Char) : Prop :=
  ∃ before stretch after, characters.core redacted = before ++ stretch ++ after ∧
    characters.strip stretch ++ ['…'] = secret ∧
    limit < utf16Length (characters.shown redacted) ∧
    utf16Take limit (characters.shown redacted) =
      neutralize (characters.strip (before ++ stretch))

variable {characters}

theorem strip_append (left right : List Char) :
    characters.strip (left ++ right) = characters.strip left ++ characters.strip right :=
  List.filter_append left right

/-- A spelled word begins the text that is shown, together with what stands before it. -/
theorem shown_of_spelled {redacted before stretch after : List Char}
    (hcore : characters.core redacted = before ++ stretch ++ after)
    (hplain : ∀ character ∈ characters.strip stretch, plain character)
    (hne : characters.strip stretch ≠ []) :
    neutralize (characters.strip (before ++ stretch)) <+: characters.shown redacted := by
  have hlast : ∀ character ∈ (characters.strip (before ++ stretch)).getLast?, plain character := by
    intro character hmem
    rw [strip_append, List.getLast?_append_of_ne_nil _ hne] at hmem
    exact hplain character (List.mem_of_getLast? hmem)
  refine ⟨neutralize (characters.strip after), ?_⟩
  unfold OtherCharacters.shown
  rw [hcore, ← neutralize_append hlast, ← strip_append]

/-- A spelled word ends what is shown up to it. -/
theorem occurs_of_spelled {stretch : List Char} (before : List Char)
    (hplain : ∀ character ∈ characters.strip stretch, plain character) :
    ∃ ahead, neutralize (characters.strip (before ++ stretch)) =
      ahead ++ characters.strip stretch := by
  rw [strip_append]
  exact neutralize_append_word hplain _

/-- An untouched word that is shown is spelled there. -/
theorem spelled_of_shown {redacted ahead word rest : List Char} (hword : Untouched word)
    (hshown : characters.shown redacted = ahead ++ word ++ rest) :
    ∃ before stretch after, characters.core redacted = before ++ stretch ++ after ∧
      characters.strip stretch = word ∧
      neutralize (characters.strip (before ++ stretch)) = ahead ++ word := by
  rcases occurs_of_neutralize hword hshown with ⟨left, right, hstrip, hsame⟩
  rcases List.filter_eq_append_iff.mp hstrip with ⟨stretches, after, hcore, hleft, _⟩
  rcases List.filter_eq_append_iff.mp hleft with ⟨before, stretch, rfl, hbefore, hstretch⟩
  refine ⟨before, stretch, after, hcore, hstretch, ?_⟩
  have hleftKept : characters.strip before = left := hbefore
  have hwordKept : characters.strip stretch = word := hstretch
  rw [strip_append, hleftKept, hwordKept, hsame]

theorem infix_of_core (redacted : List Char) : characters.core redacted <:+: redacted := by
  have hdropped := List.rdropWhile_prefix characters.fades (redacted.dropWhile characters.fades)
  exact hdropped.isInfix.trans (List.dropWhile_suffix characters.fades).isInfix

/-- A word that a redacted text does not have is spelled in it with removed characters only. -/
theorem exists_removed {redacted before stretch after word : List Char}
    (hcore : characters.core redacted = before ++ stretch ++ after)
    (hstretch : characters.strip stretch = word) (hgone : ¬ word <:+: redacted) :
    ∃ character ∈ stretch, characters.keeps character = false := by
  by_contra hnone
  have hall : characters.strip stretch = stretch := by
    refine List.filter_eq_self.mpr ?_
    intro character hmem
    by_contra hremoved
    exact hnone ⟨character, hmem, eq_false_of_ne_true hremoved⟩
  have hoccurs : word <:+: characters.core redacted := by
    rw [hcore, ← hstretch, hall]
    exact ⟨before, after, rfl⟩
  exact hgone (hoccurs.trans (infix_of_core redacted))

/-- Nothing is interrupted in a text of which every character is kept. -/
theorem not_interrupted_of_kept {limit : Nat} {redacted : List Char}
    (hkept : ∀ character ∈ redacted, characters.keeps character = true) (secret : List Char) :
    ¬ Interrupted characters limit redacted secret := by
  rintro ⟨before, stretch, after, hcore, _, ⟨character, hmem, hremoved⟩, _⟩
  have hcoreMem : character ∈ characters.core redacted := by
    rw [hcore]
    exact List.mem_append_left _ (List.mem_append_right _ hmem)
  have hkeeps := hkept character ((infix_of_core redacted).subset hcoreMem)
  rw [hremoved] at hkeeps
  exact Bool.false_ne_true hkeeps

namespace Publishable

variable {secret : String} (h : Publishable secret)

include h

theorem untouched : Untouched secret.toList where
  nonempty := h.toRedactable.separates.nonempty
  plain := h.plain
  spacer := h.zeroWidthSpace

/-- What stands before the ellipsis at a secret's end. -/
theorem untouched_start {word : List Char} (hword : word ++ ['…'] = secret.toList) :
    Untouched word where
  nonempty := by
    rintro rfl
    have hlong := h.long
    rw [← hword] at hlong
    exact absurd hlong (by decide)
  plain := by
    intro character hmem
    apply h.plain
    rw [← hword]
    exact List.mem_append_left _ hmem
  spacer := by
    intro hmem
    apply h.zeroWidthSpace
    rw [← hword]
    exact List.mem_append_left _ hmem

/-- What is shown within the limit is published. -/
theorem published_of_interrupted {redacted : List Char} {limit : Nat}
    (hinterrupted : Interrupted characters limit redacted secret.toList) :
    secret.toList <:+: utf16Take limit (characters.shown redacted) ∧
      secret.toList <:+: characters.shown redacted := by
  rcases hinterrupted with ⟨before, stretch, after, hcore, hstretch, _, hlimit⟩
  have hplain := h.plain
  have hne := h.untouched.nonempty
  rw [← hstretch] at hplain hne
  have hbegins := shown_of_spelled hcore hplain hne
  rcases occurs_of_spelled before hplain with ⟨ahead, hends⟩
  have hwithin : secret.toList <:+: neutralize (characters.strip (before ++ stretch)) := by
    rw [hends, hstretch]
    exact (List.suffix_append ahead secret.toList).isInfix
  constructor
  · exact hwithin.trans (isPrefix_utf16Take hbegins hlimit).isInfix
  · exact hwithin.trans hbegins.isInfix

theorem published_of_completed {redacted : List Char} {limit : Nat}
    (hcompleted : Completed characters limit redacted secret.toList) :
    secret.toList <:+: utf16Take limit (characters.shown redacted) ++ ['…'] := by
  rcases hcompleted with ⟨before, stretch, after, hcore, hword, _, htake⟩
  have hplain := (h.untouched_start hword).plain
  rcases occurs_of_spelled before hplain with ⟨ahead, hends⟩
  rw [htake, hends, List.append_assoc, hword]
  exact (List.suffix_append ahead secret.toList).isInfix

/-- A secret that is shown within the limit is interrupted. -/
theorem interrupted_of_shown {redacted start : List Char} {limit : Nat}
    (hgone : ¬ secret.toList <:+: redacted) (hstart : start <+: characters.shown redacted)
    (hlimit : utf16Length start ≤ limit) (hwithin : secret.toList <:+: start) :
    Interrupted characters limit redacted secret.toList := by
  rcases hwithin with ⟨ahead, behind, rfl⟩
  rcases hstart with ⟨rest, hshown⟩
  rw [List.append_assoc] at hshown
  rcases spelled_of_shown h.untouched hshown.symm with ⟨before, stretch, after, hcore, hstretch,
    hends⟩
  refine ⟨before, stretch, after, hcore, hstretch, exists_removed hcore hstretch hgone, ?_⟩
  rw [hends]
  rw [utf16Length_append] at hlimit
  omega

/-- A secret whose end is the ellipsis was completed by the cut. -/
theorem completed_of_suffix {redacted : List Char} {limit : Nat}
    (hcut : limit < utf16Length (characters.shown redacted))
    (hsuffix : secret.toList <:+ utf16Take limit (characters.shown redacted) ++ ['…']) :
    Completed characters limit redacted secret.toList := by
  rcases List.suffix_concat_iff.mp hsuffix with hnil | ⟨word, hword, ahead, hahead⟩
  · exact absurd hnil h.untouched.nonempty
  · rcases utf16Take_isPrefix limit (characters.shown redacted) with ⟨rest, hshown⟩
    rw [← hahead] at hshown
    rcases spelled_of_shown (h.untouched_start hword.symm) hshown.symm with
      ⟨before, stretch, after, hcore, hstretch, hends⟩
    refine ⟨before, stretch, after, hcore, ?_, hcut, ?_⟩
    · rw [hstretch, hword]
    · rw [hends, hahead]

end Publishable

/-- A text is published without the known secrets exactly if, once redacted, it neither spells
one with removed characters in it nor is cut off where the ellipsis completes one. -/
theorem untrustedText_hides (hsecrets : ∀ secret ∈ knownSecrets, Publishable secret)
    (text : String) (limit : Nat) :
    (∀ secret ∈ knownSecrets, includes (untrustedText (characters.publishing deps rules
        knownSecrets) text limit) secret = false) ↔
      ∀ secret ∈ knownSecrets,
        ¬ Interrupted characters limit (redactSecrets rules text knownSecrets).toList
            secret.toList ∧
          ¬ Completed characters limit (redactSecrets rules text knownSecrets).toList
            secret.toList := by
  have hiff : ∀ secret ∈ knownSecrets,
      (includes (untrustedText (characters.publishing deps rules knownSecrets) text limit) secret =
          false ↔
        ¬ Interrupted characters limit (redactSecrets rules text knownSecrets).toList
            secret.toList ∧
          ¬ Completed characters limit (redactSecrets rules text knownSecrets).toList
            secret.toList) := by
    intro secret hmem
    have h := hsecrets secret hmem
    have hgone := h.toRedactable.not_infix_redactSecrets hmem rules text
    rw [includes_eq_false_iff, toList_untrustedText, ← not_or, not_iff_not]
    generalize (redactSecrets rules text knownSecrets).toList = redacted at hgone ⊢
    -- Cut off or whole: only a cut text has an ellipsis that could complete a secret.
    split_ifs with hcut
    · constructor
      · intro hwithin
        rcases List.infix_concat_iff.mp hwithin with hsuffix | hwithin
        · exact Or.inr (h.completed_of_suffix hcut hsuffix)
        · left
          exact h.interrupted_of_shown hgone (utf16Take_isPrefix limit _)
            (utf16Length_take_le limit _) hwithin
      · rintro (hinterrupted | hcompleted)
        · have htaken := (h.published_of_interrupted hinterrupted).1
          exact htaken.trans (List.prefix_append _ _).isInfix
        · exact h.published_of_completed hcompleted
    · constructor
      · intro hwithin
        left
        exact h.interrupted_of_shown hgone List.prefix_rfl (Nat.le_of_not_lt hcut) hwithin
      · rintro (hinterrupted | ⟨_, _, _, _, _, hcompleted, _⟩)
        · exact (h.published_of_interrupted hinterrupted).2
        · exact absurd hcompleted hcut
  constructor
  · intro hall secret hmem
    exact (hiff secret hmem).mp (hall secret hmem)
  · intro hall secret hmem
    exact (hiff secret hmem).mpr (hall secret hmem)

end Published

/-! ## A zero-width space in a secret -/

/-- The control characters below the space, and the zero-width space. -/
def sampleCharacters : OtherCharacters where
  other character := character.toNat < 32 || character = '\u200b'
  zeroWidthSpace := rfl

def samplePublishing : DeliveryDependencies :=
  sampleCharacters.publishing sampleDelivery [idleRule] ["known-secret-value"]

theorem publishable_knownSecret : Publishable "known-secret-value" where
  nonempty := by decide
  opening := by decide
  closing := by decide
  inner := by decide
  long := by decide
  plain := by
    have hall : "known-secret-value".toList.all
        (fun character => character ≠ '@' && character ≠ '#') = true := by decide
    intro character hmem
    have hboth := List.all_eq_true.mp hall character hmem
    simpa [plain] using hboth
  zeroWidthSpace := by decide

theorem untrustedText_interrupted : Publishable "known-secret-value" ∧
    includes (untrustedText samplePublishing "known-\u200bsecret-value" 100)
      "known-secret-value" = true :=
  ⟨publishable_knownSecret, by decide +kernel⟩

theorem untrustedText_hides_sample :
    includes (untrustedText samplePublishing "as known-secret-value" 100)
      "known-secret-value" = false := by
  have hsecrets : ∀ secret ∈ ["known-secret-value"], Publishable secret := by
    intro secret hmem
    rcases List.mem_singleton.mp hmem with rfl
    exact publishable_knownSecret
  have hhides := (@untrustedText_hides sampleCharacters sampleDelivery [idleRule]
    ["known-secret-value"] hsecrets "as known-secret-value" 100).mpr
  refine hhides ?_ "known-secret-value" List.mem_cons_self
  intro secret _
  constructor
  · have hkept : (redactSecrets [idleRule] "as known-secret-value"
        ["known-secret-value"]).toList.all sampleCharacters.keeps = true := by decide +kernel
    exact not_interrupted_of_kept (List.all_eq_true.mp hkept) _
  · rintro ⟨_, _, _, _, _, hcut, _⟩
    have hshort : utf16Length (sampleCharacters.shown (redactSecrets [idleRule]
        "as known-secret-value" ["known-secret-value"]).toList) = 13 := by decide +kernel
    rw [hshort] at hcut
    omega

end Orchestrator
