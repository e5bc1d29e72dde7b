import Mathlib.Data.List.DropRight
import Mathlib.Data.List.TakeWhile
import Mathlib.Data.Nat.Digits.Lemmas

/-! # JSON values and the texts of their parts

The values a JSON text has, and how `JSON.stringify` writes numbers and strings. Each of these
texts is read back from the front of a longer one, which is what makes the text of a whole
value unambiguous.
-/

namespace Kit

/-! ## Numbers -/

/-- The shortest decimal of a number other than zero: its figures, and the position of the
point relative to the first of them. -/
structure Decimal where
  figures : List Char
  point : Int
  areDigits : figures.all Char.isDigit = true
  firstNonzero : ∃ first rest, figures = first :: rest ∧ first ≠ '0'
  lastNonzero : ∃ most last, figures = most ++ [last] ∧ last ≠ '0'

/-- A finite number. The two zeros are one. -/
inductive JsonNumber
  | zero
  | nonzero (negative : Bool) (magnitude : Decimal)

/-- The exponent of `Number::toString`, with its sign. -/
def exponentText (exponent : Int) : List Char :=
  (if exponent < 0 then '-' else '+') :: (toString exponent.natAbs).toList

/-- `Number::toString` of a positive number. -/
def magnitudeText (magnitude : Decimal) : List Char :=
  let figures := magnitude.figures
  let point := magnitude.point
  if -5 ≤ point ∧ point ≤ 21 then
    if (figures.length : Int) ≤ point then
      figures ++ List.replicate (point.toNat - figures.length) '0'
    else if 0 < point then figures.take point.toNat ++ '.' :: figures.drop point.toNat
    else '0' :: '.' :: (List.replicate (-point).toNat '0' ++ figures)
  else if figures.length = 1 then figures ++ 'e' :: exponentText (point - 1)
  else figures.take 1 ++ '.' :: (figures.drop 1 ++ 'e' :: exponentText (point - 1))

def numberText : JsonNumber → List Char
  | .zero => ['0']
  | .nonzero negative magnitude =>
      (if negative then ['-'] else []) ++ magnitudeText magnitude

/-! ### Reading a number -/

/-- The exponent behind an `e`, zero where there is none. -/
def readExponent : List Char → Int
  | 'e' :: '-' :: figures => -(Nat.ofDigitChars 10 figures 0 : Int)
  | 'e' :: '+' :: figures => (Nat.ofDigitChars 10 figures 0 : Int)
  | _ => 0

/-- The figures of a text without the zeros around them, and where the point is. -/
def readMagnitude (text : List Char) : List Char × Int :=
  let mantissa := text.takeWhile (· ≠ 'e')
  let whole := mantissa.takeWhile (· ≠ '.')
  let figures := whole ++ (mantissa.dropWhile (· ≠ '.')).drop 1
  ((figures.dropWhile (· = '0')).rdropWhile (· = '0'),
    whole.length - (figures.takeWhile (· = '0')).length + readExponent (text.dropWhile (· ≠ 'e')))

theorem Decimal.isDigit {magnitude : Decimal} {figure : Char} (h : figure ∈ magnitude.figures) :
    figure.isDigit = true := List.all_eq_true.mp magnitude.areDigits figure h

/-- A digit is neither the point nor the mark of the exponent. -/
theorem ne_of_isDigit {figure mark : Char} (h : figure.isDigit = true)
    (hmark : mark.isDigit = false) : figure ≠ mark := by
  intro heq
  rw [heq, hmark] at h
  exact Bool.noConfusion h

/-- What is left between the zeros in front of the figures and those behind them. -/
theorem Decimal.trim_zeros (magnitude : Decimal) (before after : Nat) :
    let text := List.replicate before '0' ++ (magnitude.figures ++ List.replicate after '0')
    (text.dropWhile (· = '0')).rdropWhile (· = '0') = magnitude.figures ∧
      (text.takeWhile (· = '0')).length = before := by
  intro text
  obtain ⟨first, rest, hfirst, hne⟩ := magnitude.firstNonzero
  obtain ⟨most, last, hlast, hne'⟩ := magnitude.lastNonzero
  have hzeros : ∀ count, ∀ figure ∈ List.replicate count '0',
      (decide (figure = '0')) = true := by
    intro count figure hmem
    exact decide_eq_true (List.eq_of_mem_replicate hmem)
  have hfront : (decide (first = '0')) = false := decide_eq_false hne
  have hback : ¬ (decide (last = '0')) = true := by simp [hne']
  have hdrop : text.dropWhile (· = '0') = magnitude.figures ++ List.replicate after '0' := by
    rw [List.dropWhile_append_of_pos (hzeros before), hfirst, List.cons_append]
    exact List.dropWhile_cons_of_neg (by simp [hne])
  have htake : text.takeWhile (· = '0') = List.replicate before '0' := by
    rw [List.takeWhile_append_of_pos (hzeros before), hfirst, List.cons_append,
      List.takeWhile_cons_of_neg (by simp [hne]), List.append_nil]
  constructor
  · rw [hdrop, List.rdropWhile, List.reverse_append,
      List.dropWhile_append_of_pos (by simp), hlast, List.reverse_append]
    simp [hne']
  · rw [htake, List.length_replicate]

/-- The parts of a number's text are found again. -/
theorem readMagnitude_parts {whole fraction tail exponent : List Char}
    (hwhole : ∀ figure ∈ whole, figure.isDigit = true)
    (hfraction : ∀ figure ∈ fraction, figure.isDigit = true)
    (htail : tail = [] ∧ fraction = [] ∨ tail = '.' :: fraction)
    (hexponent : exponent = [] ∨ ∃ more, exponent = 'e' :: more) :
    readMagnitude (whole ++ tail ++ exponent) =
      (((whole ++ fraction).dropWhile (· = '0')).rdropWhile (· = '0'),
        whole.length - ((whole ++ fraction).takeWhile (· = '0')).length +
          readExponent exponent) := by
  have hmantissa : ∀ character ∈ whole ++ tail, (decide (character ≠ 'e')) = true := by
    intro character hmem
    apply decide_eq_true
    rcases List.mem_append.mp hmem with h | h
    · exact ne_of_isDigit (hwhole character h) rfl
    · rcases htail with ⟨hnil, -⟩ | hpoint
      · rw [hnil] at h
        exact absurd h List.not_mem_nil
      · rw [hpoint] at h
        rcases List.mem_cons.mp h with rfl | h
        · decide
        · exact ne_of_isDigit (hfraction character h) rfl
  have hwholeOnly : ∀ character ∈ whole, (decide (character ≠ '.')) = true :=
    fun character h => decide_eq_true (ne_of_isDigit (hwhole character h) rfl)
  have htake : (whole ++ tail ++ exponent).takeWhile (· ≠ 'e') = whole ++ tail := by
    rw [List.takeWhile_append_of_pos hmantissa]
    rcases hexponent with rfl | ⟨more, rfl⟩ <;> simp
  have hdrop : (whole ++ tail ++ exponent).dropWhile (· ≠ 'e') = exponent := by
    rw [List.dropWhile_append_of_pos hmantissa]
    rcases hexponent with rfl | ⟨more, rfl⟩ <;> simp
  have hpointTake : (whole ++ tail).takeWhile (· ≠ '.') = whole := by
    rw [List.takeWhile_append_of_pos hwholeOnly]
    rcases htail with ⟨rfl, -⟩ | rfl <;> simp
  have hpointDrop : ((whole ++ tail).dropWhile (· ≠ '.')).drop 1 = fraction := by
    rw [List.dropWhile_append_of_pos hwholeOnly]
    rcases htail with ⟨rfl, rfl⟩ | rfl <;> simp
  unfold readMagnitude
  simp only [htake, hdrop, hpointTake, hpointDrop]

theorem readExponent_exponentText (exponent : Int) :
    readExponent ('e' :: exponentText exponent) = exponent := by
  have hfigures : (toString exponent.natAbs).toList = Nat.toDigits 10 exponent.natAbs := by
    simp
  unfold exponentText
  split_ifs with hnegative
  · show -(Nat.ofDigitChars 10 (toString exponent.natAbs).toList 0 : Int) = exponent
    rw [hfigures, Nat.ofDigitChars_ten_toDigits]
    omega
  · show (Nat.ofDigitChars 10 (toString exponent.natAbs).toList 0 : Int) = exponent
    rw [hfigures, Nat.ofDigitChars_ten_toDigits]
    omega

/-- `Number::toString` is read back. -/
theorem readMagnitude_magnitudeText (magnitude : Decimal) :
    readMagnitude (magnitudeText magnitude) = (magnitude.figures, magnitude.point) := by
  have hdigits : ∀ figure ∈ magnitude.figures, figure.isDigit = true := fun _ => Decimal.isDigit
  have hzero : ∀ count, ∀ figure ∈ List.replicate count '0', figure.isDigit = true := by
    intro count figure hmem
    rw [List.eq_of_mem_replicate hmem]
    rfl
  obtain ⟨first, rest, hfirst, -⟩ := magnitude.firstNonzero
  have hlength : 1 ≤ magnitude.figures.length := by
    rw [hfirst]
    exact Nat.succ_pos rest.length
  obtain ⟨htrim, hlead⟩ := magnitude.trim_zeros 0 0
  simp only [List.replicate_zero, List.nil_append, List.append_nil] at htrim hlead
  simp only [magnitudeText]
  split_ifs with hplain hwhole hinside hone
  · -- A whole number: zeros behind the figures up to the point.
    have h := @readMagnitude_parts
      (magnitude.figures ++ List.replicate (magnitude.point.toNat - magnitude.figures.length) '0')
      [] [] [] (by
        intro figure hmem
        rcases List.mem_append.mp hmem with h | h
        · exact hdigits figure h
        · exact hzero _ figure h) (fun _ h => absurd h List.not_mem_nil)
      (Or.inl ⟨rfl, rfl⟩) (Or.inl rfl)
    obtain ⟨htrim', hlead'⟩ :=
      magnitude.trim_zeros 0 (magnitude.point.toNat - magnitude.figures.length)
    simp only [List.replicate_zero, List.nil_append] at htrim' hlead'
    simp only [List.append_nil] at h
    rw [h, htrim', hlead', List.length_append, List.length_replicate]
    refine Prod.ext rfl ?_
    show ((magnitude.figures.length + (magnitude.point.toNat - magnitude.figures.length) : Nat) :
      Int) - ((0 : Nat) : Int) + 0 = magnitude.point
    omega
  · -- The point is between the figures.
    have h := @readMagnitude_parts (magnitude.figures.take magnitude.point.toNat)
      (magnitude.figures.drop magnitude.point.toNat)
      ('.' :: magnitude.figures.drop magnitude.point.toNat) []
      (fun figure hmem => hdigits figure (List.mem_of_mem_take hmem))
      (fun figure hmem => hdigits figure (List.mem_of_mem_drop hmem)) (Or.inr rfl) (Or.inl rfl)
    rw [List.append_nil, List.take_append_drop, htrim, hlead, List.length_take] at h
    rw [h]
    refine Prod.ext rfl ?_
    show ((min magnitude.point.toNat magnitude.figures.length : Nat) : Int) -
      ((0 : Nat) : Int) + 0 = magnitude.point
    omega
  · -- Zeros stand between the point and the figures.
    have h := @readMagnitude_parts ['0']
      (List.replicate (-magnitude.point).toNat '0' ++ magnitude.figures)
      ('.' :: (List.replicate (-magnitude.point).toNat '0' ++ magnitude.figures)) []
      (hzero 1) (by
        intro figure hmem
        rcases List.mem_append.mp hmem with h | h
        · exact hzero _ figure h
        · exact hdigits figure h) (Or.inr rfl) (Or.inl rfl)
    obtain ⟨htrim', hlead'⟩ := magnitude.trim_zeros ((-magnitude.point).toNat + 1) 0
    simp only [List.replicate_zero, List.append_nil] at htrim' hlead'
    have hjoin : ['0'] ++ (List.replicate (-magnitude.point).toNat '0' ++ magnitude.figures) =
        List.replicate ((-magnitude.point).toNat + 1) '0' ++ magnitude.figures := rfl
    rw [List.append_nil, hjoin, htrim', hlead'] at h
    show readMagnitude (['0'] ++ ('.' :: (List.replicate (-magnitude.point).toNat '0' ++
      magnitude.figures))) = _
    rw [h]
    refine Prod.ext rfl ?_
    show ((1 : Nat) : Int) - (((-magnitude.point).toNat + 1 : Nat) : Int) + 0 = magnitude.point
    omega
  · -- One figure and an exponent.
    have h := @readMagnitude_parts magnitude.figures [] []
      ('e' :: exponentText (magnitude.point - 1)) hdigits (fun _ h => absurd h List.not_mem_nil)
      (Or.inl ⟨rfl, rfl⟩) (Or.inr ⟨_, rfl⟩)
    rw [List.append_nil, htrim, hlead, readExponent_exponentText, hone] at h
    rw [h]
    refine Prod.ext rfl ?_
    show ((1 : Nat) : Int) - ((0 : Nat) : Int) + (magnitude.point - 1) = magnitude.point
    omega
  · -- A point behind the first of several figures, and an exponent.
    have h := @readMagnitude_parts (magnitude.figures.take 1) (magnitude.figures.drop 1)
      ('.' :: magnitude.figures.drop 1) ('e' :: exponentText (magnitude.point - 1))
      (fun figure hmem => hdigits figure (List.mem_of_mem_take hmem))
      (fun figure hmem => hdigits figure (List.mem_of_mem_drop hmem)) (Or.inr rfl)
      (Or.inr ⟨_, rfl⟩)
    rw [List.take_append_drop, htrim, hlead, readExponent_exponentText, List.length_take,
      List.append_assoc] at h
    show readMagnitude (magnitude.figures.take 1 ++ ('.' :: magnitude.figures.drop 1 ++
      'e' :: exponentText (magnitude.point - 1))) = _
    rw [h]
    refine Prod.ext rfl ?_
    show ((min 1 magnitude.figures.length : Nat) : Int) - ((0 : Nat) : Int) +
      (magnitude.point - 1) = magnitude.point
    omega

/-! ### The text of a number ends where its characters end -/

def isNumberChar (character : Char) : Bool :=
  character.isDigit || character = '-' || character = '+' || character = '.' || character = 'e'

theorem isNumberChar_of_isDigit {character : Char} (h : character.isDigit = true) :
    isNumberChar character = true := by
  unfold isNumberChar
  rw [h]
  rfl

theorem isNumberChar_exponentText {exponent : Int} {character : Char}
    (h : character ∈ exponentText exponent) : isNumberChar character = true := by
  rcases List.mem_cons.mp h with hsign | hfigure
  · rw [hsign]
    split_ifs
    · rfl
    · rfl
  · have hdigits : character ∈ Nat.toDigits 10 exponent.natAbs := by simpa using hfigure
    exact isNumberChar_of_isDigit (Nat.isDigit_of_mem_toDigits (by decide) (by decide) hdigits)

theorem isNumberChar_magnitudeText {magnitude : Decimal} {character : Char}
    (h : character ∈ magnitudeText magnitude) : isNumberChar character = true := by
  have hfigures : ∀ figure ∈ magnitude.figures, isNumberChar figure = true :=
    fun figure hmem => isNumberChar_of_isDigit (Decimal.isDigit hmem)
  simp only [magnitudeText] at h
  split_ifs at h
  · rcases List.mem_append.mp h with h | h
    · exact hfigures character h
    · rw [List.eq_of_mem_replicate h]
      rfl
  · rcases List.mem_append.mp h with h | h
    · exact hfigures character (List.mem_of_mem_take h)
    · rcases List.mem_cons.mp h with rfl | h
      · rfl
      · exact hfigures character (List.mem_of_mem_drop h)
  · rcases List.mem_cons.mp h with rfl | h
    · rfl
    rcases List.mem_cons.mp h with rfl | h
    · rfl
    rcases List.mem_append.mp h with h | h
    · rw [List.eq_of_mem_replicate h]
      rfl
    · exact hfigures character h
  · rcases List.mem_append.mp h with h | h
    · exact hfigures character h
    · rcases List.mem_cons.mp h with rfl | h
      · rfl
      · exact isNumberChar_exponentText h
  · rcases List.mem_append.mp h with h | h
    · exact hfigures character (List.mem_of_mem_take h)
    rcases List.mem_cons.mp h with rfl | h
    · rfl
    rcases List.mem_append.mp h with h | h
    · exact hfigures character (List.mem_of_mem_drop h)
    · rcases List.mem_cons.mp h with rfl | h
      · rfl
      · exact isNumberChar_exponentText h

/-- Without its sign, a number begins with a digit. -/
theorem magnitudeText_cons (magnitude : Decimal) :
    ∃ first rest, magnitudeText magnitude = first :: rest ∧ first.isDigit = true := by
  obtain ⟨first, rest, hfirst, -⟩ := magnitude.firstNonzero
  have hdigit : first.isDigit = true := Decimal.isDigit (hfirst ▸ List.mem_cons_self)
  simp only [magnitudeText]
  rw [hfirst]
  split_ifs with hplain hwhole hinside hone
  · exact ⟨first, _, rfl, hdigit⟩
  · obtain ⟨position, hposition⟩ : ∃ position, magnitude.point.toNat = position + 1 :=
      ⟨magnitude.point.toNat - 1, by omega⟩
    rw [hposition]
    exact ⟨first, _, rfl, hdigit⟩
  · exact ⟨'0', _, rfl, rfl⟩
  · exact ⟨first, _, rfl, hdigit⟩
  · exact ⟨first, _, rfl, hdigit⟩

theorem numberText_cons (number : JsonNumber) :
    ∃ first rest, numberText number = first :: rest ∧ isNumberChar first = true := by
  cases number with
  | zero => exact ⟨'0', [], rfl, rfl⟩
  | nonzero negative magnitude =>
      cases negative with
      | true => exact ⟨'-', magnitudeText magnitude, rfl, rfl⟩
      | false =>
          obtain ⟨first, rest, htext, hdigit⟩ := magnitudeText_cons magnitude
          exact ⟨first, rest, htext, isNumberChar_of_isDigit hdigit⟩

theorem isNumberChar_numberText {number : JsonNumber} {character : Char}
    (h : character ∈ numberText number) : isNumberChar character = true := by
  cases number with
  | zero =>
      rw [List.mem_singleton.mp h]
      rfl
  | nonzero negative magnitude =>
      rcases List.mem_append.mp h with hsign | hmagnitude
      · cases negative with
        | true =>
            rw [List.mem_singleton.mp hsign]
            rfl
        | false => exact absurd hsign List.not_mem_nil
      · exact isNumberChar_magnitudeText hmagnitude

theorem magnitudeText_injective {left right : Decimal}
    (h : magnitudeText left = magnitudeText right) : left = right := by
  have hread := congrArg readMagnitude h
  rw [readMagnitude_magnitudeText, readMagnitude_magnitudeText] at hread
  cases left
  cases right
  have hfigures := congrArg Prod.fst hread
  have hpoint := congrArg Prod.snd hread
  simp only at hfigures hpoint
  subst hfigures
  subst hpoint
  rfl

/-- A number other than zero is not written as zero is. -/
theorem magnitudeText_ne_zero (magnitude : Decimal) : magnitudeText magnitude ≠ ['0'] := by
  intro h
  have hread := readMagnitude_magnitudeText magnitude
  rw [h] at hread
  obtain ⟨first, rest, hfirst, -⟩ := magnitude.firstNonzero
  have hnone : (readMagnitude ['0']).1 = [] := by decide
  rw [hread] at hnone
  simp only at hnone
  rw [hfirst] at hnone
  exact absurd hnone (List.cons_ne_nil first rest)

/-- A sign is not the first digit of another number. -/
theorem sign_ne_magnitudeText {rest : List Char} (magnitude : Decimal) :
    '-' :: rest ≠ magnitudeText magnitude := by
  intro h
  obtain ⟨first, more, htext, hdigit⟩ := magnitudeText_cons magnitude
  rw [htext] at h
  have hsign : '-' = first := List.head_eq_of_cons_eq h
  rw [← hsign] at hdigit
  exact absurd hdigit (by decide)

theorem numberText_injective {left right : JsonNumber}
    (h : numberText left = numberText right) : left = right := by
  cases left with
  | zero =>
      cases right with
      | zero => rfl
      | nonzero negative magnitude =>
          cases negative with
          | true => exact absurd (List.head_eq_of_cons_eq h) (by decide)
          | false => exact absurd h.symm (magnitudeText_ne_zero magnitude)
  | nonzero negative magnitude =>
      cases right with
      | zero =>
          cases negative with
          | true => exact absurd (List.head_eq_of_cons_eq h) (by decide)
          | false => exact absurd h (magnitudeText_ne_zero magnitude)
      | nonzero negative' magnitude' =>
          cases negative with
          | true =>
              cases negative' with
              | true => rw [magnitudeText_injective (List.tail_eq_of_cons_eq h)]
              | false => exact absurd h (sign_ne_magnitudeText magnitude')
          | false =>
              cases negative' with
              | true => exact absurd h.symm (sign_ne_magnitudeText magnitude)
              | false => rw [magnitudeText_injective h]

/-! ## Strings -/

/-- One code point of a string: a character, or a surrogate without its other half. -/
inductive CodePoint
  | character (value : Char)
  | surrogate (unit : Nat) (h : 0xD800 ≤ unit ∧ unit < 0xE000)

/-- `UnicodeEscape`: the four figures of a code unit. -/
def unicodeEscape (unit : Nat) : List Char :=
  ['\\', 'u', Nat.digitChar (unit / 4096), Nat.digitChar (unit / 256 % 16),
    Nat.digitChar (unit / 16 % 16), Nat.digitChar (unit % 16)]

/-- The characters that have an escape of their own. -/
def shortEscape (character : Char) : Option Char :=
  if character = '\x08' then some 'b'
  else if character = '\t' then some 't'
  else if character = '\n' then some 'n'
  else if character = '\x0c' then some 'f'
  else if character = '\r' then some 'r'
  else if character = '"' then some '"'
  else if character = '\\' then some '\\'
  else none

def escape : CodePoint → List Char
  | .character value =>
      match shortEscape value with
      | some mark => ['\\', mark]
      | none => if value.toNat < 0x20 then unicodeEscape value.toNat else [value]
  | .surrogate unit _ => unicodeEscape unit

/-- `QuoteJSONString`. -/
def quote (text : List CodePoint) : List Char := '"' :: (text.flatMap escape ++ ['"'])

/-! ### Reading a string -/

def hexValue (figure : Char) : Nat :=
  if figure.isDigit then figure.toNat - 48 else figure.toNat - 87

def longForm (mark : Char) : Char :=
  if mark = 'b' then '\x08'
  else if mark = 't' then '\t'
  else if mark = 'n' then '\n'
  else if mark = 'f' then '\x0c'
  else if mark = 'r' then '\r'
  else mark

def unitCodePoint (unit : Nat) : CodePoint :=
  if h : 0xD800 ≤ unit ∧ unit < 0xE000 then .surrogate unit h else .character (Char.ofNat unit)

def readEscape : List Char → Option (CodePoint × List Char)
  | [] => none
  | mark :: rest =>
      if mark = 'u' then
        some (unitCodePoint ((rest.take 4).foldl (fun unit figure => 16 * unit + hexValue figure) 0),
          rest.drop 4)
      else some (.character (longForm mark), rest)

def readCodePoint : List Char → Option (CodePoint × List Char)
  | [] => none
  | first :: rest => if first = '\\' then readEscape rest else some (.character first, rest)

theorem hexValue_digitChar {figure : Nat} (h : figure < 16) :
    hexValue (Nat.digitChar figure) = figure := by
  interval_cases figure <;> rfl

theorem longForm_shortEscape {character mark : Char} (h : shortEscape character = some mark) :
    mark ≠ 'u' ∧ longForm mark = character := by
  unfold shortEscape at h
  split_ifs at h with h₁ h₂ h₃ h₄ h₅ h₆ h₇ <;> cases h <;> subst character <;>
    exact ⟨by decide, by decide⟩

theorem readCodePoint_unicodeEscape {unit : Nat} (h : unit < 65536) (rest : List Char) :
    readCodePoint (unicodeEscape unit ++ rest) = some (unitCodePoint unit, rest) := by
  have hunit : 16 * (16 * (16 * (16 * 0 + unit / 4096) + unit / 256 % 16) + unit / 16 % 16) +
      unit % 16 = unit := by omega
  have h₁ := @hexValue_digitChar (unit / 4096) (by omega)
  have h₂ := @hexValue_digitChar (unit / 256 % 16) (by omega)
  have h₃ := @hexValue_digitChar (unit / 16 % 16) (by omega)
  have h₄ := @hexValue_digitChar (unit % 16) (by omega)
  simp [readCodePoint, readEscape, unicodeEscape, h₁, h₂, h₃, h₄]
  congr 1
  omega

/-- Each code point is read back from the front of the text. -/
theorem readCodePoint_escape (point : CodePoint) (rest : List Char) :
    readCodePoint (escape point ++ rest) = some (point, rest) := by
  cases point with
  | surrogate unit h =>
      have hread := @readCodePoint_unicodeEscape unit (by omega) rest
      show readCodePoint (unicodeEscape unit ++ rest) = _
      rw [hread]
      simp [unitCodePoint, h]
  | character value =>
      cases hshort : shortEscape value with
      | some mark =>
          obtain ⟨hmark, hlong⟩ := longForm_shortEscape hshort
          have htext : escape (.character value) = ['\\', mark] := by simp [escape, hshort]
          simp [htext, readCodePoint, readEscape, hmark, hlong]
      | none =>
          simp only [escape, hshort]
          split_ifs with hcontrol
          · rw [readCodePoint_unicodeEscape (by omega) rest]
            have hnot : ¬ (0xD800 ≤ value.toNat ∧ value.toNat < 0xE000) := by omega
            simp [unitCodePoint, hnot]
          · have hplain : value ≠ '\\' := by
              intro heq
              rw [heq] at hshort
              exact absurd hshort (by decide)
            simp [readCodePoint, hplain]

/-- What stands for a code point does not begin with the mark that ends a string. -/
theorem escape_cons (point : CodePoint) :
    ∃ first rest, escape point = first :: rest ∧ first ≠ '"' := by
  cases point with
  | surrogate unit h => exact ⟨'\\', _, rfl, by decide⟩
  | character value =>
      cases hshort : shortEscape value with
      | some mark =>
          have htext : escape (.character value) = ['\\', mark] := by simp [escape, hshort]
          exact ⟨'\\', [mark], htext, by decide⟩
      | none =>
          simp only [escape, hshort]
          split_ifs with hcontrol
          · exact ⟨'\\', _, rfl, by decide⟩
          · refine ⟨value, [], rfl, ?_⟩
            intro heq
            rw [heq] at hshort
            exact absurd hshort (by decide)

/-- The text of a string says where it ends. -/
theorem quoted_inj {left right : List CodePoint} {after after' : List Char}
    (h : left.flatMap escape ++ '"' :: after = right.flatMap escape ++ '"' :: after') :
    left = right ∧ after = after' := by
  induction left generalizing right with
  | nil =>
      cases right with
      | nil => exact ⟨rfl, List.tail_eq_of_cons_eq h⟩
      | cons point right =>
          obtain ⟨first, rest, htext, hne⟩ := escape_cons point
          rw [List.flatMap_cons, htext] at h
          exact absurd (List.head_eq_of_cons_eq h).symm hne
  | cons point left ih =>
      cases right with
      | nil =>
          obtain ⟨first, rest, htext, hne⟩ := escape_cons point
          rw [List.flatMap_cons, htext] at h
          exact absurd (List.head_eq_of_cons_eq h) hne
      | cons point' right =>
          rw [List.flatMap_cons, List.flatMap_cons, List.append_assoc, List.append_assoc] at h
          have hread := congrArg readCodePoint h
          rw [readCodePoint_escape, readCodePoint_escape] at hread
          simp only [Option.some.injEq, Prod.mk.injEq] at hread
          obtain ⟨hpoint, hrest⟩ := hread
          obtain ⟨hleft, hafter⟩ := ih hrest
          exact ⟨by rw [hpoint, hleft], hafter⟩

theorem quote_inj {left right : List CodePoint} {after after' : List Char}
    (h : quote left ++ after = quote right ++ after') : left = right ∧ after = after' := by
  unfold quote at h
  rw [List.cons_append, List.cons_append, List.append_assoc, List.append_assoc] at h
  exact quoted_inj (List.tail_eq_of_cons_eq h)

/-! ## What follows a value -/

/-- Nothing, or a character that no number has. -/
def EndsValue (rest : List Char) : Prop :=
  ∀ first more, rest = first :: more → isNumberChar first = false

theorem endsValue_nil : EndsValue [] := fun _ _ h => nomatch h

theorem endsValue_cons {first : Char} {more : List Char} (h : isNumberChar first = false) :
    EndsValue (first :: more) := by
  intro first' more' heq
  rw [← List.head_eq_of_cons_eq heq]
  exact h

theorem numberText_inj {left right : JsonNumber} {after after' : List Char}
    (hafter : EndsValue after) (hafter' : EndsValue after')
    (h : numberText left ++ after = numberText right ++ after') :
    left = right ∧ after = after' := by
  have htake : ∀ (number : JsonNumber) (rest : List Char), EndsValue rest →
      (numberText number ++ rest).takeWhile isNumberChar = numberText number := by
    intro number rest hrest
    rw [List.takeWhile_append_of_pos fun _ hmem => isNumberChar_numberText hmem]
    cases rest with
    | nil => exact List.append_nil _
    | cons first more =>
        rw [List.takeWhile_cons_of_neg (by rw [hrest first more rfl]; exact Bool.false_ne_true)]
        exact List.append_nil _
  have htext : numberText left = numberText right := by
    rw [← htake left after hafter, h, htake right after' hafter']
  rw [htext] at h
  exact ⟨numberText_injective htext, List.append_cancel_left h⟩

/-! ## Lists between marks -/

/-- `texts.join(',')`. -/
def commaJoined : List (List Char) → List Char
  | [] => []
  | first :: rest => first ++ rest.flatMap (',' :: ·)

section CommaJoined

variable {α : Type*} {render : α → List Char} {R : α → α → Prop} {close : Char}
  {items items' : List α} {after after' : List Char}

theorem behindCommas_inj (hclose : isNumberChar close = false) (hcomma : close ≠ ',')
    (hread : ∀ item ∈ items, ∀ item' ∈ items', ∀ rest rest', EndsValue rest → EndsValue rest' →
      render item ++ rest = render item' ++ rest' → R item item' ∧ rest = rest')
    (h : (items.map render).flatMap (',' :: ·) ++ close :: after =
      (items'.map render).flatMap (',' :: ·) ++ close :: after') :
    List.Forall₂ R items items' ∧ after = after' := by
  -- Whatever stands behind an item begins with a comma or the closing mark.
  have hends : ∀ (list : List α) (rest : List Char),
      EndsValue ((list.map render).flatMap (',' :: ·) ++ close :: rest) := by
    intro list rest
    cases list with
    | nil => exact endsValue_cons hclose
    | cons item list => exact endsValue_cons rfl
  induction items generalizing items' with
  | nil =>
      cases items' with
      | nil => exact ⟨.nil, List.tail_eq_of_cons_eq h⟩
      | cons item' items' => exact absurd (List.head_eq_of_cons_eq h) hcomma
  | cons item items ih =>
      cases items' with
      | nil => exact absurd (List.head_eq_of_cons_eq h).symm hcomma
      | cons item' items' =>
          simp only [List.map_cons, List.flatMap_cons, List.cons_append, List.append_assoc] at h
          have htail := List.tail_eq_of_cons_eq h
          obtain ⟨hitem, hrest⟩ := hread item List.mem_cons_self item' List.mem_cons_self _ _
            (hends items after) (hends items' after') htail
          obtain ⟨hitems, hafter⟩ := ih (fun other hother other' hother' =>
            hread other (List.mem_cons_of_mem _ hother) other' (List.mem_cons_of_mem _ hother'))
            hrest
          exact ⟨.cons hitem hitems, hafter⟩

/-- A list of values is read back, if each value is. -/
theorem commaJoined_inj (hclose : isNumberChar close = false) (hcomma : close ≠ ',')
    (hhead : ∀ item, ∃ first rest, render item = first :: rest ∧ first ≠ close)
    (hread : ∀ item ∈ items, ∀ item' ∈ items', ∀ rest rest', EndsValue rest → EndsValue rest' →
      render item ++ rest = render item' ++ rest' → R item item' ∧ rest = rest')
    (h : commaJoined (items.map render) ++ close :: after =
      commaJoined (items'.map render) ++ close :: after') :
    List.Forall₂ R items items' ∧ after = after' := by
  cases items with
  | nil =>
      cases items' with
      | nil => exact ⟨.nil, List.tail_eq_of_cons_eq h⟩
      | cons item' items' =>
          obtain ⟨first, rest, htext, hne⟩ := hhead item'
          rw [List.map_cons, commaJoined, htext] at h
          exact absurd (List.head_eq_of_cons_eq h).symm hne
  | cons item items =>
      cases items' with
      | nil =>
          obtain ⟨first, rest, htext, hne⟩ := hhead item
          rw [List.map_cons, commaJoined, htext] at h
          exact absurd (List.head_eq_of_cons_eq h) hne
      | cons item' items' =>
          -- A comma in front of both makes the first items like the others.
          refine behindCommas_inj hclose hcomma hread ?_
          simp only [List.map_cons, commaJoined] at h
          simp only [List.map_cons, List.flatMap_cons, List.cons_append]
          rw [h]

end CommaJoined

end Kit
