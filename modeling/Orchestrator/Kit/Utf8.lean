import Mathlib.Data.List.Infix
import Mathlib.Tactic.SplitIfs

/-! # UTF-8 with replacement

A decoder that never fails: what is not the encoding of a character becomes the replacement
character, once for each longest beginning of a character and once for each byte that begins
none. A character that was begun when the bytes end is replaced too, so a text that is decoded
in pieces is the text decoded as a whole only where no piece ends inside a character.
-/

namespace Kit

/-- U+FFFD. -/
def replacement : Char := '\ufffd'

/-- A character that was begun: the bits so far, the bytes that are missing, and the bounds of
the next of them. -/
structure Utf8State where
  code : Nat
  missing : Nat
  low : Nat := 0x80
  high : Nat := 0xBF
  deriving DecidableEq, Repr

/-- A byte that follows no begun character. -/
def firstByte (byte : Nat) : List Char × Option Utf8State :=
  if byte < 0x80 then ([Char.ofNat byte], none)
  else if 0xC2 ≤ byte ∧ byte < 0xE0 then
    ([], some { code := byte % 0x20, missing := 1 })
  else if 0xE0 ≤ byte ∧ byte < 0xF0 then
    ([], some { code := byte % 0x10, missing := 2
                low := if byte = 0xE0 then 0xA0 else 0x80
                high := if byte = 0xED then 0x9F else 0xBF })
  else if 0xF0 ≤ byte ∧ byte < 0xF5 then
    ([], some { code := byte % 8, missing := 3
                low := if byte = 0xF0 then 0x90 else 0x80
                high := if byte = 0xF4 then 0x8F else 0xBF })
  else ([replacement], none)

def nextByte (state : Utf8State) (byte : Nat) : List Char × Option Utf8State :=
  if state.low ≤ byte ∧ byte ≤ state.high then
    let code := state.code * 64 + byte % 64
    if state.missing = 1 then ([Char.ofNat code], none)
    else ([], some { code, missing := state.missing - 1 })
  else
    -- The byte may begin a character itself.
    (replacement :: (firstByte byte).1, (firstByte byte).2)

def decodeFrom : Option Utf8State → List UInt8 → List Char
  | none, [] => []
  | some _, [] => [replacement]
  | none, byte :: bytes =>
      (firstByte byte.toNat).1 ++ decodeFrom (firstByte byte.toNat).2 bytes
  | some state, byte :: bytes =>
      (nextByte state byte.toNat).1 ++ decodeFrom (nextByte state byte.toNat).2 bytes

def decode (bytes : List UInt8) : List Char := decodeFrom none bytes

def encode (text : List Char) : List UInt8 := text.flatMap String.utf8EncodeChar

@[simp] theorem decode_nil : decode [] = [] := rfl

@[simp] theorem encode_nil : encode [] = [] := rfl

@[simp] theorem encode_cons (character : Char) (text : List Char) :
    encode (character :: text) = String.utf8EncodeChar character ++ encode text := rfl

theorem encode_append (left right : List Char) :
    encode (left ++ right) = encode left ++ encode right := List.flatMap_append

/-! ## Bytes of a character -/

theorem firstByte_one {byte : Nat} (h : byte < 0x80) :
    firstByte byte = ([Char.ofNat byte], none) := if_pos h

theorem firstByte_two {byte : Nat} (hlow : 0xC2 ≤ byte) (hhigh : byte < 0xE0) :
    firstByte byte = ([], some { code := byte % 0x20, missing := 1 }) := by
  unfold firstByte
  rw [if_neg (by omega), if_pos ⟨hlow, hhigh⟩]

theorem firstByte_three {byte : Nat} (hlow : 0xE0 ≤ byte) (hhigh : byte < 0xF0) :
    firstByte byte = ([], some { code := byte % 0x10, missing := 2
                                 low := if byte = 0xE0 then 0xA0 else 0x80
                                 high := if byte = 0xED then 0x9F else 0xBF }) := by
  unfold firstByte
  rw [if_neg (by omega), if_neg (by omega), if_pos ⟨hlow, hhigh⟩]

theorem firstByte_four {byte : Nat} (hlow : 0xF0 ≤ byte) (hhigh : byte < 0xF5) :
    firstByte byte = ([], some { code := byte % 8, missing := 3
                                 low := if byte = 0xF0 then 0x90 else 0x80
                                 high := if byte = 0xF4 then 0x8F else 0xBF }) := by
  unfold firstByte
  rw [if_neg (by omega), if_neg (by omega), if_neg (by omega), if_pos ⟨hlow, hhigh⟩]

/-- A byte that continues a character begins none. -/
theorem firstByte_tail {byte : Nat} (hlow : 0x80 ≤ byte) (hhigh : byte < 0xC0) :
    firstByte byte = ([replacement], none) := by
  unfold firstByte
  rw [if_neg (by omega), if_neg (by omega), if_neg (by omega), if_neg (by omega)]

theorem nextByte_last {state : Utf8State} {byte : Nat} (hlow : state.low ≤ byte)
    (hhigh : byte ≤ state.high) (h : state.missing = 1) :
    nextByte state byte = ([Char.ofNat (state.code * 64 + byte % 64)], none) := by
  unfold nextByte
  rw [if_pos ⟨hlow, hhigh⟩]
  exact if_pos h

theorem nextByte_more {state : Utf8State} {byte : Nat} (hlow : state.low ≤ byte)
    (hhigh : byte ≤ state.high) (h : state.missing ≠ 1) :
    nextByte state byte =
      ([], some { code := state.code * 64 + byte % 64, missing := state.missing - 1 }) := by
  unfold nextByte
  rw [if_pos ⟨hlow, hhigh⟩]
  exact if_neg h

/-! ## The round trip -/

/-- A number below 256 is the byte it makes. -/
theorem toNat_ofNat_byte {number : Nat} (h : number < 256) :
    (UInt8.ofNat number).toNat = number := by
  rw [UInt8.toNat_ofNat']
  exact Nat.mod_eq_of_lt h

/-- A byte that begins something, with what it leads to. -/
theorem decodeFrom_first {byte : Nat} (hbyte : byte < 256) {text : List Char}
    {state : Option Utf8State} (h : firstByte byte = (text, state)) (bytes : List UInt8) :
    decodeFrom none (UInt8.ofNat byte :: bytes) = text ++ decodeFrom state bytes := by
  rw [decodeFrom, toNat_ofNat_byte hbyte, h]

theorem decodeFrom_next {state : Utf8State} {byte : Nat} (hbyte : byte < 256) {text : List Char}
    {state' : Option Utf8State} (h : nextByte state byte = (text, state')) (bytes : List UInt8) :
    decodeFrom (some state) (UInt8.ofNat byte :: bytes) = text ++ decodeFrom state' bytes := by
  rw [decodeFrom, toNat_ofNat_byte hbyte, h]

theorem char_bounds (character : Char) :
    character.val.toNat < 0xD800 ∨ 0xDFFF < character.val.toNat ∧ character.val.toNat < 0x110000 :=
  character.valid

theorem ofNat_val (character : Char) : Char.ofNat character.val.toNat = character :=
  Char.ofNat_toNat character

/-- The bytes of a character are decoded to it, whatever follows. -/
theorem decode_encodeChar (character : Char) (bytes : List UInt8) :
    decode (String.utf8EncodeChar character ++ bytes) = character :: decode bytes := by
  have hbounds := char_bounds character
  have hchar := ofNat_val character
  unfold String.utf8EncodeChar decode
  generalize character.val.toNat = code at hbounds hchar
  dsimp only
  split_ifs with h₁ h₂ h₃
  · rw [List.singleton_append, decodeFrom_first (by omega) (firstByte_one (by omega)), hchar]
    rfl
  · have hcode : (code / 64 % 32 + 192) % 32 * 64 + (code % 64 + 128) % 64 = code := by omega
    simp only [List.cons_append, List.nil_append]
    rw [decodeFrom_first (by omega) (firstByte_two (by omega) (by omega)), List.nil_append,
      decodeFrom_next (by omega) (nextByte_last (by dsimp only; omega) (by dsimp only; omega) rfl)]
    dsimp only
    rw [hcode, hchar]
    rfl
  · have hcode : ((code / 4096 % 16 + 224) % 16 * 64 + (code / 64 % 64 + 128) % 64) * 64 +
        (code % 64 + 128) % 64 = code := by omega
    simp only [List.cons_append, List.nil_append]
    -- The second byte is bounded below after 0xE0, and above after 0xED.
    have hlow : (if code / 4096 % 16 + 224 = 0xE0 then 0xA0 else 0x80) ≤
        code / 64 % 64 + 128 := by
      split_ifs
      · omega
      · omega
    have hhigh : code / 64 % 64 + 128 ≤
        (if code / 4096 % 16 + 224 = 0xED then 0x9F else 0xBF) := by
      split_ifs
      · omega
      · omega
    rw [decodeFrom_first (by omega) (firstByte_three (by omega) (by omega)), List.nil_append,
      decodeFrom_next (by omega) (nextByte_more hlow hhigh (by dsimp only; omega)), List.nil_append,
      decodeFrom_next (by omega) (nextByte_last (by dsimp only; omega) (by dsimp only; omega) rfl)]
    dsimp only
    rw [hcode, hchar]
    rfl
  · have hcode : (((code / 262144 % 8 + 240) % 8 * 64 + (code / 4096 % 64 + 128) % 64) * 64 +
        (code / 64 % 64 + 128) % 64) * 64 + (code % 64 + 128) % 64 = code := by omega
    simp only [List.cons_append, List.nil_append]
    -- The second byte is bounded below after 0xF0, and above after 0xF4.
    have hlow : (if code / 262144 % 8 + 240 = 0xF0 then 0x90 else 0x80) ≤
        code / 4096 % 64 + 128 := by
      split_ifs
      · omega
      · omega
    have hhigh : code / 4096 % 64 + 128 ≤
        (if code / 262144 % 8 + 240 = 0xF4 then 0x8F else 0xBF) := by
      split_ifs
      · omega
      · omega
    rw [decodeFrom_first (by omega) (firstByte_four (by omega) (by omega)), List.nil_append,
      decodeFrom_next (by omega) (nextByte_more hlow hhigh (by dsimp only; omega)), List.nil_append,
      decodeFrom_next (by omega) (nextByte_more (by dsimp only; omega) (by dsimp only; omega)
        (by dsimp only; omega)), List.nil_append,
      decodeFrom_next (by omega) (nextByte_last (by dsimp only; omega) (by dsimp only; omega) rfl)]
    dsimp only
    rw [hcode, hchar]
    rfl

theorem decode_encode_append (text : List Char) (bytes : List UInt8) :
    decode (encode text ++ bytes) = text ++ decode bytes := by
  induction text with
  | nil => rfl
  | cons character text ih =>
      rw [encode_cons, List.append_assoc, decode_encodeChar, ih, List.cons_append]

@[simp] theorem decode_encode (text : List Char) : decode (encode text) = text := by
  have happend := decode_encode_append text []
  rwa [List.append_nil, decode_nil, List.append_nil] at happend

/-! ## Pieces -/

def IsAscii (text : List Char) : Prop := ∀ character ∈ text, character.toNat < 0x80

theorem isAscii_iff (text : List Char) :
    (text.all fun character => decide (character.toNat < 0x80)) = true ↔ IsAscii text := by
  unfold IsAscii
  rw [List.all_eq_true]
  simp only [decide_eq_true_eq]

instance (text : List Char) : Decidable (IsAscii text) := decidable_of_iff _ (isAscii_iff text)

theorem encodeChar_ascii {character : Char} (h : character.toNat < 0x80) :
    String.utf8EncodeChar character = [UInt8.ofNat character.toNat] := by
  have hsmall : character.val.toNat ≤ 0x7f := Nat.le_of_lt_succ h
  unfold String.utf8EncodeChar
  exact if_pos hsmall

/-- The encoding of an ASCII text has one byte for each character, so each piece of it is the
encoding of a piece of the text. -/
theorem ascii_pieces {text : List Char} (h : IsAscii text) {left right : List UInt8}
    (heq : encode text = left ++ right) :
    ∃ front back, text = front ++ back ∧ encode front = left ∧ encode back = right := by
  induction text generalizing left with
  | nil =>
      obtain ⟨hleft, hright⟩ := List.append_eq_nil_iff.mp heq.symm
      exact ⟨[], [], rfl, hleft.symm, hright.symm⟩
  | cons character text ih =>
      have hbyte := encodeChar_ascii (h character List.mem_cons_self)
      rw [encode_cons, hbyte, List.singleton_append] at heq
      cases left with
      | nil =>
          refine ⟨[], character :: text, rfl, rfl, ?_⟩
          rw [encode_cons, hbyte, List.singleton_append, heq, List.nil_append]
      | cons byte left =>
          obtain ⟨hhead, htail⟩ := List.cons.inj heq
          obtain ⟨front, back, htext, hfront, hback⟩ :=
            ih (fun other hmem => h other (List.mem_cons_of_mem _ hmem)) htail
          refine ⟨character :: front, back, by rw [htext, List.cons_append], ?_, hback⟩
          rw [encode_cons, hbyte, List.singleton_append, hfront, hhead]

/-- An ASCII text that is decoded in pieces is the text. -/
theorem decode_pieces {text : List Char} (h : IsAscii text) {pieces : List (List UInt8)}
    (heq : pieces.flatten = encode text) : pieces.flatMap decode = text := by
  induction pieces generalizing text with
  | nil =>
      have hdecoded := congrArg decode heq
      rw [decode_encode] at hdecoded
      exact hdecoded
  | cons piece pieces ih =>
      obtain ⟨front, back, htext, hfront, hback⟩ := ascii_pieces h heq.symm
      have hrest : IsAscii back := by
        intro character hmem
        refine h character ?_
        rw [htext]
        exact List.mem_append_right front hmem
      rw [List.flatMap_cons, ih hrest hback.symm, ← hfront, decode_encode, htext]

/-- A character of more than one byte is its first byte and bytes that continue it. -/
theorem encodeChar_wide {character : Char} (h : 0x80 ≤ character.toNat) :
    ∃ (byte : UInt8) (bytes : List UInt8), String.utf8EncodeChar character = byte :: bytes ∧
      bytes ≠ [] ∧ decode [byte] = [replacement] ∧
      ∀ rest, decode (bytes ++ rest) = bytes.map (fun _ => replacement) ++ decode rest := by
  have hbounds := char_bounds character
  have hwide : 0x80 ≤ character.val.toNat := h
  unfold String.utf8EncodeChar
  generalize character.val.toNat = code at hbounds hwide
  dsimp only
  have htail : ∀ (number : Nat) (rest : List UInt8),
      decode (UInt8.ofNat (number % 64 + 128) :: rest) = replacement :: decode rest := by
    intro number rest
    exact decodeFrom_first (by omega) (firstByte_tail (by omega) (by omega)) rest
  split_ifs with h₁ h₂ h₃
  · omega
  · refine ⟨_, _, rfl, List.cons_ne_nil _ _, ?_, ?_⟩
    · exact decodeFrom_first (by omega) (firstByte_two (by omega) (by omega)) []
    · intro rest
      simp only [List.cons_append, List.nil_append, List.map_cons, List.map_nil, htail]
  · refine ⟨_, _, rfl, List.cons_ne_nil _ _, ?_, ?_⟩
    · exact decodeFrom_first (by omega) (firstByte_three (by omega) (by omega)) []
    · intro rest
      simp only [List.cons_append, List.nil_append, List.map_cons, List.map_nil, htail]
  · refine ⟨_, _, rfl, List.cons_ne_nil _ _, ?_, ?_⟩
    · exact decodeFrom_first (by omega) (firstByte_four (by omega) (by omega)) []
    · intro rest
      simp only [List.cons_append, List.nil_append, List.map_cons, List.map_nil, htail]

end Kit
