import DocTree.Proofs.Cuts
import Mathlib.Data.List.Basic

/-!
# Offsets in bytes

A search for a character of one byte may read the bytes of a text and know nothing of its
characters: a longer character has no byte below 0x80, so where the byte is found the character
stands. What such a search gives is the number of bytes before a cut, and the text falls apart there
and behind the mark without a character being cut in two.

The model cuts texts at characters throughout, and an offset in bytes is only ever computed from a
cut. Whoever slices a string at such an offset relies on more: that the offset is the one a search
over the bytes finds, and that it and the next one are boundaries of characters. Both are stated
here against bytes and positions as the library has them (`String.toUTF8`,
`String.Pos.Raw.IsValid`), and not against the model's own `byteLength`, which enters only as the
bridge.
-/

set_option autoImplicit false

namespace DocTree.Text

/-! ## The bytes of a text

The bytes are taken character by character, which is the form that follows the recursion of a cut.
The equation with the library's `toUTF8` is needed once and ends every use of it. -/

def bytes (text : List Char) : List UInt8 := text.flatMap String.utf8EncodeChar

theorem toList_toUTF8 (text : String) : text.toUTF8.data.toList = bytes text.toList := by
  rw [String.toUTF8_eq_toByteArray, ← String.utf8Encode_toList, List.utf8Encode, bytes,
    List.toList_data_toByteArray]

theorem bytes_cons (c : Char) (rest : List Char) :
    bytes (c :: rest) = String.utf8EncodeChar c ++ bytes rest := List.flatMap_cons

theorem utf8ByteSize_ofList (text : List Char) :
    (String.ofList text).utf8ByteSize = byteLength text := by
  induction text with
  | nil => rfl
  | cons c rest ih => simp [String.ofList_cons, byteLength, ih]

/-! ## Characters of one byte

The argument about encodings is in this section alone. A character of one byte is below 0x80; every
byte of a longer one has the highest bit set, the first byte as well as those that continue it. -/

theorem toNat_le_of_narrow {c : Char} (narrow : c.utf8Size = 1) : c.toNat ≤ 0x7F :=
  UInt32.le_iff_toNat_le.1 (Char.utf8Size_eq_one_iff.1 narrow)

theorem toNat_toUInt8_of_narrow {c : Char} (narrow : c.utf8Size = 1) :
    c.toUInt8.toNat = c.toNat := by
  have small := toNat_le_of_narrow narrow
  have reduced : c.toUInt8.toNat = c.toNat % 256 := UInt32.toNat_toUInt8 c.val
  rw [reduced, Nat.mod_eq_of_lt (by omega)]

/-- **A longer character has no byte below 0x80**, neither the first one, which says how long it is,
nor any of those that continue it. -/
theorem le_of_mem_utf8EncodeChar {c : Char} (wide : c.utf8Size ≠ 1) {b : UInt8}
    (h : b ∈ String.utf8EncodeChar c) : 0x80 ≤ b.toNat := by
  -- each of its bytes has the highest bit put in
  have high : ∀ x y : UInt8, 0x80 ≤ y.toNat → 0x80 ≤ (x ||| y).toNat := by
    intro x y hy
    rw [UInt8.toNat_or]
    exact Nat.le_trans hy Nat.right_le_or
  have width := Char.utf8Size_le_four c
  have positive := Char.utf8Size_pos c
  obtain two | three | four : c.utf8Size = 2 ∨ c.utf8Size = 3 ∨ c.utf8Size = 4 := by omega
  · rw [String.utf8EncodeChar_eq_cons_cons two] at h
    simp only [List.mem_cons, List.not_mem_nil, or_false] at h
    rcases h with rfl | rfl <;> exact high _ _ (by decide)
  · rw [String.utf8EncodeChar_eq_cons_cons_cons three] at h
    simp only [List.mem_cons, List.not_mem_nil, or_false] at h
    rcases h with rfl | rfl | rfl <;> exact high _ _ (by decide)
  · rw [String.utf8EncodeChar_eq_cons_cons_cons_cons four] at h
    simp only [List.mem_cons, List.not_mem_nil, or_false] at h
    rcases h with rfl | rfl | rfl | rfl <;> exact high _ _ (by decide)

/-- So the byte of a mark stands in no character but the mark, and a search for the byte cannot stop
inside of another character. -/
theorem toUInt8_mem_utf8EncodeChar_iff {mark c : Char} (narrow : mark.utf8Size = 1) :
    mark.toUInt8 ∈ String.utf8EncodeChar c ↔ c = mark := by
  have byte := toNat_toUInt8_of_narrow narrow
  constructor
  · intro h
    by_cases short : c.utf8Size = 1
    · rw [String.utf8EncodeChar_eq_singleton short, List.mem_singleton] at h
      have same := congrArg UInt8.toNat h
      rw [byte] at same
      exact Char.toNat_inj.1 ((toNat_toUInt8_of_narrow short).symm.trans same.symm)
    · have large := le_of_mem_utf8EncodeChar short h
      have small := toNat_le_of_narrow narrow
      omega
  · rintro rfl
    rw [String.utf8EncodeChar_eq_singleton narrow]
    exact List.mem_singleton_self _

/-! ## Searches in bytes

The first place of a byte is the library's `idxOf?`. There is no counterpart for the last place, so
it is defined by recursion, in the same form as `lastCut`. -/

def firstOffset (mark : Char) (text : String) : Option Nat :=
  text.toUTF8.data.toList.idxOf? mark.toUInt8

def lastPlace (byte : UInt8) : List UInt8 → Option Nat
  | [] => none
  | b :: rest => ((lastPlace byte rest).map (· + 1)).or (if b = byte then some 0 else none)

def lastOffset (mark : Char) (text : String) : Option Nat :=
  lastPlace mark.toUInt8 text.toUTF8.data.toList

theorem firstPlace_append (byte : UInt8) (a l : List UInt8) :
    (a ++ l).idxOf? byte = (a.idxOf? byte).or ((l.idxOf? byte).map (· + a.length)) :=
  List.findIdx?_append

theorem lastPlace_of_not_mem {byte : UInt8} {l : List UInt8} (h : byte ∉ l) :
    lastPlace byte l = none := by
  induction l with
  | nil => rfl
  | cons b rest ih =>
    obtain ⟨other, hrest⟩ := List.ne_and_not_mem_of_not_mem_cons h
    rw [lastPlace, ih hrest, if_neg other.symm]
    rfl

theorem lastPlace_append (byte : UInt8) (a l : List UInt8) :
    lastPlace byte (a ++ l) = ((lastPlace byte l).map (· + a.length)).or (lastPlace byte a) := by
  induction a with
  | nil => simp [lastPlace]
  | cons b rest ih =>
    rw [List.cons_append, lastPlace, lastPlace, ih]
    cases lastPlace byte l with
    | some n => simp [Nat.add_assoc]
    | none => simp

/-! ## Cuts

One induction for each direction, on the characters: a character that is not the mark adds its size
to the offset on both sides of the equation. -/

def Cut.offset (cut : Cut) : Nat := byteLength cut.before

theorem Cut.offset_cons (c : Char) (cut : Cut) :
    (cut.cons c).offset = cut.offset + c.utf8Size := Nat.add_comm _ _

theorem map_offset_cons (c : Char) (cut : Option Cut) :
    (cut.map (Cut.cons c)).map Cut.offset = (cut.map Cut.offset).map (· + c.utf8Size) := by
  cases cut with
  | none => rfl
  | some cut => exact congrArg some (Cut.offset_cons c cut)

theorem idxOf?_bytes {mark : Char} (narrow : mark.utf8Size = 1) (text : List Char) :
    (bytes text).idxOf? mark.toUInt8 = (firstCut (· == mark) text).map Cut.offset := by
  induction text with
  | nil => rfl
  | cons c rest ih =>
    rw [bytes_cons, firstPlace_append, firstCut]
    by_cases hc : c = mark
    · subst hc
      rw [String.utf8EncodeChar_eq_singleton narrow, if_pos (beq_self_eq_true c)]
      simp [List.idxOf?, Cut.offset, byteLength]
    · have absent : mark.toUInt8 ∉ String.utf8EncodeChar c :=
        fun h => hc ((toUInt8_mem_utf8EncodeChar_iff narrow).1 h)
      rw [List.idxOf?_eq_none_iff.2 absent, if_neg (by simpa using hc), ih, map_offset_cons,
        String.length_utf8EncodeChar]
      rfl

theorem map_offset_lastCut_cons (p : Char → Bool) (c : Char) (rest : List Char) :
    (lastCut p (c :: rest)).map Cut.offset
      = (((lastCut p rest).map Cut.offset).map (· + c.utf8Size)).or
          (if p c then some 0 else none) := by
  rw [lastCut]
  cases lastCut p rest with
  | some cut => exact congrArg some (Cut.offset_cons c cut)
  | none =>
    cases p c with
    | true => rfl
    | false => rfl

theorem lastPlace_bytes {mark : Char} (narrow : mark.utf8Size = 1) (text : List Char) :
    lastPlace mark.toUInt8 (bytes text) = (lastCut (· == mark) text).map Cut.offset := by
  induction text with
  | nil => rfl
  | cons c rest ih =>
    rw [bytes_cons, lastPlace_append, String.length_utf8EncodeChar, ih, map_offset_lastCut_cons]
    congr 1
    by_cases hc : c = mark
    · subst hc
      rw [String.utf8EncodeChar_eq_singleton narrow]
      simp [lastPlace]
    · have absent : mark.toUInt8 ∉ String.utf8EncodeChar c :=
        fun h => hc ((toUInt8_mem_utf8EncodeChar_iff narrow).1 h)
      rw [lastPlace_of_not_mem absent, if_neg (by simpa using hc)]

/-- **The first byte of a mark is where the text is cut at the first mark.** One byte is enough for
the mark, which `narrow` says, and all others may be as long as they like. -/
theorem firstOffset_eq {mark : Char} (narrow : mark.utf8Size = 1) (text : String) :
    firstOffset mark text = (firstCut (· == mark) text.toList).map Cut.offset := by
  rw [firstOffset, toList_toUTF8, idxOf?_bytes narrow]

/-- The last byte of a mark is where the text is cut at the last mark. -/
theorem lastOffset_eq {mark : Char} (narrow : mark.utf8Size = 1) (text : String) :
    lastOffset mark text = (lastCut (· == mark) text.toList).map Cut.offset := by
  rw [lastOffset, toList_toUTF8, lastPlace_bytes narrow]

/-- Of the last cuts at two kinds of marks the later one is the last cut at either. Offsets of no
cut count as less than all others. -/
theorem map_offset_lastCut_or (p q : Char → Bool) (text : List Char) :
    (lastCut (fun c => p c || q c) text).map Cut.offset
      = max ((lastCut p text).map Cut.offset) ((lastCut q text).map Cut.offset) := by
  induction text with
  | nil => rfl
  | cons c rest ih =>
    rw [map_offset_lastCut_cons, map_offset_lastCut_cons, map_offset_lastCut_cons, ih]
    cases (lastCut p rest).map Cut.offset <;> cases (lastCut q rest).map Cut.offset <;>
      cases p c <;> cases q c <;> simp

/-! ## The parts at an offset

All that a slice at a separator relies on, in one structure. -/

/-- A text that falls apart at an offset: into what is before it, a mark of one byte, and what is
behind the mark. -/
structure FallsApart (text : String) (offset : Nat) (before : String) (mark : Char)
    (after : String) : Prop where
  whole : text = before ++ String.singleton mark ++ after
  size : before.utf8ByteSize = offset
  /-- No character is cut in two before the mark, ... -/
  start : String.Pos.Raw.IsValid text ⟨offset⟩
  /-- ... nor one byte later. -/
  stop : String.Pos.Raw.IsValid text ⟨offset + 1⟩
  /-- So there are the slices up to the one and from the other, and they are the two parts. -/
  upTo : takeBytes offset text.toList = some before.toList
  behind : dropBytes (offset + 1) text.toList = some after.toList

theorem isValid_of_append {text a b : String} (h : text = a ++ b) {offset : Nat}
    (size : a.utf8ByteSize = offset) : String.Pos.Raw.IsValid text ⟨offset⟩ := by
  rw [String.Pos.Raw.isValid_iff_exists_append]
  exact ⟨a, b, h, String.Pos.Raw.ext size.symm⟩

theorem fallsApart {text : String} (cut : Cut) (h : cut.whole = text.toList)
    (narrow : cut.mark.utf8Size = 1) :
    FallsApart text cut.offset (String.ofList cut.before) cut.mark (String.ofList cut.after) := by
  have whole : text = String.ofList cut.before ++ String.singleton cut.mark
      ++ String.ofList cut.after := by
    rw [← String.toList_inj, ← h]
    simp [Cut.whole]
  have size : (String.ofList cut.before).utf8ByteSize = cut.offset := utf8ByteSize_ofList cut.before
  have marked : byteLength (cut.before ++ [cut.mark]) = cut.offset + 1 := by
    rw [← utf8ByteSize_ofList, String.ofList_append, String.utf8ByteSize_append, size]
    simp [narrow]
  constructor
  case whole => exact whole
  case size => exact size
  case start => exact isValid_of_append (whole.trans String.append_assoc) size
  case stop =>
    refine isValid_of_append whole ?_
    rw [String.utf8ByteSize_append, size, String.utf8ByteSize_singleton, narrow]
  case upTo =>
    rw [← h, Cut.whole, Cut.offset, takeBytes_byteLength, String.toList_ofList]
  case behind =>
    rw [← h, ← marked, Cut.whole, List.append_cons cut.before cut.mark cut.after,
      dropBytes_byteLength, String.toList_ofList]

end DocTree.Text
