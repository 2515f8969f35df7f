import DocTree.Proofs.Catalogs
import DocTree.Proofs.Numerals
import DocTree.Proofs.Steps
import DocTree.RecordSet
import Mathlib.Data.String.Basic

/-!
# What is read of a record set

A record that was read is more than a record of the right type: its line is a number that fits, and
its other fields are in order, each once, and none goes by the name of a field that the record has
of its own. Whoever writes the record out again relies on both. Each is a property of what a reader
gives (`Reader.Yields`), carried from the digits of a literal up to the set, and through the loop of
an object as an invariant of its step.

The property is about results only. A reader that fails has it, and nothing is said about how much
of the text it takes; so it composes without regard to positions, and for most readers the proof is
a walk through the branches that give something.

There are few branches where a number is made. A literal with a point or an exponent, or one that is
too long, gives no integer at all, and then there is nothing to show. What remains is the loop over
digits, which stops before the number would not fit.

Sets of records need no more than this. An identifier that is filled in leaves line and other fields
alone, and a record that takes the place of another is as good as that was.
-/

set_option autoImplicit false

namespace DocTree

namespace Json

/-! ## Readers

The one way in which a property is passed on is through `Reader.map`; a reader that is followed by
another is taken apart where it stands. -/

/-- Whatever the reader gives has the property. Nothing is said about where it stops or why it
fails. -/
def Reader.Yields {α : Type} (reader : Reader α) (P : α → Prop) : Prop :=
  ∀ text found rest, reader text = .ok (found, rest) → P found

theorem Reader.Yields.map {α β : Type} {reader : Reader α} {P : α → Prop} (h : reader.Yields P)
    {f : α → β} {Q : β → Prop} (step : ∀ a, P a → Q (f a)) : (reader.map f).Yields Q := by
  intro text found rest hread
  rw [Reader.map] at hread
  cases hinner : reader text with
  | error fault =>
    rw [hinner] at hread
    cases hread
  | ok taken =>
    rw [hinner] at hread
    cases hread
    exact step _ (h text taken.1 taken.2 hinner)

theorem Reader.yields_true {α : Type} (reader : Reader α) : reader.Yields fun _ => True :=
  fun _ _ _ _ => trivial

/-! ## Numbers

From the digits of a significand to the scalars that fields are read as. -/

def Number.Kept : Number → Prop
  | .integer n => FitsInteger n
  | .real _ _ => True

theorem gatherDigits_le {start : Nat} (h : start ≤ Number.greatestInteger) (text : List Char) :
    (gatherDigits start text).1 ≤ Number.greatestInteger := by
  induction text generalizing start with
  | nil => exact h
  | cons c rest ih =>
    rw [gatherDigits]
    dsimp only
    split
    case isTrue longer =>
      rw [Bool.and_eq_true, decide_eq_true_eq] at longer
      exact ih longer.2
    case isFalse => exact h

theorem kept_wholeNumber {significand : Nat} (h : significand ≤ Number.greatestInteger)
    (negative : Bool) : (wholeNumber negative significand).Kept := by
  have order : Number.leastInteger ≤ 0 := by decide
  rw [wholeNumber]
  split
  · exact ⟨Int.le_trans order (Int.natCast_nonneg _), Int.ofNat_le.2 h⟩
  · split
    · trivial
    case isFalse large =>
      constructor
      · rw [Number.leastInteger]
        omega
      · omega

theorem kept_scaledNumber {negative : Bool} {significand : Nat} {exponent : Int}
    {text rest : List Char} {n : Number}
    (h : scaledNumber negative significand exponent text = .ok (n, rest)) : n.Kept := by
  rw [scaledNumber] at h
  split at h
  · cases h
    trivial
  · cases h

theorem kept_readExponent {negative : Bool} {significand : Nat} {exponent : Int}
    {text rest : List Char} {n : Number}
    (h : readExponent negative significand exponent text = .ok (n, rest)) : n.Kept := by
  have digits : ∀ {down : Bool} {text : List Char},
      readExponentDigits negative significand exponent down text = .ok (n, rest) → n.Kept := by
    intro down text h
    unfold readExponentDigits at h
    split at h
    · cases h
    · split at h
      · cases h
      · split at h
        · exact kept_scaledNumber h
        · split at h
          · cases h
          · cases h
            trivial
  unfold readExponent at h
  split at h
  · exact digits h
  · exact digits h
  · exact digits h

theorem kept_readFraction {negative : Bool} {significand passed : Nat}
    {text rest : List Char} {n : Number}
    (h : readFraction negative significand passed text = .ok (n, rest)) : n.Kept := by
  unfold readFraction at h
  dsimp only at h
  split at h
  · cases h
  · split at h
    · cases h
    · unfold readScale at h
      split at h
      · exact kept_readExponent h
      · exact kept_readExponent h
      · exact kept_scaledNumber h

theorem kept_readAfterWhole {negative : Bool} {significand passed : Nat}
    (fits : significand ≤ Number.greatestInteger) {text rest : List Char} {n : Number}
    (h : readAfterWhole negative significand passed text = .ok (n, rest)) : n.Kept := by
  unfold readAfterWhole at h
  split at h
  · exact kept_readFraction h
  · exact kept_readExponent h
  · exact kept_readExponent h
  · split at h
    · cases h
      exact kept_wholeNumber fits negative
    · exact kept_scaledNumber h

/-- **Every integer that is read fits.** Digits are gathered only as long as the number stays within
the bound, and else a real is read. -/
theorem readNumber_yields (negative : Bool) :
    Reader.Yields (readNumber negative) Number.Kept := by
  have zero : 0 ≤ Number.greatestInteger := Nat.zero_le _
  intro text n rest h
  unfold readNumber at h
  split at h
  · cases h
  · split at h
    · exact kept_readAfterWhole zero h
    · split at h
      · cases h
      · exact kept_readAfterWhole zero h
  · split at h
    · cases h
    · dsimp only at h
      exact kept_readAfterWhole (gatherDigits_le zero _) h

def Lexeme.Kept : Lexeme → Prop
  | .number n => n.Kept
  | _ => True

theorem lexeme_yields : Reader.Yields lexeme Lexeme.Kept := by
  intro text found rest h
  unfold lexeme at h
  split at h
  · cases h
  repeat' split at h
  · exact (Reader.yields_true _).map (fun _ _ => trivial) _ _ _ h
  · exact (Reader.yields_true _).map (fun _ _ => trivial) _ _ _ h
  · exact (Reader.yields_true _).map (fun _ _ => trivial) _ _ _ h
  · exact (readNumber_yields true).map (f := Lexeme.number) (fun _ kept => kept) _ _ _ h
  · exact (readNumber_yields false).map (f := Lexeme.number) (fun _ kept => kept) _ _ _ h
  · exact (Reader.yields_true _).map (fun _ _ => trivial) _ _ _ h
  · cases h
    trivial
  · cases h
    trivial
  · cases h

theorem scalar_yields {α : Type} {expected : Expected} {accept : Lexeme → Option α}
    {P : α → Prop} (accepted : ∀ found value, found.Kept → accept found = some value → P value) :
    Reader.Yields (scalar expected accept) P := by
  intro text value rest h
  obtain ⟨⟨found, after⟩, hlexeme, h⟩ := bind_eq_ok_iff.1 h
  dsimp only at h
  split at h
  case h_1 haccept =>
    cases h
    exact accepted found value (lexeme_yields _ _ _ hlexeme) haccept
  case h_2 => cases h

/-! ## Objects

The loop over members, for any step. What is read so far has the property, and the object gives what
has been read at its end. -/

def MemberStep.Keeps {σ : Type} (step : MemberStep σ) (P : σ → Prop) : Prop :=
  ∀ state name, P state → Reader.Yields (step state name) P

section Objects

variable {σ : Type} {step : MemberStep σ} {P : σ → Prop} (keeps : step.Keeps P)
include keeps

theorem readMember_yields {state : σ} (h : P state) : Reader.Yields (readMember step state) P := by
  intro text found rest hread
  obtain ⟨⟨name, after⟩, -, hread⟩ := bind_eq_ok_iff.1 hread
  exact keeps state name h _ _ _ hread

theorem membersAfter_yields {rounds : Nat} {state : σ} (h : P state) :
    Reader.Yields (membersAfter step rounds state) P := by
  induction rounds generalizing state with
  | zero => exact nofun
  | succ rounds ih =>
    intro text found rest hread
    unfold membersAfter at hread
    split at hread
    · cases hread
    · cases hread
      exact h
    · split at hread
      · cases hread
      · obtain ⟨⟨next, after⟩, hmember, hread⟩ := bind_eq_ok_iff.1 hread
        exact ih (readMember_yields keeps h _ _ _ hmember) _ _ _ hread
      · cases hread
      · cases hread
    · cases hread

/-- **A property that every member keeps holds of the object.** The state from which members are
read has it to begin with. -/
theorem readObject_yields {expected : Expected} {state : σ} (h : P state) :
    Reader.Yields (readObject expected step state) P := by
  intro text found rest hread
  obtain ⟨⟨_, inside⟩, -, hread⟩ := bind_eq_ok_iff.1 hread
  replace hread : readMembers step state inside = .ok (found, rest) := hread
  unfold readMembers at hread
  split at hread
  · cases hread
  · cases hread
    exact h
  · obtain ⟨⟨next, after⟩, hmember, hread⟩ := bind_eq_ok_iff.1 hread
    exact membersAfter_yields keeps (readMember_yields keeps h _ _ _ hmember) _ _ _ hread
  · cases hread

end Objects

/-! ## Members in order

Other fields are kept in the order of their names. Inserting one keeps the order, and puts it in the
place of an earlier one of the same name. -/

def Members.Ascending (members : Members) : Prop := (members.map Prod.fst).Pairwise (· < ·)

theorem Members.mem_insert {name : String} {value : Value} {members : Members}
    {member : String × Value} (h : member ∈ members.insert name value) :
    member = (name, value) ∨ member ∈ members := by
  induction members with
  | nil => exact Or.inl (List.mem_singleton.1 h)
  | cons first members ih =>
    obtain ⟨other, kept⟩ := first
    rw [insert] at h
    split at h
    · exact (List.mem_cons.1 h).imp_right (List.mem_cons_of_mem _)
    · split at h
      · exact List.mem_cons.1 h
      · rcases List.mem_cons.1 h with rfl | h
        · exact Or.inr List.mem_cons_self
        · exact (ih h).imp_right (List.mem_cons_of_mem _)

theorem Members.Ascending.insert {members : Members} (h : members.Ascending) (name : String)
    (value : Value) : (members.insert name value).Ascending := by
  induction members with
  | nil => exact List.pairwise_singleton _ _
  | cons first members ih =>
    obtain ⟨other, kept⟩ := first
    obtain ⟨above, hrest⟩ := List.pairwise_cons.1 h
    rw [Members.insert]
    split
    case isTrue same => exact List.pairwise_cons.2 ⟨same ▸ above, hrest⟩
    case isFalse different =>
      split
      case isTrue before =>
        refine List.pairwise_cons.2 ⟨fun n hn => ?_, h⟩
        rcases List.mem_cons.1 hn with rfl | hn
        · exact before
        · exact before.trans (above n hn)
      case isFalse behind =>
        refine List.pairwise_cons.2 ⟨fun n hn => ?_, ih hrest⟩
        obtain ⟨member, hm, rfl⟩ := List.mem_map.1 hn
        rcases mem_insert hm with rfl | hm
        · exact lt_of_le_of_ne (not_lt.1 behind) (Ne.symm different)
        · exact above _ (List.mem_map_of_mem hm)

end Json

open DocTree.Json

/-! ## Records

Fields of the record itself change the line at most, and any other member is inserted among the
other fields. That its name is no field is what the step has looked up before. -/

theorem readLine_yields : Reader.Yields readLine fun n => n ≤ Number.greatestInteger := by
  intro text line rest h
  obtain ⟨⟨n, after⟩, hscalar, h⟩ := bind_eq_ok_iff.1 h
  have integer : FitsInteger n := by
    refine scalar_yields (fun found n kept haccept => ?_) _ _ _ hscalar
    split at haccept
    · cases haccept
      exact kept
    · cases haccept
  have fits := integer.2
  dsimp only at h
  split at h
  · cases h
  · cases h
    omega

/-- What the fields of a record are like that came out of a text. A record and the draft that it is
made from have these two in common, so both are sound in the same sense. -/
structure SoundFields (line : Nat) (extra : Members) : Prop where
  line_le : line ≤ Number.greatestInteger
  ascending : extra.Ascending
  foreign : ∀ member ∈ extra, Field.ofName? member.1 = none

def Draft.Sound (draft : Draft) : Prop := SoundFields (draft.line.getD 0) draft.extra

def RawRecord.Sound (raw : RawRecord) : Prop := SoundFields raw.line raw.extra

theorem Draft.readField_yields {draft : Draft} (h : draft.Sound) (field : Field) :
    Reader.Yields (draft.readField field) Draft.Sound := by
  have other : ∀ {α : Type} (reader : Reader α) (f : α → Draft),
      (∀ a, (f a).line = draft.line ∧ (f a).extra = draft.extra) →
        Reader.Yields (reader.map f) Draft.Sound := by
    intro α reader f same
    refine reader.yields_true.map fun a _ => ?_
    rw [Draft.Sound, (same a).1, (same a).2]
    exact h
  cases field with
  | line =>
    refine readLine_yields.map (f := fun line => { draft with line := some line })
      (Q := Sound) fun line hline => ?_
    exact ⟨hline, h.ascending, h.foreign⟩
  | _ =>
    unfold readField
    exact other _ _ fun _ => ⟨rfl, rfl⟩

theorem Draft.keeps_step : MemberStep.Keeps Draft.step Draft.Sound := by
  intro draft name h text found rest hread
  rw [Draft.step] at hread
  split at hread
  case h_1 field hfield =>
    split at hread
    · cases hread
    · obtain ⟨⟨_, after⟩, -, hread⟩ := bind_eq_ok_iff.1 hread
      exact readField_yields h field _ _ _ hread
  case h_2 hforeign =>
    obtain ⟨⟨_, after⟩, -, hread⟩ := bind_eq_ok_iff.1 hread
    obtain ⟨⟨value, behind⟩, -, hread⟩ := bind_eq_ok_iff.1 hread
    cases hread
    refine ⟨h.line_le, h.ascending.insert name _, fun member hm => ?_⟩
    rcases Members.mem_insert hm with rfl | hm
    · exact hforeign
    · exact h.foreign member hm

theorem RawRecord.reader_yields : Reader.Yields RawRecord.reader RawRecord.Sound := by
  have empty : Draft.Sound Draft.empty := ⟨Nat.zero_le _, .nil, nofun⟩
  intro text raw rest hread
  obtain ⟨⟨draft, after⟩, hdraft, hread⟩ := bind_eq_ok_iff.1 hread
  have sound := readObject_yields Draft.keeps_step empty _ _ _ hdraft
  dsimp only at hread
  split at hread
  case h_1 hfinish =>
    cases hread
    obtain ⟨kind, -, rfl⟩ := Option.map_eq_some_iff.1 hfinish
    exact sound
  case h_2 => cases hread

/-! ## Sets

The invariant of the outer loop is that every record so far is sound. -/

/-- **Every record of a set that was read is sound.** The default identifier changes none of the
fields that this is about. -/
theorem RecordSet.sound_of_read {text : String} {records : RecordSet}
    (h : RecordSet.read text = .ok records) : ∀ raw ∈ records.values, raw.Sound := by
  have keeps : MemberStep.Keeps RecordSet.step
      fun records => ∀ key raw, records.get? key = some raw → raw.Sound := by
    intro records key sound text found rest hread
    obtain ⟨⟨_, after⟩, -, hread⟩ := bind_eq_ok_iff.1 hread
    obtain ⟨⟨raw, behind⟩, hraw, hread⟩ := bind_eq_ok_iff.1 hread
    cases hread
    intro other kept hkept
    rw [Catalog.get?_insert] at hkept
    split at hkept
    · cases hkept
      have hsound := RawRecord.reader_yields _ _ _ hraw
      rw [withDefaultId]
      split
      · exact hsound
      · exact hsound
    · exact sound other kept hkept
  obtain ⟨⟨found, rest⟩, hread, h⟩ := bind_eq_ok_iff.1 h
  have sound := readObject_yields keeps (fun key raw hempty => by simp at hempty) _ _ _ hread
  dsimp only at h
  split at h
  · cases h
    intro raw hraw
    obtain ⟨entry, hentry, rfl⟩ := List.mem_map.1 hraw
    exact sound entry.1 entry.2 (Catalog.get?_of_mem hentry)
  · cases h

end DocTree
