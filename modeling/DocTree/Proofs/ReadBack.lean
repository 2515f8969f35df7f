import DocTree.Json.Reader
import DocTree.Json.Writer
import DocTree.Proofs.Numerals

/-!
# What is written is read back

A value is written in a layout and read by a reader that knows of no layout. Both go the same way
through the value, so the proof does too: what is read of a text that goes on is the value and the
rest, provided that the rest does not begin as a number would go on. In a container the rest begins
with a comma, a line break or a bracket, so the proviso holds at every item but for the outermost
value.

Two things bound the reader, the levels that it goes down and the rounds of its loops. The rounds
are always enough; the levels are left to grow, since a value may be nested to any depth.

The levels stand for a limit that the reader has against deep nesting. What is written may be nested
deeper than that, and then another reader is needed to read it; so a text means a value if every
reader that goes down far enough reads it (`Value.ReadsFrom`). For a reader with the limit nothing
is promised, and for shallow values it can be had from the same lemmas.

Only integers that fit are covered among numbers (`Value.Integral`). The condition is an inductive
predicate for the proofs and a function for deciding it, and the two are shown to be the same, so
that it can be checked on a value that was read.

Blanks come in with the layout alone. They are written after commas, colons and opening brackets and
before closing ones, and the reader skips them at just these places.
-/

set_option autoImplicit false

namespace DocTree.Json

open DocTree.Text

/-! ## Strings

A string is read character by character, and an escape is understood at its first letters and passed
over. Control characters are written by their codes, for which there is a bounded number of cases;
no character needs two codes, as all others are written as they are. -/

theorem length_le_byteLength (text : List Char) : text.length ≤ byteLength text := by
  induction text with
  | nil => exact Nat.le_refl _
  | cons c rest ih =>
    have hc : 0 < c.utf8Size := Char.utf8Size_pos c
    rw [List.length_cons, byteLength]
    omega

theorem exists_escapeControl {c : Char} (h : c.toNat < 0x20) :
    ∃ digits, escapeControl c = '\\' :: 'u' :: digits ∧ digits.length = 4 ∧
      hexValue? 0 digits = some c.toNat := by
  -- the controls are few enough to look at each
  have all : ∀ n < 0x20, (escapeControl (Char.ofNat n)).take 2 = ['\\', 'u'] ∧
      ((escapeControl (Char.ofNat n)).drop 2).length = 4 ∧
      hexValue? 0 ((escapeControl (Char.ofNat n)).drop 2) = some n := by
    decide +kernel
  obtain ⟨hfront, hlength, hvalue⟩ := all c.toNat h
  rw [Char.ofNat_toNat] at hfront hlength hvalue
  refine ⟨(escapeControl c).drop 2, ?_, hlength, hvalue⟩
  rw [← List.take_append_drop 2 (escapeControl c), hfront]
  simp

theorem codeEscape_digits {digits : List Char} (hlength : digits.length = 4) {unit : Nat}
    (hvalue : hexValue? 0 digits = some unit) (small : unit < 0xD800) (rest : List Char) :
    codeEscape (digits ++ rest) = .ok (Char.ofNat unit, 4) := by
  have enough : ¬ byteLength (digits ++ rest) < 4 := by
    have hbytes := length_le_byteLength (digits ++ rest)
    rw [List.length_append] at hbytes
    omega
  have hunit : hexUnit (digits ++ rest) = .ok unit := by
    simp only [hexUnit, enough, if_false, List.take_left' hlength, hvalue, hlength, if_true]
  have single : isTrailingUnit unit = false ∧ isLeadingUnit unit = false := by
    simp only [isTrailingUnit, isLeadingUnit, Bool.and_eq_false_imp, decide_eq_true_eq,
      decide_eq_false_iff_not]
    omega
  rw [codeEscape, hunit]
  simp [bind, Except.bind, single]

/-- A character is escaped by a letter, by its code, or not at all. In the last case it is none of
those at which reading a string does something else. -/
theorem escapeChar_cases (c : Char) :
    (∃ sign, escapeChar c = ['\\', sign] ∧ letterEscape? sign = some c) ∨
      (escapeChar c = escapeControl c ∧ c.toNat < 0x20) ∨
      (escapeChar c = [c] ∧ c ≠ '"' ∧ c ≠ '\\' ∧ ¬ c.toNat < 0x20) := by
  unfold escapeChar
  iterate 7
    split
    · rename_i h
      subst h
      exact Or.inl ⟨_, rfl, rfl⟩
  split
  case isTrue control => exact Or.inr (Or.inl ⟨rfl, control⟩)
  case isFalse quote slash _ _ _ _ _ control => exact Or.inr (Or.inr ⟨rfl, quote, slash, control⟩)

/-- **A character is read back from its escape**, and the text goes on behind it. Nothing is asked
of that text: if it cannot be read, the failure is the one that it has by itself. -/
theorem stringAfter_escapeChar (c : Char) (text : List Char) :
    stringAfter 0 (escapeChar c ++ text)
      = (stringAfter 0 text).map fun found => (c :: found.1, found.2) := by
  rcases escapeChar_cases c with ⟨sign, hsign, hmeant⟩ | ⟨hcode, control⟩ | ⟨hself, quote, slash, hc⟩
  · rw [hsign]
    show stringAfter 0 ('\\' :: sign :: text) = _
    rw [stringAfter, if_neg (by decide), if_pos rfl, escape, hmeant]
    cases hrest : stringAfter 0 text <;>
      simp [stringAfter, hrest, bind, Except.bind, Except.map]
  · obtain ⟨digits, hdigits, hlength, hvalue⟩ := exists_escapeControl control
    have hmeant := codeEscape_digits hlength hvalue (by omega) text
    rw [Char.ofNat_toNat] at hmeant
    rw [hcode, hdigits]
    show stringAfter 0 ('\\' :: 'u' :: (digits ++ text)) = _
    rw [stringAfter, if_neg (by decide), if_pos rfl, escape,
      show letterEscape? 'u' = none by decide, if_pos rfl, hmeant]
    -- the escape is understood at its letter, and its digits are passed over one by one
    match digits, hlength with
    | [a, b, d, e], _ =>
      cases hrest : stringAfter 0 text <;>
        simp [stringAfter, hrest, bind, Except.bind, Except.map]
  · rw [hself]
    show stringAfter 0 (c :: text) = _
    rw [stringAfter, if_neg quote, if_neg slash, if_neg hc]
    cases stringAfter 0 text <;> simp [bind, Except.bind, Except.map]

/-- **A string is read back**, whatever its characters and whatever comes behind its closing quote.
-/
theorem readString_escaped (s : String) (rest : List Char) :
    readString (s.toList.flatMap escapeChar ++ '"' :: rest) = .ok (s, rest) := by
  have chars : ∀ cs : List Char,
      stringAfter 0 (cs.flatMap escapeChar ++ '"' :: rest) = .ok (cs, rest) := by
    intro cs
    induction cs with
    | nil => rfl
    | cons c cs ih =>
      rw [List.flatMap_cons, List.append_assoc, stringAfter_escapeChar, ih]
      rfl
  rw [readString, Reader.map, chars]
  simp [Except.map]

/-! ## Blanks

The reader skips what a layout puts between values, and a line break ends a number. -/

theorem skipBlanks_append {blanks : List Char} (h : ∀ c ∈ blanks, isBlank c = true)
    (text : List Char) : skipBlanks (blanks ++ text) = skipBlanks text :=
  List.dropWhile_append_of_pos h

theorem skipBlanks_cons {c : Char} (h : isBlank c = false) (text : List Char) :
    skipBlanks (c :: text) = c :: text :=
  List.dropWhile_cons_of_neg (by rw [h]; decide)

theorem isBlank_lineBreak {layout : Layout} {depth : Nat} {c : Char}
    (h : c ∈ layout.lineBreak depth) : isBlank c = true := by
  cases layout with
  | compact => cases h
  | pretty =>
    rcases List.mem_cons.1 h with rfl | h
    · rfl
    · rw [List.eq_of_mem_replicate h]
      rfl

theorem skipBlanks_lineBreak (layout : Layout) (depth : Nat) (text : List Char) :
    skipBlanks (layout.lineBreak depth ++ text) = skipBlanks text :=
  skipBlanks_append (fun _ h => isBlank_lineBreak h) text

theorem endsNumber_lineBreak (layout : Layout) (depth : Nat) {text : List Char}
    (h : EndsNumber text) : EndsNumber (layout.lineBreak depth ++ text) := by
  cases layout with
  | compact => exact h
  | pretty => exact endsNumber_cons (by decide) (by decide)

/-! ## Values that can be read back

Which values are meant, and what it is to read one back in the middle of a text. -/

/-- Every number in the value is an integer that is kept as such. Reals are left out: they are
written in the fewest digits that round to them, and reading these is a subject of its own. -/
inductive Value.Integral : Value → Prop where
  | null : Integral .null
  | bool (b : Bool) : Integral (.bool b)
  | integer {n : Int} (fits : FitsInteger n) : Integral (.number (.integer n))
  | string (s : String) : Integral (.string s)
  | array {items : List Value} (inside : ∀ item ∈ items, Integral item) : Integral (.array items)
  | object {members : Members} (inside : ∀ member ∈ members, Integral member.2) :
    Integral (.object members)

mutual

def Value.isIntegral : Value → Bool
  | .null => true
  | .bool _ => true
  | .number (.integer n) => decide (FitsInteger n)
  | .number (.real _ _) => false
  | .string _ => true
  | .array items => itemsIntegral items
  | .object members => membersIntegral members

def itemsIntegral : List Value → Bool
  | [] => true
  | item :: rest => item.isIntegral && itemsIntegral rest

def membersIntegral : List (String × Value) → Bool
  | [] => true
  | (_, value) :: rest => value.isIntegral && membersIntegral rest

end

mutual

theorem Value.isIntegral_iff : ∀ value : Value, value.isIntegral = true ↔ value.Integral
  | .null => ⟨fun _ => .null, fun _ => rfl⟩
  | .bool b => ⟨fun _ => .bool b, fun _ => rfl⟩
  | .number (.integer n) => by
    rw [Value.isIntegral, decide_eq_true_eq]
    exact ⟨.integer, fun h => by cases h; assumption⟩
  | .number (.real _ _) => ⟨nofun, nofun⟩
  | .string s => ⟨fun _ => .string s, fun _ => rfl⟩
  | .array items => by
    rw [Value.isIntegral, itemsIntegral_iff items]
    exact ⟨.array, fun h => by cases h; assumption⟩
  | .object members => by
    rw [Value.isIntegral, membersIntegral_iff members]
    exact ⟨.object, fun h => by cases h; assumption⟩

theorem itemsIntegral_iff : ∀ items : List Value,
    itemsIntegral items = true ↔ ∀ item ∈ items, item.Integral
  | [] => ⟨fun _ => List.forall_mem_nil _, fun _ => rfl⟩
  | item :: rest => by
    rw [itemsIntegral, Bool.and_eq_true, item.isIntegral_iff, itemsIntegral_iff rest,
      List.forall_mem_cons]

theorem membersIntegral_iff : ∀ members : List (String × Value),
    membersIntegral members = true ↔ ∀ member ∈ members, member.2.Integral
  | [] => ⟨fun _ => List.forall_mem_nil _, fun _ => rfl⟩
  | (_, value) :: rest => by
    rw [membersIntegral, Bool.and_eq_true, value.isIntegral_iff, membersIntegral_iff rest,
      List.forall_mem_cons]

end

instance : DecidablePred Value.Integral := fun value =>
  decidable_of_iff (value.isIntegral = true) value.isIntegral_iff

/-- A reader that goes down so many levels reads the value back, whatever its layout and its depth
were and whatever follows it. -/
def Value.ReadBack (levels : Nat) (value : Value) : Prop :=
  ∀ (layout : Layout) (depth : Nat) (rest : List Char), EndsNumber rest →
    readValue levels (value.textAt layout depth ++ rest) = .ok (value, rest)

/-- Whether a value can begin with the character: no blank, and no bracket that ends an array. By
this the reader of an array tells an item from its end. -/
def Value.Starts (c : Char) : Prop := isBlank c = false ∧ c ≠ ']'

theorem Value.starts_of_isDigit {c : Char} (h : c.isDigit = true) : Starts c := by
  have other : ∀ {d : Char}, d.isDigit = false → c ≠ d := fun hd => ne_of_isDigit h hd
  have blank : isBlank c = false := by
    simp only [isBlank, Bool.or_eq_false_iff, beq_eq_false_iff_ne]
    exact ⟨⟨⟨other rfl, other rfl⟩, other rfl⟩, other rfl⟩
  exact ⟨blank, other rfl⟩

theorem Value.Integral.exists_textAt {value : Value} (h : value.Integral) (layout : Layout)
    (depth : Nat) : ∃ c text, value.textAt layout depth = c :: text ∧ Starts c := by
  cases h with
  | null => exact ⟨'n', _, rfl, by decide, by decide⟩
  | bool b =>
    cases b with
    | true => exact ⟨'t', _, rfl, by decide, by decide⟩
    | false => exact ⟨'f', _, rfl, by decide, by decide⟩
  | @integer n fits =>
    rw [textAt, Number.text, signOf]
    split
    · exact ⟨'-', _, rfl, by decide, by decide⟩
    · obtain ⟨c, digits, hd, -⟩ := exists_decimal_eq_cons n.natAbs
      exact ⟨c, digits, hd, starts_of_isDigit (isDigit_of_mem_decimal (hd ▸ List.mem_cons_self))⟩
  | string s => exact ⟨'"', _, rfl, by decide, by decide⟩
  | @array items inside =>
    rw [textAt]
    split
    · exact ⟨'[', _, rfl, by decide, by decide⟩
    · exact ⟨'[', _, rfl, by decide, by decide⟩
  | @object members inside =>
    rw [textAt]
    split
    · exact ⟨'\x7b', _, rfl, by decide, by decide⟩
    · exact ⟨'\x7b', _, rfl, by decide, by decide⟩

/-! ## Scalars

The reader tells values apart by their first character, so the texts of integers have to begin with
a digit or a minus. -/

theorem lexeme_integer {n : Int} (fits : FitsInteger n) {rest : List Char} (ends : EndsNumber rest) :
    lexeme ((Number.integer n).text ++ rest) = .ok (.number (.integer n), rest) := by
  have hread := readNumber_decimal fits.natAbs_le ends
  rw [Number.text, signOf]
  by_cases negative : n < 0
  · rw [if_pos (by simpa using negative)]
    show lexeme ('-' :: (decimal n.natAbs ++ rest)) = _
    rw [lexeme, if_neg (by decide), if_neg (by decide), if_neg (by decide), if_pos rfl,
      Reader.map, hread, wholeNumber_neg fits negative]
    rfl
  · rw [if_neg (by simpa using negative), List.nil_append]
    obtain ⟨c, digits, hd, -⟩ := exists_decimal_eq_cons n.natAbs
    have digit : c.isDigit = true := isDigit_of_mem_decimal (hd ▸ List.mem_cons_self)
    have other : ∀ {d : Char}, d.isDigit = false → c ≠ d := fun h => ne_of_isDigit digit h
    have whole : wholeNumber false n.natAbs = .integer n := by
      rw [wholeNumber, if_pos (by decide), Int.natAbs_of_nonneg (Int.not_lt.1 negative)]
    rw [hd, List.cons_append, lexeme, if_neg (other rfl), if_neg (other rfl), if_neg (other rfl),
      if_neg (other rfl), if_pos digit, ← List.cons_append, ← hd, Reader.map, hread, whole]
    rfl

theorem readValue_congr {levels : Nat} {a b : List Char} (h : skipBlanks a = skipBlanks b) :
    readValue levels a = readValue levels b := by
  cases levels with
  | zero => rw [readValue, valueOver, valueOver, h]
  | succ levels => rw [readValue, valueOver, valueOver, h]

/-! ## Arrays

An array is read as its first item and then, in a loop, what follows each comma. The lemmas take the
closing bracket with blanks before it as what follows (`after`), so they do not depend on whether
the layout has put a line break there. -/

section Arrays

variable {levels : Nat} (layout : Layout) (depth : Nat) {rest after : List Char}

theorem exists_item_start {item : Value} (h : item.Integral ∧ item.ReadBack levels)
    {more : List Char} (ends : EndsNumber more) :
    ∃ c text, skipBlanks (layout.lineBreak depth ++ (item.textAt layout depth ++ more)) = c :: text ∧
      c ≠ ']' ∧ readValue levels (c :: text) = .ok (item, more) := by
  obtain ⟨c, text, htext, hblank, hc⟩ := h.1.exists_textAt layout depth
  have hread := h.2 layout depth more ends
  rw [htext] at hread ⊢
  exact ⟨c, text ++ more, by rw [skipBlanks_lineBreak, List.cons_append, skipBlanks_cons hblank], hc,
    hread⟩

theorem endsNumber_itemsText (ends : EndsNumber after) (items : List Value) :
    EndsNumber (itemsText layout depth false items ++ after) := by
  cases items with
  | nil => rwa [itemsText, List.nil_append]
  | cons item items => exact endsNumber_cons (by decide) (by decide)

theorem length_le_itemsText (items : List Value) :
    items.length ≤ (itemsText layout depth false items).length := by
  induction items with
  | nil => exact Nat.zero_le _
  | cons item items ih =>
    simp only [itemsText, comma, Bool.false_eq_true, if_false, List.length_append, List.length_cons]
    omega

variable (close : skipBlanks after = ']' :: rest) (ends : EndsNumber after)
include close ends

theorem itemsAfter_itemsText {items : List Value}
    (inside : ∀ item ∈ items, item.Integral ∧ item.ReadBack levels) {rounds : Nat}
    (enough : items.length < rounds) :
    itemsAfter (readValue levels) rounds (itemsText layout depth false items ++ after)
      = .ok (items, rest) := by
  induction items generalizing rounds with
  | nil =>
    obtain ⟨rounds, rfl⟩ := Nat.exists_eq_succ_of_ne_zero (Nat.ne_zero_of_lt enough)
    simp only [itemsText, List.nil_append, itemsAfter, close]
  | cons item items ih =>
    obtain ⟨rounds, rfl⟩ := Nat.exists_eq_succ_of_ne_zero (Nat.ne_zero_of_lt enough)
    have hrest := ih (fun other ho => inside other (List.mem_cons_of_mem _ ho))
      (Nat.lt_of_succ_lt_succ enough)
    obtain ⟨c, text, hstart, hc, hread⟩ := exists_item_start layout depth
      (inside item List.mem_cons_self) (endsNumber_itemsText layout depth ends items)
    have hline : itemsText layout depth false (item :: items) ++ after
        = ',' :: (layout.lineBreak depth ++ (item.textAt layout depth
          ++ (itemsText layout depth false items ++ after))) := by
      simp [itemsText, comma]
    rw [hline, itemsAfter, skipBlanks_cons (by decide)]
    simp only [hstart]
    split
    case h_1 h => cases h
    case h_2 h => exact absurd (List.cons.inj h).1 hc
    case h_3 => simp [hread, hrest, bind, Except.bind]

theorem readItems_itemsText {items : List Value}
    (inside : ∀ item ∈ items, item.Integral ∧ item.ReadBack levels) :
    readItems (readValue levels) (itemsText layout depth true items ++ after)
      = .ok (items, rest) := by
  cases items with
  | nil => simp only [itemsText, List.nil_append, readItems, close]
  | cons item items =>
    -- each further item has a comma at least, so that the rounds are enough
    have enough : items.length < (itemsText layout depth false items ++ after).length + 1 := by
      have hlength := length_le_itemsText layout depth items
      rw [List.length_append]
      omega
    have hrest := itemsAfter_itemsText layout depth close ends
      (fun other ho => inside other (List.mem_cons_of_mem _ ho)) enough
    obtain ⟨c, text, hstart, hc, hread⟩ := exists_item_start layout depth
      (inside item List.mem_cons_self) (endsNumber_itemsText layout depth ends items)
    have hline : itemsText layout depth true (item :: items) ++ after
        = layout.lineBreak depth ++ (item.textAt layout depth
          ++ (itemsText layout depth false items ++ after)) := by
      simp [itemsText, comma]
    rw [hline, readItems, hstart]
    split
    case h_1 h => cases h
    case h_2 h => exact absurd (List.cons.inj h).1 hc
    case h_3 => simp only [hread, hrest, bind, Except.bind]

end Arrays

/-! ## Objects

As for arrays, with names in front. Members are gathered with the last one first and turned round at
the end. -/

section Objects

variable {levels : Nat} (layout : Layout) (depth : Nat) {rest after : List Char}

/-- **A member is read back**, behind the opening quote of its name. Only its value has to be one
that is read back; the name is any string, and so is what was kept before. -/
theorem readMember_text {value : Value} (h : value.ReadBack levels) {more : List Char}
    (ends : EndsNumber more) (name : String) (members : Members) :
    readMember (keepMember (readValue levels)) members
        (name.toList.flatMap escapeChar
          ++ '"' :: (layout.colon ++ (value.textAt layout depth ++ more)))
      = .ok ((name, value) :: members, more) := by
  have hcolon : ∃ text, colon (layout.colon ++ (value.textAt layout depth ++ more)) = .ok ((), text) ∧
      readValue levels text = .ok (value, more) := by
    have hread := h layout depth more ends
    cases layout with
    | compact => exact ⟨_, rfl, hread⟩
    | pretty =>
      have hblank : ∀ text, skipBlanks (' ' :: text) = skipBlanks text := fun _ => rfl
      exact ⟨_, rfl, (readValue_congr (hblank _)).trans hread⟩
  obtain ⟨text, hcolon, hread⟩ := hcolon
  rw [readMember, readString_escaped]
  simp [bind, Except.bind, keepMember, hcolon, hread]

theorem endsNumber_membersText (ends : EndsNumber after) (members : Members) :
    EndsNumber (membersText layout depth false members ++ after) := by
  cases members with
  | nil => rwa [membersText, List.nil_append]
  | cons member members => exact endsNumber_cons (by decide) (by decide)

theorem length_le_membersText (members : Members) :
    members.length ≤ (membersText layout depth false members).length := by
  induction members with
  | nil => exact Nat.zero_le _
  | cons member members ih =>
    simp only [membersText, comma, Bool.false_eq_true, if_false, List.length_append,
      List.length_cons]
    omega

theorem membersText_cons (first : Bool) (name : String) (value : Value) (members : Members) :
    membersText layout depth first ((name, value) :: members) ++ after
      = comma first ++ (layout.lineBreak depth ++ ('"' :: (name.toList.flatMap escapeChar
        ++ '"' :: (layout.colon ++ (value.textAt layout depth
          ++ (membersText layout depth false members ++ after)))))) := by
  simp [membersText, stringText]

variable (close : skipBlanks after = '\x7d' :: rest) (ends : EndsNumber after)
include close ends

theorem membersAfter_membersText {members : Members}
    (inside : ∀ member ∈ members, member.2.ReadBack levels) {rounds : Nat}
    (enough : members.length < rounds) (before : Members) :
    membersAfter (keepMember (readValue levels)) rounds before
        (membersText layout depth false members ++ after)
      = .ok (members.reverse ++ before, rest) := by
  induction members generalizing rounds before with
  | nil =>
    obtain ⟨rounds, rfl⟩ := Nat.exists_eq_succ_of_ne_zero (Nat.ne_zero_of_lt enough)
    simp only [membersText, List.nil_append, membersAfter, close, List.reverse_nil]
  | cons member members ih =>
    obtain ⟨name, value⟩ := member
    obtain ⟨rounds, rfl⟩ := Nat.exists_eq_succ_of_ne_zero (Nat.ne_zero_of_lt enough)
    have hrest := ih (fun other ho => inside other (List.mem_cons_of_mem _ ho))
      (Nat.lt_of_succ_lt_succ enough) ((name, value) :: before)
    have hread := readMember_text layout depth (inside (name, value) List.mem_cons_self)
      (endsNumber_membersText layout depth ends members) name before
    rw [membersText_cons, comma, if_neg (by decide), List.singleton_append, membersAfter,
      skipBlanks_cons (by decide)]
    simp [skipBlanks_lineBreak, skipBlanks_cons (show isBlank '"' = false from rfl), hread, hrest,
      bind, Except.bind]

theorem readMembers_membersText {members : Members}
    (inside : ∀ member ∈ members, member.2.ReadBack levels) :
    readMembers (keepMember (readValue levels)) []
        (membersText layout depth true members ++ after)
      = .ok (members.reverse, rest) := by
  cases members with
  | nil => simp only [membersText, List.nil_append, readMembers, close, List.reverse_nil]
  | cons member members =>
    obtain ⟨name, value⟩ := member
    have enough : members.length < (membersText layout depth false members ++ after).length + 1 := by
      have hlength := length_le_membersText layout depth members
      rw [List.length_append]
      omega
    have hrest := membersAfter_membersText layout depth close ends
      (fun other ho => inside other (List.mem_cons_of_mem _ ho)) enough [(name, value)]
    have hread := readMember_text layout depth (inside (name, value) List.mem_cons_self)
      (endsNumber_membersText layout depth ends members) name []
    rw [membersText_cons, comma, if_pos rfl, List.nil_append, readMembers, skipBlanks_lineBreak,
      skipBlanks_cons (by decide)]
    simp only [hread, hrest, bind, Except.bind, List.reverse_cons]

end Objects

/-! ## Values

By induction on the value. The levels that it takes are one more than what its parts take, and these
have a common bound, being finitely many. -/

/-- Bounds for the items of a list, each kept by whatever is greater, give one for all. This is
where it is used that a value has finitely many parts. -/
theorem exists_common_bound {α : Type} {P : Nat → α → Prop} {items : List α}
    (h : ∀ a ∈ items, ∃ least, ∀ n ≥ least, P n a) :
    ∃ least, ∀ a ∈ items, ∀ n ≥ least, P n a := by
  induction items with
  | nil => exact ⟨0, nofun⟩
  | cons a items ih =>
    obtain ⟨first, hfirst⟩ := h a List.mem_cons_self
    obtain ⟨others, hothers⟩ := ih fun b hb => h b (List.mem_cons_of_mem _ hb)
    refine ⟨max first others, fun b hb n hn => ?_⟩
    rcases List.mem_cons.1 hb with rfl | hb
    · exact hfirst n (Nat.le_trans (Nat.le_max_left _ _) hn)
    · exact hothers b hb n (Nat.le_trans (Nat.le_max_right _ _) hn)

theorem readBack_integer {n : Int} (fits : FitsInteger n) (levels : Nat) :
    (Value.number (.integer n)).ReadBack levels := by
  intro layout depth rest ends
  have hlex := lexeme_integer fits ends
  obtain ⟨c, text, htext, hblank, -⟩ := (Value.Integral.integer fits).exists_textAt layout depth
  have hskip : skipBlanks ((Number.integer n).text ++ rest) = (Number.integer n).text ++ rest := by
    rw [Value.textAt] at htext
    rw [htext, List.cons_append, skipBlanks_cons hblank]
  rw [Value.textAt]
  cases levels <;> simp [readValue, valueOver, hskip, hlex, bind, Except.bind]

theorem readBack_string (s : String) (levels : Nat) : (Value.string s).ReadBack levels := by
  intro layout depth rest ends
  have hread := readString_escaped s rest
  have hlex : lexeme (skipBlanks ((Value.string s).textAt layout depth ++ rest))
      = .ok (.string s, rest) := by
    simp only [Value.textAt, stringText, List.cons_append, List.append_assoc, List.nil_append]
    rw [skipBlanks_cons (by decide), lexeme, if_neg (by decide), if_neg (by decide),
      if_neg (by decide), if_neg (by decide), if_neg (by decide), if_pos rfl, Reader.map, hread]
    rfl
  cases levels <;> simp only [readValue, valueOver, hlex, bind, Except.bind]

theorem readBack_array {items : List Value} {levels : Nat}
    (inside : ∀ item ∈ items, item.Integral ∧ item.ReadBack levels) :
    (Value.array items).ReadBack (levels + 1) := by
  intro layout depth rest ends
  have close : skipBlanks (layout.lineBreak depth ++ ']' :: rest) = ']' :: rest := by
    rw [skipBlanks_lineBreak, skipBlanks_cons (by decide)]
  have ends : EndsNumber (layout.lineBreak depth ++ ']' :: rest) :=
    endsNumber_lineBreak layout depth (endsNumber_cons (by decide) (by decide))
  have hread := readItems_itemsText layout (depth + 1) close ends inside
  cases items with
  | nil => rfl
  | cons item items =>
    have htext : (Value.array (item :: items)).textAt layout depth ++ rest
        = '[' :: (itemsText layout (depth + 1) true (item :: items)
          ++ (layout.lineBreak depth ++ ']' :: rest)) := by
      simp [Value.textAt]
    have hlex : ∀ text, lexeme (skipBlanks ('[' :: text)) = .ok (.openArray, text) := fun _ => rfl
    rw [htext, readValue, valueOver]
    simp only [hlex, hread, bind, Except.bind]

theorem readBack_object {members : Members} {levels : Nat}
    (inside : ∀ member ∈ members, member.2.ReadBack levels) :
    (Value.object members).ReadBack (levels + 1) := by
  intro layout depth rest ends
  have close : skipBlanks (layout.lineBreak depth ++ '\x7d' :: rest) = '\x7d' :: rest := by
    rw [skipBlanks_lineBreak, skipBlanks_cons (by decide)]
  have ends : EndsNumber (layout.lineBreak depth ++ '\x7d' :: rest) :=
    endsNumber_lineBreak layout depth (endsNumber_cons (by decide) (by decide))
  have hread := readMembers_membersText layout (depth + 1) close ends inside
  cases members with
  | nil => rfl
  | cons member members =>
    have htext : (Value.object (member :: members)).textAt layout depth ++ rest
        = '\x7b' :: (membersText layout (depth + 1) true (member :: members)
          ++ (layout.lineBreak depth ++ '\x7d' :: rest)) := by
      simp [Value.textAt]
    have hlex : ∀ text, lexeme (skipBlanks ('\x7b' :: text)) = .ok (.openObject, text) :=
      fun _ => rfl
    rw [htext, readValue, valueOver]
    -- members are gathered with the last one first
    simp only [hlex, hread, bind, Except.bind, List.reverse_reverse]

/-- **A value is read back** by every reader that goes down far enough. How far that is depends on
the value alone, not on the layout or on what follows. -/
theorem Value.Integral.readBack {value : Value} (h : value.Integral) :
    ∃ least, ∀ levels ≥ least, value.ReadBack levels := by
  induction h with
  | null =>
    refine ⟨0, fun levels _ layout depth rest ends => ?_⟩
    cases levels <;> rfl
  | bool b =>
    refine ⟨0, fun levels _ layout depth rest ends => ?_⟩
    cases b <;> cases levels <;> rfl
  | integer fits => exact ⟨0, fun levels _ => readBack_integer fits levels⟩
  | string s => exact ⟨0, fun levels _ => readBack_string s levels⟩
  | @array items inside ih =>
    -- one level more than what the items need together
    obtain ⟨least, hleast⟩ := exists_common_bound ih
    refine ⟨least + 1, fun levels enough => ?_⟩
    obtain ⟨levels, rfl⟩ := Nat.exists_eq_succ_of_ne_zero (Nat.ne_zero_of_lt enough)
    exact readBack_array fun item hi =>
      ⟨inside item hi, hleast item hi levels (Nat.le_of_succ_le_succ enough)⟩
  | @object members inside ih =>
    obtain ⟨least, hleast⟩ := exists_common_bound ih
    refine ⟨least + 1, fun levels enough => ?_⟩
    obtain ⟨levels, rfl⟩ := Nat.exists_eq_succ_of_ne_zero (Nat.ne_zero_of_lt enough)
    exact readBack_object fun member hm =>
      hleast member hm levels (Nat.le_of_succ_le_succ enough)

/-- The text is JSON and means the value, however deep that is nested. There is no bound for all
values, which is why the depth is chosen after the value. -/
def Value.ReadsFrom (value : Value) (text : String) : Prop :=
  ∃ least, ∀ levels ≥ least, whole (readValue levels) text = .ok value

/-- **A text with a line end behind the value means the value.** The line end is a blank for the
reader, and it ends a number. -/
theorem Value.Integral.readsFrom {value : Value} (h : value.Integral) (layout : Layout) :
    value.ReadsFrom (value.text layout ++ "\n") := by
  obtain ⟨least, hleast⟩ := h.readBack
  refine ⟨least, fun levels enough => ?_⟩
  have hread := hleast levels enough layout 0 ['\n'] (endsNumber_cons (by decide) (by decide))
  have htext : (value.text layout ++ "\n").toList = value.textAt layout 0 ++ ['\n'] := by
    simp [Value.text]
  rw [whole, htext, hread]
  rfl

/-- An object that has members ends in its brace. In the layout with line breaks, one without
members has no line break before it. -/
theorem Value.exists_text_object (layout : Layout) (member : String × Value) (members : Members) :
    ∃ front, (Value.object (member :: members)).text layout = front ++ "\x7d" := by
  refine ⟨String.ofList
    ('\x7b' :: membersText layout 1 true (member :: members) ++ layout.lineBreak 0), ?_⟩
  rw [text, textAt, if_neg nofun, String.ofList_append]

end DocTree.Json
