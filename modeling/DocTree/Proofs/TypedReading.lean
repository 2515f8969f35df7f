import DocTree.Kind
import DocTree.Proofs.Steps

/-!
# Reading with a shape

A reader of a given shape goes through the text once and refuses whatever does not fit. The same can
be had in two steps: read any value, then see what it says. That the two agree (`Reader.Decodes`) is
shown for the readers of scalars and kinds, and for objects from the step that reads a member: both
loops take the same members off the text, one making something of each as it comes, the other
keeping it for later.

They agree on what is read, with the same rest of the text, and on which texts are read at all. They
do not agree on errors. The reader of a shape fails at the first member that does not fit, where the
other one may come to a different fault later, or to none; so the relation is an equivalence of
results, and mistakes are left out of it.

The rest of the text is what makes the relation compose. Behind a field the loop goes on where that
field has ended, so it would not be enough to know that the same value is read.

The generic reader has a bound on its depth, and the bound is part of the relation: a value for a
member is read with one level less than the object. A scalar is the same at any depth, and for that
reason its lemma takes any.
-/

set_option autoImplicit false

namespace DocTree

namespace Json

/-- Reading with `typed` is reading with `generic` and decoding what that gives. Both leave the same
rest, so that what is read behind can be compared next. -/
def Reader.Decodes {α β : Type} (typed : Reader β) (generic : Reader α) (decode : α → Option β) :
    Prop :=
  ∀ text found rest, typed text = .ok (found, rest) ↔
    ∃ value, generic text = .ok (value, rest) ∧ decode value = some found

section Readers

variable {α β γ : Type} {typed : Reader β} {generic : Reader α} {decode : α → Option β}

theorem Reader.map_eq_ok_iff {f : β → γ} {text rest : List Char} {found : γ} :
    typed.map f text = .ok (found, rest) ↔ ∃ b, typed text = .ok (b, rest) ∧ f b = found := by
  rw [Reader.map, DocTree.map_eq_ok_iff]
  constructor
  · rintro ⟨⟨b, after⟩, hread, he⟩
    cases he
    exact ⟨b, hread, rfl⟩
  · rintro ⟨b, hread, rfl⟩
    exact ⟨(b, rest), hread, rfl⟩

theorem Reader.Decodes.map (h : typed.Decodes generic decode) (f : β → γ) :
    (typed.map f).Decodes generic fun value => (decode value).map f := by
  intro text found rest
  rw [Reader.map_eq_ok_iff]
  constructor
  · rintro ⟨b, hread, rfl⟩
    obtain ⟨value, hvalue, hdecode⟩ := (h text b rest).1 hread
    exact ⟨value, hvalue, congrArg (Option.map f) hdecode⟩
  · rintro ⟨value, hvalue, hmap⟩
    obtain ⟨b, hdecode, rfl⟩ := Option.map_eq_some_iff.1 hmap
    exact ⟨b, (h text b rest).2 ⟨value, hvalue, hdecode⟩, rfl⟩

theorem Reader.Decodes.congr (h : typed.Decodes generic decode) {other : α → Option β}
    (same : ∀ value, decode value = other value) : typed.Decodes generic other :=
  (funext same : decode = other) ▸ h

theorem whole_eq_ok_iff {text : String} {found : β} :
    whole typed text = .ok found ↔
      ∃ rest, typed text.toList = .ok (found, rest) ∧ skipBlanks rest = [] := by
  constructor
  · intro h
    obtain ⟨⟨value, rest⟩, hread, hend⟩ := bind_eq_ok_iff.1 h
    dsimp only at hend
    split at hend
    case h_1 hnil =>
      cases hend
      exact ⟨rest, hread, hnil⟩
    case h_2 => cases hend
  · rintro ⟨rest, hread, hnil⟩
    refine bind_eq_ok_iff.2 ⟨(found, rest), hread, ?_⟩
    dsimp only
    rw [hnil]

/-- Behind the value of either reader stands the same text, so whole texts agree too: one is refused
for what comes after the value exactly when the other is. -/
theorem Reader.Decodes.whole (h : typed.Decodes generic decode) {text : String} {found : β} :
    whole typed text = .ok found ↔
      ∃ value, whole generic text = .ok value ∧ decode value = some found := by
  rw [whole_eq_ok_iff]
  constructor
  · rintro ⟨rest, hread, hnil⟩
    obtain ⟨value, hvalue, hdecode⟩ := (h _ _ _).1 hread
    exact ⟨value, whole_eq_ok_iff.2 ⟨rest, hvalue, hnil⟩, hdecode⟩
  · rintro ⟨value, hvalue, hdecode⟩
    obtain ⟨rest, hread, hnil⟩ := whole_eq_ok_iff.1 hvalue
    exact ⟨rest, (h _ _ _).2 ⟨value, hread, hdecode⟩, hnil⟩

end Readers

/-! ## Scalars

A value that is a single lexeme is read by reading that. A reader of scalars looks at one lexeme and
accepts it or not; the brackets are lexemes as well, and for these a value would have more to come.
-/

def Value.lexeme? : Value → Option Lexeme
  | .null => some .null
  | .bool b => some (.bool b)
  | .number n => some (.number n)
  | .string s => some (.string s)
  | .array _ => none
  | .object _ => none

theorem exists_valueOver (depth : Nat) : ∃ inner, readValue depth = valueOver inner := by
  cases depth with
  | zero => exact ⟨none, rfl⟩
  | succ depth => exact ⟨some (readValue depth), rfl⟩

/-- A value of one lexeme is read by reading that, at any depth. The depth is only looked at behind
a bracket, which is no value of one lexeme. -/
theorem readValue_of_lexeme {value : Value} {found : Lexeme} (h : value.lexeme? = some found)
    {depth : Nat} {text rest : List Char} :
    readValue depth text = .ok (value, rest) ↔ lexeme (skipBlanks text) = .ok (found, rest) := by
  obtain ⟨inner, hinner⟩ := exists_valueOver depth
  rw [hinner]
  constructor
  · intro hread
    obtain ⟨⟨other, after⟩, hlexeme, hread⟩ := bind_eq_ok_iff.1 hread
    rw [hlexeme]
    -- behind a bracket comes an array or an object, which are more than one lexeme
    cases other with
    | openArray =>
      cases inner with
      | none => cases hread
      | some inner =>
        obtain ⟨⟨items, _⟩, -, hread⟩ := bind_eq_ok_iff.1 hread
        cases hread
        cases h
    | openObject =>
      cases inner with
      | none => cases hread
      | some inner =>
        obtain ⟨⟨members, _⟩, -, hread⟩ := bind_eq_ok_iff.1 hread
        cases hread
        cases h
    | _ =>
      cases hread
      cases h
      rfl
  · intro hlexeme
    refine bind_eq_ok_iff.2 ⟨(found, rest), hlexeme, ?_⟩
    cases value with
    | array items => cases h
    | object members => cases h
    | _ =>
      cases h
      rfl

theorem scalar_eq_ok_iff {α : Type} {expected : Expected} {accept : Lexeme → Option α}
    {text rest : List Char} {found : α} :
    scalar expected accept text = .ok (found, rest) ↔
      ∃ taken, lexeme (skipBlanks text) = .ok (taken, rest) ∧ accept taken = some found := by
  constructor
  · intro h
    obtain ⟨⟨taken, after⟩, hlexeme, h⟩ := bind_eq_ok_iff.1 h
    dsimp only at h
    split at h
    case h_1 haccept =>
      cases h
      exact ⟨taken, hlexeme, haccept⟩
    case h_2 => cases h
  · rintro ⟨taken, hlexeme, haccept⟩
    refine bind_eq_ok_iff.2 ⟨(taken, rest), hlexeme, ?_⟩
    dsimp only
    rw [haccept]

/-- **A reader of scalars decodes values**, provided that it takes no bracket for one. Only then is
all that it accepts a whole value, and not the beginning of one. -/
theorem scalar_decodes {α : Type} (expected : Expected) {accept : Lexeme → Option α}
    (noArray : accept .openArray = none) (noObject : accept .openObject = none) (depth : Nat) :
    Reader.Decodes (scalar expected accept) (readValue depth) fun value =>
      value.lexeme?.bind accept := by
  have single : ∀ taken found, accept taken = some found →
      ∃ value : Value, value.lexeme? = some taken := by
    intro taken found haccept
    cases taken with
    | null => exact ⟨.null, rfl⟩
    | bool b => exact ⟨.bool b, rfl⟩
    | number n => exact ⟨.number n, rfl⟩
    | string s => exact ⟨.string s, rfl⟩
    | openArray =>
      rw [noArray] at haccept
      cases haccept
    | openObject =>
      rw [noObject] at haccept
      cases haccept
  intro text found rest
  rw [scalar_eq_ok_iff]
  constructor
  · rintro ⟨taken, hlexeme, haccept⟩
    obtain ⟨value, hvalue⟩ := single taken found haccept
    exact ⟨value, (readValue_of_lexeme hvalue).2 hlexeme,
      Option.bind_eq_some_iff.2 ⟨taken, hvalue, haccept⟩⟩
  · rintro ⟨value, hread, hbind⟩
    obtain ⟨taken, hvalue, haccept⟩ := Option.bind_eq_some_iff.1 hbind
    exact ⟨taken, (readValue_of_lexeme hvalue).1 hread, haccept⟩

/-! ## Lexemes by their first character

Some readers look at a character where the generic one reads a lexeme. For strings and braces this
is the same, since each begins with a character of its own. -/

/-- How a string and an opening brace stand in a text. For the other lexemes nothing is said, since
no reader looks for these by a character. -/
def Lexeme.Written (text rest : List Char) : Lexeme → Prop
  | .string s => ∃ inside, text = '"' :: inside ∧ readString inside = .ok (s, rest)
  | .openObject => text = '\x7b' :: rest
  | _ => True

theorem written_of_lexeme {text rest : List Char} {found : Lexeme}
    (h : lexeme text = .ok (found, rest)) : found.Written text rest := by
  have other : ∀ {α : Type} {reader : Reader α} {f : α → Lexeme} {inside : List Char},
      reader.map f inside = .ok (found, rest) → (∀ a, (f a).Written text rest) →
        found.Written text rest := by
    intro α reader f inside hmap written
    obtain ⟨a, -, rfl⟩ := Reader.map_eq_ok_iff.1 hmap
    exact written a
  unfold lexeme at h
  split at h
  · cases h
  repeat' split at h
  · exact other h fun _ => trivial
  · exact other h fun _ => trivial
  · exact other h fun _ => trivial
  · exact other h fun _ => trivial
  · exact other h fun _ => trivial
  · rename_i inside _ _ _ _ _ quote
    obtain ⟨s, hread, rfl⟩ := Reader.map_eq_ok_iff.1 h
    exact ⟨inside, by rw [quote], hread⟩
  · cases h
    trivial
  · rename_i brace
    cases h
    exact congrArg (· :: rest) brace
  · cases h

theorem readValue_string_iff {depth : Nat} {text rest : List Char} {s : String} :
    readValue depth text = .ok (.string s, rest) ↔
      ∃ inside, skipBlanks text = '"' :: inside ∧ readString inside = .ok (s, rest) := by
  rw [readValue_of_lexeme rfl]
  constructor
  · exact fun h => written_of_lexeme h
  · rintro ⟨inside, htext, hread⟩
    rw [htext]
    exact Reader.map_eq_ok_iff.2 ⟨s, hread, rfl⟩

theorem readValue_object_iff {depth : Nat} {text rest : List Char} {members : Members} :
    readValue (depth + 1) text = .ok (.object members, rest) ↔
      ∃ inside, skipBlanks text = '\x7b' :: inside ∧
        readMembers (keepMember (readValue depth)) [] inside = .ok (members.reverse, rest) := by
  constructor
  · intro h
    obtain ⟨⟨found, after⟩, hlexeme, h⟩ := bind_eq_ok_iff.1 h
    cases found with
    | openObject =>
      obtain ⟨⟨kept, behind⟩, hmembers, h⟩ := bind_eq_ok_iff.1 h
      cases h
      refine ⟨after, written_of_lexeme hlexeme, ?_⟩
      rw [List.reverse_reverse]
      exact hmembers
    | openArray =>
      obtain ⟨⟨items, behind⟩, -, h⟩ := bind_eq_ok_iff.1 h
      cases h
    | _ => cases h
  · rintro ⟨inside, htext, hmembers⟩
    refine bind_eq_ok_iff.2 ⟨(.openObject, inside), by rw [htext]; rfl, ?_⟩
    refine bind_eq_ok_iff.2 ⟨(members.reverse, rest), hmembers, ?_⟩
    simp only [List.reverse_reverse]

/-! ## Members

The loop over members in two forms. In the one a state is changed by each member, in the other the
members are kept with the last one first; `put` says what the first makes of a member that the
second keeps. -/

def readPair (value : Reader Value) : Reader (String × Value) := fun text => do
  let (name, rest) ← readString text
  let (_, rest) ← colon rest
  let (value, rest) ← value rest
  .ok ((name, value), rest)

def MemberStep.Decodes {σ : Type} (step : MemberStep σ) (generic : Reader Value)
    (put : σ → String × Value → Option σ) : Prop :=
  ∀ state, Reader.Decodes (readMember step state) (readPair generic) (put state)

theorem readPair_eq_ok_iff {generic : Reader Value} {name : String} {value : Value}
    {text rest : List Char} :
    readPair generic text = .ok ((name, value), rest) ↔
      ∃ named after, readString text = .ok (name, named) ∧ colon named = .ok ((), after) ∧
        generic after = .ok (value, rest) := by
  constructor
  · intro h
    obtain ⟨⟨_, named⟩, hname, h⟩ := bind_eq_ok_iff.1 h
    obtain ⟨⟨_, after⟩, hcolon, h⟩ := bind_eq_ok_iff.1 h
    obtain ⟨⟨_, behind⟩, hvalue, h⟩ := bind_eq_ok_iff.1 h
    cases h
    exact ⟨named, after, hname, hcolon, hvalue⟩
  · rintro ⟨named, after, hname, hcolon, hvalue⟩
    refine bind_eq_ok_iff.2 ⟨_, hname, bind_eq_ok_iff.2 ⟨_, hcolon, ?_⟩⟩
    exact bind_eq_ok_iff.2 ⟨_, hvalue, rfl⟩

/-- Keeping a member never fails, and what is kept is the member that stands there. So the loop that
keeps members is the generic one. -/
theorem keepMember_decodes (generic : Reader Value) :
    (keepMember generic).Decodes generic fun kept member => some (member :: kept) := by
  intro kept text found rest
  constructor
  · intro h
    obtain ⟨⟨name, named⟩, hname, h⟩ := bind_eq_ok_iff.1 h
    obtain ⟨⟨_, after⟩, hcolon, h⟩ := bind_eq_ok_iff.1 h
    obtain ⟨⟨value, behind⟩, hvalue, h⟩ := bind_eq_ok_iff.1 h
    cases h
    exact ⟨(name, value), readPair_eq_ok_iff.2 ⟨named, after, hname, hcolon, hvalue⟩, rfl⟩
  · rintro ⟨⟨name, value⟩, hpair, he⟩
    cases he
    obtain ⟨named, after, hname, hcolon, hvalue⟩ := readPair_eq_ok_iff.1 hpair
    refine bind_eq_ok_iff.2 ⟨_, hname, bind_eq_ok_iff.2 ⟨_, hcolon, ?_⟩⟩
    exact bind_eq_ok_iff.2 ⟨_, hvalue, rfl⟩

/-- A step decodes when what it does behind each name does. The name itself is read in the same way
whatever the step is. -/
theorem MemberStep.decodes_of {σ : Type} {step : MemberStep σ} {generic : Reader Value}
    {put : σ → String × Value → Option σ}
    (h : ∀ state name text found rest, step state name text = .ok (found, rest) ↔
      ∃ value after, colon text = .ok ((), after) ∧ generic after = .ok (value, rest) ∧
        put state (name, value) = some found) : step.Decodes generic put := by
  intro state text found rest
  constructor
  · intro hread
    obtain ⟨⟨name, named⟩, hname, hstep⟩ := bind_eq_ok_iff.1 hread
    obtain ⟨value, after, hcolon, hvalue, hput⟩ := (h _ _ _ _ _).1 hstep
    exact ⟨(name, value), readPair_eq_ok_iff.2 ⟨named, after, hname, hcolon, hvalue⟩, hput⟩
  · rintro ⟨⟨name, value⟩, hpair, hput⟩
    obtain ⟨named, after, hname, hcolon, hvalue⟩ := readPair_eq_ok_iff.1 hpair
    exact bind_eq_ok_iff.2 ⟨(name, named), hname,
      (h _ _ _ _ _).2 ⟨value, after, hcolon, hvalue, hput⟩⟩

section Loops

variable {σ : Type} {step : MemberStep σ}

theorem membersAfter_eq_ok_iff {rounds : Nat} {state found : σ} {text rest : List Char} :
    membersAfter step (rounds + 1) state text = .ok (found, rest) ↔
      (skipBlanks text = '\x7d' :: rest ∧ state = found) ∨
        ∃ before inside next after, skipBlanks text = ',' :: before ∧
          skipBlanks before = '"' :: inside ∧ readMember step state inside = .ok (next, after) ∧
          membersAfter step rounds next after = .ok (found, rest) := by
  constructor
  · intro h
    unfold membersAfter at h
    split at h
    case h_1 => cases h
    case h_2 after htext =>
      cases h
      exact Or.inl ⟨htext, rfl⟩
    case h_3 before htext =>
      split at h
      case h_1 => cases h
      case h_2 inside hbefore =>
        obtain ⟨⟨next, after⟩, hmember, h⟩ := bind_eq_ok_iff.1 h
        exact Or.inr ⟨before, inside, next, after, htext, hbefore, hmember, h⟩
      case h_3 => cases h
      case h_4 => cases h
    case h_4 => cases h
  · rintro (⟨htext, rfl⟩ | ⟨before, inside, next, after, htext, hbefore, hmember, h⟩)
    · simp only [membersAfter, htext]
    · simp only [membersAfter, htext, hbefore]
      exact bind_eq_ok_iff.2 ⟨(next, after), hmember, h⟩

theorem readMembers_eq_ok_iff {state found : σ} {text rest : List Char} :
    readMembers step state text = .ok (found, rest) ↔
      (skipBlanks text = '\x7d' :: rest ∧ state = found) ∨
        ∃ inside next after, skipBlanks text = '"' :: inside ∧
          readMember step state inside = .ok (next, after) ∧
          membersAfter step (after.length + 1) next after = .ok (found, rest) := by
  constructor
  · intro h
    unfold readMembers at h
    split at h
    case h_1 => cases h
    case h_2 after htext =>
      cases h
      exact Or.inl ⟨htext, rfl⟩
    case h_3 inside htext =>
      obtain ⟨⟨next, after⟩, hmember, h⟩ := bind_eq_ok_iff.1 h
      exact Or.inr ⟨inside, next, after, htext, hmember, h⟩
    case h_4 => cases h
  · rintro (⟨htext, rfl⟩ | ⟨inside, next, after, htext, hmember, h⟩)
    · simp only [readMembers, htext]
    · simp only [readMembers, htext]
      exact bind_eq_ok_iff.2 ⟨(next, after), hmember, h⟩

theorem exists_kept_of_membersAfter {generic : Reader Value} {rounds : Nat} {kept found : Members}
    {text rest : List Char}
    (h : membersAfter (keepMember generic) rounds kept text = .ok (found, rest)) :
    ∃ members : Members, found = members.reverse ++ kept := by
  induction rounds generalizing kept text with
  | zero => cases h
  | succ rounds ih =>
    rcases membersAfter_eq_ok_iff.1 h with ⟨-, rfl⟩ | ⟨_, _, next, _, -, -, hmember, h⟩
    · exact ⟨[], rfl⟩
    · obtain ⟨member, -, he⟩ := (keepMember_decodes generic _ _ _ _).1 hmember
      cases he
      obtain ⟨members, rfl⟩ := ih h
      exact ⟨member :: members, by simp⟩

/-- A member that was kept already is the first of those that are kept in the end. The rounds of the
generic loop are given with all members at once; this takes one off, for the round in which it was
read. -/
theorem exists_first_of_membersAfter {generic : Reader Value} {rounds : Nat} {kept members : Members}
    {member : String × Value} {text rest : List Char}
    (h : membersAfter (keepMember generic) rounds (member :: kept) text
      = .ok (members.reverse ++ kept, rest)) :
    ∃ later : Members, members = member :: later ∧
      membersAfter (keepMember generic) rounds (member :: kept) text
        = .ok (later.reverse ++ member :: kept, rest) := by
  obtain ⟨later, hlater⟩ := exists_kept_of_membersAfter h
  have same : members.reverse ++ kept = (member :: later).reverse ++ kept := by
    rw [hlater, List.reverse_cons, List.append_assoc]
    rfl
  refine ⟨later, List.reverse_inj.1 (List.append_cancel_right same), ?_⟩
  rw [← hlater]
  exact h

theorem readMembers_singleton_iff {generic : Reader Value} {member : String × Value}
    {text rest : List Char} :
    readMembers (keepMember generic) [] text = .ok ([member], rest) ↔
      ∃ inside after, skipBlanks text = '"' :: inside ∧
        readPair generic inside = .ok (member, after) ∧ skipBlanks after = '\x7d' :: rest := by
  constructor
  · intro h
    rcases readMembers_eq_ok_iff.1 h with ⟨-, he⟩ | ⟨inside, _, after, htext, hmember, h⟩
    · cases he
    · obtain ⟨first, hpair, he⟩ := (keepMember_decodes generic _ _ _ _).1 hmember
      cases he
      rcases membersAfter_eq_ok_iff.1 h with ⟨hend, he⟩ | ⟨_, _, _, _, -, -, hmember, h⟩
      · cases he
        exact ⟨inside, after, htext, hpair, hend⟩
      · -- a second member would have been kept as well
        obtain ⟨second, -, he⟩ := (keepMember_decodes generic _ _ _ _).1 hmember
        cases he
        obtain ⟨later, hlater⟩ := exists_kept_of_membersAfter h
        have hlength := congrArg List.length hlater
        simp at hlength
  · rintro ⟨inside, after, htext, hpair, hend⟩
    have hkeep := (keepMember_decodes generic [] _ _ _).2 ⟨member, hpair, rfl⟩
    exact readMembers_eq_ok_iff.2 (Or.inr ⟨inside, _, after, htext, hkeep,
      membersAfter_eq_ok_iff.2 (Or.inl ⟨hend, rfl⟩)⟩)

variable {generic : Reader Value} {put : σ → String × Value → Option σ}
  (decodes : step.Decodes generic put)
include decodes

/-- **Both loops take the same members**: from any state and whatever was kept so far. The induction
is on the rounds, which both loops use up alike. It needs both to be arbitrary, since after one
member the one has another state and the other has kept one more. -/
theorem membersAfter_decodes {rounds : Nat} {state found : σ} {text rest : List Char}
    (kept : Members) :
    membersAfter step rounds state text = .ok (found, rest) ↔
      ∃ members : Members,
        membersAfter (keepMember generic) rounds kept text = .ok (members.reverse ++ kept, rest) ∧
          members.foldlM put state = some found := by
  induction rounds generalizing state kept text with
  | zero =>
    constructor
    · intro h
      cases h
    · rintro ⟨_, h, -⟩
      cases h
  | succ rounds ih =>
    constructor
    · intro h
      rcases membersAfter_eq_ok_iff.1 h with
        ⟨htext, rfl⟩ | ⟨before, inside, next, after, htext, hbefore, hmember, h⟩
      · exact ⟨[], membersAfter_eq_ok_iff.2 (Or.inl ⟨htext, rfl⟩), rfl⟩
      · obtain ⟨member, hpair, hput⟩ := (decodes _ _ _ _).1 hmember
        obtain ⟨members, hmembers, hfold⟩ := (ih (member :: kept)).1 h
        have hkeep := (keepMember_decodes generic kept _ _ _).2 ⟨member, hpair, rfl⟩
        refine ⟨member :: members, ?_, ?_⟩
        · rw [List.reverse_cons, List.append_assoc]
          exact membersAfter_eq_ok_iff.2
            (Or.inr ⟨before, inside, _, after, htext, hbefore, hkeep, hmembers⟩)
        · exact Option.bind_eq_some_iff.2 ⟨next, hput, hfold⟩
    · rintro ⟨members, h, hfold⟩
      rcases membersAfter_eq_ok_iff.1 h with
        ⟨htext, hkept⟩ | ⟨before, inside, _, after, htext, hbefore, hmember, h⟩
      · obtain rfl : members = [] := by simpa using hkept.symm
        cases hfold
        exact membersAfter_eq_ok_iff.2 (Or.inl ⟨htext, rfl⟩)
      · obtain ⟨member, hpair, he⟩ := (keepMember_decodes generic _ _ _ _).1 hmember
        cases he
        obtain ⟨later, rfl, hlater⟩ := exists_first_of_membersAfter h
        obtain ⟨next, hput, hfold⟩ := Option.bind_eq_some_iff.1 hfold
        have hnext := (decodes _ _ _ _).2 ⟨member, hpair, hput⟩
        exact membersAfter_eq_ok_iff.2 (Or.inr ⟨before, inside, next, after, htext, hbefore, hnext,
          (ih (member :: kept)).2 ⟨later, hlater, hfold⟩⟩)

theorem readMembers_decodes {state found : σ} {text rest : List Char} :
    readMembers step state text = .ok (found, rest) ↔
      ∃ members : Members,
        readMembers (keepMember generic) [] text = .ok (members.reverse, rest) ∧
          members.foldlM put state = some found := by
  constructor
  · intro h
    rcases readMembers_eq_ok_iff.1 h with
      ⟨htext, rfl⟩ | ⟨inside, next, after, htext, hmember, h⟩
    · exact ⟨[], readMembers_eq_ok_iff.2 (Or.inl ⟨htext, rfl⟩), rfl⟩
    · obtain ⟨member, hpair, hput⟩ := (decodes _ _ _ _).1 hmember
      obtain ⟨members, hmembers, hfold⟩ := (membersAfter_decodes decodes [member]).1 h
      have hkeep := (keepMember_decodes generic [] _ _ _).2 ⟨member, hpair, rfl⟩
      refine ⟨member :: members, ?_, Option.bind_eq_some_iff.2 ⟨next, hput, hfold⟩⟩
      rw [List.reverse_cons]
      exact readMembers_eq_ok_iff.2 (Or.inr ⟨inside, _, after, htext, hkeep, hmembers⟩)
  · rintro ⟨members, h, hfold⟩
    rcases readMembers_eq_ok_iff.1 h with ⟨htext, hkept⟩ | ⟨inside, _, after, htext, hmember, h⟩
    · obtain rfl : members = [] := List.reverse_eq_nil_iff.1 hkept.symm
      cases hfold
      exact readMembers_eq_ok_iff.2 (Or.inl ⟨htext, rfl⟩)
    · obtain ⟨member, hpair, he⟩ := (keepMember_decodes generic _ _ _ _).1 hmember
      cases he
      -- nothing had been kept before the first member
      rw [← List.append_nil members.reverse] at h
      obtain ⟨later, rfl, hlater⟩ := exists_first_of_membersAfter h
      obtain ⟨next, hput, hfold⟩ := Option.bind_eq_some_iff.1 hfold
      have hnext := (decodes _ _ _ _).2 ⟨member, hpair, hput⟩
      exact readMembers_eq_ok_iff.2 (Or.inr ⟨inside, next, after, htext, hnext,
        (membersAfter_decodes decodes [member]).2 ⟨later, hlater, hfold⟩⟩)

end Loops

def Value.members? : Value → Option Members
  | .object members => some members
  | _ => none

/-- **The reader of an object decodes values** when its step does. What is decoded is the list of
all members in the order of the text, a name that comes twice included. -/
theorem readObject_decodes {σ : Type} {step : MemberStep σ} {depth : Nat}
    {put : σ → String × Value → Option σ} (decodes : step.Decodes (readValue depth) put)
    (expected : Expected) (state : σ) :
    Reader.Decodes (readObject expected step state) (readValue (depth + 1)) fun value =>
      value.members?.bind fun members => members.foldlM put state := by
  intro text found rest
  constructor
  · intro h
    obtain ⟨⟨_, inside⟩, hscalar, h⟩ := bind_eq_ok_iff.1 h
    obtain ⟨taken, hlexeme, haccept⟩ := scalar_eq_ok_iff.1 hscalar
    cases taken with
    | openObject =>
      obtain ⟨members, hmembers, hfold⟩ := (readMembers_decodes decodes).1 h
      exact ⟨.object members,
        readValue_object_iff.2 ⟨inside, written_of_lexeme hlexeme, hmembers⟩, hfold⟩
    | _ => cases haccept
  · rintro ⟨value, hvalue, hbind⟩
    obtain ⟨members, hm, hfold⟩ := Option.bind_eq_some_iff.1 hbind
    cases value with
    | object members =>
      cases hm
      obtain ⟨inside, htext, hmembers⟩ := readValue_object_iff.1 hvalue
      refine bind_eq_ok_iff.2 ⟨((), inside), scalar_eq_ok_iff.2 ⟨.openObject, ?_, rfl⟩, ?_⟩
      · rw [htext]
        rfl
      · exact (readMembers_decodes decodes).2 ⟨members, hmembers, hfold⟩
    | _ => cases hm

end Json

open DocTree.Json

/-! ## Kinds

A kind is a name, or an object of one member with this name and no value. The reader takes the
object apart itself, without a loop, and what it takes off the text is said once for all its
branches (`Kind.reader_eq_ok_iff`). That is then compared with a loop that keeps one member. -/

/-- The kind that a value says: its name, or an object of one member with the name and no value.
What the name stands for is not decided here, as every name stands for some kind. -/
def Kind.ofValue? : Value → Option Kind
  | .string text => some (ofName text)
  | .object [(text, .null)] => some (ofName text)
  | _ => none

theorem Kind.reader_eq_ok_iff {text rest : List Char} {kind : Kind} :
    reader text = .ok (kind, rest) ↔ ∃ name, ofName name = kind ∧
      ((∃ inside, skipBlanks text = '"' :: inside ∧ readString inside = .ok (name, rest)) ∨
        ∃ inside quoted named after behind, skipBlanks text = '\x7b' :: inside ∧
          skipBlanks inside = '"' :: quoted ∧ readString quoted = .ok (name, named) ∧
          colon named = .ok ((), after) ∧ lexeme (skipBlanks after) = .ok (.null, behind) ∧
          skipBlanks behind = '\x7d' :: rest) := by
  constructor
  · intro h
    unfold reader at h
    split at h
    case h_1 => cases h
    case h_2 inside htext =>
      obtain ⟨⟨name, after⟩, hname, h⟩ := bind_eq_ok_iff.1 h
      cases h
      exact ⟨name, rfl, Or.inl ⟨inside, htext, hname⟩⟩
    case h_3 inside htext =>
      split at h
      case h_1 => cases h
      case h_2 quoted hinside =>
        obtain ⟨⟨name, named⟩, hname, h⟩ := bind_eq_ok_iff.1 h
        obtain ⟨⟨_, after⟩, hcolon, h⟩ := bind_eq_ok_iff.1 h
        obtain ⟨⟨_, behind⟩, hscalar, h⟩ := bind_eq_ok_iff.1 h
        obtain ⟨taken, hlexeme, haccept⟩ := scalar_eq_ok_iff.1 hscalar
        have hnull : lexeme (skipBlanks after) = .ok (.null, behind) := by
          cases taken with
          | null => exact hlexeme
          | _ => cases haccept
        dsimp only at h
        split at h
        case h_1 => cases h
        case h_2 hend =>
          cases h
          exact ⟨name, rfl, Or.inr ⟨inside, quoted, named, after, behind, htext, hinside, hname,
            hcolon, hnull, hend⟩⟩
        case h_3 => cases h
      case h_3 => cases h
      case h_4 => cases h
    case h_4 => cases h
  · rintro ⟨name, rfl, ⟨inside, htext, hname⟩ |
      ⟨inside, quoted, named, after, behind, htext, hinside, hname, hcolon, hnull, hend⟩⟩
    · simp only [reader, htext]
      exact bind_eq_ok_iff.2 ⟨(name, rest), hname, rfl⟩
    · simp only [reader, htext, hinside]
      refine bind_eq_ok_iff.2 ⟨(name, named), hname, ?_⟩
      refine bind_eq_ok_iff.2 ⟨((), after), hcolon, ?_⟩
      refine bind_eq_ok_iff.2 ⟨((), behind), scalar_eq_ok_iff.2 ⟨.null, hnull, rfl⟩, ?_⟩
      simp only [hend]

theorem Kind.reader_decodes (depth : Nat) :
    Reader.Decodes Kind.reader (readValue (depth + 1)) Kind.ofValue? := by
  intro text kind rest
  rw [reader_eq_ok_iff]
  constructor
  · rintro ⟨name, rfl, ⟨inside, htext, hname⟩ |
      ⟨inside, quoted, named, after, behind, htext, hinside, hname, hcolon, hnull, hend⟩⟩
    · exact ⟨.string name, readValue_string_iff.2 ⟨inside, htext, hname⟩, rfl⟩
    · have hvalue : readValue depth after = .ok (.null, behind) :=
        (readValue_of_lexeme rfl).2 hnull
      have hpair := readPair_eq_ok_iff.2 ⟨named, after, hname, hcolon, hvalue⟩
      have hmembers := readMembers_singleton_iff.2 ⟨quoted, behind, hinside, hpair, hend⟩
      exact ⟨.object [(name, .null)], readValue_object_iff.2 ⟨inside, htext, hmembers⟩, rfl⟩
  · rintro ⟨value, hvalue, hkind⟩
    unfold ofValue? at hkind
    split at hkind
    case h_1 name =>
      cases hkind
      exact ⟨name, rfl, Or.inl (readValue_string_iff.1 hvalue)⟩
    case h_2 name =>
      cases hkind
      obtain ⟨inside, htext, hmembers⟩ := readValue_object_iff.1 hvalue
      obtain ⟨quoted, behind, hinside, hpair, hend⟩ := readMembers_singleton_iff.1 hmembers
      obtain ⟨named, after, hname, hcolon, hvalue⟩ := readPair_eq_ok_iff.1 hpair
      have hnull := (readValue_of_lexeme (rfl : Value.null.lexeme? = some .null)).1 hvalue
      exact ⟨name, rfl, Or.inr ⟨inside, quoted, named, after, behind, htext, hinside, hname,
        hcolon, hnull, hend⟩⟩
    case h_3 => cases hkind

end DocTree
