import DocTree.CommandLine.Arguments
import DocTree.Proofs.Steps
import Mathlib.Logic.Basic

/-!
# What a command line says

Reading takes the arguments one by one and keeps the last option or the last inputs waiting until
the next argument shows that they are complete. Without the waiting it is simple: a command line
lists items, each an option with its value or an input (`Lists`), and each item is taken in turn.
The two agree on every command line that can be read (`readAll_eq_ok_iff`), so what is said about a
command line can be said about its items.

On a command line that cannot be read they need not agree, and nothing is said about it. Which of
two mistakes is reported depends on when the waiting argument is taken, and the message may mention
what was given so far; none of this is in the list of items. So all statements here have the form
that something is read, with what, exactly when.

The waiting is taken out in two steps. First what waits is taken before the next argument is looked
at (`settle`), and it is shown that an argument does the same to the progress so settled. This is
where inputs need care: those that wait together are taken at once, while items are taken one after
the other (`take_files_append`). Then each form of argument is read in a settled state, where it
comes down to taking its items.

An option whose value is still to come is the one thing that cannot be settled. It is kept apart as
the second half of what an argument stands for, and the next argument has to be its value
(`readAll_waitFor`). That it cannot be taken without one (`isTakeable_of_ofOption`) is what makes
every other continuation fail.
-/

set_option autoImplicit false

namespace DocTree.CommandLine

open DocTree.Text

/-! ## Items

What an argument stands for is said by itself, without the arguments around it: some items, and
perhaps an option that the next argument completes. Several letters may share a hyphen, and the
first one that takes a value ends them, with the rest for its value if there is any. -/

/-- An option with its value, if it takes one, or an input. Each input is an item of its own, also
where several stand together. -/
abbrev Item := Argument × List String

def attachedValue : List Char → String
  | '=' :: value => String.ofList value
  | value => String.ofList value

/-- What the letters after a hyphen stand for, and the option that takes the next argument. Letters
of options without a value may precede; the first option with one takes what is left. -/
def ofLetters : List Char → Option (List Item × Option Argument)
  | [] => some ([], none)
  | c :: rest =>
    match Argument.ofLetter? c with
    | none => none
    | some option =>
      if option.takesValue then
        if rest = [] then some ([], some option) else some ([(option, [attachedValue rest])], none)
      else (ofLetters rest).map fun found => ((option, []) :: found.1, found.2)

/-- What the long name of an option stands for, with its value if one is given after it. An option
without a value refuses one that is given. -/
def ofName (name : String) (value : Option String) : Option (List Item × Option Argument) :=
  match Argument.ofLongName? name with
  | none => none
  | some option =>
    match value with
    | some value => if option.takesValue then some ([(option, [value])], none) else none
    | none => if option.takesValue then some ([], some option) else some ([(option, [])], none)

def ofLong (text : List Char) : Option (List Item × Option Argument) :=
  match firstCut (· == '=') text with
  | some cut => ofName (String.ofList cut.before) (some (String.ofList cut.after))
  | none => ofName (String.ofList text) none

def ofOption (argument : String) : Option (List Item × Option Argument) :=
  match argument.toList with
  | '-' :: '-' :: text => ofLong text
  | '-' :: c :: text => ofLetters (c :: text)
  | _ => none

def isBare (argument : String) : Bool :=
  match argument.toList with
  | '-' :: _ :: _ => false
  | _ => true

/-- A command line lists items. The constructors are the forms that an argument can have: the end of
the options, an input, options that are complete, and options of which the last one takes the next
argument. No two of them fit the same command line. -/
inductive Lists : List String → List Item → Prop where
  | nil : Lists [] []
  | ended (files : List String) : Lists ("--" :: files) (files.map fun file => (.files, [file]))
  | file {file : String} {rest : List String} {later : List Item} (bare : isBare file = true)
      (tail : Lists rest later) : Lists (file :: rest) ((.files, [file]) :: later)
  | whole {argument : String} {rest : List String} {items later : List Item}
      (notEnd : argument ≠ "--") (option : ofOption argument = some (items, none))
      (tail : Lists rest later) : Lists (argument :: rest) (items ++ later)
  | pair {argument value : String} {rest : List String} {items later : List Item}
      {waiting : Argument} (notEnd : argument ≠ "--")
      (option : ofOption argument = some (items, some waiting)) (bare : isBare value = true)
      (tail : Lists rest later) :
      Lists (argument :: value :: rest) (items ++ (waiting, [value]) :: later)

/-! ## The forms of an argument

An argument is bare, or it has two hyphens, or one and a letter. Reading and listing both look at
the first two characters, each in its own match; here the three forms are told apart once. -/

section Forms

variable {text : String} {c : Char} {rest : List Char}

theorem isBare_of_hyphen (h : text.toList = '-' :: c :: rest) : isBare text = false := by
  simp [isBare, h]

theorem form_of_not_isBare (h : isBare text = false) :
    (∃ rest, text.toList = '-' :: '-' :: rest) ∨
      ∃ c rest, c ≠ '-' ∧ text.toList = '-' :: c :: rest := by
  rw [isBare] at h
  split at h
  · rename_i c rest hform
    by_cases hc : c = '-'
    · exact .inl ⟨rest, hc ▸ hform⟩
    · exact .inr ⟨c, rest, hc, hform⟩
  · cases h

theorem ofOption_long (h : text.toList = '-' :: '-' :: rest) : ofOption text = ofLong rest := by
  simp [ofOption, h]

theorem ofOption_letters (hc : c ≠ '-') (h : text.toList = '-' :: c :: rest) :
    ofOption text = ofLetters (c :: rest) := by
  simp [ofOption, h]

theorem isBare_of_ofOption {found : List Item × Option Argument}
    (h : ofOption text = some found) : isBare text = false := by
  rw [ofOption] at h
  split at h
  · rename_i hform
    exact isBare_of_hyphen hform
  · rename_i hform
    exact isBare_of_hyphen hform
  · cases h

theorem ne_end_of_isBare (bare : isBare text = true) : text ≠ "--" := by
  rintro rfl
  cases bare

theorem readArgument_long {progress : Progress} (h : text.toList = '-' :: '-' :: rest) :
    progress.readArgument text = progress.readLong rest := by
  simp [Progress.readArgument, h]

theorem readArgument_letters {progress : Progress} (hc : c ≠ '-')
    (h : text.toList = '-' :: c :: rest) :
    progress.readArgument text = progress.readLetters (c :: rest) := by
  simp [Progress.readArgument, h]

theorem readArgument_of_isBare {progress : Progress} (bare : isBare text = true) :
    progress.readArgument text =
      if progress.awaitsValue then .ok (progress.addValue text) else progress.addFile text := by
  rw [Progress.readArgument]
  split
  · rename_i hform
    cases (isBare_of_hyphen hform).symm.trans bare
  · rename_i hform
    cases (isBare_of_hyphen hform).symm.trans bare
  · rfl

end Forms

/-! ## One item

To take an item is to check it, to note it, and to change the request. The three do not depend on
each other, so they are stated as three conditions of one equivalence, and the later sections use
nothing else about taking. -/

def Request.change (request : Request) : Argument → List String → Request
  | .files, values => { request with files := request.files ++ values }
  | .compact, _ => { request with compact := true }
  | .verbose, _ => { request with verbose := true }
  | .output, value :: _ => { request with output := some value }
  | .format, value :: _ => { request with format := value }
  | .parser, value :: _ => { request with parser := value }
  | .linkTemplate, value :: _ => { request with linkTemplate := some value }
  | _, _ => request

/-- Whether a request can have an item: a value is there where one is needed, and help is not asked
for. -/
def isTakeable : Argument → List String → Bool
  | .files, _ => true
  | .compact, _ => true
  | .verbose, _ => true
  | .help, _ => false
  | _, [] => false
  | .output, value :: _ => value != ""
  | _, _ :: _ => true

namespace Progress

def takeAll (progress : Progress) (items : List Item) : Except Stop Progress :=
  items.foldlM (fun progress item => progress.take item.1 item.2) progress

/-- The progress with an option that waits, if there is one. Its values are still empty, which is
what tells it from inputs and from an option that is complete. -/
def waitFor (progress : Progress) (waiting : Option Argument) : Progress :=
  { progress with waiting := waiting.map fun option => (option, []) }

variable {progress next settled done : Progress} {argument : Argument} {values : List String}
variable {text : String}

theorem once_eq_ok_iff {f : Request → Request} :
    progress.once argument f = .ok next ↔ argument ∉ progress.given ∧
      { progress.note argument with request := f progress.request } = next := by
  rw [once]
  by_cases h : argument ∈ progress.given <;> simp [h]

/-- **What taking an item does**: the item has to be a possible one and an option a new one, and
then the request changes and the argument is noted. -/
theorem take_eq_ok_iff :
    progress.take argument values = .ok next ↔ isTakeable argument values = true ∧
      (argument = .files ∨ argument ∉ progress.given) ∧
      { progress.note argument with request := progress.request.change argument values } =
        next := by
  cases argument with
  | files => simp [take, isTakeable, Request.change, note]
  | compact => simp [take, once_eq_ok_iff, isTakeable, Request.change]
  | verbose => simp [take, once_eq_ok_iff, isTakeable, Request.change]
  | help => simp [take, isTakeable]
  | output =>
    cases values with
    | nil => simp [take, isTakeable]
    | cons value rest =>
      by_cases hg : Argument.output ∈ progress.given
      · simp [take, once, hg, bind, Except.bind]
      · by_cases hv : value = "" <;>
          simp [take, once, hg, hv, bind, Except.bind, isTakeable, Request.change]
  | format => cases values <;> simp [take, once_eq_ok_iff, isTakeable, Request.change]
  | parser => cases values <;> simp [take, once_eq_ok_iff, isTakeable, Request.change]
  | linkTemplate => cases values <;> simp [take, once_eq_ok_iff, isTakeable, Request.change]

theorem note_of_mem (h : argument ∈ progress.given) : progress.note argument = progress := by
  simp [note, h]

theorem mem_given_note {option : Argument} :
    option ∈ (progress.note argument).given ↔ option = argument ∨ option ∈ progress.given := by
  rw [note]
  by_cases h : argument ∈ progress.given
  · simp only [List.contains_iff_mem, h, if_true]
    exact ⟨.inr, fun ho => ho.elim (fun heq => heq ▸ h) id⟩
  · simp [h, or_comm]

theorem waiting_of_take (h : progress.take argument values = .ok next) :
    next.waiting = progress.waiting := by
  obtain ⟨-, -, rfl⟩ := take_eq_ok_iff.1 h
  rfl

/-! ## What waits is taken first

Once settled, a progress has nothing waiting, and taking items never makes anything wait. -/

theorem waiting_of_settle (h : progress.settle = .ok settled) : settled.waiting = none := by
  rw [settle] at h
  cases hw : progress.waiting with
  | none =>
    rw [hw] at h
    cases h
    exact hw
  | some entry =>
    rw [hw] at h
    exact waiting_of_take h

theorem settle_of_waiting (h : progress.waiting = none) : progress.settle = .ok progress := by
  rw [settle, h]

theorem waitFor_none (h : progress.waiting = none) : progress.waitFor none = progress := by
  rw [waitFor, Option.map_none, ← h]

theorem takeAll_cons_eq_ok_iff {item : Item} {items : List Item} :
    progress.takeAll (item :: items) = .ok done ↔
      ∃ next, progress.take item.1 item.2 = .ok next ∧ next.takeAll items = .ok done := by
  rw [takeAll, List.foldlM_cons, bind_eq_ok_iff]
  rfl

theorem takeAll_nil_eq_ok_iff : progress.takeAll [] = .ok done ↔ progress = done :=
  ⟨Except.ok.inj, congrArg Except.ok⟩

theorem takeAll_append_eq_ok_iff {front back : List Item} :
    progress.takeAll (front ++ back) = .ok done ↔
      ∃ next, progress.takeAll front = .ok next ∧ next.takeAll back = .ok done := by
  rw [takeAll, List.foldlM_append, bind_eq_ok_iff]
  rfl

theorem waiting_of_takeAll {items : List Item} (h : progress.takeAll items = .ok done) :
    done.waiting = progress.waiting := by
  induction items generalizing progress with
  | nil => rw [takeAll_nil_eq_ok_iff.1 h]
  | cons item rest ih =>
    obtain ⟨next, hn, hd⟩ := takeAll_cons_eq_ok_iff.1 h
    rw [ih hd, waiting_of_take hn]

/-! ## Options

An option is read in a settled state as its items one by one (`Follows`), by induction on the
letters behind a hyphen. That the state may be assumed settled comes afterwards: whatever an option
does, it settles first. -/

theorem isTakeable_of_takesValue {option : Argument} (hmem : option ∈ Argument.options)
    (h : option.takesValue = true) : isTakeable option [] = false := by
  cases option with
  | files => simp [Argument.options] at hmem
  | compact | verbose => cases h
  | _ => rfl

theorem isTakeable_of_ofLetters {cs : List Char} {items : List Item} {option : Argument}
    (h : ofLetters cs = some (items, some option)) : isTakeable option [] = false := by
  induction cs generalizing items with
  | nil => cases h
  | cons c rest ih =>
    rw [ofLetters] at h
    split at h
    · cases h
    · rename_i known hc
      split at h
      · rename_i hv
        split at h
        · cases h
          exact isTakeable_of_takesValue (List.mem_of_find?_eq_some hc) hv
        · cases h
      · obtain ⟨⟨later, waiting⟩, hfound, heq⟩ := Option.map_eq_some_iff.1 h
        cases heq
        exact ih hfound

theorem isTakeable_of_ofLong {cs : List Char} {items : List Item} {option : Argument}
    (h : ofLong cs = some (items, some option)) : isTakeable option [] = false := by
  rw [ofLong] at h
  split at h
  all_goals
    rw [ofName] at h
    split at h
  · cases h
  · dsimp only at h
    split at h <;> cases h
  · cases h
  · rename_i known hc
    dsimp only at h
    split at h
    · rename_i hv
      cases h
      exact isTakeable_of_takesValue (List.mem_of_find?_eq_some hc) hv
    · cases h

theorem isTakeable_of_ofOption {items : List Item} {option : Argument}
    (h : ofOption text = some (items, some option)) : isTakeable option [] = false := by
  rcases form_of_not_isBare (isBare_of_ofOption h) with ⟨rest, hform⟩ | ⟨c, rest, hc, hform⟩
  · rw [ofOption_long hform] at h
    exact isTakeable_of_ofLong h
  · rw [ofOption_letters hc hform] at h
    exact isTakeable_of_ofLetters h

/-- Taking what was found leads from one progress to the next: the items are taken, and the option
without a value is left waiting. -/
def Follows (progress next : Progress) (found : List Item × Option Argument) : Prop :=
  ∃ done, progress.takeAll found.1 = .ok done ∧ next = done.waitFor found.2

theorem follows_nil {waiting : Option Argument} :
    progress.Follows next ([], waiting) ↔ progress.waitFor waiting = next := by
  simp only [Follows, takeAll_nil_eq_ok_iff]
  exact ⟨fun ⟨_, hd, hn⟩ => hd ▸ hn.symm, fun hn => ⟨progress, rfl, hn.symm⟩⟩

theorem follows_cons {item : Item} {items : List Item} {waiting : Option Argument} :
    progress.Follows done (item :: items, waiting) ↔
      ∃ next, progress.take item.1 item.2 = .ok next ∧ next.Follows done (items, waiting) := by
  simp only [Follows, takeAll_cons_eq_ok_iff]
  constructor
  · rintro ⟨last, ⟨next, hn, hl⟩, hd⟩
    exact ⟨next, hn, last, hl, hd⟩
  · rintro ⟨next, hn, last, hl, hd⟩
    exact ⟨last, ⟨next, hn, hl⟩, hd⟩

theorem follows_singleton (h : progress.waiting = none) {item : Item} :
    progress.Follows next ([item], none) ↔ progress.take item.1 item.2 = .ok next := by
  rw [follows_cons]
  constructor
  · rintro ⟨taken, ht, hn⟩
    have hw := (waiting_of_take ht).trans h
    rw [follows_nil, waitFor_none hw] at hn
    exact hn ▸ ht
  · intro ht
    have hw := (waiting_of_take ht).trans h
    exact ⟨next, ht, follows_nil.2 (waitFor_none hw)⟩

/-- One item more in front of all that is found, for the letter that has been read before the
others. -/
theorem exists_follows_cons {item : Item} {later : Option (List Item × Option Argument)} :
    (∃ found, (later.map fun found => (item :: found.1, found.2)) = some found ∧
        progress.Follows next found) ↔
      ∃ taken, progress.take item.1 item.2 = .ok taken ∧
        ∃ found, later = some found ∧ taken.Follows next found := by
  cases later with
  | none => simp
  | some found => simp [follows_cons]

theorem add_settled (h : progress.waiting = none) :
    progress.add argument values = progress.take argument values := by
  rw [add, settle_of_waiting h]
  rfl

theorem await_settled (h : progress.waiting = none) :
    progress.await argument = .ok (progress.waitFor (some argument)) := by
  rw [await, settle_of_waiting h]
  rfl

theorem readLetters_settled (h : progress.waiting = none) {cs : List Char} :
    progress.readLetters cs = .ok next ↔
      ∃ found, ofLetters cs = some found ∧ progress.Follows next found := by
  induction cs generalizing progress with
  | nil => simp [readLetters, ofLetters, follows_nil, waitFor_none h]
  | cons c rest ih =>
    rw [readLetters, ofLetters]
    cases hc : Argument.ofLetter? c with
    | none => exact iff_of_false nofun nofun
    | some option =>
      dsimp only
      by_cases hv : option.takesValue = true
      · simp only [hv, Bool.not_true, Bool.false_eq_true, if_false, if_true]
        cases rest with
        | nil => simp [await_settled h, follows_nil]
        | cons d others =>
          rw [if_neg (List.cons_ne_nil d others)]
          by_cases hd : d = '='
          · subst hd
            simp [add_settled h, follows_singleton h, attachedValue]
          · simp [add_settled h, follows_singleton h, attachedValue, hd]
      · simp only [hv, Bool.not_false, if_true, add_settled h, bind_eq_ok_iff]
        rw [if_neg Bool.false_ne_true, exists_follows_cons]
        exact exists_congr fun taken => and_congr_right fun ht => ih ((waiting_of_take ht).trans h)

theorem readLong_settled (h : progress.waiting = none) {text : List Char} :
    progress.readLong text = .ok next ↔
      ∃ found, ofLong text = some found ∧ progress.Follows next found := by
  rw [readLong, ofLong]
  cases firstCut (· == '=') text with
  | none =>
    dsimp only
    rw [ofName]
    cases Argument.ofLongName? (String.ofList text) with
    | none => exact iff_of_false nofun nofun
    | some option =>
      by_cases hv : option.takesValue = true
      · simp [hv, await_settled h, follows_nil]
      · simp [hv, add_settled h, follows_singleton h]
  | some cut =>
    dsimp only
    rw [ofName]
    cases Argument.ofLongName? (String.ofList cut.before) with
    | none => exact iff_of_false nofun nofun
    | some option =>
      by_cases hv : option.takesValue = true
      · simp [hv, add_settled h, follows_singleton h]
      · simp [hv]

/-- Nothing is read while what waits cannot be taken. The empty text is left out, since reading no
letters does not settle anything. -/
theorem readLetters_eq_ok_iff {c : Char} {cs : List Char} :
    progress.readLetters (c :: cs) = .ok next ↔
      ∃ settled, progress.settle = .ok settled ∧ settled.readLetters (c :: cs) = .ok next := by
  rw [readLetters]
  cases hs : progress.settle with
  | error stop =>
    refine iff_of_false ?_ nofun
    simp only [add, await, hs, bind, Except.bind]
    cases Argument.ofLetter? c with
    | none => exact nofun
    | some option =>
      dsimp only
      split
      · exact nofun
      · split <;> exact nofun
  | ok settled =>
    simp only [Except.ok.injEq, exists_eq_left', readLetters, add, await, hs,
      settle_of_waiting (waiting_of_settle hs)]

theorem readLong_eq_ok_iff {text : List Char} :
    progress.readLong text = .ok next ↔
      ∃ settled, progress.settle = .ok settled ∧ settled.readLong text = .ok next := by
  rw [readLong]
  cases hs : progress.settle with
  | error stop =>
    refine iff_of_false ?_ nofun
    simp only [add, await, hs, bind, Except.bind, ite_self]
    cases firstCut (· == '=') text with
    | none => cases Argument.ofLongName? (String.ofList text) <;> exact nofun
    | some cut =>
      dsimp only
      cases Argument.ofLongName? (String.ofList cut.before) with
      | none => exact nofun
      | some option =>
        dsimp only
        split <;> exact nofun
  | ok settled =>
    simp only [Except.ok.injEq, exists_eq_left', readLong, add, await, hs,
      settle_of_waiting (waiting_of_settle hs)]
    -- a complaint may mention other arguments, but is one as before
    split <;> split <;> simp

/-- **An option on the command line** is taken after what waits. The two conditions do not depend on
each other: what the argument stands for is found in it alone. -/
theorem readArgument_eq_ok_iff (option : isBare text = false) :
    progress.readArgument text = .ok next ↔
      ∃ settled found, progress.settle = .ok settled ∧ ofOption text = some found ∧
        settled.Follows next found := by
  simp only [exists_and_left]
  rcases form_of_not_isBare option with ⟨rest, hform⟩ | ⟨c, rest, hc, hform⟩
  · rw [readArgument_long hform, ofOption_long hform, readLong_eq_ok_iff]
    exact exists_congr fun settled => and_congr_right fun hs =>
      readLong_settled (waiting_of_settle hs)
  · rw [readArgument_letters hc hform, ofOption_letters hc hform, readLetters_eq_ok_iff]
    exact exists_congr fun settled => and_congr_right fun hs =>
      readLetters_settled (waiting_of_settle hs)

/-! ## Inputs

Inputs are the one thing that is collected. The first one settles what waits and begins to wait
itself, and each further one is added to it, so a settled state is behind by all inputs since the
last option. -/

/-- Inputs that wait together are taken as they would be one after the other. They are the only
argument that may be noted twice. -/
theorem take_files_append {front back : List String}
    (h : progress.take .files front = .ok settled) :
    progress.take .files (front ++ back) = settled.take .files back := by
  obtain ⟨-, -, hs⟩ := take_eq_ok_iff.1 h
  have hgiven : Argument.files ∈ settled.given := hs ▸ mem_given_note.2 (.inl rfl)
  -- the second time there is nothing to note
  simp only [take, note_of_mem hgiven]
  simp only [← hs, Request.change, List.append_assoc]

/-- **An input on the command line** is taken after what waits, once that is complete. It waits
itself from then on, so the effect is seen when the next progress is settled. -/
theorem addFile_of_settle (file : String) (h : progress.settle = .ok settled) :
    ∃ next, progress.addFile file = .ok next ∧ next.awaitsValue = false ∧
      next.settle = settled.take .files [file] := by
  rw [addFile]
  split
  case h_1 values hw =>
    refine ⟨_, rfl, by simp [awaitsValue, addValue, hw], ?_⟩
    rw [settle, hw] at h
    simpa only [settle, addValue, hw, Option.map_some] using take_files_append h
  case h_2 =>
    rw [h]
    exact ⟨_, rfl, rfl, by simp [settle, ← waiting_of_settle h]⟩

theorem settle_of_addFile {file : String} (h : progress.addFile file = .ok next) :
    ∃ settled, progress.settle = .ok settled ∧ next.awaitsValue = false ∧
      next.settle = settled.take .files [file] := by
  cases hs : progress.settle with
  | error stop =>
    rw [addFile] at h
    split at h
    case h_1 values hw =>
      rw [settle, hw] at hs
      cases hs
    case h_2 =>
      rw [hs] at h
      cases h
  | ok settled =>
    obtain ⟨added, hadded, hready, hsettle⟩ := addFile_of_settle file hs
    cases hadded.symm.trans h
    exact ⟨settled, rfl, hready, hsettle⟩

theorem addFiles_eq_ok_iff {files : List String} {last : Progress} :
    (do let done ← files.foldlM addFile progress; done.settle) = .ok last ↔
      ∃ settled, progress.settle = .ok settled ∧
        settled.takeAll (files.map fun file => (.files, [file])) = .ok last := by
  induction files generalizing progress with
  | nil =>
    simp only [List.map_nil, takeAll_nil_eq_ok_iff, exists_eq_right]
    rfl
  | cons file rest ih =>
    rw [List.foldlM_cons]
    constructor
    · intro h
      obtain ⟨added, hfold, hlast⟩ := bind_eq_ok_iff.1 h
      obtain ⟨next, hn, hrest⟩ := bind_eq_ok_iff.1 hfold
      obtain ⟨settled, hs, -, hnext⟩ := settle_of_addFile hn
      obtain ⟨taken, htaken, htake⟩ := ih.1 (bind_eq_ok_iff.2 ⟨added, hrest, hlast⟩)
      exact ⟨settled, hs, takeAll_cons_eq_ok_iff.2 ⟨taken, hnext.symm.trans htaken, htake⟩⟩
    · rintro ⟨settled, hs, hlast⟩
      obtain ⟨taken, htaken, htake⟩ := takeAll_cons_eq_ok_iff.1 hlast
      obtain ⟨next, hn, -, hnext⟩ := addFile_of_settle file hs
      obtain ⟨added, hrest, hlast⟩ := bind_eq_ok_iff.1 (ih.2 ⟨taken, hnext.trans htaken, htake⟩)
      exact bind_eq_ok_iff.2 ⟨added, bind_eq_ok_iff.2 ⟨next, hn, hrest⟩, hlast⟩

/-! ## The value of an option

An option that waits for its value is in an unfinished state: it can neither be settled nor be
followed by an option. So the next argument must be a value, and then the state is as it would be
had the value been attached. -/

theorem awaitsValue_waitFor {option : Argument} (h : isTakeable option [] = false) :
    (progress.waitFor (some option)).awaitsValue = true := by
  cases option with
  | files => cases h
  | _ => rfl

theorem settle_waitFor {option : Argument} (h : isTakeable option [] = false) :
    (progress.waitFor (some option)).settle ≠ .ok settled := by
  intro hs
  obtain ⟨htake, -⟩ := take_eq_ok_iff.1 hs
  cases h.symm.trans htake

theorem awaitsValue_withValue {option : Argument} {value : String} :
    { progress with waiting := some (option, [value]) }.awaitsValue = false := by
  cases option <;> rfl

theorem settle_withValue (h : progress.waiting = none) {option : Argument} {value : String} :
    { progress with waiting := some (option, [value]) }.settle = progress.take option [value] := by
  show Progress.take { progress with waiting := none } option [value] = _
  rw [← h]

/-- **An option that waits for its value** takes the next argument, which has to be there and to be
no option itself. -/
theorem readAll_waitFor {option : Argument} (h : isTakeable option [] = false)
    {arguments : List String} {last : Progress} :
    (progress.waitFor (some option)).readAll arguments = .ok last ↔
      ∃ value rest, arguments = value :: rest ∧ isBare value = true ∧
        { progress with waiting := some (option, [value]) }.readAll rest = .ok last := by
  cases arguments with
  | nil => exact iff_of_false (settle_waitFor h) nofun
  | cons argument rest =>
    -- the end of the options is no value, and neither is another option
    by_cases he : argument = "--"
    · subst he
      refine iff_of_false ?_ ?_
      · rw [readAll, if_pos rfl, addFiles_eq_ok_iff]
        rintro ⟨settled, hs, -⟩
        exact settle_waitFor h hs
      · rintro ⟨value, others, heq, hbare, -⟩
        cases heq
        cases hbare
    · rw [readAll, if_neg he]
      by_cases hb : isBare argument = true
      · rw [readArgument_of_isBare hb, if_pos (awaitsValue_waitFor h)]
        constructor
        · exact fun hr => ⟨argument, rest, rfl, hb, hr⟩
        · rintro ⟨value, others, heq, -, hr⟩
          cases heq
          exact hr
      · refine iff_of_false ?_ ?_
        · intro hr
          obtain ⟨next, hn, -⟩ := bind_eq_ok_iff.1 hr
          obtain ⟨settled, _, hs, -⟩ :=
            (readArgument_eq_ok_iff (Bool.eq_false_iff.2 hb)).1 hn
          exact settle_waitFor h hs
        · rintro ⟨value, others, heq, hbare, -⟩
          cases heq
          exact hb hbare

/-! ## Whole command lines

The two directions are two inductions, one over the items that are listed and one over the
arguments. They share the lemmas about one argument above, and in each of them the state may have
inputs waiting: they are settled in one place and not in the other. -/

theorem readAll_of_lists {arguments : List String} {items : List Item} {last : Progress}
    (h : Lists arguments items) (ready : progress.awaitsValue = false)
    (hs : progress.settle = .ok settled) (hlast : settled.takeAll items = .ok last) :
    progress.readAll arguments = .ok last := by
  induction h generalizing progress settled with
  | nil => rw [readAll, hs, takeAll_nil_eq_ok_iff.1 hlast]
  | ended files =>
    rw [readAll, if_pos rfl, addFiles_eq_ok_iff]
    exact ⟨settled, hs, hlast⟩
  | @file file rest later bare tail ih =>
    obtain ⟨taken, htaken, hlast⟩ := takeAll_cons_eq_ok_iff.1 hlast
    obtain ⟨next, hn, hready, hnext⟩ := addFile_of_settle file hs
    rw [readAll, if_neg (ne_end_of_isBare bare), readArgument_of_isBare bare, ready]
    exact bind_eq_ok_iff.2 ⟨next, hn, ih hready (hnext.trans htaken) hlast⟩
  | @whole argument rest items later notEnd option tail ih =>
    obtain ⟨taken, htaken, hlast⟩ := takeAll_append_eq_ok_iff.1 hlast
    have hw := (waiting_of_takeAll htaken).trans (waiting_of_settle hs)
    rw [readAll, if_neg notEnd, bind_eq_ok_iff]
    refine ⟨taken, (readArgument_eq_ok_iff (isBare_of_ofOption option)).2
      ⟨settled, _, hs, option, taken, htaken, (waitFor_none hw).symm⟩, ?_⟩
    exact ih (by rw [awaitsValue, hw]) (settle_of_waiting hw) hlast
  | @pair argument value rest items later waiting notEnd option bare tail ih =>
    obtain ⟨taken, htaken, hlast⟩ := takeAll_append_eq_ok_iff.1 hlast
    obtain ⟨next, hn, hlast⟩ := takeAll_cons_eq_ok_iff.1 hlast
    have hw := (waiting_of_takeAll htaken).trans (waiting_of_settle hs)
    rw [readAll, if_neg notEnd, bind_eq_ok_iff]
    refine ⟨taken.waitFor (some waiting), (readArgument_eq_ok_iff (isBare_of_ofOption option)).2
      ⟨settled, _, hs, option, taken, htaken, rfl⟩, ?_⟩
    rw [readAll_waitFor (isTakeable_of_ofOption option)]
    exact ⟨value, rest, rfl, bare, ih awaitsValue_withValue ((settle_withValue hw).trans hn) hlast⟩

theorem lists_of_readAll {last : Progress} : ∀ {arguments : List String} {progress : Progress},
    progress.awaitsValue = false → progress.readAll arguments = .ok last →
      ∃ items settled, Lists arguments items ∧ progress.settle = .ok settled ∧
        settled.takeAll items = .ok last
  | [], _, _, h => ⟨[], last, .nil, h, takeAll_nil_eq_ok_iff.2 rfl⟩
  | argument :: rest, progress, ready, h => by
    rw [readAll] at h
    split at h
    · rename_i he
      subst he
      obtain ⟨settled, hs, hlast⟩ := addFiles_eq_ok_iff.1 h
      exact ⟨_, settled, .ended rest, hs, hlast⟩
    · rename_i notEnd
      obtain ⟨next, hn, hr⟩ := bind_eq_ok_iff.1 h
      cases bare : isBare argument with
      | true =>
        rw [readArgument_of_isBare bare, ready] at hn
        obtain ⟨settled, hs, hready, hsettle⟩ := settle_of_addFile hn
        obtain ⟨items, taken, htail, ht, hlast⟩ := lists_of_readAll hready hr
        exact ⟨_, settled, .file bare htail, hs,
          takeAll_cons_eq_ok_iff.2 ⟨taken, hsettle.symm.trans ht, hlast⟩⟩
      | false =>
        obtain ⟨settled, ⟨items, waiting⟩, hs, option, taken, htaken, rfl⟩ :=
          (readArgument_eq_ok_iff bare).1 hn
        have hw := (waiting_of_takeAll htaken).trans (waiting_of_settle hs)
        cases waiting with
        | none =>
          rw [waitFor_none hw] at hr
          obtain ⟨later, _, htail, ht, hlast⟩ :=
            lists_of_readAll (by rw [awaitsValue, hw]) hr
          cases (settle_of_waiting hw).symm.trans ht
          exact ⟨_, settled, .whole notEnd option htail, hs,
            takeAll_append_eq_ok_iff.2 ⟨taken, htaken, hlast⟩⟩
        | some waiting =>
          -- two arguments are used up here, so this recursion is not one on the tail
          obtain ⟨value, others, rfl, bare, hr⟩ :=
            (readAll_waitFor (isTakeable_of_ofOption option)).1 hr
          obtain ⟨later, next, htail, ht, hlast⟩ := lists_of_readAll awaitsValue_withValue hr
          exact ⟨_, settled, .pair notEnd option bare htail, hs, takeAll_append_eq_ok_iff.2
            ⟨taken, htaken, takeAll_cons_eq_ok_iff.2
              ⟨next, (settle_withValue hw).symm.trans ht, hlast⟩⟩⟩

/-- **Reading is taking**: a command line can be read exactly when it lists items that can be taken
one by one. -/
theorem readAll_eq_ok_iff {arguments : List String} {last : Progress}
    (ready : progress.awaitsValue = false) :
    progress.readAll arguments = .ok last ↔ ∃ items settled, Lists arguments items ∧
      progress.settle = .ok settled ∧ settled.takeAll items = .ok last := by
  constructor
  · exact lists_of_readAll ready
  · rintro ⟨items, settled, h, hs, hlast⟩
    exact readAll_of_lists h ready hs hlast

end Progress

/-! ## The request of a command line

With the waiting gone, the items of a command line can be looked at all together: each has to be a
possible one, and no option may come twice. In what order they stand matters for the values only. -/

def optionsOf (items : List Item) : List Argument :=
  (items.map Prod.fst).filter fun argument => argument != .files

def Request.changeAll (request : Request) (items : List Item) : Request :=
  items.foldl (fun request item => request.change item.1 item.2) request

theorem Progress.exists_takeAll_iff (progress : Progress) {items : List Item} {request : Request} :
    (∃ last, progress.takeAll items = .ok last ∧ last.request = request) ↔
      (∀ item ∈ items, isTakeable item.1 item.2 = true) ∧ (optionsOf items).Nodup ∧
        (∀ option ∈ optionsOf items, option ∉ progress.given) ∧
        progress.request.changeAll items = request := by
  induction items generalizing progress with
  | nil => simp [takeAll_nil_eq_ok_iff, optionsOf, Request.changeAll]
  | cons item rest ih =>
    obtain ⟨argument, values⟩ := item
    have hstep : (∃ last, progress.takeAll ((argument, values) :: rest) = .ok last ∧
        last.request = request) ↔ isTakeable argument values = true ∧
          (argument = .files ∨ argument ∉ progress.given) ∧
          ∃ last, takeAll { progress.note argument with
            request := progress.request.change argument values } rest = .ok last ∧
            last.request = request := by
      simp only [takeAll_cons_eq_ok_iff, take_eq_ok_iff]
      grind
    rw [hstep, ih]
    simp only [mem_given_note, List.forall_mem_cons]
    show _ ↔ (_ ∧ _) ∧ _ ∧ _ ∧ (progress.request.change argument values).changeAll rest = request
    -- inputs may come again, so they are noted but not counted
    by_cases hf : argument = .files
    · subst hf
      have hoptions : optionsOf ((.files, values) :: rest) = optionsOf rest := rfl
      have hne : ∀ option ∈ optionsOf rest, option ≠ .files := fun option h => by
        simpa using (List.mem_filter.1 h).2
      rw [hoptions]
      grind
    · have hoptions : optionsOf ((argument, values) :: rest) = argument :: optionsOf rest := by
        simp [optionsOf, hf]
      rw [hoptions, List.nodup_cons, List.forall_mem_cons]
      grind

/-- **The request of a command line** is that of its items, in which no option comes twice. Items of
several kinds may stand in any order and inputs anywhere between them. -/
theorem Request.read_eq_ok_iff {arguments : List String} {request : Request} :
    Request.read arguments = .ok request ↔ ∃ items, Lists arguments items ∧
      (∀ item ∈ items, isTakeable item.1 item.2 = true) ∧ (optionsOf items).Nodup ∧
        Request.usual.changeAll items = request := by
  have ready : Progress.start.awaitsValue = false := rfl
  simp only [Request.read, map_eq_ok_iff, Progress.readAll_eq_ok_iff ready]
  constructor
  · rintro ⟨last, ⟨items, settled, hlists, hs, hlast⟩, hrequest⟩
    cases hs
    obtain ⟨htakeable, hnodup, -, hchange⟩ :=
      Progress.start.exists_takeAll_iff.1 ⟨last, hlast, hrequest⟩
    exact ⟨items, hlists, htakeable, hnodup, hchange⟩
  · rintro ⟨items, hlists, htakeable, hnodup, hchange⟩
    obtain ⟨last, hlast, hrequest⟩ := Progress.start.exists_takeAll_iff.2
      ⟨htakeable, hnodup, fun option _ => List.not_mem_nil, hchange⟩
    exact ⟨last, ⟨items, _, hlists, rfl, hlast⟩, hrequest⟩

end DocTree.CommandLine
