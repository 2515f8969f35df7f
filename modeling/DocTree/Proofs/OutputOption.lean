import DocTree.Proofs.CommandLines
import Mathlib.Data.List.Nodup

/-!
# The option for the output

Where on a command line the file to write to is given, and what is left of the command line without
it. The option has several forms: the path is the next argument, or stands in the same argument
after the name, and then letters of other options may come first. `takeOutput` looks for them in the
text, without reading anything else; it finds the option exactly where reading finds it
(`takeOutput_of_lists`), and the request of what is left differs in the output only
(`read_of_takeOutput`).

That the option is sought in the text is what makes a comparison of two runs mean something. Had it
been taken from the request, then the run without the option would be known only as one with another
request, and whether there is such a command line would be open.

The work is in the options that share an argument. In `-vodocs.json` the first letter stays and
becomes an argument of its own, and what follows the second one is the path. Behind a letter whose
option takes a value nothing is a letter any more, so `-fo` gives no output; and two hyphens end the
options altogether. Each of these has a case in `Lists`, and the induction goes over these cases.

Nothing is claimed of command lines that cannot be read. There the text may have what looks like the
option, while reading fails before it comes to it.
-/

set_option autoImplicit false

namespace DocTree.CommandLine

open DocTree.Text

/-! ## Looking for the option

These functions are specifications, and they know only which letters stand for options and which of
those take a value. The position is found from the left, and the first one counts. -/

/-- The letters before that of the output option, and the text after it. What follows the letter of
an option with a value is that value. -/
def cutAtOutput : List Char → Option (List Char × List Char)
  | [] => none
  | c :: rest =>
    match Argument.ofLetter? c with
    | none => none
    | some option =>
      if option = .output then some ([], rest)
      else if option.takesValue then none
      else (cutAtOutput rest).map fun cut => (c :: cut.1, cut.2)

def lettersArgument (letters : List Char) : List String :=
  if letters = [] then [] else [String.ofList ('-' :: letters)]

/-- Nothing is left of two hyphens and the name of the output option; the path may follow. -/
def outputLong (text : List Char) : Option (List String × Option String) :=
  match firstCut (· == '=') text with
  | some cut =>
    if String.ofList cut.before = "output" then some ([], some (String.ofList cut.after)) else none
  | none => if String.ofList text = "output" then some ([], none) else none

/-- The argument without the output option, if it gives that, and the path if it has it too. -/
def outputPart (argument : String) : Option (List String × Option String) :=
  match argument.toList with
  | '-' :: '-' :: text => outputLong text
  | '-' :: c :: text =>
    (cutAtOutput (c :: text)).map fun cut =>
      (lettersArgument cut.1, if cut.2 = [] then none else some (attachedValue cut.2))
  | _ => none

def takeOutput : List String → Option (String × List String)
  | [] => none
  | argument :: rest =>
    if argument = "--" then none
    else
      match outputPart argument, rest with
      | some (kept, some path), _ => some (path, kept ++ rest)
      | some (kept, none), path :: others => some (path, kept ++ others)
      | some (_, none), [] => none
      | none, _ => (takeOutput rest).map fun found => (found.1, argument :: found.2)

/-! ## One argument

What an argument stands for, with and without the option. If it gives the option, then what is left
of it is an argument for the items before, or nothing if there are none; both are again things that
a command line can list. -/

/-- Where the option is found: it comes after some items, and its path stands in the same argument
or is the next one. -/
def withOutput (items : List Item) : Option String → List Item × Option Argument
  | some path => (items ++ [(.output, [path])], none)
  | none => (items, some .output)

def WithoutOutput (found : List Item × Option Argument) : Prop :=
  (∀ item ∈ found.1, item.1 ≠ .output) ∧ found.2 ≠ some .output

theorem withoutOutput_nil : WithoutOutput ([], none) := by simp [WithoutOutput]

theorem withoutOutput_item {option : Argument} {values : List String} (h : option ≠ .output) :
    WithoutOutput ([(option, values)], none) := by
  simp [WithoutOutput, h]

theorem withoutOutput_waiting {option : Argument} (h : option ≠ .output) :
    WithoutOutput ([], some option) := by
  simp [WithoutOutput, h]

theorem ofLetters_of_cutAtOutput {cs : List Char} {stands : List Item × Option Argument}
    (h : ofLetters cs = some stands) :
    (cutAtOutput cs = none ∧ WithoutOutput stands) ∨
      ∃ before after items, cutAtOutput cs = some (before, after) ∧
        ofLetters before = some (items, none) ∧
        stands = withOutput items (if after = [] then none else some (attachedValue after)) := by
  induction cs generalizing stands with
  | nil =>
    cases h
    exact .inl ⟨rfl, withoutOutput_nil⟩
  | cons c rest ih =>
    rw [ofLetters] at h
    rw [cutAtOutput]
    cases hc : Argument.ofLetter? c with
    | none =>
      rw [hc] at h
      cases h
    | some option =>
      rw [hc] at h
      dsimp only at h ⊢
      by_cases ho : option = .output
      · subst ho
        refine .inr ⟨[], rest, [], if_pos rfl, rfl, ?_⟩
        have hv : Argument.takesValue .output = true := rfl
        rw [if_pos hv] at h
        by_cases hrest : rest = []
        · rw [if_pos hrest] at h ⊢
          exact (Option.some.inj h).symm
        · rw [if_neg hrest] at h ⊢
          exact (Option.some.inj h).symm
      · rw [if_neg ho]
        split at h
        · rename_i hv
          -- the rest is the value of this option, and no letter in it counts
          refine .inl ⟨if_pos hv, ?_⟩
          split at h
          · cases h
            exact withoutOutput_waiting ho
          · cases h
            exact withoutOutput_item ho
        · rename_i hv
          rw [if_neg hv]
          obtain ⟨later, hlater, rfl⟩ := Option.map_eq_some_iff.1 h
          rcases ih hlater with
            ⟨hnone, hitems, hwaiting⟩ | ⟨before, after, items, hcut, hbefore, rfl⟩
          · refine .inl ⟨by rw [hnone]; rfl, ?_, hwaiting⟩
            exact List.forall_mem_cons.2 ⟨ho, hitems⟩
          · refine .inr ⟨c :: before, after, (option, []) :: items, by rw [hcut]; rfl, ?_, ?_⟩
            · rw [ofLetters, hc]
              dsimp only
              rw [if_neg hv, hbefore]
              rfl
            · split <;> rfl

theorem ofLongName?_eq_output_iff {name : String} :
    Argument.ofLongName? name = some .output ↔ name = "output" := by
  constructor
  · intro h
    have hname := List.find?_some h
    exact (beq_iff_eq.1 hname).symm
  · rintro rfl
    rfl

theorem ofName_output {value : Option String} {stands : List Item × Option Argument}
    (h : ofName "output" value = some stands) : stands = withOutput [] value := by
  cases value <;> exact (Option.some.inj h).symm

theorem withoutOutput_of_ofName {name : String} {value : Option String}
    {stands : List Item × Option Argument} (hname : name ≠ "output")
    (h : ofName name value = some stands) : WithoutOutput stands := by
  rw [ofName] at h
  split at h
  · cases h
  · rename_i option hoption
    have ho : option ≠ .output := by
      rintro rfl
      exact hname (ofLongName?_eq_output_iff.1 hoption)
    split at h
    · split at h
      · cases h
        exact withoutOutput_item ho
      · cases h
    · split at h
      · cases h
        exact withoutOutput_waiting ho
      · cases h
        exact withoutOutput_item ho

theorem lists_lettersArgument {letters : List Char} {items : List Item}
    (h : ofLetters letters = some (items, none)) {rest : List String} {later : List Item}
    (tail : Lists rest later) : Lists (lettersArgument letters ++ rest) (items ++ later) := by
  cases letters with
  | nil =>
    cases h
    exact tail
  | cons c others =>
    have hc : c ≠ '-' := by
      rintro rfl
      cases h
    rw [lettersArgument, if_neg (List.cons_ne_nil c others)]
    refine .whole ?_ ?_ tail
    · intro he
      have hlist := congrArg String.toList he
      rw [String.toList_ofList] at hlist
      cases hlist
      exact hc rfl
    · rw [ofOption_letters hc String.toList_ofList]
      exact h

theorem outputPart_long {argument : String} {text : List Char}
    (h : argument.toList = '-' :: '-' :: text) : outputPart argument = outputLong text := by
  simp [outputPart, h]

theorem outputPart_letters {argument : String} {c : Char} {text : List Char} (hc : c ≠ '-')
    (h : argument.toList = '-' :: c :: text) :
    outputPart argument = (cutAtOutput (c :: text)).map fun cut =>
      (lettersArgument cut.1, if cut.2 = [] then none else some (attachedValue cut.2)) := by
  simp [outputPart, h]

theorem outputPart_of_isBare {argument : String} (bare : isBare argument = true) :
    outputPart argument = none := by
  rw [outputPart]
  split
  · rename_i hform
    cases (isBare_of_hyphen hform).symm.trans bare
  · rename_i hform
    cases (isBare_of_hyphen hform).symm.trans bare
  · rfl

theorem outputLong_of_ofLong {text : List Char} {stands : List Item × Option Argument}
    (h : ofLong text = some stands) :
    (outputLong text = none ∧ WithoutOutput stands) ∨
      ∃ path, outputLong text = some ([], path) ∧ stands = withOutput [] path := by
  rw [ofLong] at h
  rw [outputLong]
  cases hcut : firstCut (· == '=') text with
  | none =>
    rw [hcut] at h
    by_cases hname : String.ofList text = "output"
    · rw [hname] at h
      exact .inr ⟨_, if_pos hname, ofName_output h⟩
    · exact .inl ⟨if_neg hname, withoutOutput_of_ofName hname h⟩
  | some cut =>
    rw [hcut] at h
    by_cases hname : String.ofList cut.before = "output"
    · dsimp only at h
      rw [hname] at h
      exact .inr ⟨_, if_pos hname, ofName_output h⟩
    · exact .inl ⟨if_neg hname, withoutOutput_of_ofName hname h⟩

/-- **An argument gives the output option as a text exactly when it stands for it**, and what is
left of it stands for its other items. -/
theorem outputPart_of_ofOption {argument : String} {stands : List Item × Option Argument}
    (h : ofOption argument = some stands) :
    (outputPart argument = none ∧ WithoutOutput stands) ∨
      ∃ kept path items, outputPart argument = some (kept, path) ∧ stands = withOutput items path ∧
        ∀ {rest later}, Lists rest later → Lists (kept ++ rest) (items ++ later) := by
  rcases form_of_not_isBare (isBare_of_ofOption h) with ⟨text, hform⟩ | ⟨c, text, hc, hform⟩
  · rw [ofOption_long hform] at h
    rw [outputPart_long hform]
    rcases outputLong_of_ofLong h with hnone | ⟨path, hsome, hstands⟩
    · exact .inl hnone
    · exact .inr ⟨[], path, [], hsome, hstands, fun tail => tail⟩
  · rw [ofOption_letters hc hform] at h
    rw [outputPart_letters hc hform]
    rcases ofLetters_of_cutAtOutput h with
      ⟨hnone, hfree⟩ | ⟨before, after, items, hcut, hbefore, hstands⟩
    · exact .inl ⟨by rw [hnone]; rfl, hfree⟩
    · exact .inr ⟨_, _, items, by rw [hcut]; rfl, hstands, lists_lettersArgument hbefore⟩

/-! ## The command line

By induction on how the command line lists its items. An argument without the option goes in front
of what is left of the others; the one that has it ends the search. -/

theorem takeOutput_cons {argument : String} (rest : List String) (notEnd : argument ≠ "--")
    (h : outputPart argument = none) : takeOutput (argument :: rest) =
      (takeOutput rest).map fun found => (found.1, argument :: found.2) := by
  simp only [takeOutput, if_neg notEnd, h]

/-- **The output option is found as a text exactly where it is listed**, and what is left of the
command line lists all other items. -/
theorem takeOutput_of_lists {arguments : List String} {items : List Item}
    (h : Lists arguments items) :
    (takeOutput arguments = none ∧ ∀ item ∈ items, item.1 ≠ .output) ∨
      ∃ path others front back, takeOutput arguments = some (path, others) ∧
        items = front ++ (.output, [path]) :: back ∧ Lists others (front ++ back) := by
  induction h with
  | nil => exact .inl ⟨rfl, nofun⟩
  | ended files =>
    refine .inl ⟨rfl, ?_⟩
    intro item hitem
    obtain ⟨file, -, rfl⟩ := List.mem_map.1 hitem
    exact Argument.noConfusion
  | @file file rest later bare tail ih =>
    have hcons := takeOutput_cons rest (ne_end_of_isBare bare) (outputPart_of_isBare bare)
    rcases ih with ⟨hnone, hlater⟩ | ⟨path, others, front, back, hsome, rfl, hothers⟩
    · exact .inl ⟨by rw [hcons, hnone]; rfl, List.forall_mem_cons.2 ⟨Argument.noConfusion, hlater⟩⟩
    · exact .inr ⟨path, file :: others, (.files, [file]) :: front, back, by rw [hcons, hsome]; rfl,
        rfl, .file bare hothers⟩
  | @whole argument rest items later notEnd option tail ih =>
    rcases outputPart_of_ofOption option with
      ⟨hpart, hitems, -⟩ | ⟨kept, path, front, hpart, hfound, hkept⟩
    · -- the option is another one, so the search goes on behind it
      have hcons := takeOutput_cons rest notEnd hpart
      rcases ih with ⟨hnone, hlater⟩ | ⟨path, others, front, back, hsome, rfl, hothers⟩
      · exact .inl ⟨by rw [hcons, hnone]; rfl, List.forall_mem_append.2 ⟨hitems, hlater⟩⟩
      · refine .inr ⟨path, argument :: others, items ++ front, back, by rw [hcons, hsome]; rfl,
          (List.append_assoc ..).symm, ?_⟩
        rw [List.append_assoc]
        exact .whole notEnd option hothers
    · -- an output option that is complete has its path in its own argument
      cases path with
      | none => cases hfound
      | some path =>
        cases hfound
        refine .inr ⟨path, kept ++ rest, front, later, ?_, ?_, hkept tail⟩
        · simp only [takeOutput, if_neg notEnd, hpart]
        · rw [List.append_assoc, List.singleton_append]
  | @pair argument value rest items later waiting notEnd option bare tail ih =>
    rcases outputPart_of_ofOption option with
      ⟨hpart, hitems, hwaiting⟩ | ⟨kept, path, front, hpart, hfound, hkept⟩
    · have hcons := takeOutput_cons (value :: rest) notEnd hpart
      have hvalue := takeOutput_cons rest (ne_end_of_isBare bare) (outputPart_of_isBare bare)
      rcases ih with ⟨hnone, hlater⟩ | ⟨path, others, front, back, hsome, rfl, hothers⟩
      · refine .inl ⟨by rw [hcons, hvalue, hnone]; rfl, List.forall_mem_append.2 ⟨hitems, ?_⟩⟩
        exact List.forall_mem_cons.2 ⟨fun hw => hwaiting (congrArg some hw), hlater⟩
      · refine .inr ⟨path, argument :: value :: others, items ++ (waiting, [value]) :: front, back,
          by rw [hcons, hvalue, hsome]; rfl, by simp, ?_⟩
        rw [List.append_assoc]
        exact .pair notEnd option bare hothers
    · -- one that waits for its path has it in the argument behind
      cases path with
      | some path => cases hfound
      | none =>
        cases hfound
        refine .inr ⟨value, kept ++ rest, items, later, ?_, rfl, hkept tail⟩
        simp only [takeOutput, if_neg notEnd, hpart]

example : takeOutput ["-f", "json", "-vodocs.json", "a.json"] =
    some ("docs.json", ["-f", "json", "-v", "a.json"]) := by decide +kernel

/-! ## The request

Items are taken in turn, so an item in the middle is an intermediate change. That of the output is
independent of all others, as no option comes twice, and may as well be made at the end. -/

theorem Request.change_withOutput {request : Request} {argument : Argument} {values : List String}
    (h : argument ≠ .output) (output : Option String) :
    { request with output := output }.change argument values =
      { request.change argument values with output := output } := by
  cases argument with
  | output => exact (h rfl).elim
  | _ => cases values <;> rfl

theorem Request.changeAll_withOutput {request : Request} {items : List Item}
    (h : ∀ item ∈ items, item.1 ≠ .output) (output : Option String) :
    { request with output := output }.changeAll items =
      { request.changeAll items with output := output } := by
  induction items generalizing request with
  | nil => rfl
  | cons item rest ih =>
    obtain ⟨hitem, hrest⟩ := List.forall_mem_cons.1 h
    show ({ request with output := output }.change item.1 item.2).changeAll rest = _
    rw [change_withOutput hitem, ih hrest]
    rfl

theorem Request.changeAll_output {request : Request} {items : List Item}
    (h : ∀ item ∈ items, item.1 ≠ .output) :
    (request.changeAll items).output = request.output := by
  have hsame : request.changeAll items =
      { request.changeAll items with output := request.output } :=
    changeAll_withOutput h request.output
  rw [hsame]

theorem optionsOf_output {front back : List Item} {values : List String} :
    optionsOf (front ++ (.output, values) :: back) =
      optionsOf front ++ .output :: optionsOf back := by
  simp [optionsOf]

theorem mem_optionsOf_iff {items : List Item} {option : Argument} (h : option ≠ .files) :
    option ∈ optionsOf items ↔ ∃ item ∈ items, item.1 = option := by
  simp [optionsOf, h]

/-- **A command line with the output option** asks for what it asks for without the option, but for
the output. -/
theorem read_of_takeOutput {arguments others : List String} {path : String} {request : Request}
    (h : takeOutput arguments = some (path, others)) (hread : Request.read arguments = .ok request) :
    request.output = some path ∧ Request.read others = .ok { request with output := none } := by
  obtain ⟨items, hlists, htakeable, hnodup, hrequest⟩ := Request.read_eq_ok_iff.1 hread
  rcases takeOutput_of_lists hlists with ⟨hnone, -⟩ | ⟨_, _, front, back, hsome, rfl, hothers⟩
  · cases hnone.symm.trans h
  cases hsome.symm.trans h
  rw [optionsOf_output, List.nodup_middle, List.nodup_cons] at hnodup
  obtain ⟨hnew, hnodup⟩ := hnodup
  have happend : optionsOf (front ++ back) = optionsOf front ++ optionsOf back := by
    simp [optionsOf]
  rw [← happend] at hnew hnodup
  have hfree : ∀ item ∈ front ++ back, item.1 ≠ .output := by
    intro item hitem ho
    exact hnew ((mem_optionsOf_iff (by decide)).2 ⟨item, hitem, ho⟩)
  -- the request without the option, of which the other request is a change
  obtain ⟨bare, hbare⟩ : ∃ bare, Request.usual.changeAll (front ++ back) = bare := ⟨_, rfl⟩
  have hrequest : request = { bare with output := some path } := by
    rw [← hrequest, ← hbare]
    simp only [Request.changeAll, List.foldl_append, List.foldl_cons]
    exact Request.changeAll_withOutput (List.forall_mem_append.1 hfree).2 (some path)
  have hnone : bare.output = none := by
    rw [← hbare, Request.changeAll_output hfree]
    rfl
  subst hrequest
  refine ⟨rfl, Request.read_eq_ok_iff.2 ⟨front ++ back, hothers, ?_, hnodup, ?_⟩⟩
  · intro item hitem
    apply htakeable
    rcases List.mem_append.1 hitem with hfront | hback
    · exact List.mem_append_left _ hfront
    · exact List.mem_append_right _ (List.mem_cons_of_mem _ hback)
  · rw [hbare, ← hnone]

theorem output_of_takeOutput_eq_none {arguments : List String} {request : Request}
    (h : takeOutput arguments = none) (hread : Request.read arguments = .ok request) :
    request.output = none := by
  obtain ⟨items, hlists, -, -, rfl⟩ := Request.read_eq_ok_iff.1 hread
  rcases takeOutput_of_lists hlists with ⟨-, hitems⟩ | ⟨path, others, front, back, hsome, -⟩
  · exact Request.changeAll_output hitems
  · cases hsome.symm.trans h

end DocTree.CommandLine
