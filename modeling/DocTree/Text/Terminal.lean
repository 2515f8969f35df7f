/-!
# What a terminal would show

A text can hold sequences that a terminal obeys instead of showing: an escape with what belongs to
it, which moves the cursor, sets a colour or names the window. Here such sequences are taken out,
and so are the controls that show nothing. A message that repeats what a user typed goes through
here first, so that an argument cannot steer the terminal on which the message appears.

The reading follows the state diagram of a terminal. It has one habit of its own: once a character
is shown, the ones after it are shown too, whatever was open, until one comes that cannot be shown;
only there does the reading go on where it was.

For the usual text all of this comes to nothing, and `visible_eq_self` says for which: a text whose
characters can all be shown is shown as it is.
-/

set_option autoImplicit false

namespace DocTree.Text

/-! ## Modes

The names follow the state diagram: a sequence has numbers first, then middle characters, then a
final one. What does not fit this order spoils the sequence, and it is then passed over up to its
end. -/

/-- What the next character belongs to. -/
inductive TerminalMode where
  /-- Nothing special. -/
  | plain
  /-- The escape has just come. -/
  | escape
  | escapeMiddle
  /-- A control sequence: an escape and an opening bracket. -/
  | control
  | controlNumbers
  | controlMiddle
  /-- A control sequence that makes no sense, up to its end. -/
  | controlBroken
  /-- A string for the device. -/
  | device
  | deviceNumbers
  | deviceMiddle
  | deviceBroken
  | deviceBody
  /-- A command for the system around the terminal, such as the title of the window. -/
  | command
  /-- Any other string. -/
  | message
deriving DecidableEq, Repr

namespace TerminalMode

def within (low high n : Nat) : Bool := low ≤ n && n ≤ high

/-- Whether one of the bytes of the character ends a string, as a terminal reads it that knows no
longer characters. -/
def hasEndByte (c : Char) : Bool := (String.utf8EncodeChar c).contains 0x9C

def afterAscii (mode : TerminalMode) (n : Nat) : TerminalMode :=
  let isMiddle := within 0x20 0x2F n
  let isNumber := within 0x30 0x3F n
  let isMark := within 0x3C 0x3F n
  let isFinal := within 0x40 0x7E n
  match mode with
  | .plain => .plain
  | .escape =>
    if isMiddle then .escapeMiddle
    else if n = 0x5B then .control
    else if n = 0x5D then .command
    else if n = 0x50 then .device
    else if n = 0x58 ∨ n = 0x5E ∨ n = 0x5F then .message
    else if n ≤ 0x7E then .plain
    else .escape
  | .escapeMiddle => if isNumber || isFinal then .plain else .escapeMiddle
  | .control =>
    if isMiddle then .controlMiddle
    else if isNumber then .controlNumbers
    else if isFinal then .plain
    else .control
  | .controlNumbers =>
    if isMiddle then .controlMiddle
    else if isMark then .controlBroken
    else if isFinal then .plain
    else .controlNumbers
  | .controlMiddle =>
    if isNumber then .controlBroken else if isFinal then .plain else .controlMiddle
  | .controlBroken => if isFinal then .plain else .controlBroken
  | .device =>
    if isMiddle then .deviceMiddle
    else if isNumber then .deviceNumbers
    else if isFinal then .deviceBody
    else .device
  | .deviceNumbers =>
    if isMiddle then .deviceMiddle
    else if isMark then .deviceBroken
    else if isFinal then .deviceBody
    else .deviceNumbers
  | .deviceMiddle =>
    if isNumber then .deviceBroken else if isFinal then .deviceBody else .deviceMiddle
  | .deviceBroken => .deviceBroken
  | .deviceBody => .deviceBody
  | .command => .command
  | .message => .message

def next (mode : TerminalMode) (c : Char) : TerminalMode :=
  let n := c.toNat
  if n = 0x18 ∨ n = 0x1A then .plain
  else if n = 0x1B then .escape
  else if n < 0x20 then
    if mode = .command ∧ n = 0x07 then .plain else mode
  else if n < 0x80 then mode.afterAscii n
  else
    match mode with
    | .deviceBroken | .deviceBody | .message => if hasEndByte c then .plain else mode
    | _ => mode

/-- Whether controls that come in this mode are obeyed where they stand. -/
def obeysControls : TerminalMode → Bool
  | .plain | .escape | .escapeMiddle => true
  | .control | .controlNumbers | .controlMiddle | .controlBroken => true
  | .device | .deviceNumbers | .deviceMiddle | .deviceBroken | .deviceBody => false
  | .command | .message => false

end TerminalMode

/-! ## Showing

Two things are shown in every mode that obeys controls: what parts words and lines, and, where
nothing is open, every character that has a shape. -/

/-- Whether the character is one of the controls that part words and lines: the tab, the two line
ends and the form feed. -/
def isLayout (c : Char) : Bool := c == '\t' || c == '\n' || c == '\x0c' || c == '\r'

def isShown (c : Char) : Bool := isLayout c || (0x20 ≤ c.toNat && c != '\x7f')

/-- What is shown of a text that is read on in a mode, with the character before shown or not. The
flag is what makes the habit above: after a shown character the mode is not asked. -/
def visibleFrom : TerminalMode → Bool → List Char → List Char
  | _, _, [] => []
  | mode, shown, c :: rest =>
    if shown && isShown c then
      c :: visibleFrom (if 0x80 ≤ c.toNat then .plain else mode) true rest
    else if (mode = .plain ∧ isShown c) ∨ (mode.obeysControls ∧ isLayout c) then
      c :: visibleFrom (mode.next c) true rest
    else visibleFrom (mode.next c) false rest

/-- What a terminal would show of a text. -/
def visible (text : String) : String := String.ofList (visibleFrom .plain false text.toList)

theorem TerminalMode.next_plain {c : Char} (h : isShown c = true) :
    TerminalMode.plain.next c = .plain := by
  have bound : c.toNat ≠ 0x1B := by
    intro hn
    have hc : c = '\x1b' := Char.toNat_inj.1 hn
    rw [hc] at h
    exact Bool.noConfusion h
  simp [TerminalMode.next, TerminalMode.afterAscii, bound]

theorem visibleFrom_plain {text : List Char} (shown : Bool) (h : ∀ c ∈ text, isShown c = true) :
    visibleFrom .plain shown text = text := by
  induction text generalizing shown with
  | nil => rfl
  | cons c rest ih =>
    obtain ⟨hc, hr⟩ := List.forall_mem_cons.1 h
    rw [visibleFrom, TerminalMode.next_plain hc, ite_self, ih true hr]
    cases shown <;> simp [hc]

/-- A text of characters that can be shown is shown as it is. -/
theorem visible_eq_self {text : String} (h : ∀ c ∈ text.toList, isShown c = true) :
    visible text = text := by
  rw [visible, visibleFrom_plain false h, String.ofList_toList]

end DocTree.Text
