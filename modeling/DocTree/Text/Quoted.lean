import DocTree.Text.Escaped
import DocTree.Text.Numeral

/-!
# Quoted text in messages

The form in which messages show a text that a user gave: between double quotes, with the quote and
the backslash escaped, the four frequent controls by a letter, and every other character that
would not show by its code point, `\u{200b}`. An apostrophe needs no escape.
-/

set_option autoImplicit false

namespace DocTree.Text

def quoteChar (c : Char) : List Char :=
  if c = '\x00' then ['\\', '0']
  else if c = '\t' then ['\\', 't']
  else if c = '\r' then ['\\', 'r']
  else if c = '\n' then ['\\', 'n']
  else if c = '"' then ['\\', '"']
  else if c = '\\' then ['\\', '\\']
  else if isHidden c then ['\\', 'u', '\x7b'] ++ hexadecimal c.toNat ++ ['\x7d']
  else [c]

def quote (text : String) : String :=
  String.ofList ('"' :: text.toList.flatMap quoteChar ++ ['"'])

end DocTree.Text
