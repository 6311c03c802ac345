import TaskPool.Text.Printable

/-!
# Quoted text

`Quoted.text` shows a string in messages so that nothing in it can be mistaken: between quotes,
with the quote and the backslash escaped, and with the code point (for instance `\u{301}`) of every
character that would not be seen by itself.
-/

namespace TaskPool

namespace Quoted

def codePoint (c : Char) : List Char :=
  ['\\', 'u', '\x7b'] ++ Nat.toDigits 16 c.toNat ++ ['\x7d']

def quoteChar (c : Char) : List Char :=
  if c = '"' then ['\\', '"']
  else if c = '\\' then ['\\', '\\']
  else if c = '\n' then ['\\', 'n']
  else if c = '\r' then ['\\', 'r']
  else if c = '\t' then ['\\', 't']
  else if c.toNat = 0 then ['\\', '0']
  else if Printable.isPrintable c && !Printable.isCombining c then [c]
  else codePoint c

def quote (cs : List Char) : List Char := '"' :: cs.flatMap quoteChar ++ ['"']

def text (s : String) : String := String.ofList (quote s.toList)

end Quoted

end TaskPool
