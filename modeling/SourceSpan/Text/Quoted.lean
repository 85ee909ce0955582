import SourceSpan.Text.Printable

/-!
# Quoted text

A text is shown between quotes, on one line and in printable characters only. The apostrophe is the
quote, unless the text holds an apostrophe and no double quote. The quote in use and the backslash
are escaped by a backslash, three control characters have a letter of their own, and any other
unprintable character is shown by its code point with two, four or eight hexadecimal digits.
-/

namespace SourceSpan.Text

/-- A number in base sixteen, padded with zeros to a width. -/
def hexadecimal (width n : Nat) : List Char :=
  let digits := Nat.toDigits 16 n
  List.replicate (width - digits.length) '0' ++ digits

/-- An unprintable character by its code point, as narrowly as it fits. -/
def escapeCode (c : Char) : List Char :=
  let n := c.toNat
  if n < 0x100 then '\\' :: 'x' :: hexadecimal 2 n
  else if n < 0x10000 then '\\' :: 'u' :: hexadecimal 4 n
  else '\\' :: 'U' :: hexadecimal 8 n

def escape (quote c : Char) : List Char :=
  if c = quote ∨ c = '\\' then ['\\', c]
  else if c = '\n' then ['\\', 'n']
  else if c = '\r' then ['\\', 'r']
  else if c = '\t' then ['\\', 't']
  else if isPrintable c then [c]
  else escapeCode c

def quoteFor (text : List Char) : Char :=
  if '\'' ∈ text ∧ '"' ∉ text then '"' else '\''

def quoted (text : String) : String :=
  let quote := quoteFor text.toList
  String.ofList (quote :: (text.toList.flatMap (escape quote) ++ [quote]))

end SourceSpan.Text
