import HeaderLint.Text.Extending
import HeaderLint.Text.Unprintable

/-!
# Quoted text

A quoted text stands between double quotes on one line.

* The double quote and the backslash follow a backslash.
* The null, the tab, the line feed and the carriage return have the names `\0`,
  `\t`, `\n` and `\r`.
* A character that extends the one before it, or has no glyph, is written
  `\u{...}` with its code point in lower-case hexadecimal.
* Every other character, a single quote included, stands for itself.
-/

namespace HeaderLint.Text

/-- The hexadecimal digits of a number, in lower case and without leading zeros. -/
def hexDigits (n : Nat) : List Char := Nat.toDigits 16 n

/-- A character as quoted text writes it. -/
def quoteChar (c : Char) : List Char :=
  if c = '\x00' then ['\\', '0']
  else if c = '\t' then ['\\', 't']
  else if c = '\r' then ['\\', 'r']
  else if c = '\n' then ['\\', 'n']
  else if c = '"' || c = '\\' then ['\\', c]
  else if isExtending c || isUnprintable c then
    ['\\', 'u', '\x7b'] ++ hexDigits c.toNat ++ ['\x7d']
  else [c]

/-- A text in double quotes. -/
def quoted (cs : List Char) : List Char := '"' :: cs.flatMap quoteChar ++ ['"']

example : quoted "a\"b\n".toList = "\"a\\\"b\\n\"".toList := by decide +kernel

example : quoted ['\u0301', 'é'] = "\"\\u\x7b301\x7dé\"".toList := by decide +kernel

end HeaderLint.Text
