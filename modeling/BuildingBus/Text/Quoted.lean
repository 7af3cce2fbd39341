import BuildingBus.Text.Case
import BuildingBus.Text.CodedTable

/-!
# Quoted text

Messages quote the texts they complain about, so that a reader sees every character: a quoted text
stands between double quotes, a few characters have a short form behind a backslash, and a
character that shows no mark of its own is written by its code point, as in `\u{a0}`.
-/

namespace BuildingBus.Text

/-- Whether quoting writes a character by its code point. -/
def isCoded (c : Char) : Bool :=
  if c.toNat < 0x80 then c.toNat < 0x20 || c.toNat == 0x7F
  else inRanges codedRanges c.toNat

/-- A character as it stands in a quoted text. -/
def quoteChar (c : Char) : List Char :=
  if c = '"' then ['\\', '"']
  else if c = '\\' then ['\\', '\\']
  else if c = '\n' then ['\\', 'n']
  else if c = '\r' then ['\\', 'r']
  else if c = '\t' then ['\\', 't']
  else if c.toNat = 0 then ['\\', '0']
  else if isCoded c then ['\\', 'u', '\x7b'] ++ Nat.toDigits 16 c.toNat ++ ['\x7d']
  else [c]

/-- A text between quotes. -/
def quoted (s : String) : String :=
  String.ofList (['"'] ++ s.toList.flatMap quoteChar ++ ['"'])

end BuildingBus.Text
