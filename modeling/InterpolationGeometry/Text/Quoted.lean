import InterpolationGeometry.Text.Printable

/-!
# Quoted text

A text between quotes.  The quotes are single unless the text holds a single quote and no double
one; the quote in use, the backslash and the characters without a printed form are escaped.  An
absent text is written as the word `None`.
-/

namespace InterpolationGeometry

namespace Text

def singleQuote : Char := Char.ofNat 0x27

def doubleQuote : Char := Char.ofNat 0x22

def backslash : Char := Char.ofNat 0x5c

def delimiter (text : List Char) : Char :=
  if text.contains singleQuote && !text.contains doubleQuote then doubleQuote else singleQuote

def hexDigits : Nat → Nat → List Char
  | 0, _ => []
  | width + 1, n => hexDigits width (n / 16) ++ [Nat.digitChar (n % 16)]

/-- The escape of a character by its code point: two, four or eight digits. -/
def escapeCode (code : Nat) : List Char :=
  if code < 0x100 then backslash :: 'x' :: hexDigits 2 code
  else if code < 0x10000 then backslash :: 'u' :: hexDigits 4 code
  else backslash :: 'U' :: hexDigits 8 code

def escape (quote c : Char) : List Char :=
  if c = quote ∨ c = backslash then [backslash, c]
  else if c = '\n' then [backslash, 'n']
  else if c = '\r' then [backslash, 'r']
  else if c = '\t' then [backslash, 't']
  else if isPrintable c then [c]
  else escapeCode c.toNat

def quoted (text : String) : String :=
  let quote := delimiter text.toList
  String.ofList (quote :: text.toList.flatMap (escape quote) ++ [quote])

def quotedOrNone : Option String → String
  | some text => quoted text
  | none => "None"

@[simp] theorem length_hexDigits (width n : Nat) : (hexDigits width n).length = width := by
  induction width generalizing n with
  | zero => rfl
  | succ width ih => simp [hexDigits, ih]

/-- The quotes are never the double ones around a text that holds a double quote. -/
theorem delimiter_eq_singleQuote_of_mem {text : List Char} (h : doubleQuote ∈ text) :
    delimiter text = singleQuote := by
  simp [delimiter, h]

theorem escape_ne_nil (quote c : Char) : escape quote c ≠ [] := by
  unfold escape escapeCode
  repeat' split
  all_goals simp

end Text

end InterpolationGeometry
