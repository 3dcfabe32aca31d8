import MarkSweep.Text.DefaultIgnorable
import MarkSweep.Text.GraphemeExtend
import MarkSweep.Text.Printable

set_option autoImplicit false

namespace MarkSweep.Text

def hexDigits (n : Nat) : List Char := Nat.toDigits 16 n

def hex (n : Nat) : String := "0x" ++ String.ofList (hexDigits n)

def shortEscape? : Char → Option Char
  | '\x00' => some '0'
  | '\t' => some 't'
  | '\r' => some 'r'
  | '\n' => some 'n'
  | '\x22' => some '\x22'
  | '\x5c' => some '\x5c'
  | _ => none

def isHalfwidthVoicingMark (c : Char) : Bool := c == '\uff9e' || c == '\uff9f'

/-- Whether a character would attach to the one before it if it were shown as it is. -/
def joinsPrevious (c : Char) : Bool := isGraphemeExtend c && !isHalfwidthVoicingMark c

def showsAlone (c : Char) : Bool :=
  isPrintable c && !isDefaultIgnorable c && !joinsPrevious c

def escapeChar (c : Char) : List Char :=
  match shortEscape? c with
  | some e => ['\x5c', e]
  | none =>
    if showsAlone c then [c]
    else ['\x5c', 'u', '\x7b'] ++ hexDigits c.toNat ++ ['\x7d']

def quote (s : String) : String :=
  String.ofList (['\x22'] ++ s.toList.flatMap escapeChar ++ ['\x22'])

end MarkSweep.Text
