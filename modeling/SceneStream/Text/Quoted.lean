import SceneStream.Text.Extending
import SceneStream.Text.Invisible

/-!
# Quoted text

A text between quotation marks in which every character can be told from its looks: what shows
nothing, or is drawn as a part of the character before it, is given by the number of its code point.
-/

namespace SceneStream.Quoted

/-- Whether a character cannot be told from its looks. -/
def isObscure (c : Char) : Bool := CharSet.extending.contains c || CharSet.invisible.contains c

/-- A character by its code point in base sixteen, between braces. -/
def byNumber (c : Char) : List Char :=
  "\\u\x7b".toList ++ Nat.toDigits 16 c.toNat ++ ['\x7d']

/-- How a character is written between the quotation marks. -/
def escapeChar (c : Char) : List Char :=
  match c with
  | '"' => ['\\', '"']
  | '\\' => ['\\', '\\']
  | '\n' => ['\\', 'n']
  | '\r' => ['\\', 'r']
  | '\t' => ['\\', 't']
  | '\x00' => ['\\', '0']
  | _ => if isObscure c then byNumber c else [c]

/-- The text between quotation marks. -/
def text (s : String) : String := "\"" ++ String.ofList (s.toList.flatMap escapeChar) ++ "\""

/-- From the space to the tilde, a character stands for itself, unless it ends or escapes. -/
theorem escapeChar_of_ascii {c : Char} (least : 0x20 ≤ c.toNat) (greatest : c.toNat < 0x7F)
    (hquote : c ≠ '"') (hslash : c ≠ '\\') : escapeChar c = [c] := by
  have visible : isObscure c = false := by
    simp [isObscure, CharSet.contains_extending_of_lt (show c.toNat < 0x300 by omega),
      CharSet.contains_invisible_of_lt greatest, least]
  have key : ∀ d : Char, d.toNat < 0x20 → c ≠ d := by
    rintro d hd rfl
    omega
  simp only [escapeChar, visible]
  split
  · exact absurd rfl hquote
  · exact absurd rfl hslash
  · exact absurd rfl (key '\n' (by decide))
  · exact absurd rfl (key '\r' (by decide))
  · exact absurd rfl (key '\t' (by decide))
  · exact absurd rfl (key '\x00' (by decide))
  · rfl

end SceneStream.Quoted
