/-!
# JSON values and the text of strings

The tree that a JSON text denotes. Members keep their order and may repeat a name, because a reader
of settings has to notice both. Numbers keep their spelling, so that no precision is chosen here.
-/

namespace SceneStream

/-- What a JSON string spells: its characters, or nothing where an escape names one half of a
surrogate pair, which stands for no character. -/
abbrev Json.Text := Option String

inductive Json where
  | null
  | bool (value : Bool)
  | number (spelling : String)
  | string (text : Json.Text)
  | array (items : List Json)
  | object (members : List (Json.Text × Json))
  deriving Repr, Inhabited, BEq

namespace Json

/-- The digits of a byte in base sixteen, in lower case. -/
def hexDigits (n : Nat) : List Char := [Nat.digitChar (n / 16), Nat.digitChar (n % 16)]

/-- How a character is written inside a string. Only the quotation mark, the backslash and the
control characters below the space need an escape. -/
def escapeChar (c : Char) : List Char :=
  match c with
  | '"' => ['\\', '"']
  | '\\' => ['\\', '\\']
  | '\x08' => ['\\', 'b']
  | '\t' => ['\\', 't']
  | '\n' => ['\\', 'n']
  | '\x0c' => ['\\', 'f']
  | '\r' => ['\\', 'r']
  | _ => if c.toNat < 0x20 then ['\\', 'u', '0', '0'] ++ hexDigits c.toNat else [c]

/-- The characters between the quotation marks of a string. -/
def escape (text : List Char) : List Char := text.flatMap escapeChar

/-- A string as JSON writes it. -/
def quote (text : String) : String := "\"" ++ String.ofList (escape text.toList) ++ "\""

/-- The value of the first member with this name. -/
def member? (name : String) : Json → Option Json
  | .object members => (members.find? (·.1 == some name)).map (·.2)
  | _ => none

end Json

end SceneStream
