import SceneStream.Json.Basic

/-!
# Reading JSON one character at a time

The reader is a machine over characters: between two characters it holds the containers that are
still open, what may come next, and the token it is in the middle of. It refuses a character as soon
as no JSON text goes on that way, so what it has accepted is always the beginning of a text. Reading
a whole text is a fold of the step over its characters.
-/

namespace SceneStream.Json

/-- A container that is still open, its latest part first. -/
inductive Container where
  | array (items : List Json)
  | object (members : List (Text × Json))
  /-- An object whose last name has no value yet. -/
  | member (members : List (Text × Json)) (name : Text)

/-- What may come next. -/
inductive Turn where
  | value
  | firstItem
  | firstName
  | name
  | colon
  | next
  | complete (value : Json)

/-- The part of the tree that has been read. -/
structure Assembly where
  stack : List Container
  turn : Turn

namespace Assembly

def start : Assembly := ⟨[], .value⟩

def acceptsValue (a : Assembly) : Bool :=
  match a.turn with
  | .value | .firstItem => true
  | _ => false

def acceptsName (a : Assembly) : Bool :=
  match a.turn with
  | .name | .firstName => true
  | _ => false

/-- Puts a complete value where one is due. -/
def place (stack : List Container) (v : Json) : Assembly :=
  match stack with
  | [] => ⟨[], .complete v⟩
  | .array items :: rest => ⟨.array (v :: items) :: rest, .next⟩
  | .member members name :: rest => ⟨.object ((name, v) :: members) :: rest, .next⟩
  | .object members :: rest => ⟨.object members :: rest, .next⟩

def value (a : Assembly) (v : Json) : Assembly := place a.stack v

/-- A string is a name or a value, by what is due. -/
def text (a : Assembly) (t : Text) : Assembly :=
  match a.acceptsName, a.stack with
  | true, .object members :: rest => ⟨.member members t :: rest, .colon⟩
  | _, _ => a.value (.string t)

def beginArray? (a : Assembly) : Option Assembly :=
  if a.acceptsValue then some ⟨.array [] :: a.stack, .firstItem⟩ else none

def beginObject? (a : Assembly) : Option Assembly :=
  if a.acceptsValue then some ⟨.object [] :: a.stack, .firstName⟩ else none

def endArray? (a : Assembly) : Option Assembly :=
  match a.stack, a.turn with
  | .array items :: rest, .firstItem | .array items :: rest, .next =>
    some (place rest (.array items.reverse))
  | _, _ => none

def endObject? (a : Assembly) : Option Assembly :=
  match a.stack, a.turn with
  | .object members :: rest, .firstName | .object members :: rest, .next =>
    some (place rest (.object members.reverse))
  | _, _ => none

def comma? (a : Assembly) : Option Assembly :=
  match a.stack, a.turn with
  | .array items :: rest, .next => some ⟨.array items :: rest, .value⟩
  | .object members :: rest, .next => some ⟨.object members :: rest, .name⟩
  | _, _ => none

def colon? (a : Assembly) : Option Assembly :=
  match a.turn with
  | .colon => some ⟨a.stack, .value⟩
  | _ => none

end Assembly

/-- How far the spelling of a number has come. -/
inductive NumberPhase where
  | sign
  | zero
  | whole
  | point
  | fraction
  | exponent
  | exponentSign
  | power
  deriving DecidableEq, Repr

namespace NumberPhase

/-- The phase after one more character, if the number can go on with it. -/
def next? (p : NumberPhase) (c : Char) : Option NumberPhase :=
  match p with
  | .sign => if c = '0' then some .zero else if c.isDigit then some .whole else none
  | .zero => if c = '.' then some .point else if c = 'e' ∨ c = 'E' then some .exponent else none
  | .whole =>
    if c.isDigit then some .whole
    else if c = '.' then some .point
    else if c = 'e' ∨ c = 'E' then some .exponent else none
  | .point => if c.isDigit then some .fraction else none
  | .fraction =>
    if c.isDigit then some .fraction else if c = 'e' ∨ c = 'E' then some .exponent else none
  | .exponent =>
    if c = '+' ∨ c = '-' then some .exponentSign else if c.isDigit then some .power else none
  | .exponentSign => if c.isDigit then some .power else none
  | .power => if c.isDigit then some .power else none

/-- Whether the number may stop here. -/
def complete : NumberPhase → Bool
  | .zero | .whole | .fraction | .power => true
  | _ => false

end NumberPhase

/-- A string that has been read in part, its latest character first. -/
structure PartialText where
  seen : List Char
  /-- The first half of a surrogate pair that still lacks its second half. -/
  half : Option Nat
  /-- No half of a pair stood alone so far. -/
  paired : Bool

namespace PartialText

def start : PartialText := ⟨[], none, true⟩

def push (t : PartialText) (c : Char) : PartialText :=
  ⟨c :: t.seen, none, t.paired && t.half.isNone⟩

/-- Adds the unit that an escape of four digits names. -/
def pushUnit (t : PartialText) (unit : Nat) : PartialText :=
  match t.half with
  | some high =>
    if 0xDC00 ≤ unit ∧ unit ≤ 0xDFFF then
      ⟨Char.ofNat (0x10000 + (high - 0xD800) * 0x400 + (unit - 0xDC00)) :: t.seen, none, t.paired⟩
    else if 0xD800 ≤ unit ∧ unit ≤ 0xDBFF then ⟨t.seen, some unit, false⟩
    else ⟨Char.ofNat unit :: t.seen, none, false⟩
  | none =>
    if 0xD800 ≤ unit ∧ unit ≤ 0xDBFF then ⟨t.seen, some unit, t.paired⟩
    else if 0xDC00 ≤ unit ∧ unit ≤ 0xDFFF then ⟨t.seen, none, false⟩
    else ⟨Char.ofNat unit :: t.seen, none, t.paired⟩

def finish (t : PartialText) : Text :=
  if t.paired && t.half.isNone then some (String.ofList t.seen.reverse) else none

end PartialText

/-- The token that the reader is in the middle of. -/
inductive Mode where
  | between
  | word (left : List Char) (value : Json)
  | number (phase : NumberPhase) (seen : List Char)
  | text (t : PartialText)
  | escape (t : PartialText)
  /-- An escape of four digits, of which `left` are still to come after `unit`. -/
  | digits (t : PartialText) (left : Nat) (unit : Nat)

/-- The reader between two characters. -/
structure Reader where
  mode : Mode
  assembly : Assembly

namespace Reader

def start : Reader := ⟨.between, .start⟩

def isBlank (c : Char) : Bool := c = ' ' || c = '\t' || c = '\n' || c = '\r'

/-- The value of a digit in base sixteen. -/
def hexValue? (c : Char) : Option Nat :=
  if c.isDigit then some (c.toNat - '0'.toNat)
  else if 'a' ≤ c ∧ c ≤ 'f' then some (c.toNat - 'a'.toNat + 10)
  else if 'A' ≤ c ∧ c ≤ 'F' then some (c.toNat - 'A'.toNat + 10)
  else none

/-- The character that a short escape stands for. -/
def shortEscape? : Char → Option Char
  | '"' => some '"'
  | '\\' => some '\\'
  | '/' => some '/'
  | 'b' => some '\x08'
  | 'f' => some '\x0c'
  | 'n' => some '\n'
  | 'r' => some '\r'
  | 't' => some '\t'
  | _ => none

/-- Reads a character that begins a token or stands between two. -/
def begin? (a : Assembly) (c : Char) : Option Reader :=
  let stay (b : Option Assembly) : Option Reader := b.map (⟨.between, ·⟩)
  let scalar (m : Mode) : Option Reader := if a.acceptsValue then some ⟨m, a⟩ else none
  if isBlank c then some ⟨.between, a⟩
  else match c with
    | '[' => stay a.beginArray?
    | ']' => stay a.endArray?
    | '\x7b' => stay a.beginObject?
    | '\x7d' => stay a.endObject?
    | ',' => stay a.comma?
    | ':' => stay a.colon?
    | '"' => if a.acceptsValue || a.acceptsName then some ⟨.text .start, a⟩ else none
    | 't' => scalar (.word ['r', 'u', 'e'] (.bool true))
    | 'f' => scalar (.word ['a', 'l', 's', 'e'] (.bool false))
    | 'n' => scalar (.word ['u', 'l', 'l'] .null)
    | '-' => scalar (.number .sign [c])
    | _ => (NumberPhase.sign.next? c).bind fun p => scalar (.number p [c])

/-- Reads one character, or refuses it. -/
def step (r : Reader) (c : Char) : Option Reader :=
  match r.mode with
  | .between => begin? r.assembly c
  | .word [] v => begin? (r.assembly.value v) c
  | .word (d :: left) v =>
    if c = d then
      if left = [] then some ⟨.between, r.assembly.value v⟩ else some ⟨.word left v, r.assembly⟩
    else none
  | .number p seen =>
    match p.next? c with
    | some p => some ⟨.number p (c :: seen), r.assembly⟩
    | none =>
      if p.complete then begin? (r.assembly.value (.number (String.ofList seen.reverse))) c
      else none
  | .text t =>
    if c = '"' then some ⟨.between, r.assembly.text t.finish⟩
    else if c = '\\' then some ⟨.escape t, r.assembly⟩
    else if c.toNat < 0x20 then none
    else some ⟨.text (t.push c), r.assembly⟩
  | .escape t =>
    if c = 'u' then some ⟨.digits t 4 0, r.assembly⟩
    else (shortEscape? c).map fun d => ⟨.text (t.push d), r.assembly⟩
  | .digits t left unit =>
    (hexValue? c).map fun d =>
      let unit := unit * 16 + d
      if left ≤ 1 then ⟨.text (t.pushUnit unit), r.assembly⟩
      else ⟨.digits t (left - 1) unit, r.assembly⟩

/-- The tree that was read, once a whole text was. -/
def finish? (r : Reader) : Option Json :=
  let assembly := match r.mode with
    | .between => some r.assembly
    | .number p seen =>
      if p.complete then some (r.assembly.value (.number (String.ofList seen.reverse))) else none
    | _ => none
  assembly.bind fun a => match a.turn with
    | .complete v => some v
    | _ => none

end Reader

/-- The reader after a piece of text. -/
def Reader.run (r : Reader) (text : List Char) : Option Reader := text.foldlM Reader.step r

/-- The tree that a text denotes, if it is one JSON text. -/
def parse? (text : String) : Option Json := (Reader.start.run text.toList).bind Reader.finish?

end SceneStream.Json
