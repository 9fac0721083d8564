import SceneStream.Error
import SceneStream.Json.Reader
import SceneStream.Time.Reading

/-!
# Settings of a document

Settings are chosen once, when a stream is made, and written as a JSON object. Reading is lenient
towards what is missing or unknown, and strict otherwise: a field of the wrong type, a field given
twice and text after the object are refused. An array of the fields in their order is read too.
-/

namespace SceneStream

/-- How sample times are written. -/
inductive TimeEncoding where
  /-- As text, with no epoch. -/
  | iso8601
  /-- As seconds after an epoch that is written beside the samples. -/
  | epochSeconds
  deriving DecidableEq, Repr

structure Settings where
  /-- Whether the text is broken into lines. -/
  pretty : Bool := false
  /-- Spaces for each level of nesting in pretty text. -/
  indent : Nat := 2
  timeEncoding : TimeEncoding := .epochSeconds
  /-- The epoch of all samples; each series has its own first date as epoch where this is missing. -/
  epoch : Option Instant := none
  deriving DecidableEq, Repr

namespace TimeEncoding

def token : TimeEncoding → String
  | iso8601 => "iso8601"
  | epochSeconds => "epoch_seconds"

def ofToken? : String → Option TimeEncoding
  | "iso8601" => some iso8601
  | "epoch_seconds" => some epochSeconds
  | _ => none

theorem ofToken?_token (e : TimeEncoding) : ofToken? e.token = some e := by
  cases e <;> rfl

end TimeEncoding

namespace Settings

/-- The epoch of a series that starts at `first`, where times are written as seconds. -/
def sampleEpoch (s : Settings) (first : Instant) : Option Instant :=
  match s.timeEncoding with
  | .iso8601 => none
  | .epochSeconds => some (s.epoch.getD first)

/-- The settings as a JSON object. -/
def text (s : Settings) : String :=
  "\x7b\"pretty\":" ++ (if s.pretty then "true" else "false") ++
    ",\"indent\":" ++ Nat.repr s.indent ++
    ",\"time_encoding\":" ++ Json.quote s.timeEncoding.token ++
    ",\"epoch\":" ++ (s.epoch.elim "null" fun t => Json.quote t.text) ++ "\x7d"

/-- The settings as a record with the names of its fields. -/
def description (s : Settings) : String :=
  "WriterSettings \x7b pretty: " ++ (if s.pretty then "true" else "false") ++
    ", indent: " ++ Nat.repr s.indent ++
    ", time_encoding: " ++ (match s.timeEncoding with
      | .iso8601 => "Iso8601"
      | .epochSeconds => "EpochSeconds") ++
    ", epoch: " ++ (s.epoch.elim "None" fun t => "Some(" ++ t.text ++ ")") ++ " \x7d"

/-- The sizes that an indent may have. -/
def sizeLimit : Nat := Nat.pow 2 64

def pretty? : Json → Option Bool
  | .bool b => some b
  | _ => none

/-- A whole number, spelled without a sign, a fraction or an exponent. -/
def indent? : Json → Option Nat
  | .number spelling =>
    if spelling.toList.all Char.isDigit then
      let n := Instant.Scan.numeral spelling.toList
      if n < sizeLimit then some n else none
    else none
  | _ => none

/-- An encoding by its name, or as an object with that name and no value. -/
def timeEncoding? : Json → Option TimeEncoding
  | .string (some name) => TimeEncoding.ofToken? name
  | .object [(some name, .null)] => TimeEncoding.ofToken? name
  | _ => none

def epoch? : Json → Option (Option Instant)
  | .null => some none
  | .string (some text) => (Instant.ofText? text).map some
  | _ => none

/-- A field that may be missing, and then has its default. -/
def fieldOr {α : Type} (default : α) (read : Json → Option α) : Option Json → Option α
  | none => some default
  | some v => read v

def ofFields? (pretty indent timeEncoding epoch : Option Json) : Option Settings := do
  let d : Settings := {}
  return {
    pretty := ← fieldOr d.pretty pretty? pretty
    indent := ← fieldOr d.indent indent? indent
    timeEncoding := ← fieldOr d.timeEncoding timeEncoding? timeEncoding
    epoch := ← fieldOr d.epoch epoch? epoch }

/-- The field of this name: refused if it is given twice. -/
def field? (members : List (Json.Text × Json)) (name : String) : Option (Option Json) :=
  match members.filter (·.1 = some name) with
  | [] => some none
  | [(_, v)] => some (some v)
  | _ => none

def ofJson? : Json → Option Settings
  | .object members => do
    if members.any (·.1.isNone) then none
    ofFields? (← field? members "pretty") (← field? members "indent")
      (← field? members "time_encoding") (← field? members "epoch")
  | .array items =>
    if items.length ≤ 4 then ofFields? items[0]? items[1]? items[2]? items[3]? else none
  | _ => none

/-- Reads settings from their text. -/
def parse (text : String) : Except Error Settings :=
  match (Json.parse? text).bind ofJson? with
  | some s => .ok s
  | none => .error (.json .badSettings)

/-- Reads settings from the text of a file, if there is such a file. -/
def load : Option String → Except Error Settings
  | none => .error (.io .notFound)
  | some text => parse text

end Settings

end SceneStream
