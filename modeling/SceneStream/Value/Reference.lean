import SceneStream.Error

/-!
# References to a property of another object

A reference names an object and a path to one of its properties. Its text is the identifier and the
path with a mark before each, the segments of the path joined by points. A backslash takes away the
meaning of the character behind it, so that marks, points and backslashes may stand in names.
-/

namespace SceneStream

structure Reference where
  identifier : String
  path : List String
  identifier_ne : identifier ≠ ""
  path_ne : path ≠ []
  segment_ne : "" ∉ path
  deriving DecidableEq

namespace Reference

/-- The reference with these parts. No part may be empty. -/
def of (identifier : String) (path : List String) : Except Error Reference :=
  if hi : identifier = "" then .error (.invalidArgument .emptyIdentifier)
  else if hp : path = [] then .error (.invalidArgument (.emptyPath identifier))
  else if hs : "" ∈ path then .error (.invalidArgument (.emptySegment identifier))
  else .ok ⟨identifier, path, hi, hp, hs⟩

/-- A character of a name, as its text spells it. -/
inductive Letter where
  | plain (c : Char)
  | escaped (c : Char)
  deriving DecidableEq, Repr

def Letter.char : Letter → Char
  | plain c => c
  | escaped c => c

/-- The letters of a text, unless it ends on a backslash that escapes nothing. -/
def letters? : List Char → Option (List Letter)
  | [] => some []
  | c :: rest =>
    if c = '\\' then
      match rest with
      | [] => none
      | d :: rest => (letters? rest).map (.escaped d :: ·)
    else (letters? rest).map (.plain c :: ·)

/-- Cuts at every plain occurrence of a character. -/
def cutAt (c : Char) : List Letter → List (List Letter)
  | [] => [[]]
  | l :: rest =>
    match cutAt c rest with
    | [] => [[l]]
    | first :: others => if l = .plain c then [] :: first :: others else (l :: first) :: others

/-- The name that letters spell. -/
def spell (ls : List Letter) : String := String.ofList (ls.map Letter.char)

/-- Reads the text of a reference. -/
def parse (text : String) : Except Error Reference :=
  match text.toList with
  | '#' :: rest =>
    match letters? rest with
    | none => .error (.invalidArgument (.referenceEscape text))
    | some ls =>
      match ls.dropWhile (· ≠ .plain '#') with
      | [] => .error (.invalidArgument (.referenceWithoutPath text))
      | _ :: path => of (spell (ls.takeWhile (· ≠ .plain '#'))) ((cutAt '.' path).map spell)
  | _ => .error (.invalidArgument (.referenceStart text))

/-- Whether a character needs a backslash in a name. -/
def isSpecial (c : Char) : Bool := c = '\\' || c = '#' || c = '.'

def escape (name : String) : List Char :=
  name.toList.flatMap fun c => if isSpecial c then ['\\', c] else [c]

/-- The text of a reference. -/
def text (r : Reference) : String :=
  String.ofList ('#' :: escape r.identifier ++ '#' ::
    ['.'].intercalate (r.path.map escape))

/-- Everything a reference can be made from. -/
inductive Source where
  | made (r : Reference)
  | text (text : String)
  | property (identifier property : String)
  | path (identifier : String) (path : List String)

/-- The reference that a source stands for. -/
def Source.resolve : Source → Except Error Reference
  | made r => .ok r
  | text s => parse s
  | property identifier name => of identifier [name]
  | path identifier segments => of identifier segments

end Reference

end SceneStream
