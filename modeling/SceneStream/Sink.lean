/-!
# Sinks

The place that text goes to. A sink may have room for a limited number of bytes; it then takes the
bytes that still fit, even if they end in the middle of a character, and refuses the rest.
-/

namespace SceneStream

structure Sink where
  /-- The whole characters taken so far. -/
  text : String := ""
  /-- The first bytes of a character that did not fit as a whole. -/
  cut : List UInt8 := []
  /-- The number of bytes there is room for. -/
  limit : Option Nat := none
  flushFails : Bool := false

namespace Sink

/-- The number of bytes taken so far. -/
def size (s : Sink) : Nat := s.text.utf8ByteSize + s.cut.length

def isEmpty (s : Sink) : Bool := s.size = 0

/-- Takes the characters that fit into `room` bytes and the first bytes of the next one. -/
def fill (s : Sink) : (room : Nat) → List Char → Sink
  | _, [] => s
  | room, c :: rest =>
    if c.utf8Size ≤ room then fill { s with text := s.text.push c } (room - c.utf8Size) rest
    else { s with cut := s.cut ++ (String.utf8EncodeChar c).take room }

/-- The sink after a piece of text, and whether all of it was taken. -/
def put (s : Sink) (piece : String) : Sink × Bool :=
  match s.limit with
  | none => ({ s with text := s.text ++ piece }, true)
  | some limit =>
    if s.size + piece.utf8ByteSize ≤ limit then ({ s with text := s.text ++ piece }, true)
    else (s.fill (limit - s.size) piece.toList, false)

/-- A sink without a limit takes everything. -/
theorem put_of_unlimited {s : Sink} (h : s.limit = none) (piece : String) :
    s.put piece = ({ s with text := s.text ++ piece }, true) := by
  simp [put, h]

@[simp] theorem limit_fill (s : Sink) (room : Nat) (cs : List Char) :
    (s.fill room cs).limit = s.limit := by
  fun_induction fill s room cs <;> simp_all

/-- Nothing that is put changes the room a sink has in all. -/
@[simp] theorem limit_put (s : Sink) (piece : String) : (s.put piece).1.limit = s.limit := by
  simp only [put]
  split
  · rfl
  · split
    · rfl
    · exact limit_fill ..

/-- What stands for a character that was cut. -/
def cutMark (s : Sink) : String := if s.cut.isEmpty then "" else "\uFFFD"

/-- The contents as text. -/
def contents (s : Sink) : String := s.text ++ s.cutMark

/-- What was taken after `earlier`. -/
def since (s earlier : Sink) : String :=
  String.ofList (s.text.toList.drop earlier.text.length) ++
    (if earlier.cut.isEmpty then s.cutMark else "")

end Sink

end SceneStream
