import SceneStream.Stream.Structure

/-!
# Trees and the calls that describe them

A tree is what a JSON text is about: scalars in arrays and objects. Every tree is described by one
sequence of structural calls, its own brackets around the calls of its parts. Nothing here knows of
text, separators or counters; `Tree.json` only says which JSON value a tree is.
-/

namespace SceneStream

/-- A structural call on a stream. -/
inductive Call where
  | startObject
  | endObject
  | startSequence
  | endSequence
  | name (key : String)
  | value (v : Scalar)
  deriving DecidableEq, Repr

/-- Makes a call. -/
def Stream.perform : Call → StreamM Unit
  | .startObject => startObject
  | .endObject => endObject
  | .startSequence => startSequence
  | .endSequence => endSequence
  | .name key => name key
  | .value v => value v

/-- Makes calls one after the other, whatever becomes of them, and keeps those that are accepted. -/
def Stream.performAll (s : Stream) : List Call → List Call × Stream
  | [] => ([], s)
  | c :: calls =>
    match perform c s with
    | .ok () s => ((c :: (performAll s calls).1), (performAll s calls).2)
    | .error _ s => performAll s calls

inductive Tree where
  | scalar (v : Scalar)
  | array (items : List Tree)
  | object (members : List (String × Tree))

/-- The JSON value of a scalar: a number keeps its spelling, and one that is not finite is null. -/
def Scalar.denoted : Scalar → Json
  | bool b => .bool b
  | integer n => .number (toString n)
  | double x => if x.isFinite then .number (doubles.text x) else .null
  | single x => if x.isFinite then .number (singles.text x) else .null
  | text s => .string (some s)

namespace Tree

mutual

/-- The JSON value of a tree. -/
def json : Tree → Json
  | scalar v => v.denoted
  | array items => .array (jsonItems items)
  | object members => .object (jsonMembers members)

def jsonItems : List Tree → List Json
  | [] => []
  | t :: items => t.json :: jsonItems items

def jsonMembers : List (String × Tree) → List (Json.Text × Json)
  | [] => []
  | (key, t) :: members => (some key, t.json) :: jsonMembers members

end

mutual

/-- The calls that describe a tree. -/
def calls : Tree → List Call
  | scalar v => [.value v]
  | array items => .startSequence :: (itemCalls items ++ [.endSequence])
  | object members => .startObject :: (memberCalls members ++ [.endObject])

def itemCalls : List Tree → List Call
  | [] => []
  | t :: items => t.calls ++ itemCalls items

def memberCalls : List (String × Tree) → List Call
  | [] => []
  | (key, t) :: members => .name key :: (t.calls ++ memberCalls members)

end

theorem jsonItems_eq_map (items : List Tree) : jsonItems items = items.map json := by
  induction items with
  | nil => rfl
  | cons t items ih => rw [jsonItems, ih, List.map_cons]

theorem jsonMembers_eq_map (members : List (String × Tree)) :
    jsonMembers members = members.map fun m => (some m.1, m.2.json) := by
  induction members with
  | nil => rfl
  | cons m members ih => rw [jsonMembers, ih, List.map_cons]

theorem itemCalls_append (a b : List Tree) : itemCalls (a ++ b) = itemCalls a ++ itemCalls b := by
  induction a with
  | nil => rfl
  | cons t a ih => simp only [List.cons_append, itemCalls, ih, List.append_assoc]

theorem memberCalls_append (a b : List (String × Tree)) :
    memberCalls (a ++ b) = memberCalls a ++ memberCalls b := by
  induction a with
  | nil => rfl
  | cons m a ih => simp only [List.cons_append, memberCalls, ih, List.append_assoc]

end Tree

end SceneStream
