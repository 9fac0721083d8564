import SceneStream.Proofs.Structure.Draft
import SceneStream.Property.Basic

/-!
# Parts of an outline

A part is what one open writer has written. Parts that are open together lie inside each other, and
this module fixes which part may lie directly inside which, the calls that a part has made, the
calls that close it, and how the part around it takes it up then. Nothing here knows of tokens,
tables or text.
-/

namespace SceneStream

/-- What a property holds so far. -/
inductive Body where
  | nothing
  | bare (t : Tree)
  | object (members : List (String × Tree))
  /-- A list of intervals in place of the object, known once the list is closed. -/
  | intervals (list : Option Tree)

/-- What an open writer has written. -/
inductive Part where
  | packet (members : List (String × Tree))
  | member (name : String) (body : Body)
  /-- One interval in a list. -/
  | element (name : String) (members : List (String × Tree))
  | list (name : String) (items : List Tree)

/-- Whether the tree is an object. -/
def Tree.isObject : Tree → Bool
  | object _ => true
  | scalar _ | array _ => false

/-- What the document's array may hold: an object, or the objects of a list that is opened on its
own. -/
def Tree.IsItem : Tree → Prop
  | object _ => True
  | array items => ∀ t ∈ items, t.isObject = true
  | scalar _ => False

/-- What one write adds: a value in place of the object, or members of the object. -/
inductive Entry where
  | bare (t : Tree)
  | members (added : List (String × Tree))

/-- What one successful write describes. Where a literal of a simple kind comes first, it stands for
the whole property. -/
inductive Write where
  | literal (simple : Bool) (key : String) (t : Tree)
  | members (added : List (String × Tree))

/-- What a writer that is open shows of its state to the writers around it. -/
inductive Standing where
  | packet
  | property (name : String) (role : Property.Role) (scope : Property.Scope)
  | list (name : String)
  deriving DecidableEq, Repr

/-- The same writer behind an entry. -/
def Standing.wrote (scope : Property.Scope) : Standing → Standing
  | property name role _ => property name role scope
  | st => st

/-- The sort of a container. -/
inductive Bracket where
  | object
  | array
  deriving DecidableEq, Repr

/-- What is due at some place in a text. -/
inductive Site where
  /-- An item of an array, or its end. -/
  | item
  /-- A name in an object, or its end. -/
  | name
  /-- The value behind a name. -/
  | value
  deriving DecidableEq, Repr

/-- The calls by which a scope becomes an object. -/
def Property.Scope.opening : Property.Scope → List Call
  | .unopened => [.startObject]
  | .bare | .object | .intervals => []

/-- The calls that complete a property in this scope. -/
def Property.Scope.closing : Property.Scope → List Call
  | .unopened => [.startObject, .endObject]
  | .object => [.endObject]
  | .bare | .intervals => []

/-- The container that a property keeps open in this scope. -/
def Property.Scope.brackets : Property.Scope → List Bracket
  | .object => [.object]
  | .unopened | .bare | .intervals => []

namespace Body

def scope : Body → Property.Scope
  | nothing => .unopened
  | bare _ => .bare
  | object _ => .object
  | intervals _ => .intervals

/-- The value of the property if nothing else is written. -/
def tree : Body → Tree
  | nothing => .object []
  | bare t => t
  | object members => .object members
  | intervals list => list.getD (.array [])

def calls : Body → List Call
  | nothing | intervals none => []
  | bare t | intervals (some t) => t.calls
  | object members => .startObject :: Tree.memberCalls members

def write : Body → Entry → Body
  | nothing, .members members => object members
  | object done, .members members => object (done ++ members)
  | _, .bare t => bare t
  | body, .members _ => body

end Body

namespace Entry

/-- The calls that write the entry in this scope. -/
def calls (scope : Property.Scope) : Entry → List Call
  | bare t => t.calls
  | members added => scope.opening ++ Tree.memberCalls added

/-- The scope after the entry. -/
def scope : Entry → Property.Scope
  | bare _ => .bare
  | members _ => .object

/-- Whether a part in this scope takes the entry. -/
def fits : Entry → Property.Scope → Bool
  | bare _, .unopened | members _, .unopened | members _, .object => true
  | _, _ => false

end Entry

/-- The entry by which a property in this scope takes the write. -/
def Write.entry (scope : Property.Scope) : Write → Entry
  | literal simple key t =>
    if simple ∧ scope = .unopened then .bare t else .members [(key, t)]
  | members added => .members added

/-- As long as a property is no bare value and no list, it takes every write. -/
theorem Write.fits_entry {scope : Property.Scope} (h : scope = .unopened ∨ scope = .object)
    (w : Write) : (w.entry scope).fits scope := by
  cases w with
  | literal simple key t =>
      simp only [entry]
      split
      next first => rw [first.2]; rfl
      next => rcases h with rfl | rfl <;> rfl
  | members added => rcases h with rfl | rfl <;> rfl

namespace Part

/-- The scope of a property. A packet is an object from the start, and a list takes no entries. -/
def scope : Part → Property.Scope
  | packet _ | element .. => .object
  | member _ body => body.scope
  | list .. => .intervals

/-- The value of the part if nothing else is written. -/
def tree : Part → Tree
  | packet members | element _ members => .object members
  | member _ body => body.tree
  | list _ items => .array items

def calls : Part → List Call
  | packet members | element _ members => .startObject :: Tree.memberCalls members
  | member name body => .name name :: body.calls
  | list _ items => .startSequence :: Tree.itemCalls items

/-- The calls that close the part. -/
def closing : Part → List Call
  | packet _ | element .. => [.endObject]
  | member _ body => body.scope.closing
  | list .. => [.endSequence]

def standing : Part → Standing
  | packet _ => .packet
  | member name body => .property name .member body.scope
  | element name _ => .property name .element .object
  | list name _ => .list name

/-- What is due behind the calls of the part. -/
def site : Part → Site
  | packet _ | element .. | member _ (.object _) | member _ (.bare _)
  | member _ (.intervals (some _)) => .name
  | member _ .nothing | member _ (.intervals none) => .value
  | list .. => .item

def write : Part → Entry → Part
  | packet done, .members members => packet (done ++ members)
  | element name done, .members members => element name (done ++ members)
  | member name body, entry => member name (body.write entry)
  | p, _ => p

/-- The part around another one, once that one is closed. -/
def receive : Part → Part → Part
  | p, member name body => p.write (.members [(name, body.tree)])
  | list name items, p => list name (items ++ [p.tree])
  | member name _, p => member name (.intervals (some p.tree))
  | p, _ => p

/-- Whether the part may lie directly inside these, the innermost of them first. Only a member must
lie inside another part, and a list holds objects only. -/
def Fits : Part → List Part → Prop
  | packet _, rest => rest = []
  | member .., rest => ∃ outer ∈ rest.head?, outer.scope = .object
  | element name _, rest => ∀ outer ∈ rest.head?, ∃ items, outer = list name items
  | list name items, rest =>
    (∀ t ∈ items, t.isObject = true) ∧ ∀ outer ∈ rest.head?, outer = member name (.intervals none)

/-- Whether each of these parts may lie in those behind it. -/
def Chain : List Part → Prop
  | [] => True
  | p :: rest => p.Fits rest ∧ Chain rest

/-- Whether the list that stands for the property is still to come. -/
def awaitsList : Part → Bool
  | member _ (.intervals none) => true
  | _ => false

variable {p outer : Part} {rest : List Part} {entry : Entry}

theorem scope_of_standing {name : String} {role : Property.Role} {scope : Property.Scope}
    (h : p.standing = .property name role scope) : p.scope = scope := by
  cases p <;> cases h <;> rfl

theorem closing_of_standing {name : String} {role : Property.Role} {scope : Property.Scope}
    (h : p.standing = .property name role scope) : p.closing = scope.closing := by
  cases p <;> cases h <;> rfl

/-- Of the properties, only a member shows that it has nothing written. -/
theorem eq_nothing_of_standing {name : String} {role : Property.Role}
    (h : p.standing = .property name role .unopened) :
    role = .member ∧ p = .member name .nothing := by
  rcases p with _ | ⟨_, _ | _ | _ | _⟩ | _ | _ <;> cases h
  exact ⟨rfl, rfl⟩

theorem scope_write (h : entry.fits p.scope) : (p.write entry).scope = entry.scope := by
  rcases p with _ | ⟨_, _ | _ | _ | _⟩ | _ | _ <;> cases entry <;>
    first | rfl | cases h

theorem fits_write (takes : entry.fits p.scope) (h : p.Fits rest) : (p.write entry).Fits rest := by
  cases p <;> cases entry <;> exact h

theorem awaitsList_write (takes : entry.fits p.scope) : (p.write entry).awaitsList = false := by
  rcases p with _ | ⟨_, _ | _ | _ | _⟩ | _ | _ <;> cases entry <;> first | rfl | cases takes

/-- An entry changes the scope that a property shows, and nothing else. -/
theorem standing_write (takes : entry.fits p.scope) :
    (p.write entry).standing = p.standing.wrote entry.scope := by
  rcases p with _ | ⟨_, _ | _ | _ | _⟩ | _ | _ <;> cases entry <;> first | rfl | cases takes

/-- An entry that the part takes adds its calls to those of the part. -/
theorem calls_write (h : entry.fits p.scope) :
    (p.write entry).calls = p.calls ++ entry.calls p.scope := by
  rcases p with _ | ⟨_, _ | _ | _ | _⟩ | _ | _ <;> cases entry <;>
    simp_all [Entry.fits, write, calls, Body.write, Body.calls, Entry.calls, scope, Body.scope,
      Property.Scope.opening, Tree.memberCalls_append]

/-- The three ways in which a part lies directly inside another one. -/
theorem fits_cases (fits : p.Fits (outer :: rest)) :
    (∃ name body, p = member name body ∧ outer.scope = .object) ∨
      (∃ name members items, p = element name members ∧ outer = list name items) ∨
      ∃ name items, p = list name items ∧ outer = member name (.intervals none) := by
  cases p with
  | packet => cases fits
  | member name body => exact .inl ⟨name, body, rfl, by simpa [Fits] using fits⟩
  | element name members =>
      obtain ⟨items, list⟩ := fits outer rfl
      exact .inr (.inl ⟨name, members, items, rfl, list⟩)
  | list name items => exact .inr (.inr ⟨name, items, rfl, fits.2 outer rfl⟩)

/-- Around a member is a part that takes the member as an entry. -/
private theorem fits_member (scope : outer.scope = .object) (name : String) (body : Body) :
    (Entry.members [(name, body.tree)]).fits outer.scope = true := by
  rw [scope]
  rfl

/-- A part that is closed is taken up with all its calls. -/
theorem calls_receive (fits : p.Fits (outer :: rest)) (whole : p.awaitsList = false) :
    (outer.receive p).calls = outer.calls ++ p.calls ++ p.closing := by
  rcases fits_cases fits with ⟨name, body, rfl, scope⟩ | ⟨name, members, items, rfl, rfl⟩ |
    ⟨name, items, rfl, rfl⟩
  · rw [receive, calls_write (fits_member scope name body), List.append_assoc]
    rcases body with _ | t | members | _ | t <;>
      simp_all [awaitsList, Entry.calls, Property.Scope.opening, Tree.memberCalls, Body.tree,
        Tree.calls, calls, Body.calls, closing, Body.scope, Property.Scope.closing]
  · simp [receive, calls, closing, Tree.itemCalls_append, Tree.itemCalls, tree, Tree.calls]
  · simp [receive, calls, closing, Body.calls, tree, Tree.calls]

theorem fits_receive (fits : p.Fits (outer :: rest)) (h : outer.Fits rest) :
    (outer.receive p).Fits rest := by
  rcases fits_cases fits with ⟨name, body, rfl, scope⟩ | ⟨name, members, items, rfl, rfl⟩ |
    ⟨name, items, rfl, rfl⟩
  · exact fits_write (fits_member scope name body) h
  · constructor
    · intro t mem
      rcases List.mem_append.mp mem with mem | mem
      · exact h.1 t mem
      · rw [List.mem_singleton.mp mem]
        rfl
    · exact h.2
  · exact h

/-- A part shows the same once it has taken up another one. -/
theorem standing_receive (fits : p.Fits (outer :: rest)) :
    (outer.receive p).standing = outer.standing := by
  rcases fits_cases fits with ⟨name, body, rfl, scope⟩ | ⟨name, members, items, rfl, rfl⟩ |
    ⟨name, items, rfl, rfl⟩
  · rw [receive, standing_write (fits_member scope name body)]
    rcases outer with _ | ⟨_, _ | _ | _ | _⟩ | _ | _ <;> first | rfl | cases scope
  · rfl
  · rfl

theorem awaitsList_receive (fits : p.Fits (outer :: rest)) :
    (outer.receive p).awaitsList = false := by
  rcases fits_cases fits with ⟨name, body, rfl, scope⟩ | ⟨name, members, items, rfl, rfl⟩ |
    ⟨name, items, rfl, rfl⟩
  · exact awaitsList_write (fits_member scope name body)
  · rfl
  · rfl

/-- A part that lies in no other one is an object or a list of objects. -/
theorem isItem_tree (fits : p.Fits []) : p.tree.IsItem := by
  cases p with
  | packet | element => trivial
  | member => simp [Fits] at fits
  | list => exact fits.1

/-- A part that lies in no other one is taken up as an item of the document. -/
theorem calls_tree (fits : p.Fits []) : p.tree.calls = p.calls ++ p.closing := by
  cases p with
  | member => simp [Fits] at fits
  | packet | element | list => rfl

end Part

end SceneStream
