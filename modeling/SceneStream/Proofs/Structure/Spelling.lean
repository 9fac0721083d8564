import SceneStream.Proofs.Json.Numeral
import SceneStream.Proofs.Structure.Draft

/-!
# How drafts are spelled

The text of a draft gives its part of the tree. A permitted call goes on with a token of its own,
behind a comma where it begins another part of a container, and with any white space in front of it;
the text is then that of the next draft.
-/

namespace SceneStream

open Json

/-- A piece is read as its value wherever a value is due. -/
theorem Json.Reads.scalar {text : List Char} {a : Assembly} (h : Reads text a)
    (due : a.acceptsValue = true) (v : Scalar) :
    Reads (text ++ v.json.toList) (a.value v.denoted) := by
  cases v with
  | bool b =>
      cases b with
      | true => exact h.wordTrue due
      | false => exact h.wordFalse due
  | integer n => exact h.number due (isNumeral_int n)
  | double x =>
      cases x with
      | nan => exact h.wordNull due
      | infinite negative => cases negative <;> exact h.wordNull due
      | finite => exact h.number due (Scalar.doubles.isNumeral_text rfl)
  | single x =>
      cases x with
      | nan => exact h.wordNull due
      | infinite negative => cases negative <;> exact h.wordNull due
      | finite => exact h.number due (Scalar.singles.isNumeral_text rfl)
  | text s =>
      rw [Scalar.denoted, ← text_of_acceptsValue due]
      exact h.quote (.inl due) s

/-- The text of a call itself: a bracket, a name with its colon, or a scalar. -/
def Call.token (pretty : Bool) : Call → String
  | .startObject => "\x7b"
  | .endObject => "\x7d"
  | .startSequence => "["
  | .endSequence => "]"
  | .name key => Json.quote key ++ if pretty then ": " else ":"
  | .value v => v.json

/-- The container as the reader holds it. -/
def Outer.container : Outer → Container
  | item done => .array (Tree.jsonItems done).reverse
  | member done key => .member (Tree.jsonMembers done).reverse (some key)

namespace Draft

/-- What the reader holds after the text of a draft. -/
def assembly : Draft → Assembly
  | blank => .start
  | complete t => ⟨[], .complete t.json⟩
  | array items outer =>
    ⟨.array (Tree.jsonItems items).reverse :: outer.map Outer.container,
      if items = [] then .firstItem else .next⟩
  | object members outer =>
    ⟨.object (Tree.jsonMembers members).reverse :: outer.map Outer.container,
      if members = [] then .firstName else .next⟩
  | named members key outer =>
    ⟨.member (Tree.jsonMembers members).reverse (some key) :: outer.map Outer.container, .value⟩

theorem assembly_place (outer : List Outer) (t : Tree) :
    (place outer t).assembly = Assembly.place (outer.map Outer.container) t.json := by
  rcases outer with _ | ⟨done | ⟨done, key⟩, outer⟩
  · rfl
  · simp [place, assembly, Assembly.place, Outer.container, Tree.jsonItems_eq_map]
  · simp [place, assembly, Assembly.place, Outer.container, Tree.jsonMembers_eq_map]

/-- The comma in front of the next item of an array. -/
def itemComma : Draft → String
  | array items _ => if 0 < items.length then "," else ""
  | _ => ""

/-- The comma in front of the next name of an object. -/
def memberComma : Draft → String
  | object members _ => if 0 < members.length then "," else ""
  | _ => ""

/-- The comma in front of a permitted call. -/
def comma (d : Draft) : Call → String
  | .startObject | .startSequence | .value _ => d.itemComma
  | .name _ => d.memberComma
  | .endObject | .endSequence => ""

theorem comma_cases (d : Draft) (c : Call) : d.comma c = "" ∨ d.comma c = "," := by
  have item : d.itemComma = "" ∨ d.itemComma = "," := by
    unfold itemComma
    split
    · split <;> simp
    · exact .inl rfl
  have member : d.memberComma = "" ∨ d.memberComma = "," := by
    unfold memberComma
    split
    · split <;> simp
    · exact .inl rfl
  cases c with
  | startObject | startSequence | value => exact item
  | name => exact member
  | endObject | endSequence => exact .inl rfl

variable {d e : Draft} {outer : List Outer} {text : List Char}

/-- Behind the comma, the reader waits for the value that may come next. -/
theorem reads_itemComma (h : Reads text d.assembly) (inside : d.inside? = some outer) :
    ∃ a, Reads (text ++ d.itemComma.toList) a ∧ a.stack = outer.map Outer.container ∧
      a.acceptsValue = true := by
  cases d with
  | array items outer =>
      obtain rfl := Option.some.inj inside
      cases items with
      | nil => exact ⟨_, by simpa [itemComma] using h, rfl, rfl⟩
      | cons t items =>
          rw [itemComma, if_pos (by simp)]
          exact ⟨_, h.comma rfl, rfl, rfl⟩
  | blank | named =>
      obtain rfl := Option.some.inj inside
      exact ⟨_, by simpa [itemComma] using h, rfl, rfl⟩
  | complete | object => cases inside

/-- Behind the comma, the reader waits for the next name of an object. -/
theorem reads_memberComma {members : List (String × Tree)}
    (h : Reads text (object members outer).assembly) :
    ∃ a, Reads (text ++ (object members outer).memberComma.toList) a ∧ a.acceptsName = true ∧
      a.stack = .object (Tree.jsonMembers members).reverse :: outer.map Outer.container := by
  cases members with
  | nil => exact ⟨_, by simpa [memberComma] using h, rfl, rfl⟩
  | cons m members =>
      rw [memberComma, if_pos (by simp)]
      exact ⟨_, h.comma rfl, rfl, rfl⟩

/-- A name makes the reader wait for its value. -/
theorem reads_name {members : List (String × Tree)} {a : Assembly} (h : Reads text a)
    (due : a.acceptsName = true)
    (stack : a.stack = .object (Tree.jsonMembers members).reverse :: outer.map Outer.container)
    (key : String) (pretty : Bool) :
    Reads (text ++ ((Call.name key).token pretty).toList) (named members key outer).assembly := by
  have named : a.text (some key) =
      ⟨.member (Tree.jsonMembers members).reverse (some key) :: outer.map Outer.container,
        .colon⟩ := by
    simp [Assembly.text, due, stack]
  have coloned := (named ▸ h.quote (.inr due) key).colon rfl
  rw [Call.token, String.toList_append, ← List.append_assoc]
  cases pretty with
  | false => exact coloned
  | true =>
      have spaced := coloned.white isSpacing_space.isWhite
      rwa [List.append_assoc] at spaced

/-- A permitted call goes on with its comma, white space and its token. -/
theorem reads_accept {c : Call} {blanks : List Char} (h : Reads text d.assembly)
    (permitted : d.accept c = some e) (spacing : IsSpacing blanks) (pretty : Bool) :
    Reads (text ++ (d.comma c).toList ++ blanks ++ (c.token pretty).toList) e.assembly := by
  cases c with
  | startObject =>
      obtain ⟨outer, inside, rfl⟩ := Option.map_eq_some_iff.mp permitted
      obtain ⟨a, waits, stack, due⟩ := reads_itemComma h inside
      rw [comma, Call.token]
      refine (waits.white spacing.isWhite).beginObject ?_
      simp [Assembly.beginObject?, due, stack, assembly, Tree.jsonMembers]
  | startSequence =>
      obtain ⟨outer, inside, rfl⟩ := Option.map_eq_some_iff.mp permitted
      obtain ⟨a, waits, stack, due⟩ := reads_itemComma h inside
      rw [comma, Call.token]
      refine (waits.white spacing.isWhite).beginArray ?_
      simp [Assembly.beginArray?, due, stack, assembly, Tree.jsonItems]
  | value v =>
      obtain ⟨outer, inside, rfl⟩ := Option.map_eq_some_iff.mp permitted
      obtain ⟨a, waits, stack, due⟩ := reads_itemComma h inside
      rw [assembly_place, ← stack]
      exact (waits.white spacing.isWhite).scalar due v
  | name key =>
      cases d with
      | object members outer =>
          obtain rfl := Option.some.inj permitted
          obtain ⟨a, waits, due, stack⟩ := reads_memberComma h
          exact reads_name (waits.white spacing.isWhite) due stack key pretty
      | _ => cases permitted
  | endObject =>
      cases d with
      | object members outer =>
          obtain rfl := Option.some.inj permitted
          rw [comma, Call.token, String.toList_empty, List.append_nil, assembly_place]
          refine Reads.endObject (h.white spacing.isWhite) ?_
          cases members <;> simp [Assembly.endObject?, assembly, Tree.json, Tree.jsonMembers]
      | _ => cases permitted
  | endSequence =>
      cases d with
      | array items outer =>
          obtain rfl := Option.some.inj permitted
          rw [comma, Call.token, String.toList_empty, List.append_nil, assembly_place]
          refine Reads.endArray (h.white spacing.isWhite) ?_
          cases items <;> simp [Assembly.endArray?, assembly, Tree.json, Tree.jsonItems]
      | _ => cases permitted

end Draft

end SceneStream
