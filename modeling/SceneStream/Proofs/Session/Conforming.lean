import SceneStream.Proofs.Comparison.Truncation
import SceneStream.Proofs.Outline.Conforming
import SceneStream.Proofs.Session.Enclosing

/-!
# What commands write conforms

A command that is answered had a valid argument, and the property that it was answered by has the
name and the kind that the tables give it. So what the command describes conforms wherever it comes to
stand.
-/

namespace SceneStream

variable {admits : String → Prop} {name : String} {settings : Settings} {force : Bool}

/-! ## Writes of commands -/

/-- The texts that a value command puts in place of URIs. -/
def ValueCommand.uris : ValueCommand → List String
  | .write _ _ b => b.uris
  | .samples k _ values => values.flatMap k.uris
  | .window k _ values start length => ((values.drop start).take length).flatMap k.uris
  | .resolved u resolver => [resolver u.text]
  | .reference _ | .algorithm _ | .degree _ => []

def ParentCommand.uris : ParentCommand → List String
  | .writeChild _ _ _ b => b.uris
  | .writeImage u resolver => [resolver u.text]
  | .startChild _ | .referChild .. => []

def Command.uris : Command → List String
  | .value _ c => c.uris
  | .parent _ c => c.uris
  | .document _ | .make .. | .writer .. | .packet .. | .property .. | .list .. | .stream _ => []

namespace ValueCommand

variable {c : ValueCommand} {kind : Kind} {op : PropertyM Unit}

theorem conforms_toWrite (found : Session.valueOp? kind c = some op) (valid : c.IsValid)
    (admitted : ∀ u ∈ c.uris, admits u) (settings : Settings) (force : Bool) :
    (c.toWrite settings force).Conforms admits kind := by
  cases c with
  | write k e b =>
    obtain ⟨rfl, -⟩ := Option.ite_none_right_eq_some.mp found
    exact Write.conforms_ofBinding valid admitted settings force e
  | samples k dates values =>
    obtain ⟨rfl, -⟩ := Option.ite_none_right_eq_some.mp found
    obtain ⟨series, built, valid⟩ := valid
    simp only [toWrite, built]
    refine Write.conforms_ofSeries valid ?_ settings _
    obtain ⟨-, -, rfl⟩ := TimeSeries.eq_of_of built
    intro u mem
    obtain ⟨v, shown, mem⟩ := List.mem_flatMap.mp mem
    exact admitted u (List.mem_flatMap.mpr ⟨v, List.mem_of_mem_take shown, mem⟩)
  | window k dates values start length =>
    obtain ⟨rfl, -⟩ := Option.ite_none_right_eq_some.mp found
    obtain ⟨series, built, valid⟩ := valid
    simp only [toWrite, built]
    cases whole : TimeSeries.of dates values with
    | error e =>
      rw [whole] at built
      cases built
    | ok all =>
      rw [whole] at built
      have cut : all.slice start length = .ok series := built
      have values := (TimeSeries.lists_of_slice cut).2
      rw [(TimeSeries.lists_of_of whole).2] at values
      refine Write.conforms_ofSeries valid ?_ settings _
      rw [values]
      exact admitted
  | reference source =>
    obtain ⟨r, resolved⟩ := valid
    simp only [toWrite, resolved]
    exact Write.conforms_ofReference r kind
  | resolved u resolver =>
    obtain ⟨rfl, -⟩ := Option.ite_none_right_eq_some.mp found
    exact Write.conforms_ofLiteral (k := .uri) rfl admitted force ()
  | algorithm a => exact Write.conforms_members (List.forall_mem_singleton.mpr (.algorithm a)) kind
  | degree n => exact Write.conforms_members (List.forall_mem_singleton.mpr (.degree valid)) kind

end ValueCommand

namespace ParentCommand

variable {c : ParentCommand} {w : Write} {h child : Handle} {call : SessionM Reply} {k : Kind}

theorem isOf_of_member? {content : Content} (member : Session.member? h name = some (child, content))
    (value : content = .value k) : k.IsOf name := by
  obtain ⟨content', found, same⟩ := Option.bind_eq_some_iff.mp member
  obtain ⟨-, rfl⟩ := Prod.mk.inj (Option.some.inj same)
  exact ⟨h.shape, by rw [found, value]⟩

/-- What is written to a child is of the kind that the child has values of. -/
theorem conforms_toWrite? (wrote : c.toWrite? settings force = some w)
    (called : Session.onParent? h c = some call) (valid : c.IsValid)
    (admitted : ∀ u ∈ c.uris, admits u) : ∃ k : Kind, k.IsOf c.child ∧ w.Conforms admits k := by
  cases c with
  | startChild => cases wrote
  | writeChild name k e b =>
    obtain rfl := Option.some.inj wrote
    obtain ⟨⟨child, content⟩, member, made⟩ := Option.bind_eq_some_iff.mp called
    obtain ⟨value, -⟩ := Option.ite_none_right_eq_some.mp made
    exact ⟨k, isOf_of_member? member value,
      Write.conforms_ofBinding valid admitted settings force e⟩
  | referChild name source =>
    obtain ⟨r, resolved⟩ := valid
    rw [toWrite?, resolved] at wrote
    obtain rfl := Option.some.inj wrote
    obtain ⟨⟨child, content⟩, member, made⟩ := Option.bind_eq_some_iff.mp called
    cases content with
    | composite => cases made
    | value k => exact ⟨k, isOf_of_member? member rfl, Write.conforms_ofReference r k⟩
  | writeImage u resolver =>
    obtain rfl := Option.some.inj wrote
    exact ⟨.uri, ⟨.property (.composite .image), rfl⟩,
      Write.conforms_ofLiteral (k := .uri) rfl admitted force ()⟩

end ParentCommand

/-- What is found at the end of a path is a member of some writer, under the last name. -/
theorem Shape.child?_of_follow? {shape : Shape} {path : List String} {content : Content}
    (followed : shape.follow? path = some (.property content)) (last : path.getLast? = some name) :
    ∃ outer : Shape, outer.child? name = some content := by
  induction path generalizing shape with
  | nil => cases last
  | cons first path ih =>
    obtain ⟨inner, found, rest⟩ := Option.bind_eq_some_iff.mp followed
    cases path with
    | nil =>
      obtain ⟨⟩ := Option.some.inj rest
      obtain rfl := Option.some.inj last
      exact ⟨shape, found⟩
    | cons => exact ih rest (List.getLast?_cons_cons.symm.trans last)

/-! ## Commands -/

namespace Session

variable {s s₀ : Session} {o : Outline} {c : Command} {cs : List Command} {a : Address}
  {roll : List Opening} {q : Place}

/-- Where a writer has the turn, it has a part. -/
theorem Tells.parts_of_turn (tells : s.Tells o roll) (turn : s.HasTurn q) :
    ∃ p rest, o.parts = p :: rest := by
  obtain ⟨t, token, active⟩ := turn
  obtain ⟨behind, rfl⟩ := tells.registers.head_of_active token active
  obtain ⟨p, rest, parts, -⟩ := tells.top
  exact ⟨p, rest, parts⟩

theorem Stands.parts_of_answers (stands : s.Stands o) (named : s.writerOf? c = some q)
    (answered : s.answers c = true) : ∃ p rest, o.parts = p :: rest := by
  obtain ⟨-, roll, tells⟩ := stands
  apply tells.parts_of_turn (q := q)
  by_contra away
  rw [(declines_of_away named away).not_answers] at answered
  cases answered

/-- The name that a property with nothing yet stands under is a name of properties of its kind. -/
theorem isOf_of_turn (stands : s.Stands o) (encloses : s.EnclosesMembers) {h : Handle} {k : Kind}
    {name : String} {rest : List Part} (found : s.handle? a = some h)
    (shape : h.shape = .property (.value k)) (turn : (s.propertyAt a).HasTurn s.stream)
    (first : o.parts = .member name .nothing :: rest) : k.IsOf name := by
  obtain ⟨-, roll, tells⟩ := stands
  obtain ⟨t, behind, p, parts, token, -, rfl, parts_eq, standing⟩ := tells.head_of_turn turn
  obtain ⟨rfl, -⟩ := List.cons.inj (parts_eq.symm.trans first)
  obtain ⟨same, role, -⟩ := Standing.property.inj standing
  have child : a.path ≠ [] := path_ne_nil encloses role.symm (by simp [token])
  have last := (tells.regular (.property a) child).2
  rw [← same] at last
  obtain ⟨outer, -, followed⟩ := Option.bind_eq_some_iff.mp found
  obtain ⟨inner, reached, made⟩ := Option.bind_eq_some_iff.mp followed
  obtain rfl := Option.some.inj made
  obtain rfl : inner = _ := shape
  exact Shape.child?_of_follow? reached last

/-- What an answered command describes conforms. -/
theorem conforms_deeds (conforms : o.Conforms admits) (stands : s.Stands o)
    (encloses : s.EnclosesMembers) (answered : s.answers c = true)
    (admitted : ∀ u ∈ c.uris, admits u) : (o.afterAll (s.deeds c)).Conforms admits := by
  have valid := isValid_of_answers answered
  have left : (o.after .leave).Conforms admits := by
    obtain ⟨-, roll, tells⟩ := stands
    exact conforms.leave_of_sound tells.sound
  cases c with
  | make | stream => exact conforms
  | document c =>
    cases c with
    | openPacket => exact conforms.enter (p := .packet []) (List.forall_mem_nil _)
    | writeDocumentPacket name =>
      apply ((conforms.enter (p := .packet []) (List.forall_mem_nil _)).write_members ?_).leave
      · intro other body
        simp [Outline.after, Part.write, Write.entry]
      · simp only [List.forall_mem_cons]
        exact ⟨.packet (.id "document"), .packet (.name name), .packet (.version Document.version),
          List.forall_mem_nil _⟩
    | packetCount => exact conforms
    | finish => exact conforms.finish
  | writer a c =>
    cases c with
    | start =>
      rw [deeds]
      cases s.handle? a with
      | none => exact conforms
      | some h =>
        apply conforms.enter
        unfold partOf
        cases h.shape with
        | packet => exact List.forall_mem_nil _
        | property => exact Property.conforms_part _
    | finish => exact left
    | release =>
      rw [deeds]
      split
      · exact left
      · exact conforms
    | state | touch | copy => exact conforms
  | parent a c =>
    obtain ⟨call, reply, called, -⟩ := run_of_answers answered
    obtain ⟨h, -, called⟩ := Option.bind_eq_some_iff.mp called
    obtain ⟨p, rest, parts⟩ := stands.parts_of_answers rfl answered
    cases wrote : s.childWrite? a c with
    | none =>
      simp only [deeds, wrote, List.append_nil]
      exact conforms.openChild c.child
    | some w =>
      simp only [deeds, wrote]
      obtain ⟨k, property, written⟩ :=
        ParentCommand.conforms_toWrite? wrote called valid admitted
      exact conforms.writeChild parts written property
  | packet a c => exact conforms.write_members (List.forall_mem_singleton.mpr (.packet c))
  | property a c =>
    cases c with
    | interval i => exact conforms.write_members (List.forall_mem_singleton.mpr (.interval i))
    | delete b => exact conforms.write_members (List.forall_mem_singleton.mpr (.delete b))
    | openScope => exact conforms.write_members (List.forall_mem_nil _)
    | startIntervals list => exact conforms.enter (p := .list _ []) (List.forall_mem_nil _)
    | forceObject | prepareChild | describe => exact conforms
  | value a c =>
    obtain ⟨call, reply, called, -⟩ := run_of_answers answered
    obtain ⟨h, k, op, found, shape, valueOp, rfl⟩ := handle?_of_operation? called
    have takes := propertyAt_of_adds stands (Property.adds_valueOp valueOp _ _) called answered
    apply conforms.write (c.conforms_toWrite valueOp valid admitted _ _)
    exact fun name rest parts => isOf_of_turn stands encloses found shape takes.1.1 parts
  | list list c =>
    cases c with
    | start =>
      rw [deeds]
      cases s.lists.get? list with
      | none => exact conforms
      | some l => exact conforms.enter (p := .list _ []) (List.forall_mem_nil _)
    | startInterval =>
      rw [deeds]
      cases s.lists.get? list with
      | none => exact conforms
      | some l => exact conforms.enter (p := .element _ []) (List.forall_mem_nil _)
    | finish => exact left
    | state => exact conforms

/-- A refused command leaves an empty child at most, which conforms like everything that is empty. -/
theorem Stands.conforms_step (stands : s.Stands o) (conforms : o.Conforms admits)
    (encloses : s.EnclosesMembers) (admitted : ∀ u ∈ c.uris, admits u) :
    (o.afterAll (s.described c)).Conforms admits := by
  unfold described
  cases outcome : (s.step c).1 with
  | misdirected => exact conforms
  | answered reply =>
    exact conforms_deeds conforms stands encloses (by rw [answers, outcome]) admitted
  | refused e =>
    cases c with
    | parent a c =>
      simp only [remnants]
      split
      next opens =>
        obtain ⟨-, opened⟩ := Bool.and_eq_true_iff.mp opens
        obtain ⟨p, rest, parts⟩ := stands.parts_of_answers (q := s.placeAt a) rfl opened
        exact conforms.leaveChild parts c.child
      next => exact conforms
    | document | make | writer | packet | property | value | list | stream => exact conforms

theorem Stands.conforms_run (stands : s.Stands o) (conforms : o.Conforms admits)
    (encloses : s.EnclosesMembers) (writing : ∀ c ∈ cs, c.isWriting = true)
    (admitted : ∀ c ∈ cs, ∀ u ∈ c.uris, admits u) : (s.describe o cs).Conforms admits := by
  induction cs generalizing s o with
  | nil => exact conforms
  | cons c cs ih =>
    obtain ⟨first, others⟩ := List.forall_mem_cons.mp writing
    obtain ⟨here, behind⟩ := List.forall_mem_cons.mp admitted
    exact ih (stands.step first) (stands.conforms_step conforms encloses here)
      (encloses.step stands first) others behind

/-- A document that has room for so many bytes holds the first ones of what it would hold otherwise. -/
theorem bytes_of_limited {room : Nat} {l : Session} (made : ofDocument {} settings = .ok s₀)
    (limited : ofDocument { limit := some room } settings = .ok l) (cs : List Command) :
    (l.run cs).stream.sink.bytes = (s₀.run cs).stream.sink.bytes.take room := by
  obtain rfl := Except.ok.inj ((ofDocument_eq settings).symm.trans made)
  rcases Nat.eq_zero_or_pos room with rfl | some_room
  · cases limited
  · obtain ⟨l', begun, alike⟩ := alike_ofDocument settings some_room
    obtain rfl := Except.ok.inj (begun.symm.trans limited)
    exact (truncates_of_alike alike cs).bytes

/-- Whatever is done to a document by its writers, what stands in it conforms: bounds are in order,
channels lie between zero and one, the values of integer properties have 32 bits, what is written as a
reference can be read as one, and what stands for a URI is a text. That is not empty as long as no
command gives an empty text as a URI and no resolver puts one in its place; nothing else depends on
them. A scalar under the name of a property is a value of the property's kind. This is all that is in
the text, which reads as it once the document is finished, and of which a sink with a limit has the
first bytes. -/
theorem conforms_ofDocument (made : ofDocument {} settings = .ok s₀)
    (writing : ∀ c ∈ cs, c.isWriting = true) :
    let o := s₀.describe {} cs
    o.Conforms (fun _ => True) ∧ ((∀ c ∈ cs, ∀ u ∈ c.uris, u ≠ "") → o.Conforms (· ≠ "")) ∧
      (∀ admits, o.Conforms admits → ∀ t ∈ o.items, ∀ name v, Tree.StandsIn name (.scalar v) t →
        ∀ k : Kind, k.IsOf name → ∃ e, k.Accepts admits e [v]) ∧
      (s₀.run cs).stream.Shows o.draft ∧
      (o.finished = true →
        Json.parse? (s₀.run cs).stream.sink.contents = some (Tree.array o.items).json) ∧
      ∀ room l, ofDocument { limit := some room } settings = .ok l →
        (l.run cs).stream.sink.bytes = (s₀.run cs).stream.sink.bytes.take room := by
  have stands := stands_ofDocument made
  have begun : new true {} settings = .ok s₀ := made
  have encloses : s₀.EnclosesMembers := enclosesMembers_of_new begun
  have empty (admits : String → Prop) : Outline.Conforms admits {} :=
    ⟨List.forall_mem_nil _, List.forall_mem_nil _⟩
  obtain ⟨-, roll, tells⟩ := stands.run writing
  refine ⟨?_, ?_, ?_, tells.shows, tells.parse? (alone_describe _ _ _), ?_⟩
  · exact stands.conforms_run (empty _) encloses writing fun _ _ _ _ => trivial
  · exact stands.conforms_run (empty _) encloses writing
  · exact fun admits conforms t item name v inside k property => conforms.accepts item inside property
  · exact fun room l limited => bytes_of_limited made limited cs

/-- Bounds that are none and then some that are, and a picture whose URI is resolved. -/
def picturedRectangle : List Command :=
  let packet : Address := { root := .document }
  let rectangle : Address := packet.child "rectangle"
  let material : Address := rectangle.child "material"
  let image : Address := material.child "image"
  [.document .openPacket, .parent packet (.startChild "rectangle"),
    .parent rectangle (.writeChild "distanceDisplayCondition" .bounds () (.literal ⟨.nan, .zero false⟩)),
    .parent rectangle (.writeChild "distanceDisplayCondition" .bounds ()
      (.literal ⟨.zero false, .zero false⟩)),
    .parent rectangle (.startChild "material"), .parent material (.startChild "image"),
    .parent image (.writeImage ⟨"a.png"⟩ fun text => "assets/" ++ text),
    .writer image .finish, .writer material .finish, .writer rectangle .finish,
    .writer packet .finish, .document .finish]

theorem conforms_picturedRectangle :
    ofDocument {} {} = .ok (newDocument {}) ∧
      (∀ c ∈ picturedRectangle, c.isWriting = true) ∧
      (∀ c ∈ picturedRectangle, ∀ u ∈ c.uris, u ≠ "") ∧
      ((newDocument {}).describe {} picturedRectangle).Conforms (· ≠ "") ∧
      ((newDocument {}).describe {} picturedRectangle).finished = true ∧
      Json.parse? ((newDocument {}).run picturedRectangle).stream.sink.contents =
        some (Tree.array ((newDocument {}).describe {} picturedRectangle).items).json := by
  have writing : ∀ c ∈ picturedRectangle, c.isWriting = true := by decide
  have filled : ∀ c ∈ picturedRectangle, ∀ u ∈ c.uris, u ≠ "" := by
    simp [picturedRectangle, Command.uris, ParentCommand.uris, Binding.uris, Kind.uris]
  have finished : ((newDocument {}).describe {} picturedRectangle).finished = true := by
    decide +kernel
  obtain ⟨-, conforms, -, -, reads, -⟩ := conforms_ofDocument (ofDocument_eq {}) writing
  exact ⟨ofDocument_eq {}, writing, filled, conforms filled, finished, reads finished⟩

/-- A picture whose URI is resolved to nothing. -/
def blankPicture : List Command :=
  let packet : Address := { root := .document }
  let rectangle : Address := packet.child "rectangle"
  let material : Address := rectangle.child "material"
  let image : Address := material.child "image"
  [.document .openPacket, .parent packet (.startChild "rectangle"),
    .parent rectangle (.startChild "material"), .parent material (.startChild "image"),
    .parent image (.writeImage ⟨"a.png"⟩ fun _ => ""), .writer image .finish,
    .writer material .finish, .writer rectangle .finish, .writer packet .finish, .document .finish]

/-- An empty text makes no URI, and yet it is written as one where a resolver returns it. -/
theorem writes_empty_of_blankPicture :
    (∀ c ∈ blankPicture, c.isWriting = true) ∧ Uri.of "a.png" = .ok ⟨"a.png"⟩ ∧
      Uri.of "" = .error (.invalidArgument .emptyUri) ∧
      Json.parse? ((newDocument {}).run blankPicture).stream.sink.contents =
        some (.array [.object [(some "rectangle", .object [(some "material",
          .object [(some "image", .object [(some "image", .string (some ""))])])])]]) := by
  have written : ((newDocument {}).run blankPicture).stream.sink.contents =
      "[\x7b\"rectangle\":\x7b\"material\":\x7b\"image\":\x7b\"image\":\"\"\x7d\x7d\x7d\x7d]" := by
    decide +kernel
  rw [written]
  exact ⟨by decide, rfl, rfl, rfl⟩

end Session

end SceneStream
