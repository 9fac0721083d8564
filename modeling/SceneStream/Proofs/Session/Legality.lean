import SceneStream.Proofs.Session.Completion
import SceneStream.Proofs.Session.History

/-!
# What the innermost property accepts

As long as a property is the innermost writer, what it accepts next is decided by what was written to it
since it was opened, and by the arguments: nothing legal is refused, and nothing illegal is answered.
A literal stands for the whole property exactly where it may, and then nothing but the literal is added
to the text.
-/

namespace SceneStream

/-! ## A literal that stands alone -/

namespace Stream

variable {s s' : Stream} {u : Unit}

/-- Behind a name, a scalar is written with nothing before it. -/
theorem text_value (limit : s.sink.limit = none) (pending : s.isValuePending = true) {v : Scalar}
    (run : value v s = .ok u s') : s'.sink.text = s.sink.text ++ v.json := by
  unfold isValuePending at pending
  split at pending
  next members rest frames =>
    have begun : beginValue s = .ok () { s with frames := .object members false :: rest } := by
      simp [beginValue, bind_apply, frames]
    rw [value, bind_of_ok begun, scalarText_apply (by exact limit)] at run
    obtain rfl := (EStateM.Result.ok.inj run).2
    rfl
  next => cases pending

/-- A literal of a simple kind is one scalar. -/
theorem text_literal (limit : s.sink.limit = none) (pending : s.isValuePending = true) {k : Kind}
    (bare : k.isBare = true) {e : k.Encoding} {v : k.Value} (run : literal k e v s = .ok u s') :
    ∃ x, k.components e v = [x] ∧ s'.sink.text = s.sink.text ++ x.json := by
  have single : k.arity = 1 := by
    cases k <;> first | rfl | cases bare
  obtain ⟨x, components⟩ := List.length_eq_one_iff.mp ((k.length_components e v).trans single)
  rw [literal, if_pos single, components] at run
  change (do value x; pure () : StreamM Unit) s = _ at run
  obtain ⟨_, s₁, written, ended⟩ := ok_of_bind run
  obtain rfl := (EStateM.Result.ok.inj ended).2
  exact ⟨x, components, text_value limit pending written⟩

end Stream

/-- Where a literal stands alone, the calls of the literal are all that is made. -/
theorem Property.literal_of_standsAlone {s : Stream} {p : Property} {k : Kind} {e : k.Encoding}
    {v : k.Value} {w : Writing Property} {u : Unit} (turn : p.HasTurn s)
    (unwritten : p.valueWritten = false) (valid : k.defect? v = none)
    (alone : p.standsAlone k e = true) (run : writeLiteral k e v ⟨s, p⟩ = .ok u w) :
    ∃ u', Stream.literal k e v s = .ok u' w.stream := by
  obtain ⟨t, token, active⟩ := turn
  have free : p.isOpen = true ∧ p.valueWritten = false := ⟨by simp [isOpen, token], unwritten⟩
  have checked : Writing.check (k.check v) ⟨s, p⟩ = .ok () ⟨s, p⟩ := by simp [Kind.check, valid]
  rw [writeLiteral, bind_of_ok (expectNoValue_ok free), bind_of_ok checked,
    bind_of_ok (Writing.getOwn_apply _), if_pos alone] at run
  obtain ⟨_, w₁, written, noted⟩ := ok_of_bind run
  obtain ⟨u', w₂, made, set⟩ := ok_of_bind written
  rw [whileActive_apply token active] at made
  obtain ⟨s', literal, rfl⟩ := Writing.ok_of_onStream made
  obtain rfl := (EStateM.Result.ok.inj set).2
  obtain rfl := (EStateM.Result.ok.inj noted).2
  exact ⟨u', literal⟩

namespace Session

variable {s s₀ : Session} {o : Outline} {a : Address} {content : Content} {k : Kind}
  {notes : List Note} {cs : List Command} {settings : Settings} {document : Bool}

/-! ## Calls of a property -/

theorem operation?_property (found : s.handle? a = some ⟨a, .property content⟩)
    (c : PropertyCommand) : s.operation? (.property a c) = some (onContent a content c) := by
  rw [operation?, found]
  rfl

theorem operation?_value (found : s.handle? a = some ⟨a, .property (.value k)⟩) {c : ValueCommand}
    {op : PropertyM Unit} (given : valueOp? k c = some op) :
    s.operation? (.value a c) = some (doing (onProperty a op)) := by
  simp [operation?, found, given]

/-- What a property that is the innermost writer accepts, by what was written to it since it was
opened. -/
structure Accepts (s : Session) (a : Address) (content : Content) (notes : List Note) : Prop where
  /-- A value that is valid, if none was written yet. -/
  value : ∀ k c op, content = .value k → valueOp? k c = some op → c.isValue = true →
    (s.answers (.value a c) = true ↔
      c.IsValid ∧ (∀ alone, .value alone ∉ notes) ∧ Note.TakesMore notes)
  /-- How to interpolate, any number of times. -/
  interpolation : ∀ k c op, content = .value k → valueOp? k c = some op → c.isValue = false →
    (s.answers (.value a c) = true ↔ c.IsValid ∧ Note.TakesMore notes)
  interval : ∀ i, s.answers (.property a (.interval i)) = true ↔
    .interval ∉ notes ∧ Note.TakesMore notes
  delete : ∀ delete, s.answers (.property a (.delete delete)) = true ↔ Note.TakesMore notes
  openScope : s.answers (.property a .openScope) = true ↔ Note.TakesMore notes
  child : ∀ name inner, (Shape.property content).child? name = some inner →
    (s.answers (.parent a (.startChild name)) = true ↔ Note.TakesMore notes)
  intervals : ∀ list, s.answers (.property a (.startIntervals list)) = true ↔
    notes = [] ∧ (s.propertyAt a).role = .member
  finish : s.answers (.writer a .finish) = true
  /-- A literal becomes the whole property exactly where it may, and a member of its object
  elsewhere. -/
  literal : ∀ k e v, content = .value k → s.answers (.value a (.write k e (.literal v))) = true →
    let s' := (s.step (.value a (.write k e (.literal v)))).2
    if k.isBare = true ∧ e = k.standard ∧ (s.propertyAt a).forceObject = false ∧ notes = [] ∧
        (s.propertyAt a).role = .member then
      (s'.propertyAt a).scope = .bare ∧ ∃ x, k.components e v = [x] ∧
        s'.stream.sink.text = s.stream.sink.text ++ x.json
    else (s'.propertyAt a).scope = .object

section

variable (stands : s.Stands o) (found : s.handle? a = some ⟨a, .property content⟩)
  (turn : s.HasTurn (.property a)) (recalls : (s.propertyAt a).Recalls notes)
include stands found turn recalls

theorem answers_child {name : String} {inner : Content}
    (member : (Shape.property content).child? name = some inner) :
    s.answers (.parent a (.startChild name)) = true ↔ Note.TakesMore notes := by
  let child : Handle := ⟨a.child name, .property inner⟩
  have made : member? ⟨a, .property content⟩ name = some (child, inner) := by
    simp [member?, member, child]
  have takes : (s.propertyAt a).TakesEntries s.stream ↔ Note.TakesMore notes :=
    (and_iff_right turn).trans recalls.takesMore_iff
  rw [answers_startChild found made, ← takes]
  obtain ⟨-, roll, tells⟩ := stands
  by_cases legal : (s.propertyAt a).TakesEntries s.stream
  · obtain ⟨s₁, roll', ready, prepared⟩ := tells.prepareChild_of_takes legal content
    obtain ⟨s₂, started, -⟩ := prepared.start (isChild_of_member? found made)
    have run : startChild ⟨a, .property content⟩ child s = .ok () s₂ :=
      (bind_of_ok ready _).trans started
    simp [succeeds_of_ok run, legal]
  · have rejects : s.Rejects (startChild ⟨a, .property content⟩ child) :=
      (rejects_onProperty (Property.refuses_prepareChild legal)).bind _
    obtain ⟨e, s', -, run, -⟩ := rejects
    simp [succeeds_of_error run, legal]

theorem answers_startIntervals (list : String) :
    s.answers (.property a (.startIntervals list)) = true ↔
      notes = [] ∧ (s.propertyAt a).role = .member := by
  rw [← recalls.unopened_iff, answers_of_doing (operation?_property found _)]
  obtain ⟨-, roll, tells⟩ := stands
  by_cases unopened : (s.propertyAt a).scope = .unopened
  · obtain ⟨s', run, -⟩ := tells.startIntervals turn unopened content list
    simp [succeeds_of_ok run, unopened]
  · have rejects : s.Rejects (startIntervals a content list) :=
      (rejects_onProperty (Property.refuses_prepareIntervals fun legal => unopened legal.2)).bind _
    obtain ⟨e, s', -, run, -⟩ := rejects
    simp [succeeds_of_error run, unopened]

omit recalls in
theorem answers_finish_of_hasTurn : s.answers (.writer a .finish) = true := by
  obtain ⟨-, roll, tells⟩ := stands
  obtain ⟨t, token, active⟩ := turn
  obtain ⟨rest, rfl⟩ := tells.registers.head_of_active token active
  obtain ⟨s', run, -⟩ := tells.finish (h := ⟨a, .property content⟩)
  rw [answers_finish found, succeeds_of_ok run]

/-- A literal that is answered stands for the whole property, or in its object. -/
theorem scope_of_literal {k : Kind} {e : k.Encoding} {v : k.Value} (kind : content = .value k)
    (answered : s.answers (.value a (.write k e (.literal v))) = true) :
    let s' := (s.step (.value a (.write k e (.literal v)))).2
    if k.isBare = true ∧ e = k.standard ∧ (s.propertyAt a).forceObject = false ∧ notes = [] ∧
        (s.propertyAt a).role = .member then
      (s'.propertyAt a).scope = .bare ∧ ∃ x, k.components e v = [x] ∧
        s'.stream.sink.text = s.stream.sink.text ++ x.json
    else (s'.propertyAt a).scope = .object := by
  subst kind
  intro s'
  have given : valueOp? k (.write k e (.literal v)) = some (Property.write k e (.literal v)) :=
    if_pos rfl
  have called := operation?_value found given
  have adds := Property.adds_write (s := s.stream) (p := s.propertyAt a) k e (.literal v)
  obtain ⟨-, left⟩ := propertyAt_of_adds stands adds called answered
  have becomes : (s'.propertyAt a).scope =
      if (s.propertyAt a).standsAlone k e = true then .bare else .object :=
    (congrArg Property.scope left).trans
      ((ValueCommand.write k e (.literal v)).scope_toWrite s.stream.settings _ _)
  have alone : (s.propertyAt a).standsAlone k e = true ↔ k.isBare = true ∧ e = k.standard ∧
      (s.propertyAt a).forceObject = false ∧ notes = [] ∧ (s.propertyAt a).role = .member := by
    simp [Property.standsAlone, recalls.unopened_iff, and_assoc]
  by_cases able : (s.propertyAt a).standsAlone k e = true
  · rw [if_pos (alone.mp able)]
    refine ⟨becomes.trans (if_pos able), ?_⟩
    obtain ⟨⟨-, unwritten⟩, valid⟩ := (answers_of_adds stands adds called).mp answered
    obtain ⟨call, reply, called', run⟩ := run_of_answers answered
    obtain rfl := Option.some.inj (called.symm.trans called')
    obtain ⟨w, made, same⟩ := ok_of_onProperty (ok_of_doing run)
    obtain ⟨u, literal⟩ := Property.literal_of_standsAlone turn unwritten valid able made
    obtain ⟨-, roll, tells⟩ := stands
    obtain ⟨t, token, active⟩ := turn
    obtain ⟨rest, rfl⟩ := tells.registers.head_of_active token active
    have pending := tells.isValuePending_of_unopened (recalls.unopened_iff.mpr (alone.mp able).2.2.2)
    obtain ⟨x, components, text⟩ :=
      Stream.text_literal tells.shows.limit pending (alone.mp able).1 literal
    exact ⟨x, components, (congrArg (fun s : Session => s.stream.sink.text) same).trans text⟩
  · rw [if_neg (mt alone.mpr able)]
    exact becomes.trans (if_neg able)

theorem accepts_of_recalls : s.Accepts a content notes := by
  have takes : (s.propertyAt a).TakesEntries s.stream ↔ Note.TakesMore notes :=
    (and_iff_right turn).trans recalls.takesMore_iff
  have unvalued : (s.propertyAt a).valueWritten = false ↔ ∀ alone, .value alone ∉ notes := by
    rw [← Bool.not_eq_true, recalls.value, not_exists]
  have undated : (s.propertyAt a).intervalWritten = false ↔ .interval ∉ notes := by
    rw [← Bool.not_eq_true, recalls.interval]
  have content_op (c : PropertyCommand) := operation?_property found c
  exact {
    value k c op kind given isValue := by
      subst kind
      rw [answers_of_adds stands (Property.adds_valueOp given _ _) (operation?_value found given),
        takes, unvalued]
      simp [isValue]
    interpolation k c op kind given isValue := by
      subst kind
      rw [answers_of_adds stands (Property.adds_valueOp given _ _) (operation?_value found given),
        takes]
      simp [isValue]
    interval i := by
      rw [answers_of_adds stands (Property.adds_writeInterval i) (content_op _), takes, undated,
        and_comm]
    delete delete := by
      rw [answers_of_adds stands (Property.adds_writeDelete delete) (content_op _), takes]
    openScope := by
      rw [answers_of_adds stands Property.adds_openScope (content_op _), takes]
    child name inner := answers_child stands found turn recalls
    intervals := answers_startIntervals stands found turn recalls
    finish := answers_finish_of_hasTurn stands found turn
    literal k e v := scope_of_literal stands found turn recalls }

end

/-- However a session began and whatever its writers did, answered or refused: what a property that is
the innermost writer accepts is decided by what was written to it since it was opened. -/
theorem accepts_run (begun : new document {} settings = .ok s₀)
    (writing : ∀ c ∈ cs, c.isWriting = true)
    (found : (s₀.run cs).handle? a = some ⟨a, .property content⟩)
    (turn : (s₀.run cs).HasTurn (.property a)) :
    (s₀.run cs).Accepts a content (s₀.history a [] cs) := by
  have stands := stands_of_new begun
  refine accepts_of_recalls (stands.run writing) found turn (recalls_run stands writing ?_ ?_)
  · intro opened
    have fresh := congrArg WriterState.token? (stateAt_of_new begun (.property a))
    exact absurd (fresh.trans (token?_fresh _)) opened
  · obtain ⟨t, token, -⟩ := turn
    intro closed
    cases closed.symm.trans token

/-- An interval that is flagged, and cannot become a list itself. -/
def flaggedInterval : List Command :=
  openInterval ++ [.property { root := .interval "list" } (.delete true),
    .property { root := .interval "list" } (.startIntervals "inner")]

theorem accepts_run_flaggedInterval :
    new true {} {} = .ok (newDocument {}) ∧ (∀ c ∈ flaggedInterval, c.isWriting = true) ∧
      ((newDocument {}).run flaggedInterval).handle? { root := .interval "list" } =
        some ⟨{ root := .interval "list" }, .property (.value .string)⟩ ∧
      ((newDocument {}).run flaggedInterval).HasTurn (.property { root := .interval "list" }) ∧
      (newDocument {}).history { root := .interval "list" } [] flaggedInterval = [.entry] ∧
      ((newDocument {}).run flaggedInterval).Accepts { root := .interval "list" } (.value .string)
        ((newDocument {}).history { root := .interval "list" } [] flaggedInterval) := by
  have begun : new true {} {} = .ok (newDocument {}) := rfl
  have writing : ∀ c ∈ flaggedInterval, c.isWriting = true := by decide
  have found : ((newDocument {}).run flaggedInterval).handle? { root := .interval "list" } =
      some ⟨{ root := .interval "list" }, .property (.value .string)⟩ := by decide +kernel
  have turn : ((newDocument {}).run flaggedInterval).HasTurn
      (.property { root := .interval "list" }) := ⟨3, by decide +kernel, by decide +kernel⟩
  exact ⟨begun, writing, found, turn, by decide +kernel, accepts_run begun writing found turn⟩

end Session

end SceneStream
