import SceneStream.Proofs.Session.Correspondence
import SceneStream.Proofs.Session.Locality

/-!
# A document can always be completed

No order of calls brings a document into a state that it cannot be completed from: the innermost open
writer can be closed, and then the one around it, until none is open and the document can be
finished. Each writer adds what it lacks and nothing else. A program can do so as long as it holds all
writers that it has opened.
-/

namespace SceneStream

/-- The names in an object, or the items in an array. -/
def Frame.count : Frame → Nat
  | .object members _ => members
  | .array items => items

namespace Stream

variable {s s' : Stream} {t : Token}

/-- The closing bracket of the innermost container, on a line of its own if the container has
content and the text is pretty. -/
def endingOf (s : Stream) (bracket : String) : String :=
  match s.frames with
  | [] => bracket
  | f :: rest => { s with frames := rest }.ending f.count bracket

/-- In compact text, a container ends with its bracket only. -/
theorem endingOf_of_compact (compact : s.settings.pretty = false) (bracket : String) :
    s.endingOf bracket = bracket := by
  unfold endingOf
  split
  · rfl
  · simp [ending, lineBreak, compact]

theorem text_endObject (limit : s.sink.limit = none) (run : endObject s = .ok () s') :
    s'.sink.text = s.sink.text ++ s.endingOf "\x7d" := by
  rcases frames : s.frames with _ | ⟨⟨members, _ | _⟩ | items, rest⟩ <;>
    simp only [endObject, bind_apply, get_apply, frames] at run
  case cons.object.false =>
    rw [endContainer_apply limit] at run
    obtain rfl := (EStateM.Result.ok.inj run).2
    simp only [append, endingOf, frames, Frame.count]
  all_goals cases run

theorem text_endSequence (limit : s.sink.limit = none) (run : endSequence s = .ok () s') :
    s'.sink.text = s.sink.text ++ s.endingOf "]" := by
  rcases frames : s.frames with _ | ⟨⟨members, pending⟩ | items, rest⟩ <;>
    simp only [endSequence, bind_apply, get_apply, frames] at run
  case cons.array =>
    rw [endContainer_apply limit] at run
    obtain rfl := (EStateM.Result.ok.inj run).2
    simp only [append, endingOf, frames, Frame.count]
  all_goals cases run

/-- Behind a name, an object begins with its bracket only. -/
theorem startObject_of_pending (limit : s.sink.limit = none) {members : Nat} {rest : List Frame}
    (frames : s.frames = .object members true :: rest) :
    startObject s =
      .ok () (append { s with frames := .object 0 false :: .object members false :: rest } "\x7b") := by
  have begun : beginValue s = .ok () { s with frames := .object members false :: rest } := by
    simp [beginValue, bind_apply, frames]
  rw [startObject, beginContainer, bind_of_ok begun, bind_of_ok (punctuation_apply (by exact limit) _)]
  rfl

end Stream

/-- What a property in this scope lacks to be complete. -/
def Property.Scope.ending (s : Stream) : Property.Scope → String
  | unopened => "\x7b\x7d"
  | object => s.endingOf "\x7d"
  | bare | intervals => ""

/-- What a writer in this state lacks to be complete. -/
def WriterState.ending (s : Stream) : WriterState → String
  | packet _ => s.endingOf "\x7d"
  | property p => p.scope.ending s
  | list _ => s.endingOf "]"

namespace Property

variable {s s' : Stream}

theorem text_complete (limit : s.sink.limit = none) {scope : Scope}
    (pending : scope = .unopened → s.isValuePending = true) (run : complete scope s = .ok () s') :
    s'.sink.text = s.sink.text ++ scope.ending s := by
  cases scope with
  | object => exact Stream.text_endObject limit run
  | bare | intervals =>
      obtain rfl := (EStateM.Result.ok.inj run).2
      exact (String.append_empty).symm
  | unopened =>
      have waits := pending rfl
      unfold Stream.isValuePending at waits
      split at waits
      next members rest frames =>
        obtain ⟨_, s₁, begun, ended⟩ := ok_of_bind run
        rw [Stream.startObject_of_pending limit frames] at begun
        obtain rfl := (EStateM.Result.ok.inj begun).2
        rw [Stream.text_endObject (by exact limit) ended]
        simp [Stream.append, Stream.endingOf, Stream.ending, Frame.count, Scope.ending,
          String.append_assoc]
      next => cases waits

end Property

/-- What a closing adds is what its calls add. -/
theorem Writing.text_of_closes {ω : Type} {s : Stream} {own own' : ω} {op : StreamM Unit} {t : Token}
    {w : Writing ω} {piece : String}
    (run : (do onStream (Stream.finish op t); setOwn own' : WriterM ω Unit) ⟨s, own⟩ = .ok () w)
    (adds : ∀ s₁, op s = .ok () s₁ → s₁.sink.text = s.sink.text ++ piece) :
    w.stream.sink.text = s.sink.text ++ piece := by
  obtain ⟨_, w₁, finished, noted⟩ := ok_of_bind run
  obtain rfl := (EStateM.Result.ok.inj noted).2
  obtain ⟨s', closed, rfl⟩ := ok_of_onStream finished
  obtain ⟨_, s₁, active, rest⟩ := ok_of_bind closed
  obtain rfl := Stream.eq_of_expectActive active
  obtain ⟨_, s₂, ended, rest⟩ := ok_of_bind rest
  obtain ⟨_, s₃, active, popped⟩ := ok_of_bind rest
  obtain rfl := Stream.eq_of_expectActive active
  obtain rfl := (EStateM.Result.ok.inj popped).2
  exact adds s₃ ended

namespace Session

variable {s s' s₀ : Session} {o : Outline} {roll rest : List Opening} {q r : Place} {t : Token}
  {st : Standing} {h : Handle} {a : Address} {list : String} {l : IntervalList} {cs : List Command}
  {settings : Settings} {stream : Stream} {w : WriterState} {x y : Opening}

/-! ## What a closing adds -/

/-- A property that holds nothing yet waits for its value as long as it is innermost. -/
theorem Tells.isValuePending_of_unopened (tells : s.Tells o (⟨t, some (.property a), st⟩ :: rest))
    (unopened : (s.propertyAt a).scope = .unopened) : s.stream.isValuePending = true := by
  obtain ⟨-, rfl, -⟩ := tells.turn
  obtain ⟨p, parts, parts_eq, standing, -⟩ := tells.top
  have shown : (s.stateAt (.property a)).standing =
      .property (s.propertyAt a).name (s.propertyAt a).role .unopened := by
    rw [← unopened]
    rfl
  obtain ⟨role, -⟩ := Part.eq_nothing_of_standing (standing.trans shown)
  apply (tells.isValuePending_iff (tells.sound.unfinished parts_eq)).mpr
  refine ⟨(s.propertyAt a).name, ?_⟩
  rw [List.head?_cons, Option.map_some, shown, role]

/-- Closing the innermost writer adds what it lacks. -/
theorem Tells.text_finish (tells : s.Tells o (⟨t, some h.place, st⟩ :: rest))
    (run : Session.finish h s = .ok () s') :
    s'.stream.sink.text = s.stream.sink.text ++ (s.stateAt h.place).ending s.stream := by
  obtain ⟨token, -, -⟩ := tells.turn
  obtain ⟨address, shape⟩ := h
  cases shape with
  | packet =>
      obtain ⟨w, closed, rfl⟩ := ok_of_onPacket run
      rw [Packet.finish_apply token] at closed
      exact Writing.text_of_closes closed fun _ => Stream.text_endObject tells.shows.limit
  | property content =>
      obtain ⟨w, closed, rfl⟩ := ok_of_onProperty run
      rw [Property.finish_apply token] at closed
      exact Writing.text_of_closes closed fun _ =>
        Property.text_complete tells.shows.limit tells.isValuePending_of_unopened

theorem Tells.text_finishList (tells : s.Tells o (⟨t, some (.list list), st⟩ :: rest))
    (kept : s.lists.get? list = some l) (run : Session.finishList list l s = .ok () s') :
    s'.stream.sink.text = s.stream.sink.text ++ (s.stateAt (.list list)).ending s.stream := by
  obtain ⟨token, -, active⟩ := tells.turn
  rw [token?_list kept] at token
  change onList list l (IntervalList.finish (s.intervalIsOpen list l)) s = _ at run
  rw [tells.intervalIsOpen] at run
  obtain ⟨w, closed, rfl⟩ := ok_of_onList run
  rw [IntervalList.finish_apply token active] at closed
  exact Writing.text_of_closes closed fun _ => Stream.text_endSequence tells.shows.limit

/-! ## Writers that the program holds -/

/-- Whether the program can call the writer at a place. -/
def Finds (s : Session) : Place → Prop
  | .packet r => s.handle? { root := r } = some ⟨{ root := r }, .packet⟩
  | .property a => ∃ content, s.handle? a = some ⟨a, .property content⟩
  | .list name => ∃ l, s.lists.get? name = some l

/-- The program has given up no writer that is open. -/
def HoldsWriters (s : Session) : Prop :=
  ∀ t ∈ s.stream.writers, ∃ q, (s.stateAt q).token? = some t ∧ s.Finds q

/-- What a root stands for changes only with the document, the slots, and its own list. -/
theorem shapeAt?_congr {root : Root} (document : s'.document = s.document)
    (slots : s'.slots = s.slots)
    (lists : ∀ list, root = .interval list → s'.lists.get? list = s.lists.get? list) :
    s'.shapeAt? root = s.shapeAt? root := by
  cases root with
  | document => rw [shapeAt?, shapeAt?, document]
  | slot => rw [shapeAt?, shapeAt?, slots]
  | interval list => rw [shapeAt?, shapeAt?, lists list rfl]

/-- What is put at one place leaves the other writers to be found, unless it is a list, and they lie
in its interval. -/
theorem Put.finds (put : s.Put q stream w s') (found : s.Finds r) (other : r ≠ q)
    (outside : ∀ list, q = .list list → r.isAt (.interval list) = false) : s'.Finds r := by
  have same (a : Address) (here : r.isAt a.root = true) : s'.handle? a = s.handle? a := by
    have shape : s'.shapeAt? a.root = s.shapeAt? a.root := by
      apply shapeAt?_congr put.document put.slots
      intro list root
      have away : .list list ≠ q := by
        rintro rfl
        rw [root, outside list rfl] at here
        cases here
      exact WriterState.list.inj (put.elsewhere _ away)
    rw [handle?, handle?, shape]
  cases r with
  | packet root =>
      rw [Finds, same _ (by simp [Place.isAt])]
      exact found
  | property a =>
      rw [Finds, same _ (by simp [Place.isAt])]
      exact found
  | list name =>
      obtain ⟨l, kept⟩ := found
      exact ⟨l, (WriterState.list.inj (put.elsewhere _ other)).trans kept⟩

/-- While a list is innermost, no writer is open in its interval. -/
theorem Registers.outside_list (registers : s.Registers (x :: rest))
    (list_place : x.place = some (.list list)) {path : List String} (mem : y ∈ x :: rest) :
    y.place ≠ some (.property { root := .interval list, path }) := by
  induction h : path.length using Nat.strongRecOn generalizing path y with
  | ind n ih =>
      intro place
      cases path with
      | nil =>
          obtain ⟨z, behind, same⟩ := registers.nested.outer_mem mem place rfl
          exact registers.place_ne list_place behind same
      | cons name path =>
          have inside : s.around? (.property { root := .interval list, path := name :: path }) =
              some (.property { root := .interval list, path := (name :: path).dropLast }) := by
            simp [around?, placeAt, bearsPackets]
          obtain ⟨z, behind, same⟩ := registers.nested.outer_mem mem place inside
          refine ih _ ?_ (List.mem_of_mem_tail behind) rfl same
          simp [← h]

/-- The writers behind the innermost one are found as before once that one is closed. -/
theorem Registers.finds_behind (registers : s.Registers (x :: rest)) (place : x.place = some q)
    (put : s.Put q stream w s') (mem : y ∈ rest) (kept : y.place = some r) (found : s.Finds r) :
    s'.Finds r := by
  apply put.finds found
  · rintro rfl
    exact registers.place_ne place mem kept
  · rintro list rfl
    cases r with
    | list => rfl
    | packet root =>
        cases root with
        | document | slot => rfl
        | interval name =>
            obtain ⟨-, bears⟩ := place_of_handle? found
            simp [Handle.place, placeAt, bearsPackets] at bears
    | property a =>
        obtain ⟨root, path⟩ := a
        have away : root ≠ .interval list := by
          rintro rfl
          exact registers.outside_list place (List.mem_cons_of_mem _ mem) kept
        simp [Place.isAt, away]

/-! ## Closing all writers -/

/-- The command that closes the writer at a place. -/
def closingOf : Place → Command
  | .packet r => .writer { root := r } .finish
  | .property a => .writer a .finish
  | .list name => .list name .finish

/-- The writers at these places are all that are open, innermost first. Each is closed by its command
while it is innermost, which adds to the text what the writer lacks and nothing else. -/
inductive ClosesInTurn : Session → List Place → Session → Prop
  | done (s : Session) (closed : s.stream.writers = []) : ClosesInTurn s [] s
  | close {s s₁ s' : Session} {q : Place} {places : List Place} {t : Token}
    (token : (s.stateAt q).token? = some t)
    (innermost : s.stream.writers = t :: s₁.stream.writers)
    (answered : s.step (closingOf q) = (.answered .done, s₁))
    (added : s₁.stream.sink.text = s.stream.sink.text ++ (s.stateAt q).ending s.stream)
    (next : ClosesInTurn s₁ places s') : ClosesInTurn s (q :: places) s'

theorem operation?_closeWriter (found : s.handle? a = some h) :
    s.operation? (.writer a .finish) = some (doing (Session.finish h)) := by
  simp only [operation?, found]
  rfl

theorem operation?_closeList (kept : s.lists.get? list = some l) :
    s.operation? (closingOf (.list list)) = some (doing (finishList list l)) := by
  simp only [operation?, closingOf, kept]
  rfl

theorem Tells.step_closing (tells : s.Tells o (⟨t, some q, st⟩ :: rest)) (found : s.Finds q) :
    ∃ s', s.step (closingOf q) = (.answered .done, s') ∧ s'.Tells (o.after .leave) rest ∧
      s'.stream.sink.text = s.stream.sink.text ++ (s.stateAt q).ending s.stream ∧
      ∃ w, s.Put q s'.stream w s' := by
  cases q with
  | packet r =>
      obtain ⟨s', run, told, -, w, -, put⟩ := tells.finish (h := ⟨{ root := r }, .packet⟩)
      exact ⟨s', step_of_ok (operation?_closeWriter found) (doing_ok run), told,
        tells.text_finish (h := ⟨{ root := r }, .packet⟩) run, w, put⟩
  | property a =>
      obtain ⟨content, found⟩ := found
      obtain ⟨s', run, told, -, w, -, put⟩ := tells.finish (h := ⟨a, .property content⟩)
      exact ⟨s', step_of_ok (operation?_closeWriter found) (doing_ok run), told,
        tells.text_finish (h := ⟨a, .property content⟩) run, w, put⟩
  | list name =>
      obtain ⟨l, kept⟩ := found
      obtain ⟨s', run, told, -, w, -, put⟩ := tells.finishList kept
      have answered := step_of_ok (operation?_closeList kept) (doing_ok run)
      exact ⟨s', answered, told, tells.text_finishList kept run, w, put⟩

/-- All writers can be closed, from the innermost outwards. -/
theorem Tells.closesInTurn (tells : s.Tells o roll) (document : o.alone = false)
    (held : ∀ x ∈ roll, ∃ q, x.place = some q ∧ s.Finds q) :
    ∃ places s' o', places.length = roll.length ∧ s.ClosesInTurn places s' ∧ s'.Tells o' [] ∧
      o'.alone = false ∧ o'.finished = o.finished ∧ s'.document = s.document := by
  induction roll generalizing s o with
  | nil => exact ⟨[], s, o, rfl, .done s tells.registers.writers, tells, document, rfl, rfl⟩
  | cons x rest ih =>
      obtain ⟨t, place, st⟩ := x
      obtain ⟨q, rfl, found⟩ := held _ List.mem_cons_self
      obtain ⟨s₁, answered, told, added, w, put⟩ := tells.step_closing found
      have held₁ : ∀ y ∈ rest, ∃ r, y.place = some r ∧ s₁.Finds r := by
        intro y mem
        obtain ⟨r, kept, found⟩ := held y (List.mem_cons_of_mem _ mem)
        exact ⟨r, kept, tells.registers.finds_behind rfl put mem kept found⟩
      obtain ⟨places, s', o', count, closes, told', document', finished, same⟩ :=
        ih told ((o.alone_after .leave).trans document) held₁
      refine ⟨q :: places, s', o', by simp [count], ?_, told', document',
        finished.trans (finished_after document nofun), same.trans put.document⟩
      refine .close tells.turn.1 ?_ answered added closes
      rw [tells.registers.writers, told.registers.writers, List.map_cons]

/-- What is held is on the roll at its place. -/
theorem Registers.places (registers : s.Registers roll) (held : s.HoldsWriters) :
    ∀ x ∈ roll, ∃ q, x.place = some q ∧ s.Finds q := by
  intro x mem
  have open' : x.token ∈ s.stream.writers := by
    rw [registers.writers]
    exact List.mem_map_of_mem mem
  obtain ⟨q, token, found⟩ := held x.token open'
  have shown : (s.stateAt q).shown? = some (x.token, (s.stateAt q).standing) := by
    rw [WriterState.shown?, token, Option.map_some]
  have distinct : (roll.map Opening.token).Nodup := by
    rw [← registers.writers]
    exact registers.decreasing.imp fun before => Nat.ne_of_gt before
  have same := List.inj_on_of_nodup_map distinct mem ((registers.held _ _ _).mp shown) rfl
  exact ⟨q, by rw [same], found⟩

/-- The document is there until it is ended. -/
theorem document_step (unended : c.isFinish = false) (kept : s.document ≠ none) :
    (s.step c).2.document ≠ none := by
  rcases (s.touches_step c).document with same | made
  · rwa [same]
  · unfold documents at made
    split at made
    · obtain ⟨n, made⟩ := made
      simp [made]
    · obtain ⟨n, made⟩ := made
      simp [made]
    · cases unended
    · exact made.elim

theorem document_run (unended : ∀ c ∈ cs, c.isFinish = false) (kept : s.document ≠ none) :
    (s.run cs).document ≠ none := by
  induction cs generalizing s with
  | nil => exact kept
  | cons c cs ih =>
      obtain ⟨first, rest⟩ := List.forall_mem_cons.mp unended
      exact ih rest (document_step first kept)

theorem operation?_finish (kept : s.document ≠ none) :
    s.operation? (.document .finish) = some (doing finishDocument) := by
  obtain ⟨d, kept⟩ := Option.ne_none_iff_exists'.mp kept
  simp [operation?, kept, onDocument]

/-- Where no writer is open, a document that was not finished is finished as a whole array. -/
theorem Tells.step_finish (tells : s.Tells o []) (document : o.alone = false)
    (unfinished : o.finished = false) (kept : s.document ≠ none) :
    ∃ s' items, s.step (.document .finish) = (.answered .done, s') ∧
      Json.parse? s'.stream.sink.contents = some (.array items) := by
  obtain ⟨s', run, -, told⟩ := tells.finishDocument document unfinished
  exact ⟨s', Tree.jsonItems (o.after .finish).items,
    step_of_ok (operation?_finish kept) (doing_ok run),
    told.parse? ((o.alone_after .finish).trans document) rfl⟩

/-- The document is not finished while writers are open. -/
theorem step_finish_of_open (kept : s.document ≠ none) (writers : s.stream.writers ≠ []) :
    s.step (.document .finish) = (.refused (.invalidOperation
      (.writersOpen s.stream.writers.length)), { s with document := none }) :=
  step_of_error (operation?_finish kept) (doing_error (finishDocument_of_open writers))

/-- Whatever commands were made before the document is finished, answered or refused, and as long as
the program holds all open writers: they can be closed one after the other from the innermost
outwards, each with what it lacks, and then the document is finished as one whole array. As long as
one is open, the document is not finished and nothing is added. -/
theorem completes_run (made : ofDocument {} settings = .ok s₀)
    (writing : ∀ c ∈ cs, c.isWriting = true) (unended : ∀ c ∈ cs, c.isFinish = false)
    (held : (s₀.run cs).HoldsWriters) :
    (∃ places s' s'' items, places.length = (s₀.run cs).stream.writers.length ∧
      (s₀.run cs).ClosesInTurn places s' ∧
      s'.step (.document .finish) = (.answered .done, s'') ∧
      Json.parse? s''.stream.sink.contents = some (.array items)) ∧
    ((s₀.run cs).stream.writers ≠ [] →
      (s₀.run cs).step (.document .finish) =
        (.refused (.invalidOperation (.writersOpen (s₀.run cs).stream.writers.length)),
          { s₀.run cs with document := none })) := by
  obtain ⟨-, roll, tells⟩ := (stands_ofDocument made).run writing
  have kept : (s₀.run cs).document ≠ none := by
    apply document_run unended
    rw [ofDocument_eq] at made
    obtain rfl := Except.ok.inj made
    exact Option.some_ne_none _
  have unfinished : (s₀.describe {} cs).finished = false := finished_describe rfl unended
  constructor
  · obtain ⟨places, s', o', count, closes, told, document, finished, same⟩ :=
      tells.closesInTurn (alone_describe _ _ _) (tells.registers.places held)
    obtain ⟨s'', items, ended, parsed⟩ :=
      told.step_finish document (finished.trans unfinished) (by rwa [same])
    refine ⟨places, s', s'', items, ?_, closes, ended, parsed⟩
    rw [count, tells.registers.writers, List.length_map]
  · exact step_finish_of_open kept

theorem completes_run_openInterval :
    ofDocument {} {} = .ok (newDocument {}) ∧ (∀ c ∈ openInterval, c.isWriting = true) ∧
      (∀ c ∈ openInterval, c.isFinish = false) ∧
      ((newDocument {}).run openInterval).HoldsWriters ∧
      (∃ places s' s'' items,
        places.length = ((newDocument {}).run openInterval).stream.writers.length ∧
        ((newDocument {}).run openInterval).ClosesInTurn places s' ∧
        s'.step (.document .finish) = (.answered .done, s'') ∧
        Json.parse? s''.stream.sink.contents = some (.array items)) ∧
      (((newDocument {}).run openInterval).stream.writers ≠ [] →
        ((newDocument {}).run openInterval).step (.document .finish) =
          (.refused (.invalidOperation
            (.writersOpen ((newDocument {}).run openInterval).stream.writers.length)),
            { (newDocument {}).run openInterval with document := none })) := by
  have writers : ((newDocument {}).run openInterval).stream.writers = [3, 2, 1, 0] := by
    decide +kernel
  have held : ((newDocument {}).run openInterval).HoldsWriters := by
    unfold HoldsWriters
    rw [writers]
    simp only [List.forall_mem_cons, List.not_mem_nil, false_implies, implies_true, and_true]
    exact ⟨⟨.property { root := .interval "list" }, by decide +kernel, .value .string, by
        decide +kernel⟩,
      ⟨.list "list", by decide +kernel, _, rfl⟩,
      ⟨.property { root := .document, path := ["description"] }, by decide +kernel,
        .value .string, by decide +kernel⟩,
      ⟨.packet .document, by decide +kernel, by
        unfold Finds
        decide +kernel⟩⟩
  have unended : ∀ c ∈ openInterval, c.isFinish = false := by decide
  exact ⟨ofDocument_eq {}, by decide, unended, held,
    completes_run (ofDocument_eq {}) (by decide) unended held⟩

/-- A packet with a member. -/
def openMember : List Command :=
  [.document .openPacket, .packet { root := .document } (.id "a")]

/-- In pretty text, what closes an object is more than its bracket. -/
theorem finish_breaks_line :
    ofDocument {} { pretty := true } = .ok (newDocument { pretty := true }) ∧
      (∀ c ∈ openMember, c.isWriting = true) ∧ (∀ c ∈ openMember, c.isFinish = false) ∧
      ((newDocument { pretty := true }).run openMember).HoldsWriters ∧
      ∃ s, ((newDocument { pretty := true }).run openMember).step (closingOf (.packet .document)) =
          (.answered .done, s) ∧
        s.stream.sink.text ≠
          ((newDocument { pretty := true }).run openMember).stream.sink.text ++ "\x7d" ∧
        s.stream.sink.text =
          ((newDocument { pretty := true }).run openMember).stream.sink.text ++ "\n  \x7d" := by
  have held : ((newDocument { pretty := true }).run openMember).HoldsWriters := by
    have writers : ((newDocument { pretty := true }).run openMember).stream.writers = [0] := by
      decide +kernel
    unfold HoldsWriters
    rw [writers]
    simp only [List.forall_mem_singleton]
    exact ⟨.packet .document, by decide +kernel, by
      unfold Finds
      decide +kernel⟩
  exact ⟨ofDocument_eq _, by decide, by decide, held, _, rfl, by decide +kernel, by
    decide +kernel⟩

end Session

end SceneStream
