import SceneStream.Proofs.Run
import SceneStream.Proofs.Structure.Spelling

/-!
# A stream shows a draft

The text on a sink that never fails, the frames and the flag for the root are three views of one
draft: the text gives its part of the tree, and the frames count what the draft holds. A permitted
call takes the stream to the next draft, and a call that is not permitted changes nothing.
-/

namespace SceneStream

open Json

/-- Where no character was cut, the contents are the text. -/
theorem Sink.contents_of_whole {s : Sink} (whole : s.cut = []) : s.contents = s.text := by
  simp [contents, cutMark, whole]

namespace Draft

theorem frames_place (outer : List Outer) (t : Tree) :
    (place outer t).frames = outer.map Outer.frame := by
  rcases outer with _ | ⟨done | ⟨done, key⟩, outer⟩ <;> simp [place, frames, Outer.frame]

theorem started_place (outer : List Outer) (t : Tree) : (place outer t).started = true := by
  rcases outer with _ | ⟨_ | _, _⟩ <;> rfl

end Draft

namespace Stream

/-- The stream with other text on its sink, and what it notes of this draft. -/
def drawn (s : Stream) (text : String) (d : Draft) : Stream :=
  { s with
    sink := { s.sink with text }
    frames := d.frames
    rootWritten := d.started }

@[simp] theorem drawn_settings (s : Stream) (text : String) (d : Draft) :
    (s.drawn text d).settings = s.settings := rfl

@[simp] theorem drawn_writers (s : Stream) (text : String) (d : Draft) :
    (s.drawn text d).writers = s.writers := rfl

@[simp] theorem drawn_grant (s : Stream) (text : String) (d : Draft) :
    (s.drawn text d).grant = s.grant := rfl

@[simp] theorem drawn_nextToken (s : Stream) (text : String) (d : Draft) :
    (s.drawn text d).nextToken = s.nextToken := rfl

@[simp] theorem drawn_drawn (s : Stream) (text text' : String) (d e : Draft) :
    (s.drawn text d).drawn text' e = s.drawn text' e := rfl

/-- The stream is on a sink that never fails, and its text and frames are those of the draft. -/
structure Shows (s : Stream) (d : Draft) : Prop where
  sink : s.sink = { text := s.sink.text }
  frames : s.frames = d.frames
  started : s.rootWritten = d.started
  reads : Reads s.sink.text.toList d.assembly

/-- A new stream shows nothing yet. -/
theorem shows_blank (settings : Settings) : Shows { settings } .blank := ⟨rfl, rfl, rfl, reads_nil⟩

/-- The text that breaks the line, nothing in compact text. -/
def lineBreak (s : Stream) : String :=
  if s.settings.pretty then "\n".pushn ' ' (s.depth * s.settings.indent) else ""

/-- The stream with a piece of text behind its text. -/
def append (s : Stream) (piece : String) : Stream :=
  { s with sink := { s.sink with text := s.sink.text ++ piece } }

/-- A line break with indentation. -/
theorem isSpacing_indented (width : Nat) : IsSpacing ("\n".pushn ' ' width).toList := by
  intro c hc
  rw [toList_pushn, List.mem_append, List.mem_replicate] at hc
  rcases hc with first | ⟨-, rfl⟩
  · exact .inr (List.mem_singleton.mp first)
  · exact .inl rfl

theorem isSpacing_lineBreak (s : Stream) : IsSpacing s.lineBreak.toList := by
  unfold lineBreak
  split
  · exact isSpacing_indented _
  · exact isSpacing_nil

section

variable {s : Stream} {d e : Draft} {outer : List Outer} {text : String}

theorem Shows.limit (h : s.Shows d) : s.sink.limit = none := by
  rw [h.sink]

theorem Shows.contents (h : s.Shows d) : s.sink.contents = s.sink.text := by
  have whole : s.sink.cut = [] := by rw [h.sink]
  exact Sink.contents_of_whole whole

theorem Shows.drawn_self (h : s.Shows d) : s.drawn s.sink.text d = s := by
  obtain ⟨sink, settings, frames, rootWritten, writers, grant, nextToken⟩ := s
  obtain rfl : frames = d.frames := h.frames
  obtain rfl : rootWritten = d.started := h.started
  rfl

theorem Shows.drawn (h : s.Shows d) (reads : Reads text.toList e.assembly) :
    (s.drawn text e).Shows e :=
  ⟨by simp only [Stream.drawn]; rw [h.sink], rfl, rfl, reads⟩

theorem punctuation_apply (limit : s.sink.limit = none) (piece : String) :
    punctuation piece s = .ok () (s.append piece) := emit_of_unlimited limit _ piece

theorem scalarText_apply (limit : s.sink.limit = none) (piece : String) :
    scalarText piece s = .ok () (s.append piece) := emit_of_unlimited limit _ piece

theorem newline_apply (limit : s.sink.limit = none) :
    newline s = .ok () (s.append s.lineBreak) := by
  simp only [newline, bind_apply, get_apply, lineBreak]
  split
  · exact punctuation_apply limit _
  · simp [append]

/-- The text in front of a part that comes after `count` others. -/
def separator (s : Stream) (count : Nat) : String :=
  (if 0 < count then "," else "") ++ s.lineBreak

theorem separator_apply (limit : s.sink.limit = none) (count : Nat) :
    (if 0 < count then do punctuation ","; newline else newline : StreamM Unit) s =
      .ok () (s.append (s.separator count)) := by
  unfold separator
  split
  · rw [bind_of_ok (punctuation_apply limit ",")]
    rw [newline_apply (by exact limit)]
    simp only [append, String.append_assoc]
    rfl
  · rw [newline_apply limit, String.empty_append]

theorem separator_bind (limit : s.sink.limit = none) (count : Nat) (rest : StreamM Unit) :
    (if 0 < count then do punctuation ","; newline; rest else do newline; rest : StreamM Unit) s =
      rest (s.append (s.separator count)) := by
  rw [← bind_of_ok (separator_apply limit count) fun _ => rest]
  split
  · rw [bind_assoc]
  · rfl

/-- Where a value may come, it is announced, and separated by its comma and white space. -/
theorem beginValue_of_inside? (h : s.Shows d) (inside : d.inside? = some outer) :
    ∃ blanks : String, IsSpacing blanks.toList ∧ beginValue s = .ok () { s with
      sink := { s.sink with text := s.sink.text ++ d.itemComma ++ blanks }
      frames := outer.map Outer.frame
      rootWritten := true } := by
  cases d with
  | blank =>
      obtain rfl := Option.some.inj inside
      refine ⟨"", isSpacing_nil, ?_⟩
      simp [beginValue, bind_apply, h.frames, Draft.frames, h.started, Draft.started,
        Draft.itemComma]
  | array items outer =>
      obtain rfl := Option.some.inj inside
      let noted := { s with frames := .array (items.length + 1) :: outer.map Outer.frame }
      refine ⟨noted.lineBreak, noted.isSpacing_lineBreak, ?_⟩
      simp only [beginValue, bind_apply, get_apply, h.frames, Draft.frames, setFrames_apply]
      rw [separator_apply (by exact h.limit)]
      simp [append, separator, noted, Outer.frame, h.started, Draft.started, Draft.itemComma,
        String.append_assoc]
  | named members key outer =>
      obtain rfl := Option.some.inj inside
      refine ⟨"", isSpacing_nil, ?_⟩
      simp [beginValue, bind_apply, h.frames, Draft.frames, Outer.frame, h.started, Draft.started,
        Draft.itemComma]
  | complete | object => cases inside

theorem misuse_beginValue (h : s.Shows d) (outside : d.inside? = none) :
    ∃ m, beginValue s = .error (.invalidOperation m) s := by
  cases d with
  | complete t =>
      refine ⟨.secondRoot, ?_⟩
      simp [beginValue, bind_apply, h.frames, Draft.frames, h.started, Draft.started]
  | object members outer =>
      refine ⟨.valueWithoutName, ?_⟩
      simp [beginValue, bind_apply, h.frames, Draft.frames]
  | blank | array | named => cases outside

theorem beginContainer_of_inside? (h : s.Shows d) (inside : d.inside? = some outer)
    (bracket : String) {frame : Frame} (frames : e.frames = frame :: outer.map Outer.frame)
    (started : e.started = true) :
    ∃ blanks : String, IsSpacing blanks.toList ∧ beginContainer bracket frame s =
      .ok () (s.drawn (s.sink.text ++ d.itemComma ++ blanks ++ bracket) e) := by
  obtain ⟨blanks, spacing, begun⟩ := beginValue_of_inside? h inside
  refine ⟨blanks, spacing, ?_⟩
  rw [beginContainer, bind_of_ok begun, bind_of_ok (punctuation_apply (by exact h.limit) _)]
  simp [append, Stream.drawn, frames, started]

/-- The closing bracket of a container, on a line of its own if the container has content. -/
def ending (s : Stream) (count : Nat) (bracket : String) : String :=
  (if 0 < count then s.lineBreak else "") ++ bracket

/-- Leaving a container writes its closing bracket, as seen from the containers around it. -/
theorem endContainer_apply (limit : s.sink.limit = none) (bracket : String) (rest : List Frame)
    (count : Nat) :
    endContainer bracket rest count s =
      .ok () (append { s with frames := rest } (ending { s with frames := rest } count bracket)) := by
  have limit' : Sink.limit (sink { s with frames := rest }) = none := limit
  simp only [endContainer, bind_apply, setFrames_apply, ending]
  split
  · rw [bind_of_ok (newline_apply limit')]
    refine (punctuation_apply (by exact limit) bracket).trans ?_
    simp only [append, String.append_assoc]
  · rw [String.empty_append]
    exact punctuation_apply limit' bracket

/-- A closing bracket makes the innermost container a whole part of the one around it. -/
theorem endContainer_of_whole (h : s.Shows d) (started : d.started = true) (bracket : String)
    (outer : List Outer) (count : Nat) (t : Tree) :
    ∃ blanks : String, IsSpacing blanks.toList ∧
      endContainer bracket (outer.map Outer.frame) count s =
        .ok () (s.drawn (s.sink.text ++ "" ++ blanks ++ bracket) (.place outer t)) := by
  let left := { s with frames := outer.map Outer.frame }
  refine ⟨if 0 < count then left.lineBreak else "", ?_, ?_⟩
  · split
    · exact left.isSpacing_lineBreak
    · exact isSpacing_nil
  · rw [endContainer_apply h.limit]
    simp [left, append, ending, Stream.drawn, Draft.frames_place, Draft.started_place, h.started,
      started, String.append_assoc]

/-- The name of a member, behind its comma and white space. -/
theorem name_of_object {members : List (String × Tree)}
    (h : s.Shows (.object members outer)) (key : String) :
    ∃ blanks : String, IsSpacing blanks.toList ∧ name key s =
      .ok () (s.drawn (s.sink.text ++ (Draft.object members outer).memberComma ++ blanks ++
        (Call.name key).token s.settings.pretty) (.named members key outer)) := by
  let noted := { s with frames := .object (members.length + 1) true :: outer.map Outer.frame }
  have limit : noted.sink.limit = none := h.limit
  refine ⟨noted.lineBreak, noted.isSpacing_lineBreak, ?_⟩
  simp only [name, bind_apply, get_apply, h.frames, Draft.frames, setFrames_apply]
  rw [separator_bind limit]
  rw [bind_of_ok (scalarText_apply (by exact limit) _), bind_of_ok (get_apply _)]
  refine (punctuation_apply (by exact limit) _).trans ?_
  simp [append, separator, noted, Stream.drawn, Draft.frames, h.started, Draft.started,
    Draft.memberComma, Call.token, String.append_assoc]

/-- A permitted call writes its comma, white space and its token, and notes the next draft. -/
theorem perform_eq_of_accept (h : s.Shows d) {c : Call} (permitted : d.accept c = some e) :
    ∃ blanks : String, IsSpacing blanks.toList ∧ perform c s =
      .ok () (s.drawn (s.sink.text ++ d.comma c ++ blanks ++ c.token s.settings.pretty) e) := by
  cases c with
  | startObject | startSequence =>
      obtain ⟨outer, inside, rfl⟩ := Option.map_eq_some_iff.mp permitted
      exact beginContainer_of_inside? h inside _ rfl rfl
  | value v =>
      obtain ⟨outer, inside, rfl⟩ := Option.map_eq_some_iff.mp permitted
      obtain ⟨blanks, spacing, begun⟩ := beginValue_of_inside? h inside
      refine ⟨blanks, spacing, ?_⟩
      change value v s = _
      rw [value, bind_of_ok begun, scalarText_apply (by exact h.limit)]
      simp [append, Stream.drawn, Draft.frames_place, Draft.started_place, Call.token, Draft.comma]
  | name key =>
      cases d with
      | object members outer =>
          obtain rfl := Option.some.inj permitted
          exact name_of_object h key
      | _ => cases permitted
  | endObject =>
      cases d with
      | object members outer =>
          obtain rfl := Option.some.inj permitted
          have run : perform .endObject s =
              endContainer "\x7d" (outer.map Outer.frame) members.length s := by
            simp only [perform, endObject, bind_apply, get_apply, h.frames, Draft.frames]
          rw [run]
          exact endContainer_of_whole h rfl _ _ _ _
      | _ => cases permitted
  | endSequence =>
      cases d with
      | array items outer =>
          obtain rfl := Option.some.inj permitted
          have run : perform .endSequence s =
              endContainer "]" (outer.map Outer.frame) items.length s := by
            simp only [perform, endSequence, bind_apply, get_apply, h.frames, Draft.frames]
          rw [run]
          exact endContainer_of_whole h rfl _ _ _ _
      | _ => cases permitted

/-- A permitted call takes the stream to the next draft, and touches nothing but text and frames. -/
theorem perform_of_accept (h : s.Shows d) {c : Call} (permitted : d.accept c = some e) :
    ∃ text, perform c s = .ok () (s.drawn text e) ∧ (s.drawn text e).Shows e := by
  obtain ⟨blanks, spacing, run⟩ := perform_eq_of_accept h permitted
  refine ⟨_, run, h.drawn ?_⟩
  simp only [String.toList_append]
  exact Draft.reads_accept h.reads permitted spacing s.settings.pretty

/-- A call that is not permitted is a misuse, and leaves the stream as it is. -/
theorem misuse_perform (h : s.Shows d) {c : Call} (forbidden : d.accept c = none) :
    ∃ m, perform c s = .error (.invalidOperation m) s := by
  cases c with
  | startObject | startSequence | value =>
      obtain ⟨m, misuse⟩ := misuse_beginValue h (Option.map_eq_none_iff.mp forbidden)
      exact ⟨m, bind_of_error misuse _⟩
  | name key =>
      cases d with
      | object => cases forbidden
      | named =>
          refine ⟨.unansweredName key, ?_⟩
          simp only [perform, name, bind_apply, get_apply, h.frames, Draft.frames, refuse_apply]
      | blank | complete | array =>
          refine ⟨.nameOutsideObject key, ?_⟩
          simp only [perform, name, bind_apply, get_apply, h.frames, Draft.frames, refuse_apply]
  | endObject =>
      cases d with
      | object => cases forbidden
      | named =>
          refine ⟨.objectEndsOnName, ?_⟩
          simp only [perform, endObject, bind_apply, get_apply, h.frames, Draft.frames,
            refuse_apply]
      | blank | complete | array =>
          refine ⟨.noOpenObject, ?_⟩
          simp only [perform, endObject, bind_apply, get_apply, h.frames, Draft.frames,
            refuse_apply]
  | endSequence =>
      cases d with
      | array => cases forbidden
      | blank | complete | object | named =>
          refine ⟨.noOpenSequence, ?_⟩
          simp only [perform, endSequence, bind_apply, get_apply, h.frames, Draft.frames,
            refuse_apply]

theorem refuses_perform (h : s.Shows d) {c : Call} (forbidden : d.accept c = none) :
    Refuses (perform c) s := by
  obtain ⟨m, misuse⟩ := misuse_perform h forbidden
  exact ⟨_, rfl, misuse⟩

end

end Stream

end SceneStream
