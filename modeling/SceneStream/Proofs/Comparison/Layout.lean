import SceneStream.Proofs.Comparison.Command
import SceneStream.Proofs.Comparison.Structure
import SceneStream.Proofs.Json.Blanks
import SceneStream.Proofs.Session.Refinement
import SceneStream.Proofs.Structure.Showing

/-!
# Layout changes white space only

A run in pretty text is compared with the same run in compact text. The runs never part: line breaks,
indentation and the space behind a colon stand outside of strings, and every other piece is written
alike and has no white space there. So all commands come out alike, except that a stream that
describes itself names its layout, and the pretty text without its white space is the compact text.
-/

namespace SceneStream

/-- On sinks that never fail, the second text is the first one with blanks between its tokens. -/
structure Sink.Spaced (u l : Sink) : Prop where
  unlimited : u.limit = none
  whole : u.cut = []
  flushes : u.flushFails = false
  same : l = { u with text := l.text }
  blanks : Json.Strips .outside l.text.toList u.text.toList .outside

/-- The settings with pretty text. -/
def Settings.prettified (s : Settings) : Settings := { s with pretty := true }

/-- The second stream writes in pretty text what the first one writes in compact text. -/
structure Stream.Spaced (u l : Stream) : Prop where
  compact : u.settings.pretty = false
  sinks : u.sink.Spaced l.sink
  same : l = { u with sink := l.sink, settings := u.settings.prettified }

/-- A run in compact text beside the same run in pretty text. -/
def layout : Comparison Stream where
  moves _ _ := True
  alike := Stream.Spaced
  parted _ _ := False
  fine _ := True
  moves_refl _ := trivial
  moves_trans _ _ _ _ _ := trivial
  parted_of_moves _ _ _ _ apart := apart.elim
  fine_misuse _ := trivial

namespace Layout

open Comparison

variable {u l : Stream} {narrow wide : String}

theorem limit (alike : u.Spaced l) : u.sink.limit = none ∧ l.sink.limit = none := by
  refine ⟨alike.sinks.unlimited, ?_⟩
  rw [alike.sinks.same]
  exact alike.sinks.unlimited

/-- Both streams write a piece, one of them with more blanks in it. -/
theorem spaced_append (alike : u.Spaced l)
    (blanks : Json.Strips .outside wide.toList narrow.toList .outside) :
    (u.append narrow).Spaced (l.append wide) := by
  obtain ⟨compact, ⟨unlimited, whole, flushes, sink, blanks'⟩, same⟩ := alike
  refine ⟨compact, ⟨unlimited, whole, flushes, ?_, ?_⟩, ?_⟩
  · simp only [Stream.append]
    rw [sink]
  · simp only [Stream.append, String.toList_append]
    exact blanks'.append blanks
  · simp only [Stream.append]
    rw [same]

theorem follows_of_pieces {op : StreamM Unit}
    (writes : ∀ u l, u.Spaced l → ∃ narrow wide : String, op u = .ok () (u.append narrow) ∧
      op l = .ok () (l.append wide) ∧
      Json.Strips .outside wide.toList narrow.toList .outside) : layout.Follows op where
  moves _ := trivial
  runs u l alike := by
    obtain ⟨narrow, wide, run, run', blanks⟩ := writes u l alike
    rw [run, run']
    exact .inl (.ok () (spaced_append alike blanks))

theorem follows_punctuation {piece : String} (solid : Json.IsSolid piece.toList) :
    layout.Follows (Stream.punctuation piece) := by
  apply follows_of_pieces
  intro u l alike
  exact ⟨piece, piece, Stream.punctuation_apply (limit alike).1 _,
    Stream.punctuation_apply (limit alike).2 _, solid⟩

theorem follows_scalarText (v : Scalar) : layout.Follows (Stream.scalarText v.json) := by
  apply follows_of_pieces
  intro u l alike
  exact ⟨v.json, v.json, Stream.scalarText_apply (limit alike).1 _,
    Stream.scalarText_apply (limit alike).2 _, v.isSolid_json⟩

theorem pretty_of_spaced (alike : u.Spaced l) : l.settings.pretty = true := by
  rw [alike.same]
  rfl

/-- A line is broken in pretty text only, by blanks. -/
theorem follows_newline : layout.Follows Stream.newline := by
  apply follows_of_pieces
  intro u l alike
  refine ⟨u.lineBreak, l.lineBreak, Stream.newline_apply (limit alike).1,
    Stream.newline_apply (limit alike).2, ?_⟩
  have narrow : u.lineBreak = "" := by simp [Stream.lineBreak, alike.compact]
  rw [narrow]
  exact Json.strips_spacing l.isSpacing_lineBreak

theorem follows_colon :
    layout.Follows (do Stream.punctuation (if (← get).settings.pretty then ": " else ":")) := by
  apply follows_of_pieces
  intro u l alike
  refine ⟨":", ": ", ?_, ?_, rfl, rfl⟩
  · rw [bind_of_ok (get_apply u), alike.compact]
    exact Stream.punctuation_apply (limit alike).1 _
  · rw [bind_of_ok (get_apply l), pretty_of_spaced alike]
    exact Stream.punctuation_apply (limit alike).2 _

theorem isSolid_mark : ∀ piece ∈ Stream.marks, Json.IsSolid piece.toList := by
  intro piece isMark
  simp only [Stream.marks, List.mem_cons, List.not_mem_nil, or_false] at isMark
  rcases isMark with rfl | rfl | rfl | rfl | rfl <;> exact ⟨rfl, rfl⟩

theorem carries : layout.Carries where
  frames u l alike := by rw [alike.same]
  rootWritten u l alike := by rw [alike.same]
  moves_frames _ _ _ := trivial
  alike_frames u l alike frames rootWritten := by
    obtain ⟨compact, sinks, same⟩ := alike
    refine ⟨compact, sinks, ?_⟩
    rw [same]
  mark piece isMark := follows_punctuation (isSolid_mark piece isMark)
  colon := follows_colon
  newline := follows_newline
  scalarText v _ := follows_scalarText v

theorem follows_flush : layout.Follows Stream.flush where
  moves _ := trivial
  runs u l alike := by
    left
    have flushes := alike.sinks.flushes
    have flushes' : l.sink.flushFails = false := by
      rw [alike.sinks.same]
      exact flushes
    simp only [Stream.flush, bind_apply, get_apply, flushes, flushes']
    exact .ok () alike

/-- Turns and times do not depend on the layout. -/
theorem covers : layout.Covers where
  perform := carries.perform
  flush := follows_flush
  writers u l alike := by rw [alike.same]
  grant u l alike := by rw [alike.same]
  nextToken u l alike := by rw [alike.same]
  epochs u l alike := by
    rw [alike.same]
    rfl
  moves_turns _ _ _ _ := trivial
  alike_turns u l alike writers grant nextToken := by
    obtain ⟨compact, sinks, same⟩ := alike
    refine ⟨compact, sinks, ?_⟩
    rw [same]

end Layout

namespace Session

variable {u l : Session}

/-- How a command comes out in pretty text, told from how it comes out in compact text: a stream that
describes itself names its layout, and all else is the same. -/
def prettyOutcome (s : Session) : Command → Outcome
  | .stream .describe =>
    .answered (.text { s.stream with settings := s.stream.settings.prettified }.description)
  | c => (s.step c).1

/-- Sessions whose streams differ in layout take every command alike. -/
theorem step_of_spaced (alike : layout.session.alike u l) (c : Command) :
    (l.step c).1 = u.prettyOutcome c ∧ layout.session.alike (u.step c).2 (l.step c).2 := by
  have permitted (other : c ≠ .stream .describe) :
      (l.step c).1 = (u.step c).1 ∧ layout.session.alike (u.step c).2 (l.step c).2 := by
    have permits : layout.Permits c := ⟨.inr fun _ _ => trivial,
      fun v _ => Layout.carries.value (Layout.follows_scalarText v), fun same => absurd same other⟩
    rcases Layout.covers.step permits alike with ⟨outcome, alike, -⟩ | apart
    · exact ⟨outcome, alike⟩
    · exact apart.elim
  by_cases described : c = .stream .describe
  · subst described
    refine ⟨?_, alike⟩
    change Outcome.answered (.text l.stream.description) = _
    rw [prettyOutcome, alike.1.same]
    rfl
  · rw [prettyOutcome]
    · exact permitted described
    · exact described

theorem run_of_spaced (alike : layout.session.alike u l) (cs : List Command) :
    layout.session.alike (u.run cs) (l.run cs) := by
  induction cs generalizing u l with
  | nil => exact alike
  | cons c cs ih => exact ih (step_of_spaced alike c).2

/-- How commands come out in pretty text, beside the same commands in compact text. -/
structure Reflows (u l : Session) (cs : List Command) : Prop where
  /-- Nothing but the layout and the text differs. -/
  same : l.run cs = { u.run cs with
    stream := { (u.run cs).stream with
      sink := (l.run cs).stream.sink
      settings := (u.run cs).stream.settings.prettified } }
  /-- The pretty text is the compact text with white space outside of strings. -/
  text : Json.stripped (l.run cs).stream.sink.contents = (u.run cs).stream.sink.contents
  /-- The next command comes out the same. -/
  next : ∀ c, ((l.run cs).step c).1 = (u.run cs).prettyOutcome c

theorem reflows_of_spaced (alike : layout.session.alike u l) (cs : List Command) :
    Reflows u l cs := by
  have behind := run_of_spaced alike cs
  obtain ⟨⟨compact, sinks, stream⟩, same⟩ := behind
  refine ⟨same.trans (by rw [← stream]), ?_, fun c => (step_of_spaced (run_of_spaced alike cs) c).1⟩
  have whole : (l.run cs).stream.sink.cut = [] := by
    rw [sinks.same]
    exact sinks.whole
  rw [Sink.contents_of_whole whole, Sink.contents_of_whole sinks.whole, Json.stripped,
    sinks.blanks.left, String.ofList_toList]

/-- However a session begins and whatever is done in it: pretty text differs from compact text in
white space outside of strings only, and every command comes out the same. -/
theorem reflows_new (document : Bool) (settings : Settings) :
    ∃ u l, new document {} { settings with pretty := false } = .ok u ∧
      new document {} { settings with pretty := true } = .ok l ∧ ∀ cs, Reflows u l cs := by
  have empty : Sink.Spaced {} {} := ⟨rfl, rfl, rfl, rfl, rfl, rfl⟩
  have bracket : Sink.Spaced { text := "[" } { text := "[" } := ⟨rfl, rfl, rfl, rfl, rfl, rfl⟩
  cases document with
  | false =>
      exact ⟨ofStream {} _, ofStream {} _, rfl, rfl, reflows_of_spaced ⟨⟨rfl, empty, rfl⟩, rfl⟩⟩
  | true =>
      exact ⟨newDocument _, newDocument _, ofDocument_eq _, ofDocument_eq _,
        reflows_of_spaced ⟨⟨rfl, bracket, rfl⟩, rfl⟩⟩

end Session

end SceneStream
