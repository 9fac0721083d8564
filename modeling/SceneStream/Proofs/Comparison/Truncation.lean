import SceneStream.Proofs.Comparison.Command
import SceneStream.Proofs.Comparison.Structure
import SceneStream.Proofs.Session.Refusal
import SceneStream.Proofs.Sink

/-!
# A full sink truncates and nothing else

A run on a sink with a limit is compared with the same run on a sink without one. As long as all text
has room, nothing tells the runs apart. Once text was lost, the limited sink is full: it holds the
first bytes of the text and takes no more, whatever is written, closed or tried again, and a document
can no longer be finished.
-/

namespace SceneStream

/-- What putting pieces does to a sink. -/
structure Sink.Grows (s s' : Sink) : Prop where
  bytes : s.bytes <+: s'.bytes
  limit : s'.limit = s.limit
  sound : s'.IsSound

theorem Sink.IsSound.grows_put {s : Sink} (sound : s.IsSound) (piece : String) :
    s.Grows (s.put piece).1 where
  bytes := by
    rw [bytes_put sound, clip]
    split
    · exact List.prefix_append ..
    next limit limited =>
      rw [List.prefix_take_iff, length_bytes]
      exact ⟨List.prefix_append .., sound.fits limit limited⟩
  limit := limit_put s piece
  sound := sound.put piece

/-- The text in a sink without a limit is more than there is room for elsewhere, and its first bytes
are there. -/
structure Sink.Exceeds (room : Nat) (u l : Sink) : Prop where
  unlimited : u.limit = none
  whole : u.IsSound
  beyond : room < u.size
  limited : l.limit = some room
  sound : l.IsSound
  first : l.bytes = u.bytes.take room

namespace Sink

/-- The sink with room for so many bytes. -/
def limited (s : Sink) (room : Nat) : Sink := { s with limit := some room }

/-- All text has room in a limited sink. -/
structure Fits (room : Nat) (u l : Sink) : Prop where
  unlimited : u.limit = none
  whole : u.IsSound
  fits : u.size ≤ room
  flushes : u.flushFails = false
  same : l = u.limited room

/-- A limited sink with all of the text has cut nothing. -/
theorem Fits.sound {room : Nat} {u l : Sink} (fits : Fits room u l) : l.IsSound := by
  obtain ⟨unlimited, whole, fits, flushes, rfl⟩ := fits
  constructor
  · rintro limit ⟨⟩
    exact fits
  · intro cut
    cases unlimited.symm.trans (whole.whole cut)

/-- A piece has room in both sinks, or is lost in part in the limited one. -/
theorem Fits.put {room : Nat} {u l : Sink} (fits : Fits room u l) (piece : String) :
    (u.put piece).2 = true ∧
      ((l.put piece).2 = true ∧ Fits room (u.put piece).1 (l.put piece).1 ∨
        (u.put piece).1.Exceeds room (l.put piece).1) := by
  have sound := fits.sound
  obtain ⟨unlimited, whole, fits, flushes, rfl⟩ := fits
  have taken := put_of_unlimited unlimited piece
  have all : (u.put piece).1.bytes = u.bytes ++ utf8 piece := by
    rw [bytes_put whole, clip, unlimited]
  have size : (u.put piece).1.size = u.size + piece.utf8ByteSize := by
    rw [← length_bytes, all, List.length_append, length_bytes, length_utf8]
  refine ⟨by rw [taken], ?_⟩
  by_cases enough : u.size + piece.utf8ByteSize ≤ room
  · left
    have taken' := put_of_hasRoom (s := u.limited room) (hasRoom_of_le rfl enough)
    refine ⟨by rw [taken'], ?_, whole.put piece, ?_, ?_, ?_⟩
    · rw [limit_put, unlimited]
    · rwa [size]
    · rwa [taken]
    · rw [taken, taken']
      rfl
  · right
    refine ⟨(limit_put _ _).trans unlimited, whole.put piece, ?_, limit_put _ _, sound.put piece, ?_⟩
    · rw [size]
      exact Nat.not_le.mp enough
    · rw [bytes_put sound, all]
      rfl

/-- Once text was lost, a limited sink holds the first bytes whatever is put. -/
theorem Exceeds.grows {room : Nat} {u l u' l' : Sink} (exceeds : u.Exceeds room l)
    (grown : u.Grows u') (grown' : l.Grows l') : u'.Exceeds room l' := by
  have limited' := grown'.limit.trans exceeds.limited
  have beyond : room ≤ u.bytes.length := by
    rw [length_bytes]
    exact Nat.le_of_lt exceeds.beyond
  have longer := grown.bytes.length_le
  rw [length_bytes, length_bytes] at longer
  have full : l'.bytes = l.bytes := by
    refine eq_of_full limited' grown'.sound ?_ grown'.bytes
    rw [exceeds.first, List.length_take_of_le beyond]
  obtain ⟨rest, more⟩ := grown.bytes
  refine ⟨grown.limit.trans exceeds.unlimited, grown.sound,
    Nat.lt_of_lt_of_le exceeds.beyond longer, limited', grown'.sound, ?_⟩
  rw [full, exceeds.first, ← more, List.take_append_of_le_length beyond]

end Sink

theorem Stream.behind_emit (failure : Error) (piece : String) (s : Stream) :
    behind (emit failure piece) s = { s with sink := (s.sink.put piece).1 } := by
  unfold behind emit
  rcases s.sink.put piece with ⟨sink, _ | _⟩ <;> rfl

/-- A limited sink beside one without a limit. -/
def truncation (room : Nat) : Comparison Sink where
  moves s s' := s.IsSound → s.Grows s'
  alike := Sink.Fits room
  parted := Sink.Exceeds room
  fine e := e.isRefusal = true
  moves_refl _ sound := ⟨List.prefix_rfl, rfl, sound⟩
  moves_trans _ _ _ first second sound := by
    have grown := first sound
    have more := second grown.sound
    exact ⟨grown.bytes.trans more.bytes, more.limit.trans grown.limit, more.sound⟩
  parted_of_moves _ _ _ _ exceeds moved moved' :=
    exceeds.grows (moved exceeds.whole) (moved' exceeds.sound)
  fine_misuse _ := rfl

namespace Truncation

open Comparison

variable {room : Nat}

theorem follows_emit (failure : Error) (piece : String) :
    (truncation room).output.Follows (Stream.emit failure piece) where
  moves s := by
    rw [Stream.behind_emit]
    exact fun sound => sound.grows_put piece
  runs u l alike := by
    obtain ⟨fits, same⟩ := alike
    rw [Stream.behind_emit, Stream.behind_emit]
    obtain ⟨taken, ⟨taken', fits'⟩ | exceeds⟩ := fits.put piece
    · left
      have run : Stream.emit failure piece u = .ok () { u with sink := (u.sink.put piece).1 } := by
        rw [Stream.emit, ← Prod.mk.eta (p := u.sink.put piece), taken]
      have run' : Stream.emit failure piece l = .ok () { l with sink := (l.sink.put piece).1 } := by
        rw [Stream.emit, ← Prod.mk.eta (p := l.sink.put piece), taken']
      rw [run, run', same]
      exact .ok () ⟨fits', rfl⟩
    · exact .inr exceeds

/-- Neither sink fails to pass text on. -/
theorem follows_flush : (truncation room).output.Follows Stream.flush where
  moves := by
    apply Moves.look
    intro s
    split
    · exact moves_throw _
    · exact moves_pure ()
  runs u l alike := by
    left
    have flushes := alike.1.flushes
    have flushes' : l.sink.flushFails = false := by
      rw [alike.1.same]
      exact flushes
    simp only [Stream.flush, bind_apply, get_apply, flushes, flushes']
    exact .ok () alike

theorem absorbs (room : Nat) : (truncation room).Absorbs where
  punctuation := follows_emit _
  scalarText := follows_emit _
  flush := follows_flush

/-- Arguments are refused alike, and a stream describes itself without its sink. -/
theorem permits (room : Nat) (c : Command) : (truncation room).output.Permits c where
  arguments := .inr fun _ => id
  value v _ := (absorbs room).value v
  description _ u l alike := by
    rw [alike.2]
    rfl

end Truncation

/-! ## A sink that is full -/

/-- Whether a sink has no room left. -/
structure Sink.IsFull (s : Sink) : Prop where
  sound : s.IsSound
  limited : s.limit = some s.size

theorem Sink.IsFull.grows {s s' : Sink} (full : s.IsFull) (grows : s.Grows s') : s'.IsFull := by
  have limited := grows.limit.trans full.limited
  have same : s'.bytes = s.bytes :=
    eq_of_full limited grows.sound (by rw [length_bytes]) grows.bytes
  refine ⟨grows.sound, ?_⟩
  rw [limited, ← length_bytes, ← length_bytes, same]

/-- A sink that loses some of a piece is full. -/
theorem Sink.IsSound.isFull_put {s : Sink} (sound : s.IsSound) {piece : String}
    (lost : (s.put piece).2 = false) : (s.put piece).1.IsFull := by
  have bytes := congrArg List.length (bytes_put sound piece)
  refine ⟨sound.put piece, ?_⟩
  rw [limit_put, ← length_bytes, bytes, clip]
  cases limited : s.limit with
  | none =>
      rw [put_of_unlimited limited] at lost
      cases lost
  | some limit =>
      by_cases fits : s.size + piece.utf8ByteSize ≤ limit
      · rw [put_of_hasRoom (hasRoom_of_le limited fits)] at lost
        cases lost
      · simp only [List.length_take, List.length_append, length_bytes, length_utf8]
        rw [Nat.min_eq_left (by omega)]

theorem Sink.Exceeds.isFull {room : Nat} {u l : Sink} (exceeds : u.Exceeds room l) :
    l.IsFull := by
  refine ⟨exceeds.sound, ?_⟩
  rw [exceeds.limited, ← length_bytes, exceeds.first, List.length_take, length_bytes,
    Nat.min_eq_left (Nat.le_of_lt exceeds.beyond)]

namespace Stream

variable {s s' : Stream}

theorem emit_of_isFull (full : s.sink.IsFull) {failure : Error} {piece : String}
    (text : piece ≠ "") : emit failure piece s ≠ .ok () s' := by
  have beyond : s.sink.size < s.sink.size + piece.utf8ByteSize := by
    have : piece.utf8ByteSize ≠ 0 := by simpa using text
    omega
  intro run
  rw [emit, Sink.put_of_over full.limited beyond] at run
  cases run

/-- On a full sink, no container is begun. -/
theorem beginContainer_of_isFull (full : s.sink.IsFull) {bracket : String} (text : bracket ≠ "")
    (frame : Frame) : beginContainer bracket frame s ≠ .ok () s' := by
  intro run
  obtain ⟨_, s₁, announced, run⟩ := ok_of_bind run
  obtain ⟨_, s₂, written, -⟩ := ok_of_bind run
  have grows := (Truncation.absorbs 0).carries.beginValue.moves s full.sound
  rw [behind_of_ok announced] at grows
  exact emit_of_isFull (full.grows grows) text written

/-- On a full sink, no container is ended. -/
theorem endContainer_of_isFull (full : s.sink.IsFull) {bracket : String} (text : bracket ≠ "")
    (rest : List Frame) (count : Nat) : endContainer bracket rest count s ≠ .ok () s' := by
  intro run
  obtain ⟨_, s₁, noted, run⟩ := ok_of_bind run
  obtain rfl := (EStateM.Result.ok.inj noted).2
  by_cases content : 0 < count
  · rw [if_pos content] at run
    obtain ⟨_, s₂, broken, run⟩ := ok_of_bind run
    have grows := (Truncation.absorbs 0).carries.newline.moves { s with frames := rest } full.sound
    rw [behind_of_ok broken] at grows
    exact emit_of_isFull (full.grows grows) text run
  · rw [if_neg content] at run
    exact emit_of_isFull (s := { s with frames := rest }) full text run

theorem endSequence_of_isFull (full : s.sink.IsFull) : endSequence s ≠ .ok () s' := by
  intro run
  rcases frames : s.frames with _ | ⟨⟨members, pending⟩ | items, rest⟩ <;>
    simp only [endSequence, bind_apply, get_apply, frames] at run
  case cons.array => exact endContainer_of_isFull full (by decide) _ _ run
  all_goals cases run

end Stream

namespace Session

variable {s s' : Session}

/-- On a full sink, no document is finished. -/
theorem answers_finish_of_isFull (full : s.stream.sink.IsFull) :
    s.answers (.document .finish) = false := by
  rw [Bool.eq_false_iff]
  intro answered
  obtain ⟨call, reply, called, run⟩ := run_of_answers answered
  obtain ⟨d, -, rfl⟩ := Option.map_eq_some_iff.mp called
  have run := ok_of_doing run
  by_cases writers : s.stream.writers = []
  · rw [finishDocument_of_closed writers] at run
    cases ended : Stream.endSequence s.stream with
    | ok _ s₁ => exact Stream.endSequence_of_isFull full ended
    | error e s₁ =>
        rw [onStream, bind_of_error ended] at run
        cases run
  · rw [finishDocument_of_open writers] at run
    cases run

/-- The session on a sink that has room for so many bytes. -/
def limited (s : Session) (room : Nat) : Session :=
  { s with stream := { s.stream with sink := s.stream.sink.limited room } }

/-- How commands come out on a limited sink, beside the same commands on a sink without a limit. -/
structure Truncates (room : Nat) (u l : Session) (cs : List Command) : Prop where
  /-- The limited sink holds the first bytes. -/
  bytes : (l.run cs).stream.sink.bytes = (u.run cs).stream.sink.bytes.take room
  /-- As long as the text has room, all commands come out alike, and all else is the same. -/
  same : (u.run cs).stream.sink.size ≤ room →
    l.outcomes cs = u.outcomes cs ∧ l.run cs = (u.run cs).limited room
  /-- If the document can be finished, the sink has failed no command. -/
  finish : (l.run cs).answers (.document .finish) = true →
    ∀ e, .refused e ∈ l.outcomes cs → e.isRefusal = true

variable {room : Nat} {u l : Session} {cs : List Command}

/-- Sessions that differ in the limit of the sink only stay so until text is lost, and then keep the
first bytes. -/
theorem truncates_of_alike (alike : (truncation room).output.session.alike u l) (cs : List Command) :
    Truncates room u l cs := by
  have covers := (Truncation.absorbs room).covers
  rcases covers.run (fun c _ => Truncation.permits room c) alike with
    ⟨outcomes, ⟨⟨fits, streams⟩, same⟩, fine⟩ | apart
  · have bytes : (l.run cs).stream.sink.bytes = (u.run cs).stream.sink.bytes := by
      rw [fits.same]
      rfl
    refine ⟨?_, fun _ => ⟨outcomes, ?_⟩, fun _ e refused => fine e (outcomes ▸ refused)⟩
    · rw [bytes, List.take_of_length_le (by simpa using fits.fits)]
    · rw [same, streams, fits.same, limited]
  · refine ⟨apart.first, fun fits => absurd fits (Nat.not_le.mpr apart.beyond), fun answered => ?_⟩
    rw [answers_finish_of_isFull apart.isFull] at answered
    cases answered

theorem fits_empty (room : Nat) : Sink.Fits room {} { limit := some room } where
  unlimited := rfl
  whole := Sink.isSound_empty none
  fits := Nat.zero_le room
  flushes := rfl
  same := rfl

/-- A document begins alike where there is room for its bracket. -/
theorem alike_ofDocument (settings : Settings) {room : Nat} (some_room : 0 < room) :
    ∃ l, ofDocument { limit := some room } settings = .ok l ∧
      (truncation room).output.session.alike (newDocument settings) l := by
  have start := ((Truncation.absorbs room).covers).perform .startSequence rfl
  have begun : Stream.perform .startSequence { settings } = .ok () (newDocument settings).stream :=
    rfl
  rcases start.runs { settings } { sink := { limit := some room }, settings }
      ⟨fits_empty room, rfl⟩ with same | apart
  · cases begun' : Stream.perform .startSequence { sink := { limit := some room }, settings } with
    | error e l => rw [begun, begun'] at same; cases same
    | ok _ l =>
        rw [begun, begun'] at same
        cases same with
        | ok _ alike =>
            have opened : Stream.startSequence { sink := { limit := some room }, settings } =
                .ok () l := begun'
            exact ⟨{ stream := l, document := some {} }, by rw [ofDocument, opened], alike, rfl⟩
  · have beyond : room < (newDocument settings).stream.sink.size := by
      rw [behind_of_ok begun] at apart
      exact apart.beyond
    exact absurd beyond (Nat.not_lt.mpr some_room)

/-- However a session begins and whatever is done in it: on a sink that has room for so many bytes, it
begins as on a sink without a limit and truncates its text. Only the bracket of a document that has no
room at all keeps the session from beginning. -/
theorem truncates_new (document : Bool) (settings : Settings) (room : Nat) :
    ∃ u, new document {} settings = .ok u ∧
      ((document = true ∧ room = 0 ∧
          new document { limit := some room } settings = .error (.io .sinkFull)) ∨
        ∃ l, new document { limit := some room } settings = .ok l ∧ ∀ cs, Truncates room u l cs) := by
  cases document with
  | false =>
      refine ⟨ofStream {} settings, rfl, .inr ⟨ofStream { limit := some room } settings, rfl, ?_⟩⟩
      exact truncates_of_alike ⟨⟨fits_empty room, rfl⟩, rfl⟩
  | true =>
      refine ⟨newDocument settings, ofDocument_eq settings, ?_⟩
      rcases Nat.eq_zero_or_pos room with rfl | some_room
      · exact .inl ⟨rfl, rfl, rfl⟩
      · obtain ⟨l, made, alike⟩ := alike_ofDocument settings some_room
        exact .inr ⟨l, made, truncates_of_alike alike⟩

end Session

end SceneStream
