import SceneStream.Proofs.Comparison.Truncation
import SceneStream.Proofs.Json.Null
import SceneStream.Proofs.Session.Advance

/-!
# No null reaches a document

Every value is checked before it is written, whatever its kind, its encoding and the way it comes in,
so writers send finite numbers only, and none of the pieces of a text is a null. This holds wherever
the text ends: a sink that is full may have cut a piece, but takes nothing behind it.
-/

namespace SceneStream

open Json

namespace Sink

variable {s : Sink} {piece : String}

/-- A sink that is full keeps its text. -/
theorem text_fill_zero (s : Sink) (cs : List Char) : (s.fill 0 cs).text = s.text := by
  cases cs with
  | nil => rfl
  | cons c cs =>
      have wide := c.utf8Size_pos
      rw [fill, if_neg (by omega)]

/-- Of a piece, the first characters are taken. -/
theorem text_fill (s : Sink) (room : Nat) (cs : List Char) :
    ∃ taken, taken <+: cs ∧ (s.fill room cs).text.toList = s.text.toList ++ taken := by
  fun_induction fill s room cs with
  | case1 => exact ⟨[], List.prefix_rfl, by simp⟩
  | case2 s room c rest fits ih =>
      obtain ⟨taken, first, text⟩ := ih
      exact ⟨c :: taken, List.cons_prefix_cons.mpr ⟨rfl, first⟩, by simp [text]⟩
  | case3 => exact ⟨[], List.nil_prefix, by simp⟩

/-- The text of a sink has the letter of null in strings only, and ends in none unless it was cut. -/
structure IsNullless (s : Sink) : Prop where
  sound : s.IsSound
  avoids : Region.Avoids .outside s.text.toList
  ends : s.limit = some s.size ∨ Region.after .outside s.text.toList = .outside

theorem isNullless_empty (limit : Option Nat) (flushFails : Bool) :
    IsNullless { limit, flushFails } where
  sound := ⟨fun _ _ => Nat.zero_le _, fun cut => absurd rfl cut⟩
  avoids := trivial
  ends := .inr rfl

/-- A sink that has no room for the whole of a piece is full behind it. -/
theorem size_of_over (sound : s.IsSound) {limit : Nat} (limited : s.limit = some limit)
    (beyond : limit < s.size + piece.utf8ByteSize) : (s.put piece).1.size = limit := by
  have bytes := congrArg List.length (bytes_put sound piece)
  rw [length_bytes, clip, limited] at bytes
  simp only [List.length_take, List.length_append, length_bytes, length_utf8] at bytes
  omega

theorem IsNullless.put (h : s.IsNullless) (nullless : Json.IsNullless piece.toList) :
    (s.put piece).1.IsNullless := by
  have sound := h.sound.put piece
  by_cases room : s.HasRoom piece
  · rw [put_of_hasRoom room] at sound ⊢
    rcases h.ends with full | outside
    · have empty : piece = "" := by
        have fits := room s.size full
        rw [← String.utf8ByteSize_eq_zero_iff]
        omega
      rw [empty, String.append_empty]
      exact h
    · refine ⟨sound, ?_, .inr ?_⟩
      · rw [String.toList_append, avoids_append, outside]
        exact ⟨h.avoids, nullless.avoids⟩
      · rw [String.toList_append, Region.after_append, outside, nullless.ends]
  · obtain ⟨limit, limited, beyond⟩ : ∃ limit, s.limit = some limit ∧
        limit < s.size + piece.utf8ByteSize := by
      simpa [HasRoom] using room
    have full : (s.put piece).1.limit = some (s.put piece).1.size := by
      rw [limit_put, limited, size_of_over h.sound limited beyond]
    refine ⟨sound, ?_, .inl full⟩
    rw [put_of_over limited beyond]
    rcases h.ends with full | outside
    · obtain rfl := Option.some.inj (full.symm.trans limited)
      rw [Nat.sub_self, text_fill_zero]
      exact h.avoids
    · obtain ⟨taken, ⟨rest, whole⟩, text⟩ := s.text_fill (limit - s.size) piece.toList
      rw [text, avoids_append, outside]
      have avoids := nullless.avoids
      rw [← whole, avoids_append] at avoids
      exact ⟨h.avoids, avoids.1⟩

/-- What stands for a character that was cut is not the letter of null either. -/
theorem IsNullless.contents (h : s.IsNullless) : Region.Avoids .outside s.contents.toList := by
  rw [Sink.contents, String.toList_append, avoids_append]
  refine ⟨h.avoids, avoids_of_all ?_⟩
  unfold cutMark
  split <;> decide

end Sink

namespace Stream

/-- A sink without null is left as one. -/
def KeepsNullless (s s' : Stream) : Prop := s.sink.IsNullless → s'.sink.IsNullless

instance : IsPreorder Stream KeepsNullless where
  refl _ := id
  trans _ _ _ first second := second ∘ first

theorem keepsNullless_emit {piece : String} (nullless : Json.IsNullless piece.toList)
    (failure : Error) : Moves KeepsNullless (emit failure piece) := by
  intro s before
  rw [behind_emit]
  exact before.put nullless

theorem isNullless_mark {piece : String} (isMark : piece ∈ marks ++ [":", ": "]) :
    Json.IsNullless piece.toList := by
  simp only [marks, List.cons_append, List.nil_append, List.mem_cons, List.not_mem_nil, or_false]
    at isMark
  rcases isMark with rfl | rfl | rfl | rfl | rfl | rfl | rfl <;>
    exact ⟨avoids_of_all (by decide), rfl⟩

theorem carries_keepsNullless : (Comparison.alone KeepsNullless).Carries := by
  apply Comparison.carries_alone
  · exact fun _ _ _ => id
  · exact fun piece isMark => keepsNullless_emit (isNullless_mark isMark) _
  · exact fun width => keepsNullless_emit (isNullless_spacing (isSpacing_indented width)) _
  · exact fun v finite => keepsNullless_emit (Scalar.isNullless_json finite) _

theorem keepsNullless_perform {c : Call} (finite : c.isFinite = true) :
    Moves KeepsNullless (perform c) := (carries_keepsNullless.perform c finite).moves

theorem keepsNullless_flush : Moves KeepsNullless flush := by
  apply Moves.look
  intro s
  split
  · exact moves_throw _
  · exact moves_pure ()

end Stream

namespace Session

variable {settings : Settings} {s₀ : Session} {cs : List Command} {limit : Option Nat}
  {flushFails : Bool}

theorem isNullless_ofDocument (made : ofDocument { limit, flushFails } settings = .ok s₀) :
    s₀.stream.sink.IsNullless := by
  unfold ofDocument at made
  split at made
  next stream begun =>
    obtain rfl := Except.ok.inj made
    exact (Stream.keepsNullless_perform (c := .startSequence) rfl).of_ok begun
      (Sink.isNullless_empty limit flushFails)
  next => cases made

/-- Whatever is offered to the writers of a document, and however its sink fails: no null stands in its
text, and none is in the tree that the text is read as. On a sink that never fails, the text is that of
calls with finite numbers. Calls of the program's own may be among the commands, as long as the numbers
in them are finite. -/
theorem finite_run (made : ofDocument { limit, flushFails } settings = .ok s₀)
    (own : ∀ v, .stream (.value v) ∈ cs → v.isFinite = true) :
    Region.Avoids .outside (s₀.run cs).stream.sink.contents.toList ∧
      (∀ v, Json.parse? (s₀.run cs).stream.sink.contents = some v → v.isNullFree = true) ∧
      (limit = none → flushFails = false →
        ∃ d, (s₀.run cs).stream.Shows d ∧ ∀ c ∈ d.calls, c.isFinite = true) := by
  have nullless : (s₀.run cs).stream.sink.IsNullless := by
    apply moves_run (T := Stream.KeepsNullless)
    · exact fun c => Stream.keepsNullless_perform
    · exact fun v mem => Stream.keepsNullless_perform (c := .value v) (own v mem)
    · exact Stream.keepsNullless_flush
    · exact fun _ _ _ _ => id
    · exact isNullless_ofDocument made
  refine ⟨nullless.contents, fun v => isNullFree_of_avoids nullless.contents, ?_⟩
  rintro rfl rfl
  obtain ⟨d, calls, shows, described, finite⟩ := shows_run made (fun _ => id) own
  refine ⟨d, shows, ?_⟩
  rw [described]
  exact List.forall_mem_cons.mpr ⟨rfl, finite⟩

/-- A height that is no number, given once and as a sample, and coordinates that have no end. -/
def boundlessRectangle : List Command :=
  let packet : Address := { root := .document }
  let rectangle : Address := packet.child "rectangle"
  [.document .openPacket, .parent packet (.startChild "rectangle"),
    .parent rectangle (.writeChild "height" .number () (.literal .nan)),
    .parent rectangle (.startChild "extrudedHeight"),
    .value (rectangle.child "extrudedHeight") (.samples .number [⟨0, 0, by decide, by decide⟩] [.nan]),
    .writer (rectangle.child "extrudedHeight") .finish,
    .parent rectangle (.writeChild "coordinates" .extent .degrees
      (.literal ⟨.zero false, .zero false, .infinite false, .zero true⟩)),
    .writer rectangle .finish, .writer packet .finish, .document .finish]

theorem isNullFree_of_boundlessRectangle :
    ofDocument { limit := none, flushFails := false } {} = .ok (newDocument {}) ∧
      (∀ v, .stream (.value v) ∈ boundlessRectangle → v.isFinite = true) ∧
      ∀ v, Json.parse? ((newDocument {}).run boundlessRectangle).stream.sink.contents = some v →
        v.isNullFree = true := by
  have own : ∀ v, .stream (.value v) ∈ boundlessRectangle → v.isFinite = true := by
    simp [boundlessRectangle]
  exact ⟨ofDocument_eq {}, own, (finite_run (ofDocument_eq {}) own).2.1⟩

end Session

end SceneStream
