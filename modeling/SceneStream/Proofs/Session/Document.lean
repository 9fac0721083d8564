import SceneStream.Proofs.Session.Single

/-!
# The document in a session

The document's packets are opened like any other writer. The document itself is finished only where
no writer is open, and then its array is complete; where that is refused, the document is gone for
the program all the same.
-/

namespace SceneStream.Session

variable {s s' : Session} {o : Outline} {roll : List Opening} {d : Document}

theorem rejects_onStream {α : Type} {op : StreamM α} (h : Refuses op s.stream) :
    s.Rejects (onStream op) := by
  obtain ⟨e, refusal, run⟩ := h
  exact ⟨e, s, refusal, by rw [onStream, run], Agrees.refl s⟩

/-- What the program knows of the document shows nowhere else. -/
theorem Tells.setDocument (tells : s.Tells o roll) (document : Option Document) :
    Tells { s with document } o roll :=
  tells.congr rfl rfl (fun _ => rfl) tells.regular

theorem Stands.setDocument (stands : s.Stands o) (document : Option Document) :
    Stands { s with document } o := by
  obtain ⟨grant, roll, tells⟩ := stands
  exact ⟨grant, roll, tells.setDocument document⟩

/-- The packet writer of the document is there as long as the document is. -/
theorem handle?_documentPacket (kept : s.document = some d) :
    s.handle? documentPacket.address = some documentPacket := by
  simp [handle?, documentPacket, shapeAt?, kept, Shape.follow?]

theorem Stands.openPacket (stands : s.Stands o) (kept : s.document = some d) :
    s.Rejects (openPacket d) ∨ ∃ s' t, openPacket d s = .ok () s' ∧ s'.stream.grant = none ∧
      s'.Tells (o.after (.enter (.packet []))) [⟨t, some (.packet .document), .packet⟩] := by
  rcases stands.start (handle?_documentPacket kept) with rejects | ⟨s', t, opened, grant, told⟩
  · exact .inl (rejects.bind _)
  · refine .inr ⟨_, t, bind_of_ok opened _, grant, ?_⟩
    exact told.setDocument _

/-- The members that name the document and its version are written as one entry. -/
private theorem draws_documentPacket {stream : Stream} {p : Packet} (turn : p.HasTurn stream)
    (name : String) :
    Writing.Draws stream p
      (do
        Packet.writeId "document"
        Packet.writeName name
        Packet.writeVersion Document.version)
      (Tree.memberCalls [("id", .scalar (.text "document")), ("name", .scalar (.text name)),
        ("version", .scalar (.text Document.version))]) p := by
  have identified : Packet.writeId "document" = Packet.member "id" (.text "document") := by
    simp [Packet.writeId]
  have written := (Packet.draws_member turn "id" (.text "document")).seq
    ((Packet.draws_member turn "name" (.text name)).seq
      (Packet.draws_member turn "version" (.text Document.version)))
  rw [← Tree.memberCalls_append, ← Tree.memberCalls_append] at written
  rw [identified]
  exact written

/-- The packet that names the document is written as a whole, or not at all. -/
theorem Stands.writeDocumentPacket (stands : s.Stands o) (kept : s.document = some d)
    (name : String) :
    s.Rejects (writeDocumentPacket d name) ∨ ∃ s', writeDocumentPacket d name s = .ok () s' ∧
      s'.Stands (o.afterAll [.enter (.packet []),
        .write (.members [("id", .scalar (.text "document")), ("name", .scalar (.text name)),
          ("version", .scalar (.text Document.version))]),
        .leave]) := by
  by_cases late : 0 < d.packets
  · left
    refine rejects_of_refuses ⟨.invalidOperation .documentPacketLate, rfl, ?_⟩
    simp [Session.writeDocumentPacket, late, bind_apply]
  · have whole : Session.writeDocumentPacket d name = (do
        Session.openPacket d
        closing documentPacket <| Session.onPacket .document do
          Packet.writeId "document"
          Packet.writeName name
          Packet.writeVersion Document.version) := by
      simp only [Session.writeDocumentPacket, late, if_false]
    rw [whole]
    rcases stands.openPacket kept with rejects | ⟨s₁, t, opened, grant, told⟩
    · exact .inl (rejects.bind _)
    · right
      obtain ⟨token, -, active⟩ := told.turn
      have turn : (s₁.packetAt .document).HasTurn s₁.stream := ⟨t, token, active⟩
      obtain ⟨s₂, members, told₂, -⟩ := told.onPacket (draws_documentPacket turn name)
      obtain ⟨s₃, closed, told₃, grant₃, -⟩ := told₂.finish (h := documentPacket)
      refine ⟨s₃, ?_, grant₃, _, told₃⟩
      rw [bind_of_ok opened, closing, members]
      exact closed

theorem flush_ok {stream : Stream} {draft : Draft} (shows : stream.Shows draft) :
    Stream.flush stream = .ok () stream := by
  have sink : stream.sink.flushFails = false := by rw [shows.sink]
  simp [Stream.flush, bind_apply, sink]

/-- A document is not finished while writers are open. -/
theorem finishDocument_of_open (writers : s.stream.writers ≠ []) :
    finishDocument s = .error (.invalidOperation (.writersOpen s.stream.writers.length))
      { s with document := none } := by
  simp [finishDocument, bind_apply, onStream, writers]

theorem finishDocument_of_closed (writers : s.stream.writers = []) :
    finishDocument s =
      onStream (do Stream.endSequence; Stream.flush) { s with document := none } := by
  simp [finishDocument, bind_apply, onStream, writers]

/-- Where no writer is open, the document's array is closed, and nothing can follow. -/
theorem Tells.finishDocument (tells : s.Tells o []) (document : o.alone = false)
    (unfinished : o.finished = false) :
    ∃ s', Session.finishDocument s = .ok () s' ∧ s'.stream.grant = s.stream.grant ∧
      s'.Tells (o.after .finish) [] := by
  have sound := tells.sound.finish document tells.parts_eq_nil
  have accepted := tells.sound.acceptAll_draft sound (Outline.calls_finish document unfinished)
  obtain ⟨text, run, shows⟩ := Stream.makes_perform .endSequence tells.shows accepted
  have ended : (do Stream.endSequence; Stream.flush : StreamM Unit) s.stream =
      .ok () (s.stream.drawn text (o.after .finish).draft) :=
    (bind_of_ok run _).trans (flush_ok shows)
  let s' : Session := { s with
    stream := s.stream.drawn text (o.after .finish).draft
    document := none }
  have told : s'.Tells (o.after .finish) [] :=
    { sound
      shows
      registers := tells.registers.congr rfl rfl rfl fun _ => rfl
      standings := tells.standings
      regular := tells.regular }
  refine ⟨s', ?_, rfl, told⟩
  rw [finishDocument_of_closed tells.registers.writers, onStream, ended]

/-- Once nothing can follow, or without a document, there is no array to close. -/
theorem Tells.forbids_end (tells : s.Tells o []) (illegal : ¬ (o.alone = false ∧ o.finished = false)) :
    o.draft.accept .endSequence = none := by
  cases finished : o.finished with
  | true =>
      obtain ⟨t, whole, -⟩ := tells.sound.draft_finished finished
      rw [whole]
      rfl
  | false =>
      have alone : o.alone = true := by simpa [finished] using illegal
      have nothing : o.calls = [] := by
        simp [Outline.calls, alone, (tells.sound.single alone).1 finished, tells.parts_eq_nil,
          Tree.itemCalls]
      rw [Outline.draft, nothing]
      rfl

/-- The document is finished where no writer is open and its array was not closed before. -/
theorem Stands.finishDocument (stands : s.Stands o) :
    (∃ e s', e.isRefusal = true ∧ finishDocument s = .error e s' ∧
      Agrees { s with document := none } s') ∨
    ∃ s', finishDocument s = .ok () s' ∧ s'.Stands (o.after .finish) := by
  obtain ⟨grant, roll, tells⟩ := stands
  have writers := tells.registers.writers
  cases roll with
  | cons x rest =>
      left
      exact ⟨_, _, rfl, finishDocument_of_open (by simp [writers]), .refl _⟩
  | nil =>
      by_cases legal : o.alone = false ∧ o.finished = false
      · right
        obtain ⟨s', run, kept, told⟩ := tells.finishDocument legal.1 legal.2
        exact ⟨s', run, kept.trans grant, [], told⟩
      · left
        have refuses := (Stream.refuses_perform tells.shows (tells.forbids_end legal)).bind
          fun _ => Stream.flush
        obtain ⟨e, s', refusal, run, agrees⟩ :=
          rejects_onStream (s := { s with document := none }) refuses
        exact ⟨e, s', refusal, (finishDocument_of_closed writers).trans run, agrees⟩

end SceneStream.Session
