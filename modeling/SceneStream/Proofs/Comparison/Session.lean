import SceneStream.Proofs.Comparison.Writer
import SceneStream.Proofs.Session.Place

/-!
# Comparing operations of a session

A session looks at its stream through its writers only. So an operation of one writer, and what is
composed of such operations, follows a comparison of sessions that differ in alike streams.
-/

namespace SceneStream

open Session

namespace Comparison

variable {C : Comparison Stream} {ω α β : Type} {h child : Handle} {a : Address} {k : Kind}

/-- The comparison of sessions at their streams: all else is equal while the streams are alike. -/
def session (C : Comparison Stream) : Comparison Session where
  moves s s' := C.moves s.stream s'.stream
  alike u l := C.alike u.stream l.stream ∧ l = { u with stream := l.stream }
  parted u l := C.parted u.stream l.stream
  fine := C.fine
  moves_refl s := C.moves_refl s.stream
  moves_trans _ _ _ := C.moves_trans _ _ _
  parted_of_moves _ _ _ _ := C.parted_of_moves _ _ _ _
  fine_misuse := C.fine_misuse

section

variable {op : WriterM ω α} {whole : SessionM β} (own : Session → ω)
  (settle : Session → Writing ω → Session) (value : α → ω → β)

theorem behind_settled
    (unfolds : ∀ s, whole s = match op ⟨s.stream, own s⟩ with
      | .ok x w => .ok (value x w.own) (settle s w)
      | .error e w => .error e (settle s w))
    (s : Session) : behind whole s = settle s (behind op ⟨s.stream, own s⟩) := by
  unfold behind
  rw [unfolds]
  cases op ⟨s.stream, own s⟩ <;> rfl

/-- An operation of a writer whose state is put back into the session. -/
theorem Follows.settled (follows : (C.writing ω).Follows op)
    (unfolds : ∀ s, whole s = match op ⟨s.stream, own s⟩ with
      | .ok x w => .ok (value x w.own) (settle s w)
      | .error e w => .error e (settle s w))
    (stream : ∀ s w, (settle s w).stream = w.stream)
    (found : ∀ s stream, own { s with stream } = own s)
    (apart : ∀ s stream w stream', settle { s with stream } ⟨stream', w.own⟩ =
      { settle s w with stream := stream' }) :
    C.session.Follows whole where
  moves s := by
    change C.moves s.stream (behind whole s).stream
    rw [behind_settled own settle value unfolds, stream]
    exact follows.moves ⟨s.stream, own s⟩
  runs u l alike := by
    obtain ⟨streams, same⟩ := alike
    have same_own : own l = own u := by rw [same, found]
    have settled (w w' : Writing ω) (alike : (C.writing ω).alike w w') :
        C.session.alike (settle u w) (settle l w') := by
      obtain ⟨stream', own'⟩ := w'
      obtain ⟨streams, rfl⟩ := alike
      have put : settle l ⟨stream', w.own⟩ = { settle u w with stream := stream' } := by
        rw [same]
        exact apart u l.stream w stream'
      rw [put]
      exact ⟨by rwa [stream], rfl⟩
    have runs := follows.runs ⟨u.stream, own u⟩ ⟨l.stream, own u⟩ ⟨streams, rfl⟩
    apply runs.imp
    · intro same
      rw [unfolds u, unfolds l, same_own]
      cases run : op ⟨u.stream, own u⟩ <;> cases run' : op ⟨l.stream, own u⟩ <;>
        rw [run, run'] at same <;> cases same
      next x w w' alike =>
        have value : value x w'.own = value x w.own := by rw [alike.2]
        simp only [value]
        exact .ok _ (settled w w' alike)
      next e w w' fine alike => exact .error fine (settled w w' alike)
    · intro apart
      change C.parted (behind whole u).stream (behind whole l).stream
      rw [behind_settled own settle value unfolds, behind_settled own settle value unfolds, same_own,
        stream, stream]
      exact apart

end

theorem follows_onStream {op : StreamM α} (follows : C.Follows op) :
    C.session.Follows (Session.onStream op) := by
  apply Follows.settled (fun _ => ()) (fun s w => { s with stream := w.stream }) (fun x _ => x)
    (Follows.onStream follows)
  case unfolds =>
    intro s
    unfold Session.onStream Writing.onStream
    cases op s.stream <;> rfl
  all_goals intros; rfl

theorem follows_onPacket {r : Root} {op : PacketM α} (follows : (C.writing Packet).Follows op) :
    C.session.Follows (onPacket r op) := by
  apply Follows.settled (fun s => s.packetAt r)
    (fun s w => { s with stream := w.stream, packets := s.packets.put r w.own }) (fun x _ => x) follows
  case unfolds =>
    intro s
    unfold onPacket
    cases op ⟨s.stream, s.packetAt r⟩ <;> rfl
  all_goals intros; rfl

theorem follows_onProperty {op : PropertyM α} (follows : (C.writing Property).Follows op) :
    C.session.Follows (onProperty a op) := by
  apply Follows.settled (fun s => s.propertyAt a)
    (fun s w => { s with stream := w.stream, properties := s.properties.put a w.own }) (fun x _ => x)
    follows
  case unfolds =>
    intro s
    unfold onProperty
    cases op ⟨s.stream, s.propertyAt a⟩ <;> rfl
  all_goals intros; rfl

theorem follows_onList {list : String} {l : IntervalList} {op : IntervalListM α}
    (follows : (C.writing IntervalList).Follows op) : C.session.Follows (onList list l op) := by
  apply Follows.settled (fun _ => l)
    (fun s w => { s with stream := w.stream, lists := s.lists.put list w.own }) (fun x _ => x) follows
  case unfolds =>
    intro s
    unfold onList
    cases op ⟨s.stream, l⟩ <;> rfl
  all_goals intros; rfl

theorem follows_beside {own : ω} {op : WriterM ω Unit} (follows : (C.writing ω).Follows op) :
    C.session.Follows (beside own op) := by
  apply Follows.settled (fun _ => own) (fun s w => { s with stream := w.stream }) (fun _ own => own)
    follows
  case unfolds =>
    intro s
    unfold beside
    cases op ⟨s.stream, own⟩ <;> rfl
  all_goals intros; rfl

theorem follows_modifySession {f : Session → Session} (stream : ∀ s, (f s).stream = s.stream)
    (apart : ∀ s stream, f { s with stream } = { f s with stream }) :
    C.session.Follows (modify f : SessionM PUnit) := by
  apply follows_modify
  · intro s
    change C.moves s.stream (f s).stream
    rw [stream]
    exact C.moves_refl _
  · rintro u l ⟨streams, same⟩
    have put : f l = { f u with stream := l.stream } := by
      rw [same]
      exact apart u l.stream
    rw [put]
    exact ⟨by rwa [stream], rfl⟩

/-- A step that looks at anything but the stream. -/
theorem Follows.lookBeside {f : Session → SessionM β} (next : ∀ s, C.session.Follows (f s))
    (common : ∀ s stream, f { s with stream } = f s) : C.session.Follows (get >>= f) := by
  apply Follows.look next
  rintro u l ⟨-, same⟩
  rw [same]
  exact (common u l.stream).symm

section

variable {D : Comparison Session}

theorem Follows.quietly {op : SessionM Unit} (follows : D.Follows op) :
    D.Follows (quietly op) := by
  refine ⟨fun s => ?_, fun u l alike => ?_⟩
  · rw [behind_quietly]
    exact follows.moves s
  · rw [behind_quietly, behind_quietly]
    apply (follows.runs u l alike).imp_left
    intro same
    unfold Session.quietly
    cases run : op u <;> cases run' : op l <;> rw [run, run'] at same <;> cases same
    next x u' l' alike => exact .ok () alike
    next e u' l' fine alike => exact .ok () alike

/-- An operation whose failure counts, whatever comes of the closing behind it. -/
theorem Follows.closing {op : SessionM Unit} (follows : D.Follows op)
    (finish : D.Follows (finish h)) (release : D.Follows (release h)) :
    D.Follows (closing h op) := by
  have moves (s : Session) : D.moves (behind op s) (behind (Session.closing h op) s) := by
    cases run : op s with
    | ok _ s' =>
        rw [behind_of_ok run, behind, closing_of_ok run]
        exact finish.moves s'
    | error e s' =>
        rw [behind_of_error run, behind, closing_of_error run]
        exact release.moves s'
  refine ⟨fun s => trans_of _ (follows.moves s) (moves s), fun u l alike => ?_⟩
  rcases follows.runs u l alike with same | apart
  · cases run : op u <;> cases run' : op l <;> rw [run, run'] at same <;> cases same
    next x u' l' alike =>
      rw [behind, behind, closing_of_ok run, closing_of_ok run']
      exact finish.runs u' l' alike
    next e u' l' fine alike =>
      rw [behind, behind, closing_of_error run, closing_of_error run']
      rcases release.runs u' l' alike with same | apart
      · left
        unfold behind
        cases released : Session.release h u' <;> cases released' : Session.release h l' <;>
          rw [released, released'] at same <;> cases same
        next x u'' l'' alike => exact .error fine alike
        next e u'' l'' _ alike => exact .error fine alike
      · exact .inr apart
  · exact .inr (D.parted_of_moves _ _ _ _ apart (moves u) (moves l))

/-- What is composed of operations of whole writers needs only these of a comparison. -/
structure Composes (D : Comparison Session) : Prop where
  prepareChild : ∀ h, D.Follows (prepareChild h)
  start : ∀ h, D.Follows (start h)
  finish : ∀ h, D.Follows (finish h)
  isOpen : ∀ u l, D.alike u l → ∀ h, l.isOpen h = u.isOpen h
  document : ∀ d, D.Follows (modify fun s => { s with document := d } : SessionM PUnit)

namespace Composes

variable (composes : D.Composes)
include composes

theorem release (h : Handle) : D.Follows (release h) := by
  apply Follows.look
  · intro s
    exact .ite (fun _ => (composes.finish h).quietly) fun _ => follows_pure ()
  · intro u l alike
    rw [composes.isOpen u l alike h]

theorem startChild (h child : Handle) : D.Follows (startChild h child) :=
  (composes.prepareChild h).bind fun _ => composes.start child

theorem closing (h : Handle) {op : SessionM Unit} (follows : D.Follows op) :
    D.Follows (closing h op) := follows.closing (composes.finish h) (composes.release h)

theorem writeChild (h child : Handle) {op : PropertyM Unit}
    (follows : D.Follows (onProperty child.address op)) : D.Follows (writeChild h child op) :=
  (composes.startChild h child).bind fun _ => composes.closing child follows

theorem openPacket (d : Document) : D.Follows (openPacket d) :=
  (composes.start documentPacket).bind fun _ => composes.document _

theorem writeDocumentPacket (d : Document) (name : String)
    (follows : D.Follows (onPacket .document do
      Packet.writeId "document"
      Packet.writeName name
      Packet.writeVersion Document.version)) : D.Follows (writeDocumentPacket d name) := by
  have whole := (composes.openPacket d).bind fun _ => composes.closing documentPacket follows
  exact .ite (fun _ => (follows_refuse _).bind fun _ => whole) fun _ => whole

end Composes

end

namespace Covers

variable (covers : C.Covers)
include covers

/-! ## Writers of a session -/

theorem start (h : Handle) : C.session.Follows (start h) := by
  obtain ⟨address, shape⟩ := h
  cases shape with
  | packet => exact follows_onPacket covers.packet_start
  | property => exact follows_onProperty covers.property_start

theorem finish (h : Handle) : C.session.Follows (finish h) := by
  obtain ⟨address, shape⟩ := h
  cases shape with
  | packet => exact follows_onPacket covers.packet_finish
  | property => exact follows_onProperty covers.property_finish

theorem prepareChild (h : Handle) : C.session.Follows (prepareChild h) := by
  obtain ⟨address, shape⟩ := h
  cases shape with
  | packet => exact follows_onPacket covers.packet_prepareChild
  | property => exact follows_onProperty covers.property_prepareChild

theorem composes : C.session.Composes where
  prepareChild := covers.prepareChild
  start := covers.start
  finish := covers.finish
  isOpen u l alike h := by
    rw [alike.2]
    rfl
  document d := follows_modifySession (fun _ => rfl) fun _ _ => rfl

theorem startIntervals (a : Address) (content : Content) (list : String) :
    C.session.Follows (startIntervals a content list) := by
  apply Follows.lookBeside
  · intro s
    apply (follows_onProperty covers.prepareIntervals).bind
    intro _
    apply (follows_beside covers.list_start).bind
    intro l
    apply (follows_onProperty (follows_getOwn.bind fun _ => follows_setOwn _)).bind
    intro _
    exact follows_modifySession (fun _ => rfl) fun _ _ => rfl
  · exact fun _ _ => rfl

theorem startInterval (list : String) (l : IntervalList) :
    C.session.Follows (startInterval list l) := by
  apply Follows.lookBeside
  · intro s
    apply (follows_onList (covers.prepareInterval _)).bind
    intro _
    apply (follows_beside covers.property_start).bind
    intro element
    exact follows_modifySession (fun _ => rfl) fun _ _ => rfl
  · exact fun _ _ => rfl

theorem finishList (list : String) (l : IntervalList) : C.session.Follows (finishList list l) := by
  apply Follows.lookBeside
  · exact fun s => follows_onList (covers.list_finish _)
  · exact fun _ _ => rfl

/-! ## The document -/

theorem writeDocumentPacket (d : Document) (name : String) :
    C.session.Follows (writeDocumentPacket d name) := by
  have identified : (C.writing Packet).Follows (Packet.writeId "document") :=
    covers.packet_writeId fun empty => absurd empty (by decide)
  have written : (C.writing Packet).Follows (do
      Packet.writeId "document"
      Packet.writeName name
      Packet.writeVersion Document.version) :=
    identified.bind fun _ => (covers.packet_member "name" (by rfl)).bind fun _ =>
      covers.packet_member "version" (by rfl)
  exact covers.composes.writeDocumentPacket d name (follows_onPacket written)

theorem finishDocument : C.session.Follows finishDocument := by
  have whole : C.Follows (do Stream.endSequence; Stream.flush) :=
    (covers.perform .endSequence rfl).bind fun _ => covers.flush
  apply (covers.composes.document none).bind
  intro _
  apply follows_onStream
  apply Follows.look
  · intro s
    exact .ite (fun _ => (follows_refuse _).bind fun _ => whole) fun _ => whole
  · intro u l alike
    simp only [covers.writers u l alike]

end Covers

end Comparison

end SceneStream
