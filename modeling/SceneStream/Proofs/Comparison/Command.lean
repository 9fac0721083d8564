import SceneStream.Proofs.Comparison.Session
import SceneStream.Proofs.Session.Arguments
import SceneStream.Proofs.Session.Locality

/-!
# Comparing runs of commands

Two sessions that differ in alike streams take every command alike, as long as the runs have not
parted: the same command is a call in both, it has the same outcome, and the sessions again differ in
alike streams.
-/

namespace SceneStream

open Session

namespace Session

/-- What a command calls does not depend on the stream. -/
theorem operation?_stream (s : Session) (stream : Stream) (c : Command) :
    { s with stream }.operation? c = s.operation? c := by
  cases c <;> rfl

/-- What becomes of commands one after the other. -/
def outcomes (s : Session) : List Command → List Outcome
  | [] => []
  | c :: cs => (s.step c).1 :: (s.step c).2.outcomes cs

end Session

namespace Comparison

variable {C : Comparison Stream} {α : Type} {h : Handle} {k : Kind}

/-- The condition holds, or alike runs may have any refusal in common. -/
def Allows (C : Comparison Stream) (valid : Prop) : Prop :=
  valid ∨ ∀ e : Error, e.isRefusal = true → C.fine e

theorem Allows.imp {valid valid' : Prop} (allows : C.Allows valid) (h : valid → valid') :
    C.Allows valid' := Or.imp_left h allows

theorem Allows.defect {v : k.Value} (allows : C.Allows (k.defect? v = none)) (d : Defect)
    (defect : k.defect? v = some d) : C.fine (.invalidArgument d) := by
  rcases allows with valid | fine
  · cases valid.symm.trans defect
  · exact fine _ rfl

theorem Allows.error {x : Except Error α} (allows : C.Allows (∃ a, x = .ok a))
    (refusal : ∀ e, x = .error e → e.isRefusal = true) (e : Error) (error : x = .error e) :
    C.fine e := by
  rcases allows with ⟨a, built⟩ | fine
  · cases built.symm.trans error
  · exact fine e (refusal e error)

/-- What a command needs of a comparison: its arguments are valid, or the refusals of arguments are
common to alike runs; if it writes a scalar to the stream itself, this follows the comparison; and if
it describes the stream, alike streams have one description. -/
structure Permits (C : Comparison Stream) (c : Command) : Prop where
  arguments : C.Allows c.IsValid
  value : ∀ v, c = .stream (.value v) → C.Follows (Stream.value v)
  description : c = .stream .describe → ∀ u l, C.alike u l → l.description = u.description

theorem Follows.doing {D : Comparison Session} {op : SessionM Unit} (follows : D.Follows op) :
    D.Follows (Session.doing op) := follows.bind fun _ => follows_pure _

/-- A reply that is read off anything but the stream. -/
theorem follows_look {f : Session → Reply} (common : ∀ s stream, f { s with stream } = f s) :
    C.session.Follows (look f) := by
  apply Follows.lookBeside
  · exact fun s => follows_pure _
  · intro s stream
    rw [common]

theorem follows_make (slot : String) (shape : Shape) (name : String) :
    C.session.Follows (make slot shape name) := by
  apply follows_modifySession
  · exact fun s => rfl
  · intro s stream
    cases shape <;> rfl

theorem follows_copy (slot : String) : C.session.Follows (copy h slot) := by
  apply follows_modifySession
  · exact fun s => rfl
  · intro s stream
    obtain ⟨address, shape⟩ := h
    cases shape <;> rfl

namespace Serves

variable (serves : C.Serves)
include serves

theorem write {e : k.Encoding} {b : Binding k} (allows : C.Allows b.IsValid) :
    (C.writing Property).Follows (Property.write k e b) := by
  cases b with
  | literal v => exact serves.writeLiteral allows.defect
  | samples s =>
      apply serves.writeSeries
      exact fun v mem => (allows.imp fun valid => valid v mem).defect
  | reference r => exact serves.writeReference fun _ unresolved => by cases unresolved

/-- Samples that are put together first. -/
theorem checkSeries {x : Except Error (TimeSeries k.Value)}
    (allows : C.Allows (∃ s, x = .ok s ∧ (Binding.samples s : Binding k).IsValid))
    (refusal : ∀ e, x = .error e → e.isRefusal = true) :
    (C.writing Property).Follows (do
      let s ← Writing.check x
      Property.writeSeries k k.standard s) := by
  cases built : x with
  | ok s =>
      apply serves.writeSeries
      intro v mem
      apply Allows.defect
      apply allows.imp
      rintro ⟨s', built', valid⟩
      obtain rfl := Except.ok.inj (built.symm.trans built')
      exact valid v mem
  | error e =>
      have stops : (do
          let s ← Writing.check (.error e)
          Property.writeSeries k k.standard s) = (throw e : PropertyM Unit) := rfl
      rw [stops]
      exact follows_throw ((allows.imp fun ⟨s, built, _⟩ => ⟨s, built⟩).error refusal e built)

theorem valueOp {kind : Kind} {c : ValueCommand} {op : PropertyM Unit}
    (found : valueOp? kind c = some op) (allows : C.Allows c.IsValid) :
    (C.writing Property).Follows op := by
  cases c with
  | write k e b =>
      obtain ⟨-, ⟨⟩⟩ := Option.ite_none_right_eq_some.mp found
      exact serves.write allows
  | samples k dates values =>
      obtain ⟨-, ⟨⟩⟩ := Option.ite_none_right_eq_some.mp found
      exact serves.checkSeries allows fun e => TimeSeries.isRefusal_of
  | window k dates values start length =>
      obtain ⟨-, ⟨⟩⟩ := Option.ite_none_right_eq_some.mp found
      exact serves.checkSeries allows fun e => TimeSeries.isRefusal_window
  | reference source =>
      obtain rfl := Option.some.inj found
      exact serves.writeReference (allows.error fun e => Reference.isRefusal_resolve)
  | resolved u resolver =>
      obtain ⟨-, ⟨⟩⟩ := Option.ite_none_right_eq_some.mp found
      exact serves.writeLiteral allows.defect
  | algorithm a =>
      obtain ⟨-, ⟨⟩⟩ := Option.ite_none_right_eq_some.mp found
      exact serves.scalarMember _ (by rfl)
  | degree n =>
      obtain ⟨-, ⟨⟩⟩ := Option.ite_none_right_eq_some.mp found
      have whole := serves.scalarMember "interpolationDegree" (v := .integer n) rfl
      refine .ite (fun zero => (follows_throw ?_).bind fun _ => whole) fun _ => whole
      rcases allows with valid | fine
      · exact absurd zero valid
      · exact fine _ rfl

theorem packetOp {c : PacketCommand} (allows : C.Allows c.IsValid) :
    (C.writing Packet).Follows (packetOp c) := by
  cases c with
  | id text =>
      apply serves.packet_writeId
      intro empty
      rcases allows with valid | fine
      · exact absurd empty valid
      · exact fine _ rfl
  | name | parent | version | delete | availability => exact serves.packet_member _ (by rfl)

end Serves

namespace Covers

variable (covers : C.Covers)
include covers

theorem onDocument {c : DocumentCommand} (d : Document) : C.session.Follows (onDocument d c) := by
  cases c with
  | openPacket => exact Follows.doing (covers.composes.openPacket d)
  | writeDocumentPacket name => exact Follows.doing (covers.writeDocumentPacket d name)
  | packetCount => exact follows_pure _
  | finish => exact Follows.doing covers.finishDocument

theorem onWriter {c : WriterCommand} : C.session.Follows (onWriter h c) := by
  cases c with
  | start => exact Follows.doing (covers.start h)
  | finish => exact Follows.doing (covers.finish h)
  | release => exact Follows.doing (covers.composes.release h)
  | state =>
      apply follows_look
      intro s stream
      obtain ⟨address, shape⟩ := h
      cases shape <;> rfl
  | touch => exact follows_pure _
  | copy slot => exact (follows_copy slot).doing

theorem onParent {c : ParentCommand} {call : SessionM Reply} (called : onParent? h c = some call)
    (allows : C.Allows c.IsValid) : C.session.Follows call := by
  cases c with
  | startChild name =>
      obtain ⟨⟨child, content⟩, -, ⟨⟩⟩ := Option.bind_eq_some_iff.mp called
      exact Follows.doing (covers.composes.startChild h child)
  | writeChild name k e b =>
      obtain ⟨⟨child, content⟩, -, made⟩ := Option.bind_eq_some_iff.mp called
      obtain ⟨-, ⟨⟩⟩ := Option.ite_none_right_eq_some.mp made
      apply Follows.doing
      exact covers.composes.writeChild h child (follows_onProperty (covers.write allows))
  | referChild name source =>
      obtain ⟨⟨child, content⟩, -, made⟩ := Option.bind_eq_some_iff.mp called
      cases content with
      | composite => cases made
      | value k =>
          obtain rfl := Option.some.inj made
          apply Follows.doing
          unfold referChild
          split
          next r resolved =>
            apply covers.composes.writeChild
            exact follows_onProperty (covers.write (.inl trivial))
          next e unresolved =>
            exact follows_throw (allows.error (fun e => Reference.isRefusal_resolve) e unresolved)
  | writeImage u resolver =>
      obtain ⟨-, made⟩ := Option.ite_none_right_eq_some.mp called
      obtain ⟨⟨child, content⟩, -, ⟨⟩⟩ := Option.bind_eq_some_iff.mp made
      exact Follows.doing
        (covers.composes.writeChild h child (follows_onProperty (covers.writeLiteral allows.defect)))

theorem onContent {c : PropertyCommand} (a : Address) (content : Content) :
    C.session.Follows (onContent a content c) := by
  cases c with
  | interval i => exact Follows.doing (follows_onProperty (covers.writeInterval i))
  | delete b =>
      exact Follows.doing (follows_onProperty (covers.scalarMember "delete" (v := .bool b) rfl))
  | forceObject force =>
      exact Follows.doing (follows_onProperty (follows_getOwn.bind fun _ => follows_setOwn _))
  | openScope => exact Follows.doing (follows_onProperty covers.openScope)
  | prepareChild => exact Follows.doing (follows_onProperty covers.property_prepareChild)
  | startIntervals list => exact Follows.doing (covers.startIntervals a content list)
  | describe => exact follows_look fun _ _ => rfl

theorem onIntervals {list : String} {l : IntervalList} {c : ListCommand} :
    C.session.Follows (onIntervals list l c) := by
  cases c with
  | start => exact Follows.doing (follows_onList covers.list_start)
  | startInterval => exact Follows.doing (covers.startInterval list l)
  | finish => exact Follows.doing (covers.finishList list l)
  | state => exact follows_pure _

theorem onOutput {s : Session} {c : StreamCommand} {call : SessionM Reply}
    (called : s.onOutput? c = some call) (permits : C.Permits (.stream c)) :
    C.session.Follows call := by
  have onStream {op : StreamM Unit} (follows : C.Follows op) :
      C.session.Follows (Session.doing (Session.onStream op)) :=
    Follows.doing (follows_onStream follows)
  have withToken {token : String} {op : Token → StreamM Unit} {call : SessionM Reply}
      (called : s.withToken? token op = some call) (follows : ∀ t, C.Follows (op t)) :
      C.session.Follows call := by
    obtain ⟨t, -, rfl⟩ := Option.map_eq_some_iff.mp called
    exact onStream (follows t)
  cases c with
  | startObject =>
      obtain rfl := Option.some.inj called
      exact onStream (covers.perform .startObject rfl)
  | endObject =>
      obtain rfl := Option.some.inj called
      exact onStream (covers.perform .endObject rfl)
  | startSequence =>
      obtain rfl := Option.some.inj called
      exact onStream (covers.perform .startSequence rfl)
  | endSequence =>
      obtain rfl := Option.some.inj called
      exact onStream (covers.perform .endSequence rfl)
  | name key =>
      obtain rfl := Option.some.inj called
      exact onStream (covers.perform (.name key) rfl)
  | value v =>
      obtain rfl := Option.some.inj called
      exact onStream (permits.value v rfl)
  | flush =>
      obtain rfl := Option.some.inj called
      exact onStream covers.flush
  | describe =>
      obtain rfl := Option.some.inj called
      apply Follows.look
      · exact fun s => follows_pure _
      · intro u l alike
        have same := permits.description rfl u.stream l.stream alike.1
        simp only [same]
  | beginWriter token =>
      obtain rfl := Option.some.inj called
      have kept (t : Token) : C.session.Follows
          (modify fun s => { s with tokens := s.tokens.put token t } : SessionM PUnit) :=
        follows_modifySession (fun _ => rfl) fun _ _ => rfl
      exact (follows_onStream covers.beginWriter).bind fun t =>
        (kept t).bind fun _ => follows_pure _
  | endWriter token => exact withToken called covers.endWriter
  | grantChild token => exact withToken called covers.grantChild
  | expectActive token => exact withToken called covers.expectActive
  | expectCanOpen =>
      obtain rfl := Option.some.inj called
      exact onStream covers.expectCanOpen
  | active =>
      obtain rfl := Option.some.inj called
      apply Follows.look
      · exact fun s => follows_pure _
      · rintro u l ⟨streams, same⟩
        have names : l.activeNames = u.activeNames := by
          rw [same, activeNames, activeNames, covers.active? streams]
        simp only [names]

/-- What a command calls compares as the streams do. -/
theorem operation {s : Session} {c : Command} {call : SessionM Reply}
    (called : s.operation? c = some call) (permits : C.Permits c) : C.session.Follows call := by
  cases c with
  | document c =>
      obtain ⟨d, -, rfl⟩ := Option.map_eq_some_iff.mp called
      exact covers.onDocument d
  | make slot shape name =>
      obtain rfl := Option.some.inj called
      exact (follows_make slot shape name).doing
  | writer a c =>
      obtain ⟨h, -, ⟨⟩⟩ := Option.bind_eq_some_iff.mp called
      exact covers.onWriter
  | parent a c =>
      obtain ⟨h, -, made⟩ := Option.bind_eq_some_iff.mp called
      exact covers.onParent made permits.arguments
  | packet a c =>
      obtain ⟨h, -, made⟩ := Option.bind_eq_some_iff.mp called
      obtain ⟨-, ⟨⟩⟩ := Option.ite_none_right_eq_some.mp made
      exact Follows.doing (follows_onPacket (covers.packetOp permits.arguments))
  | property a c =>
      obtain ⟨content, rfl⟩ := onContent_of_operation? called
      exact covers.onContent a content
  | value a c =>
      obtain ⟨k, op, found, rfl⟩ := valueOp?_of_operation? called
      exact Follows.doing (follows_onProperty (covers.valueOp found permits.arguments))
  | list list c =>
      obtain ⟨l, -, ⟨⟩⟩ := Option.bind_eq_some_iff.mp called
      exact covers.onIntervals
  | stream c => exact covers.onOutput called permits

/-! ## Steps and runs -/

/-- A command moves the stream as calls do. -/
theorem moves_step {c : Command} (permits : C.Permits c) (s : Session) :
    C.moves s.stream (s.step c).2.stream := by
  cases called : s.operation? c with
  | none =>
      rw [step_of_none called]
      exact C.moves_refl _
  | some call =>
      rw [behind_of_operation? called]
      exact (covers.operation called permits).moves s

theorem moves_run {cs : List Command} (permits : ∀ c ∈ cs, C.Permits c) (s : Session) :
    C.moves s.stream (s.run cs).stream := by
  induction cs generalizing s with
  | nil => exact C.moves_refl _
  | cons c cs ih =>
      obtain ⟨first, rest⟩ := List.forall_mem_cons.mp permits
      exact C.moves_trans _ _ _ (covers.moves_step first s) (ih rest (s.step c).2)

/-- Sessions with alike streams take a command alike, or their runs part. -/
theorem step {c : Command} (permits : C.Permits c) {u l : Session} (alike : C.session.alike u l) :
    ((l.step c).1 = (u.step c).1 ∧ C.session.alike (u.step c).2 (l.step c).2 ∧
      ∀ e, (u.step c).1 = .refused e → C.fine e) ∨
    C.session.parted (u.step c).2 (l.step c).2 := by
  have common : l.operation? c = u.operation? c := by
    rw [alike.2]
    exact operation?_stream u l.stream c
  cases called : u.operation? c with
  | none =>
      rw [step_of_none called, step_of_none (common.trans called)]
      exact .inl ⟨rfl, alike, fun _ refused => by cases refused⟩
  | some call =>
      have called' := common.trans called
      rcases (covers.operation called permits).runs u l alike with same | apart
      · left
        cases run : call u <;> cases run' : call l <;> rw [run, run'] at same <;> cases same
        next reply u' l' alike =>
          rw [step_of_ok called run, step_of_ok called' run']
          exact ⟨rfl, alike, fun _ refused => by cases refused⟩
        next e u' l' fine alike =>
          rw [step_of_error called run, step_of_error called' run']
          refine ⟨rfl, alike, ?_⟩
          rintro e' ⟨⟩
          exact fine
      · right
        rwa [behind_of_operation? called, behind_of_operation? called']

/-- Runs that have parted stay apart. -/
theorem parted_step {c : Command} (permits : C.Permits c) {u l : Session}
    (apart : C.session.parted u l) : C.session.parted (u.step c).2 (l.step c).2 :=
  C.parted_of_moves _ _ _ _ apart (covers.moves_step permits u) (covers.moves_step permits l)

theorem parted_run {cs : List Command} (permits : ∀ c ∈ cs, C.Permits c) {u l : Session}
    (apart : C.session.parted u l) : C.session.parted (u.run cs) (l.run cs) := by
  induction cs generalizing u l with
  | nil => exact apart
  | cons c cs ih =>
      obtain ⟨first, rest⟩ := List.forall_mem_cons.mp permits
      exact ih rest (covers.parted_step first apart)

/-- Two runs of the same commands have the same outcomes and leave alike streams, or have parted. -/
theorem run {cs : List Command} (permits : ∀ c ∈ cs, C.Permits c) {u l : Session}
    (alike : C.session.alike u l) :
    (l.outcomes cs = u.outcomes cs ∧ C.session.alike (u.run cs) (l.run cs) ∧
      ∀ e, .refused e ∈ u.outcomes cs → C.fine e) ∨
    C.session.parted (u.run cs) (l.run cs) := by
  induction cs generalizing u l with
  | nil => exact .inl ⟨rfl, alike, by simp [outcomes]⟩
  | cons c cs ih =>
      obtain ⟨first, rest⟩ := List.forall_mem_cons.mp permits
      rcases covers.step first alike with ⟨outcome, alike, fine⟩ | apart
      · apply (ih rest alike).imp_left
        rintro ⟨outcomes, alike, rest⟩
        refine ⟨?_, alike, ?_⟩
        · rw [Session.outcomes, Session.outcomes, outcome, outcomes]
        · intro e mem
          rcases List.mem_cons.mp mem with here | later
          · exact fine e here.symm
          · exact rest e later
      · exact .inr (covers.parted_run rest apart)

end Covers

end Comparison

end SceneStream
