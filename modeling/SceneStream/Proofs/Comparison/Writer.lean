import SceneStream.Proofs.Comparison.Basic
import SceneStream.Proofs.Writer.Finite
import SceneStream.Proofs.Writer.Lifecycle

/-!
# Comparing operations of writers

Writers do not look at the text of their stream. They make structural calls, take turns, and ask how
times are written; so a comparison that the calls follow, and that keeps the turns and the times, is
followed by every operation of a writer. A check of an argument gives the same result in both runs, and
what has passed its check is written in finite numbers only.
-/

namespace SceneStream

open Writing

namespace Comparison

variable {C : Comparison Stream} {ω α : Type}

/-- The comparison of writers at their streams: the writers are equal while the streams are alike. -/
def writing (C : Comparison Stream) (ω : Type) : Comparison (Writing ω) where
  moves w w' := C.moves w.stream w'.stream
  alike w w' := C.alike w.stream w'.stream ∧ w'.own = w.own
  parted w w' := C.parted w.stream w'.stream
  fine := C.fine
  moves_refl w := C.moves_refl w.stream
  moves_trans _ _ _ := C.moves_trans _ _ _
  parted_of_moves _ _ _ _ := C.parted_of_moves _ _ _ _
  fine_misuse := C.fine_misuse

theorem behind_onStream (op : StreamM α) (w : Writing ω) :
    behind (onStream op) w = { w with stream := behind op w.stream } := by
  unfold behind onStream
  cases op w.stream <;> rfl

theorem Follows.onStream {op : StreamM α} (h : C.Follows op) :
    (C.writing ω).Follows (onStream op) where
  moves w := by
    rw [behind_onStream]
    exact h.moves w.stream
  runs u l alike := by
    rw [behind_onStream, behind_onStream]
    apply (h.runs u.stream l.stream alike.1).imp_left
    intro same
    unfold Writing.onStream
    cases run : op u.stream <;> cases run' : op l.stream <;> rw [run, run'] at same <;> cases same
    next a u' l' alike' => exact .ok a ⟨alike', alike.2⟩
    next e u' l' fine alike' => exact .error fine ⟨alike', alike.2⟩

theorem follows_getOwn : (C.writing ω).Follows getOwn where
  moves w := C.moves_refl w.stream
  runs u l alike := by
    rw [getOwn_apply, getOwn_apply, alike.2]
    exact .inl (.ok u.own alike)

theorem follows_setOwn (own : ω) : (C.writing ω).Follows (setOwn own) :=
  follows_modify (fun w => C.moves_refl w.stream) fun _ _ alike => ⟨alike.1, rfl⟩

theorem follows_check {x : Except Error α} (fine : ∀ e, x = .error e → C.fine e) :
    (C.writing ω).Follows (check x) := by
  cases x with
  | ok a => exact follows_pure a
  | error e => exact follows_throw (fine e rfl)

theorem follows_packetOpening : (C.writing Packet).Follows Packet.opening := by
  apply follows_getOwn.bind
  intro p
  cases p.token with
  | none => exact follows_refuse _
  | some t => exact follows_pure t

theorem follows_propertyOpening : (C.writing Property).Follows Property.opening := by
  apply follows_getOwn.bind
  intro p
  cases p.token with
  | none => exact follows_refuse _
  | some t => exact follows_pure t

theorem Follows.note {op : PropertyM Unit} (h : (C.writing Property).Follows op)
    (f : Property → Property) :
    (C.writing Property).Follows (do op; setOwn (f (← getOwn))) :=
  h.bind fun _ => follows_getOwn.bind fun _ => follows_setOwn _

/-- An operation on a value that was checked. -/
theorem Follows.afterCheck {k : Kind} {v : k.Value} {op : PropertyM Unit}
    (fine : ∀ d, k.defect? v = some d → C.fine (.invalidArgument d))
    (next : k.defect? v = none → (C.writing Property).Follows op) :
    (C.writing Property).Follows (do check (k.check v); op) := by
  cases defect : k.defect? v with
  | none =>
      have passed : k.check v = .ok () := by simp [Kind.check, defect]
      rw [passed]
      exact (follows_pure ()).bind fun _ => next defect
  | some d =>
      have failed : k.check v = .error (.invalidArgument d) := by simp [Kind.check, defect]
      have stops : (do check (k.check v); op) = (throw (.invalidArgument d) : PropertyM Unit) := by
        rw [failed]
        rfl
      rw [stops]
      exact follows_throw (fine d defect)

/-- An operation on several values that were checked. -/
theorem Follows.afterChecks {k : Kind} {vs : List k.Value} {op : PropertyM Unit}
    (fine : ∀ v ∈ vs, ∀ d, k.defect? v = some d → C.fine (.invalidArgument d))
    (next : (∀ v ∈ vs, k.defect? v = none) → (C.writing Property).Follows op) :
    (C.writing Property).Follows (do vs.forM fun v => check (k.check v); op) := by
  induction vs with
  | nil => exact next fun v mem => absurd mem List.not_mem_nil
  | cons v vs ih =>
      obtain ⟨first, rest⟩ := List.forall_mem_cons.mp fine
      have checked := Follows.afterCheck first fun valid =>
        ih rest fun others => next (List.forall_mem_cons.mpr ⟨valid, others⟩)
      rwa [← bind_assoc] at checked

theorem follows_expectNoValue : (C.writing Property).Follows Property.expectNoValue := by
  apply follows_getOwn.bind
  intro p
  have second : (C.writing Property).Follows
      (if p.valueWritten = true then refuse (.secondValue p.name) else pure () : PropertyM Unit) :=
    .ite (fun _ => follows_refuse _) fun _ => follows_pure ()
  exact .ite (fun _ => (follows_refuse _).bind fun _ => second) fun _ => second

/-- What writes need of a comparison: the structural calls with finite numbers follow it, and alike
streams agree on whose turn it is and on times. -/
structure Serves (C : Comparison Stream) : Prop where
  perform : ∀ c : Call, c.isFinite = true → C.Follows (Stream.perform c)
  writers : ∀ u l, C.alike u l → l.writers = u.writers
  epochs : ∀ u l, C.alike u l → l.settings.sampleEpoch = u.settings.sampleEpoch

/-- What the operations of writers need of a comparison, opening and closing among them: streams stay
alike when both change the turns. -/
structure Covers (C : Comparison Stream) : Prop extends Serves C where
  flush : C.Follows Stream.flush
  grant : ∀ u l, C.alike u l → l.grant = u.grant
  nextToken : ∀ u l, C.alike u l → l.nextToken = u.nextToken
  moves_turns : ∀ (s : Stream) (writers : List Token) (grant : Option Token) (nextToken : Token),
    C.moves s { s with writers, grant, nextToken }
  alike_turns : ∀ u l, C.alike u l → ∀ (writers : List Token) (grant : Option Token)
    (nextToken : Token), C.alike { u with writers, grant, nextToken }
      { l with writers, grant, nextToken }

/-! ## Writes -/

namespace Serves

variable (serves : C.Serves)
include serves

theorem active? {u l : Stream} (alike : C.alike u l) : l.active? = u.active? := by
  rw [Stream.active?, Stream.active?, serves.writers u l alike]

theorem expectActive (t : Token) : C.Follows (Stream.expectActive t) := by
  apply Follows.look
  · intro s
    cases s.active? with
    | none => exact follows_refuse _
    | some active =>
        simp only
        split
        · exact follows_pure _
        · exact follows_refuse _
  · intro u l alike
    rw [serves.active? alike]

theorem value {v : Scalar} (finite : v.isFinite = true) : C.Follows (Stream.value v) :=
  serves.perform (.value v) finite

theorem member (key : String) {v : Scalar} (finite : v.isFinite = true) :
    C.Follows (Stream.member key v) :=
  (serves.perform (.name key) rfl).bind fun _ => serves.value finite

theorem values {vs : List Scalar} (finite : ∀ v ∈ vs, v.isFinite = true) :
    C.Follows (Stream.values vs) :=
  Follows.forM fun v mem => serves.value (finite v mem)

theorem literal {k : Kind} (e : k.Encoding) {v : k.Value} (valid : k.defect? v = none) :
    C.Follows (Stream.literal k e v) := by
  have values := serves.values (Kind.isFinite_components valid e)
  unfold Stream.literal
  split
  · exact values
  · exact (serves.perform .startSequence rfl).bind fun _ =>
      values.bind fun _ => serves.perform .endSequence rfl

theorem samples {k : Kind} (e : k.Encoding) (epoch : Option Instant) {s : TimeSeries k.Value}
    (valid : ∀ v ∈ s.values, k.defect? v = none) : C.Follows (Stream.samples k e epoch s) := by
  apply (serves.perform .startSequence rfl).bind
  intro _
  refine (Follows.forM fun sample mem => ?_).bind fun _ => serves.perform .endSequence rfl
  have components := Kind.isFinite_components (valid sample.2 (List.of_mem_zip mem).2) e
  exact (serves.value (Stream.isFinite_timeScalar epoch sample.1)).bind fun _ =>
    serves.values components

theorem packet_member (key : String) {v : Scalar} (finite : v.isFinite = true) :
    (C.writing Packet).Follows (Packet.member key v) := by
  apply follows_packetOpening.bind
  intro t
  exact Follows.onStream ((serves.expectActive t).bind fun _ => serves.member key finite)

theorem packet_writeId {id : String} (fine : id = "" → C.fine (.invalidArgument .emptyPacketId)) :
    (C.writing Packet).Follows (Packet.writeId id) := by
  have whole := serves.packet_member "id" (v := .text id) rfl
  exact .ite (fun empty => (follows_throw (by exact fine empty)).bind fun _ => whole) fun _ => whole

theorem whileActive {op : StreamM α} (h : C.Follows op) :
    (C.writing Property).Follows (Property.whileActive op) :=
  follows_propertyOpening.bind fun t => Follows.onStream ((serves.expectActive t).bind fun _ => h)

theorem openScope : (C.writing Property).Follows Property.openScope := by
  apply follows_getOwn.bind
  intro p
  refine (serves.whileActive ?_).bind fun _ => follows_setOwn _
  cases p.scope with
  | unopened => exact serves.perform .startObject rfl
  | object => exact follows_pure ()
  | bare | intervals => exact follows_refuse _

theorem bare {op : StreamM Unit} (h : C.Follows op) :
    (C.writing Property).Follows (Property.bare op) := Follows.note (serves.whileActive h) _

theorem property_member (key : String) {op : StreamM Unit} (h : C.Follows op) :
    (C.writing Property).Follows (Property.member key op) :=
  serves.openScope.bind fun _ =>
    serves.whileActive ((serves.perform (.name key) rfl).bind fun _ => h)

theorem scalarMember (key : String) {v : Scalar} (finite : v.isFinite = true) :
    (C.writing Property).Follows (Property.member key (Stream.value v)) :=
  serves.property_member key (serves.value finite)

theorem writeInterval (i : Interval) : (C.writing Property).Follows (Property.writeInterval i) := by
  have whole := Follows.note (serves.scalarMember "interval" (v := .text i.text) rfl)
    fun p => { p with intervalWritten := true }
  apply follows_getOwn.bind
  intro p
  exact .ite (fun _ => (follows_refuse _).bind fun _ => whole) fun _ => whole

section

variable {k : Kind}

theorem writeLiteral {e : k.Encoding} {v : k.Value}
    (fine : ∀ d, k.defect? v = some d → C.fine (.invalidArgument d)) :
    (C.writing Property).Follows (Property.writeLiteral k e v) := by
  apply follows_expectNoValue.bind
  intro _
  apply Follows.afterCheck fine
  intro valid
  apply follows_getOwn.bind
  intro p
  have written := serves.literal e valid
  split
  · exact Follows.note (serves.bare written) _
  · exact Follows.note (serves.property_member (k.key e) written) _

theorem writeSeries {e : k.Encoding} {s : TimeSeries k.Value}
    (fine : ∀ v ∈ s.values, ∀ d, k.defect? v = some d → C.fine (.invalidArgument d)) :
    (C.writing Property).Follows (Property.writeSeries k e s) := by
  apply follows_expectNoValue.bind
  intro _
  apply Follows.afterChecks fine
  intro valid
  have written (epoch : Option Instant) : (C.writing Property).Follows (do
      Property.member (k.key e) (Stream.samples k e epoch s)
      Property.noteValue : PropertyM Unit) :=
    Follows.note (serves.property_member (k.key e) (serves.samples e epoch valid))
      fun p => { p with valueWritten := true }
  apply Follows.look
  · intro w
    dsimp only
    cases s.firstDate?.bind w.stream.settings.sampleEpoch with
    | some epoch =>
        exact (serves.scalarMember "epoch" (by rfl)).bind fun _ => written (some epoch)
    | none => exact written none
  · intro u l alike
    have epochs := serves.epochs u.stream l.stream alike.1
    simp only [epochs]

theorem writeReference {source : Reference.Source}
    (fine : ∀ e, source.resolve = .error e → C.fine e) :
    (C.writing Property).Follows (Property.writeReference source) := by
  apply follows_expectNoValue.bind
  intro _
  apply (follows_check fine).bind
  intro r
  exact Follows.note (serves.scalarMember "reference" (v := .text r.text) rfl) _

end

end Serves

/-! ## Opening and closing -/

namespace Covers

variable (covers : C.Covers)
include covers

theorem expectCanOpen : C.Follows Stream.expectCanOpen := by
  apply Follows.look
  · intro s
    cases s.active? with
    | none => exact follows_pure _
    | some active =>
        simp only
        split
        · exact follows_pure _
        · exact follows_refuse _
  · intro u l alike
    rw [covers.active? alike, covers.grant u l alike]

theorem grantChild (t : Token) : C.Follows (Stream.grantChild t) := by
  apply (covers.expectActive t).bind
  intro _
  apply follows_modify
  · exact fun s => covers.moves_turns s s.writers (some t) s.nextToken
  · intro u l alike
    have turns := covers.alike_turns u l alike u.writers (some t) u.nextToken
    simpa only [covers.writers u l alike, covers.nextToken u l alike] using turns

theorem endWriter (t : Token) : C.Follows (Stream.endWriter t) := by
  apply (covers.expectActive t).bind
  intro _
  apply follows_modify
  · exact fun s => covers.moves_turns s s.writers.tail none s.nextToken
  · intro u l alike
    have turns := covers.alike_turns u l alike u.writers.tail none u.nextToken
    simpa only [covers.writers u l alike, covers.nextToken u l alike] using turns

theorem beginWriter : C.Follows Stream.beginWriter := by
  apply covers.expectCanOpen.bind
  intro _
  apply follows_modifyGet
  · exact fun s => covers.moves_turns s (s.nextToken :: s.writers) none (s.nextToken + 1)
  · intro u l alike
    have turns := covers.alike_turns u l alike (u.nextToken :: u.writers) none (u.nextToken + 1)
    refine ⟨(covers.nextToken u l alike).symm, ?_⟩
    simpa only [covers.writers u l alike, covers.nextToken u l alike] using turns

theorem packet_start : (C.writing Packet).Follows Packet.start := by
  have whole : (C.writing Packet).Follows (do
      let t ← onStream do
        Stream.expectCanOpen
        Stream.startObject
        Stream.beginWriter
      setOwn { token := some t } : PacketM Unit) :=
    (Follows.onStream (covers.expectCanOpen.bind fun _ =>
      (covers.perform .startObject rfl).bind fun _ => covers.beginWriter)).bind
        fun _ => follows_setOwn _
  apply follows_getOwn.bind
  intro p
  exact .ite (fun _ => (follows_refuse _).bind fun _ => whole) fun _ => whole

theorem packet_finish : (C.writing Packet).Follows Packet.finish := by
  apply follows_packetOpening.bind
  intro t
  exact (Follows.onStream ((covers.expectActive t).bind fun _ =>
    (covers.perform .endObject rfl).bind fun _ => covers.endWriter t)).bind fun _ => follows_setOwn _

theorem packet_prepareChild : (C.writing Packet).Follows Packet.prepareChild :=
  follows_packetOpening.bind fun t => Follows.onStream (covers.grantChild t)

theorem property_start : (C.writing Property).Follows Property.start := by
  apply follows_getOwn.bind
  intro p
  refine .ite (fun _ => (follows_refuse _).bind fun _ => ?_) fun _ => ?_
  -- Refused or not, the rest is one and the same.
  all_goals
    refine (Follows.onStream (covers.expectCanOpen.bind fun _ => ?_)).bind fun _ => follows_setOwn _
    cases p.role with
    | member => exact (covers.perform (.name p.name) rfl).bind fun _ => covers.beginWriter
    | element => exact (covers.perform .startObject rfl).bind fun _ => covers.beginWriter

theorem complete (scope : Property.Scope) : C.Follows (Property.complete scope) := by
  cases scope with
  | unopened => exact (covers.perform .startObject rfl).bind fun _ => covers.perform .endObject rfl
  | object => exact covers.perform .endObject rfl
  | bare | intervals => exact follows_pure ()

theorem property_finish : (C.writing Property).Follows Property.finish := by
  apply follows_getOwn.bind
  intro p
  apply follows_propertyOpening.bind
  intro t
  exact (Follows.onStream ((covers.expectActive t).bind fun _ =>
    (covers.complete p.scope).bind fun _ => covers.endWriter t)).bind fun _ => follows_setOwn _

theorem property_prepareChild : (C.writing Property).Follows Property.prepareChild :=
  covers.openScope.bind fun _ =>
    follows_propertyOpening.bind fun t => Follows.onStream (covers.grantChild t)

theorem prepareIntervals : (C.writing Property).Follows Property.prepareIntervals := by
  apply follows_getOwn.bind
  intro p
  apply follows_propertyOpening.bind
  intro t
  apply (Follows.onStream (covers.expectActive t)).bind
  intro _
  split
  · exact (follows_refuse _).bind fun _ => Follows.onStream (covers.grantChild t)
  · exact Follows.onStream (covers.grantChild t)

theorem activeOpening : (C.writing IntervalList).Follows IntervalList.activeOpening := by
  apply follows_getOwn.bind
  intro l
  cases l.token with
  | none => exact follows_refuse _
  | some t => exact (Follows.onStream (covers.expectActive t)).bind fun _ => follows_pure t

theorem list_start : (C.writing IntervalList).Follows IntervalList.start := by
  apply follows_getOwn.bind
  intro l
  have whole : (C.writing IntervalList).Follows (do
      let t ← onStream do
        Stream.expectCanOpen
        Stream.startSequence
        Stream.beginWriter
      setOwn { l with token := some t } : IntervalListM Unit) :=
    (Follows.onStream (covers.expectCanOpen.bind fun _ =>
      (covers.perform .startSequence rfl).bind fun _ => covers.beginWriter)).bind
        fun _ => follows_setOwn _
  exact .ite (fun _ => (follows_refuse _).bind fun _ => whole) fun _ => whole

theorem prepareInterval (currentIsOpen : Bool) :
    (C.writing IntervalList).Follows (IntervalList.prepareInterval currentIsOpen) := by
  have whole : (C.writing IntervalList).Follows
      (do onStream (Stream.grantChild (← IntervalList.activeOpening)) : IntervalListM Unit) :=
    covers.activeOpening.bind fun t => Follows.onStream (covers.grantChild t)
  apply follows_getOwn.bind
  intro l
  exact .ite (fun _ => (follows_refuse _).bind fun _ => whole) fun _ => whole

theorem list_finish (currentIsOpen : Bool) :
    (C.writing IntervalList).Follows (IntervalList.finish currentIsOpen) := by
  apply follows_getOwn.bind
  intro l
  have whole : (C.writing IntervalList).Follows (do
      let t ← IntervalList.activeOpening
      onStream do
        Stream.endSequence
        Stream.endWriter t
      setOwn { l with token := none, hasCurrent := false } : IntervalListM Unit) :=
    covers.activeOpening.bind fun t =>
      (Follows.onStream ((covers.perform .endSequence rfl).bind fun _ => covers.endWriter t)).bind
        fun _ => follows_setOwn _
  exact .ite (fun _ => (follows_refuse _).bind fun _ => whole) fun _ => whole

end Covers

end Comparison

end SceneStream
