import SceneStream.Proofs.Session.Advance
import SceneStream.Proofs.Session.Openings
import SceneStream.Proofs.Session.Refusal
import SceneStream.Proofs.Structure.RoundTrip

/-!
# The packet that names the document

The packet that names the document is written once: the document counts the packets that it opens
itself, and none of these may come before. Writers that a program opens on the output of the document
are not counted. So the packet is the first item of the array if no such writer was opened before, and
else it stands behind what these have written.
-/

namespace SceneStream

/-- The packet that names the document and its version. -/
def Tree.documentPacket (name : String) : Tree :=
  .object [("id", .scalar (.text "document")), ("name", .scalar (.text name)),
    ("version", .scalar (.text Document.version))]

/-- Whether the command opens a writer that belongs into no other, and is not the document's own. -/
def Command.opensAlone : Command → Bool
  | .writer _ .start | .list _ .start => true
  | _ => false

namespace Session

variable {s s' s₀ : Session} {settings : Settings} {c : Command} {cs before : List Command}
  {d : Document} {name : String} {o : Outline} {q : Place}

/-! ## Once -/

/-- Whether the document, as long as it is there, has opened a packet. -/
def IsLate (s : Session) : Prop := ∀ d, s.document = some d → 0 < d.packets

theorem isLate_of_none (ended : s.document = none) : s.IsLate := by
  intro d kept
  cases ended.symm.trans kept

theorem isLate_of_some {n : Nat} (counted : s.document = some ⟨n + 1⟩) : s.IsLate := by
  intro d kept
  obtain rfl := Option.some.inj (counted.symm.trans kept)
  exact Nat.succ_pos n

/-- The packets of a document are counted and never taken back. -/
theorem IsLate.step (late : s.IsLate) (c : Command) : (s.step c).2.IsLate := by
  rcases (s.touches_step c).document with same | made
  · intro d kept
    exact late d (same.symm.trans kept)
  · unfold documents at made
    split at made
    · obtain ⟨n, counted⟩ := made
      exact isLate_of_some counted
    · obtain ⟨n, counted⟩ := made
      exact isLate_of_some counted
    · exact isLate_of_none made
    · exact made.elim

theorem IsLate.run (late : s.IsLate) (cs : List Command) : (s.run cs).IsLate := by
  induction cs generalizing s with
  | nil => exact late
  | cons c cs ih => exact ih (late.step c)

theorem isLate_of_openPacket (run : openPacket d s = .ok () s') : s'.IsLate := by
  obtain ⟨_, s₁, -, counted⟩ := ok_of_bind run
  obtain rfl := (EStateM.Result.ok.inj counted).2
  exact isLate_of_some rfl

/-- Where the packet is written, no packet was counted before, and then one is. -/
theorem isLate_of_writeDocumentPacket (run : writeDocumentPacket d name s = .ok () s') :
    d.packets = 0 ∧ s'.IsLate := by
  unfold writeDocumentPacket at run
  split at run
  · cases run
  next first =>
    obtain ⟨_, s₁, opened, written⟩ := ok_of_bind run
    have moved : Touches (fun _ => True) (fun _ => False) s₁ s' :=
      (touches_closing (h := documentPacket) trivial (touches_onPacket trivial _)).of_ok written
    refine ⟨Nat.eq_zero_of_not_pos first, ?_⟩
    intro d kept
    exact isLate_of_openPacket opened d ((moved.document.resolve_right id).symm.trans kept)

theorem isLate_of_finishDocument (run : finishDocument s = .ok () s') : s'.IsLate := by
  obtain ⟨_, s₁, ended, rest⟩ := ok_of_bind run
  obtain rfl := (EStateM.Result.ok.inj ended).2
  have kept := (touches_onStream (P := fun _ => True) (D := fun _ => False) _).of_ok rest
  exact isLate_of_none (kept.document.resolve_right id)

/-- Once the document has done anything but say how many packets there are, a packet was counted or
the document is gone. -/
theorem isLate_of_answers {c : DocumentCommand} (counts : c ≠ .packetCount)
    (answered : s.answers (.document c) = true) : (s.step (.document c)).2.IsLate := by
  obtain ⟨call, reply, called, run⟩ := run_of_answers answered
  obtain ⟨d, -, rfl⟩ := Option.map_eq_some_iff.mp called
  cases c with
  | openPacket => exact isLate_of_openPacket (ok_of_doing run)
  | writeDocumentPacket => exact (isLate_of_writeDocumentPacket (ok_of_doing run)).2
  | finish => exact isLate_of_finishDocument (ok_of_doing run)
  | packetCount => exact absurd rfl counts

theorem IsLate.not_answers (late : s.IsLate) (name : String) :
    s.answers (.document (.writeDocumentPacket name)) = false := by
  rw [Bool.eq_false_iff]
  intro answered
  obtain ⟨call, reply, called, run⟩ := run_of_answers answered
  obtain ⟨d, kept, rfl⟩ := Option.map_eq_some_iff.mp called
  have first := (isLate_of_writeDocumentPacket (ok_of_doing run)).1
  exact absurd (late d kept) (by omega)

/-! ## First -/

/-- In a session that has described nothing yet, no writer is open. -/
theorem Stands.away (stands : s.Stands {}) (q : Place) : ¬ s.HasTurn q := by
  obtain ⟨-, roll, tells⟩ := stands
  obtain rfl : roll = [] := List.map_eq_nil_iff.mp tells.standings
  rintro ⟨t, -, active⟩
  rw [Stream.active?, tells.registers.writers] at active
  cases active

theorem described_eq_nil (nothing : s.answers c = true → s.deeds c = []) (whole : s.remnants c = []) :
    s.described c = [] := by
  unfold described
  split
  next reply answered => exact nothing (by rw [answers, answered])
  next => exact whole
  next => rfl

/-- An operation of a writer out of turn describes nothing. -/
theorem described_of_away (named : s.writerOf? c = some q) (away : ¬ s.HasTurn q) :
    s.described c = [] := by
  have unanswered := (declines_of_away named away).not_answers
  apply described_eq_nil
  · intro answered
    cases unanswered.symm.trans answered
  · cases c with
    | parent a p =>
        have closed : s.answers (.parent a (.startChild p.child)) = false :=
          (declines_of_away (c := .parent a (.startChild p.child)) named away).not_answers
        simp [remnants, opensChild, closed]
    | document | make | writer | packet | property | value | list | stream => rfl

/-- As long as nothing is described, only a packet of the document and a writer on its output have
anything to describe. -/
theorem Stands.described_of_empty (stands : s.Stands {}) (writing : c.isWriting = true)
    (unopened : c.opensAlone = true → s.answers c = false) :
    s.described c = [] ∨ (s.step c).2.IsLate := by
  have away {c : Command} {q : Place} (named : s.writerOf? c = some q) : s.described c = [] :=
    described_of_away named (stands.away q)
  have closed (opens : c.opensAlone = true) (whole : s.remnants c = []) : s.described c = [] := by
    apply described_eq_nil _ whole
    intro answered
    cases (unopened opens).symm.trans answered
  cases c with
  | document c =>
      by_cases counts : c = .packetCount
      · obtain rfl := counts
        exact .inl (described_eq_nil (fun _ => rfl) rfl)
      · by_cases answered : s.answers (.document c) = true
        · exact .inr (isLate_of_answers counts answered)
        · exact .inl (described_eq_nil (fun yes => absurd yes answered) rfl)
  | make => exact .inl (described_eq_nil (fun _ => rfl) rfl)
  | writer a c =>
      left
      cases c with
      | start => exact closed rfl rfl
      | finish => exact away rfl
      | release =>
          have unanswered : s.answers (.writer a .finish) = false :=
            (declines_of_away (c := .writer a .finish) rfl (stands.away _)).not_answers
          exact described_eq_nil (fun _ => by simp [deeds, unanswered]) rfl
      | state | touch | copy => exact described_eq_nil (fun _ => rfl) rfl
  | parent | packet | value => exact .inl (away rfl)
  | property a c =>
      left
      cases c with
      | interval | delete | openScope | startIntervals => exact away rfl
      | forceObject | describe => exact described_eq_nil (fun _ => rfl) rfl
      | prepareChild => cases writing
  | list list c =>
      left
      cases c with
      | start => exact closed rfl rfl
      | startInterval | finish => exact away rfl
      | state => exact described_eq_nil (fun _ => rfl) rfl
  | stream => exact .inl (described_eq_nil (fun _ => rfl) rfl)

/-- Without a writer on the output of the document, nothing is described before the first packet. -/
theorem Stands.describe_of_unopened (stands : s.Stands {}) (writing : ∀ c ∈ cs, c.isWriting = true)
    (unopened : ∀ earlier c, earlier ++ [c] <+: cs → c.opensAlone = true →
      (s.run earlier).answers c = false) :
    s.describe {} cs = {} ∨ (s.run cs).IsLate := by
  induction cs generalizing s with
  | nil => exact .inl rfl
  | cons c cs ih =>
      obtain ⟨first, rest⟩ := List.forall_mem_cons.mp writing
      have here := unopened [] c (by simp)
      have later (earlier : List Command) (c' : Command) (before : earlier ++ [c'] <+: cs) :=
        unopened (c :: earlier) c' (List.cons_prefix_cons.mpr ⟨rfl, before⟩)
      rcases stands.described_of_empty first here with nothing | late
      · have stands' := stands.step first
        rw [nothing] at stands'
        rw [describe, nothing]
        exact ih stands' rest later
      · exact .inr (late.run cs)

/-! ## Where the packet stands -/

/-- Behind the packet, the outline has one item more. -/
theorem items_afterAll_documentPacket (s : Session) (name : String) (parts : o.parts = []) :
    (o.afterAll (s.deeds (.document (.writeDocumentPacket name)))).items =
        o.items ++ [.documentPacket name] ∧
      (o.afterAll (s.deeds (.document (.writeDocumentPacket name)))).parts = [] := by
  obtain ⟨items, _, finished, alone⟩ := o
  obtain rfl : _ = [] := parts
  exact ⟨rfl, rfl⟩

/-- The packet follows the items that were closed before, and stays there. -/
theorem Stands.items_of_documentPacket (stands : s.Stands o) (document : o.alone = false)
    (answered : s.answers (.document (.writeDocumentPacket name)) = true) {after : List Command}
    {v : Json}
    (parsed : Json.parse? ((s.step (.document (.writeDocumentPacket name))).2.run
      after).stream.sink.contents = some v) :
    ∃ rest, v = (Tree.array (o.items ++ .documentPacket name :: rest)).json := by
  have closed : s.stream.writers = [] :=
    stands.allowsOpening (c := .document (.writeDocumentPacket name)) rfl (.inl answered)
  have stands' := stands.step (c := .document (.writeDocumentPacket name)) rfl
  have described : s.described (.document (.writeDocumentPacket name)) =
      s.deeds (.document (.writeDocumentPacket name)) := by
    obtain ⟨reply, step⟩ := answered_of_answers answered
    rw [Session.described, step]
  obtain ⟨-, roll, tells⟩ := stands
  rw [tells.registers.writers, List.map_eq_nil_iff] at closed
  obtain rfl := closed
  obtain ⟨items, parts⟩ := items_afterAll_documentPacket s name tells.parts_eq_nil
  have alone := Outline.alone_afterAll o (s.deeds (.document (.writeDocumentPacket name)))
  rw [described] at stands'
  generalize o.afterAll (s.deeds (.document (.writeDocumentPacket name))) = o' at *
  obtain ⟨-, roll', tells'⟩ := stands'
  have anyCall : ∀ c : Call, c.isFinite = true → True := fun _ _ => trivial
  have own (v : Scalar) (_ : Command.stream (.value v) ∈ after) : True := trivial
  obtain ⟨calls, e, -, accepted, shown⟩ := advances_run anyCall own _ _ tells'.shows
  obtain ⟨t, rfl, rfl⟩ := Stream.complete_of_parse? shown parsed
  have made := Draft.calls_acceptAll accepted
  rw [Draft.calls_acceptAll tells'.sound.acceptAll_calls] at made
  simp only [Draft.calls, Outline.calls, alone, document, items, parts, List.nil_append,
    List.cons_append, List.append_assoc, Bool.false_eq_true, if_false] at made
  obtain ⟨items', rfl, more⟩ := Tree.array_of_calls made
  obtain ⟨rest, rfl⟩ := Tree.eq_append_of_itemCalls more.symm
  refine ⟨rest, ?_⟩
  rw [List.append_assoc, List.singleton_append]

/-- What is known of a document whose packet was written behind these commands. -/
structure NamesDocument (s₀ : Session) (before : List Command) (name : String) : Prop where
  /-- No such packet is written again. -/
  once : ∀ after name', (s₀.run (before ++ .document (.writeDocumentPacket name) :: after)).answers
    (.document (.writeDocumentPacket name')) = false
  /-- After commands of writers and of the document, the packet follows the items of theirs that were
  closed, whatever comes after it. -/
  place : (∀ c ∈ before, c.isWriting = true) → ∀ after v,
    Json.parse? (s₀.run (before ++
      .document (.writeDocumentPacket name) :: after)).stream.sink.contents = some v →
    ∃ rest, v =
      (Tree.array ((s₀.describe {} before).items ++ .documentPacket name :: rest)).json
  /-- It is the first item of all unless a writer was opened on the output of the document. -/
  first : (∀ c ∈ before, c.isWriting = true) →
    (∀ earlier c, earlier ++ [c] <+: before → c.opensAlone = true →
      (s₀.run earlier).answers c = false) → ∀ after v,
    Json.parse? (s₀.run (before ++
      .document (.writeDocumentPacket name) :: after)).stream.sink.contents = some v →
    ∃ rest, v = (Tree.array (.documentPacket name :: rest)).json

/-- The packet that names a document is written at most once. It is the first item if no writer was
opened on the output of the document before, and else it stands behind what such writers wrote. -/
theorem namesDocument_of_answers (made : ofDocument {} settings = .ok s₀)
    (answered : (s₀.run before).answers (.document (.writeDocumentPacket name)) = true) :
    NamesDocument s₀ before name := by
  have run (after : List Command) :
      s₀.run (before ++ .document (.writeDocumentPacket name) :: after) =
        ((s₀.run before).step (.document (.writeDocumentPacket name))).2.run after :=
    List.foldl_append
  have place (writing : ∀ c ∈ before, c.isWriting = true) (after : List Command) (v : Json)
      (parsed : Json.parse? (s₀.run (before ++
        .document (.writeDocumentPacket name) :: after)).stream.sink.contents = some v) :
      ∃ rest, v = (Tree.array
        ((s₀.describe {} before).items ++ .documentPacket name :: rest)).json := by
    rw [run] at parsed
    exact ((stands_ofDocument made).run writing).items_of_documentPacket (alone_describe _ _ _)
      answered parsed
  refine ⟨fun after name' => ?_, place, fun writing unopened after v parsed => ?_⟩
  · rw [run]
    exact ((isLate_of_answers (by simp) answered).run after).not_answers name'
  · rcases (stands_ofDocument made).describe_of_unopened writing unopened with nothing | late
    · obtain ⟨rest, whole⟩ := place writing after v parsed
      rw [nothing] at whole
      exact ⟨rest, whole⟩
    · cases (late.not_answers name).symm.trans answered

/-- A writer that was made and not opened takes no place in front of the packet. -/
theorem namesDocument_of_make :
    ofDocument {} {} = .ok (newDocument {}) ∧
      ((newDocument {}).run [.make "slot" .packet ""]).answers
        (.document (.writeDocumentPacket "scene")) = true ∧
      NamesDocument (newDocument {}) [.make "slot" .packet ""] "scene" :=
  ⟨ofDocument_eq {}, by decide +kernel,
    namesDocument_of_answers (ofDocument_eq {}) (by decide +kernel)⟩

/-- A packet of the program's own, opened and closed on the output of a document before its own. -/
def foreignPacket : List Command :=
  [.make "slot" .packet "", .writer { root := .slot "slot" } .start,
    .writer { root := .slot "slot" } .finish]

/-- The packet that names a document is not the first one behind a packet of the program's own. -/
theorem second_of_foreignPacket :
    ofDocument {} {} = .ok (newDocument {}) ∧
      ((newDocument {}).run foreignPacket).answers
        (.document (.writeDocumentPacket "scene")) = true ∧
      Json.parse? ((newDocument {}).run (foreignPacket ++
          [.document (.writeDocumentPacket "scene"), .document .finish])).stream.sink.contents =
        some (Tree.array [.object [], .documentPacket "scene"]).json := by
  have text : ((newDocument {}).run (foreignPacket ++
      [.document (.writeDocumentPacket "scene"), .document .finish])).stream.sink.contents =
      "[\x7b\x7d,\x7b\"id\":\"document\",\"name\":\"scene\",\"version\":\"1.0\"\x7d]" := by
    decide +kernel
  refine ⟨ofDocument_eq {}, by decide +kernel, ?_⟩
  rw [text]
  rfl

end Session

end SceneStream
