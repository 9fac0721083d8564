import SceneStream.Proofs.Session.Refinement

/-!
# Containers and open writers

Which writers are open is kept in the writers themselves and on the stream, and which containers are
open in the frames of the stream. As long as the document is not finished, one list of openings
explains all of it: the writers' states, the stack of tokens, the frames, and where a name waits for
its value.
-/

namespace SceneStream

/-- The containers that an open writer keeps open. -/
def Standing.brackets : Standing → List Bracket
  | packet => [.object]
  | property _ _ scope => scope.brackets
  | list _ => [.array]

/-- Whether a writer may be open while another one is open directly inside it. A property that became
a list holds the list only, and a list holds its own intervals. -/
def Opening.Holds (outer inner : Opening) : Prop :=
  match outer.standing with
  | .packet => True
  | .property name _ scope =>
    scope = .object ∨ scope = .intervals ∧ inner.standing = .list name
  | .list name =>
    inner.standing = .property name .element .object ∧
      ∀ list q, outer.place = some (.list list) → inner.place = some q →
        q = .property { root := .interval list }

namespace Session

/-- These openings are the open writers of the session, innermost first, and account for the frames
of its stream. -/
structure Corresponds (s : Session) (roll : List Opening) : Prop where
  tokens : s.stream.writers = roll.map Opening.token
  /-- A writer is on the list, with what it shows, exactly as long as it is open. -/
  states : ∀ q t st, (s.stateAt q).shown? = some (t, st) ↔ ⟨t, some q, st⟩ ∈ roll
  frames : s.stream.frames.map Frame.bracket =
    roll.flatMap (fun x => x.standing.brackets) ++ [.array]
  pending : s.stream.isValuePending = true ↔
    ∃ name, roll.head?.map Opening.standing = some (.property name .member .unopened)
  settled : ∀ f ∈ s.stream.frames.tail, f.isPending = false
  holds : roll.IsChain fun inner outer => outer.Holds inner

variable {s s₀ : Session} {o : Outline} {roll : List Opening} {cs : List Command} {c : Command}
  {settings : Settings} {p outer : Part} {rest : List Part} {x y : Opening}

theorem brackets_standing (p : Part) : p.standing.brackets = p.brackets := by
  cases p <;> rfl

/-- The brackets of the frames can be read off the openings. -/
theorem Tells.brackets (tells : s.Tells o roll) (unfinished : o.finished = false) :
    s.stream.frames.map Frame.bracket =
      roll.flatMap (fun x => x.standing.brackets) ++ o.base := by
  have standings := congrArg (List.flatMap Standing.brackets) tells.standings
  rw [List.flatMap_map, List.flatMap_map] at standings
  simp only [brackets_standing] at standings
  rw [standings, tells.shows.frames]
  exact tells.sound.brackets_draft unfinished

/-- A name waits for its value where the innermost writer has written its name and nothing else. -/
theorem Tells.isValuePending_iff (tells : s.Tells o roll) (unfinished : o.finished = false) :
    s.stream.isValuePending = true ↔
      ∃ name, roll.head?.map Opening.standing = some (.property name .member .unopened) := by
  have pending : s.stream.isValuePending = true ↔ Part.siteIn o.parts = .value := by
    rw [Stream.isValuePending, tells.shows.frames]
    rcases tells.sound.isIn_draft unfinished with site | ⟨outside, blank⟩
    · generalize Part.siteIn o.parts = due at site
      cases draft : o.draft <;> rw [draft] at site <;> cases site <;>
        simp [Draft.frames]
    · simp [outside, blank, Part.siteIn, Draft.frames]
  have heads : roll.head?.map Opening.standing = o.parts.head?.map Part.standing := by
    rw [← List.head?_map, ← List.head?_map, tells.standings]
  rw [pending, heads]
  have settled := tells.sound.settled
  cases parts : o.parts with
  | nil => simp [Part.siteIn]
  | cons p rest =>
      rw [parts] at settled
      have whole := settled p rfl
      rcases p with _ | ⟨_, _ | _ | _ | _ | _⟩ | _ | _ <;>
        simp_all [Part.siteIn, Part.site, Part.standing, Body.scope, Part.awaitsList]

/-- A part that lies in another one says of its writer and the writer around it what they hold. -/
theorem holds_of_fits (registers : s.Registers roll) (mem : x ∈ roll)
    (inside : ∀ q ∈ x.place, s.LiesIn q y.place) (inner : x.standing = p.standing)
    (around : y.standing = outer.standing) (fits : p.Fits (outer :: rest)) : y.Holds x := by
  unfold Opening.Holds
  rw [around, inner]
  rcases Part.fits_cases fits with ⟨name, body, rfl, scope⟩ | ⟨name, members, items, rfl, rfl⟩ |
    ⟨name, items, rfl, rfl⟩
  · rcases outer with _ | ⟨_, _ | _ | _ | _⟩ | _ | _ <;>
      simp_all [Part.standing, Part.scope, Body.scope]
  · constructor
    · rfl
    · intro list q there here
      rcases inside q here with lies | ⟨name', rfl⟩
      · rw [there] at lies
        rcases around?_cases lies.symm with ⟨list', rfl, same⟩ | ⟨a, -, -, same⟩
        · rw [Place.list.inj same]
        · unfold placeAt at same
          split at same <;> cases same
      · have shown := (registers.token?_of_mem mem here).2
        rw [inner] at shown
        cases shown
  · exact .inr ⟨rfl, rfl⟩

/-- What holds of each opening and the one around it, as their parts fit, holds along the roll. -/
theorem isChain_of_fits {R : Opening → Opening → Prop} {xs : List Opening} {ps : List Part}
    (holds : ∀ (x y : Opening) (p outer : Part) rest, x ∈ xs → (∀ q ∈ x.place, s.LiesIn q y.place) →
      x.standing = p.standing → y.standing = outer.standing → p.Fits (outer :: rest) → R x y)
    (nested : s.Nested xs) (chain : Part.Chain ps)
    (standings : xs.map Opening.standing = ps.map Part.standing) : xs.IsChain R := by
  induction xs generalizing ps with
  | nil => exact .nil
  | cons x xs ih =>
      cases ps with
      | nil => cases standings
      | cons p ps =>
          obtain ⟨inner, others⟩ := List.cons.inj standings
          have further := ih (fun x y p outer rest mem => holds x y p outer rest
            (List.mem_cons_of_mem _ mem)) nested.2 chain.2 others
          cases xs with
          | nil => exact .singleton x
          | cons y xs =>
              cases ps with
              | nil => cases others
              | cons outer ps =>
                  obtain ⟨around, -⟩ := List.cons.inj others
                  exact .cons_cons (holds x y p outer ps List.mem_cons_self nested.1 inner around
                    chain.1) further

/-- What an outline describes before its document is finished accounts for all that is open. -/
theorem Tells.corresponds (tells : s.Tells o roll) (document : o.alone = false)
    (unfinished : o.finished = false) : s.Corresponds roll where
  tokens := tells.registers.writers
  states := tells.registers.held
  frames := by
    rw [tells.brackets unfinished, Outline.base, document]
    rfl
  pending := tells.isValuePending_iff unfinished
  settled f mem := by
    rw [tells.shows.frames] at mem
    exact Draft.isPending_of_mem_tail mem
  holds := isChain_of_fits (fun _ _ _ _ _ => holds_of_fits tells.registers) tells.registers.nested
    tells.sound.chain tells.standings

/-! ## Until the document is finished -/

theorem finish_not_mem_deeds (unended : c.isFinish = false) : .finish ∉ s.deeds c := by
  cases c with
  | document c => cases c <;> simp_all [deeds, Command.isFinish]
  | writer a c => cases c <;> simp [deeds]
  | parent a c =>
      cases written : s.childWrite? a c <;> simp [deeds, written]
  | property a c => cases c <;> simp [deeds]
  | list name c => cases c <;> simp [deeds]
  | make | packet | value | stream => simp [deeds]

theorem finish_not_mem_described (unended : c.isFinish = false) : .finish ∉ s.described c := by
  unfold described
  split
  · exact finish_not_mem_deeds unended
  · unfold remnants
    split
    · split <;> simp
    · simp
  · simp

theorem finished_after {deed : Deed} (document : o.alone = false) (other : deed ≠ .finish) :
    (o.after deed).finished = o.finished := by
  cases deed with
  | enter => rfl
  | write => cases parts : o.parts <;> simp [Outline.after, parts]
  | leave => rcases parts : o.parts with _ | ⟨p, _ | _⟩ <;> simp [Outline.after, parts, document]
  | finish => exact absurd rfl other

theorem finished_afterAll {deeds : List Deed} (document : o.alone = false)
    (unended : .finish ∉ deeds) : (o.afterAll deeds).finished = o.finished := by
  induction deeds generalizing o with
  | nil => rfl
  | cons deed deeds ih =>
      rw [List.mem_cons, not_or] at unended
      rw [Outline.afterAll_cons, ih ((o.alone_after deed).trans document) unended.2,
        finished_after document (Ne.symm unended.1)]

theorem finished_describe (document : o.alone = false) (unended : ∀ c ∈ cs, c.isFinish = false) :
    (s.describe o cs).finished = o.finished := by
  induction cs generalizing s o with
  | nil => rfl
  | cons c cs ih =>
      obtain ⟨first, rest⟩ := List.forall_mem_cons.mp unended
      rw [describe, ih ((o.alone_afterAll _).trans document) rest,
        finished_afterAll document (finish_not_mem_described first)]

/-- Whatever commands were made before the document is finished, the frames and the pending name are
those of the open writers, and these lie in each other as they may. -/
theorem exists_corresponds (made : ofDocument {} settings = .ok s₀)
    (writing : ∀ c ∈ cs, c.isWriting = true) (unended : ∀ c ∈ cs, c.isFinish = false) :
    ∃ roll, (s₀.run cs).Corresponds roll := by
  obtain ⟨-, roll, tells⟩ := (stands_ofDocument made).run writing
  exact ⟨roll, tells.corresponds (alone_describe _ _ _) (finished_describe rfl unended)⟩

/-- An interval of a list that stands for the description of a packet. -/
def openInterval : List Command :=
  let packet : Address := { root := .document }
  [.document .openPacket, .parent packet (.startChild "description"),
    .property (packet.child "description") (.startIntervals "list"), .list "list" .startInterval]

theorem exists_corresponds_openInterval :
    ofDocument {} {} = .ok (newDocument {}) ∧ (∀ c ∈ openInterval, c.isWriting = true) ∧
      (∀ c ∈ openInterval, c.isFinish = false) ∧
      ∃ roll, ((newDocument {}).run openInterval).Corresponds roll :=
  ⟨ofDocument_eq {}, by decide, by decide,
    exists_corresponds (ofDocument_eq {}) (by decide) (by decide)⟩

end Session

end SceneStream
