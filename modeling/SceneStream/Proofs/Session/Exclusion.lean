import SceneStream.Proofs.Session.Openings

/-!
# Only the innermost open writer writes

The open writers form one chain, in which each lies directly in the next one. The innermost of them has
the turn: all others are refused whatever they try, and no writer is opened but inside it. So no two
siblings are open together.
-/

namespace SceneStream

/-- Whether the one opening can lie directly in the other: a member in a packet or an object, a list in
place of a property, an interval in its list. -/
def Opening.FitsIn (inner outer : Opening) : Prop :=
  match inner.standing, outer.standing with
  | .property _ .member _, .packet => True
  | .property _ .member _, .property _ _ scope => scope = .object
  | .property name .element _, .list name' => name' = name
  | .list name, .property name' .member scope => name' = name ∧ scope = .intervals
  | _, _ => False

theorem Part.fitsIn {p outer : Part} {rest : List Part} {x y : Opening}
    (inner : x.standing = p.standing) (around : y.standing = outer.standing)
    (fits : p.Fits (outer :: rest)) : x.FitsIn y := by
  unfold Opening.FitsIn
  rw [inner, around]
  rcases Part.fits_cases fits with ⟨name, body, rfl, scope⟩ | ⟨name, members, items, rfl, rfl⟩ |
    ⟨name, items, rfl, rfl⟩
  · rcases outer with _ | ⟨_, _ | _ | _ | _⟩ | _ | _ <;>
      simp_all [Part.standing, Part.scope, Body.scope]
  · rfl
  · exact ⟨rfl, rfl⟩

namespace Session

variable {s s₀ : Session} {o : Outline} {roll : List Opening} {cs : List Command}
  {q r outer : Place} {settings : Settings} {document : Bool}

/-- These openings are the open writers, innermost first, each directly in the next one. -/
structure Chained (s : Session) (roll : List Opening) : Prop where
  tokens : s.stream.writers = roll.map Opening.token
  states : ∀ q t st, (s.stateAt q).shown? = some (t, st) ↔ ⟨t, some q, st⟩ ∈ roll
  fits : roll.IsChain Opening.FitsIn
  places : roll.IsChain fun inner outer => ∀ q r, inner.place = some q → s.around? q = some r →
    outer.place = some r

theorem Tells.chained (tells : s.Tells o roll) : s.Chained roll where
  tokens := tells.registers.writers
  states := tells.registers.held
  fits := isChain_of_fits (fun _ _ _ _ _ _ _ => Part.fitsIn) tells.registers.nested
    tells.sound.chain tells.standings
  places := by
    refine isChain_of_fits ?_ tells.registers.nested tells.sound.chain tells.standings
    intro x y p outer rest _ lies _ _ _ q r place around
    rcases lies q place with inside | ⟨name, rfl⟩
    · exact inside.trans around
    · cases around

/-- No two openings on the roll have the same place. -/
theorem Registers.pairwise_place (registers : s.Registers roll) :
    roll.Pairwise fun x y => ∀ q, x.place = some q → y.place ≠ some q := by
  have decreasing := registers.decreasing
  rw [registers.writers, List.pairwise_map] at decreasing
  apply decreasing.imp_of_mem
  intro x y memx memy before q here there
  have tokens := (registers.token?_of_mem memx here).1.symm.trans
    (registers.token?_of_mem memy there).1
  exact Nat.ne_of_gt before (Option.some.inj tokens)

/-- Two openings that lie in the same one are one. -/
theorem Nested.siblings (nested : s.Nested roll)
    (distinct : roll.Pairwise fun x y => ∀ q, x.place = some q → y.place ≠ some q)
    {x y : Opening} (memx : x ∈ roll) (memy : y ∈ roll) (placex : x.place = some q)
    (placey : y.place = some r) (aroundx : s.around? q = some outer)
    (aroundy : s.around? r = some outer) : x = y := by
  -- The one that is farther in lies directly in an opening that the other one cannot lie in, too.
  have apart {x : Opening} {rest : List Opening} {y : Opening} {q r : Place}
      (nested : s.Nested (x :: rest))
      (distinct : (x :: rest).Pairwise fun x y => ∀ q, x.place = some q → y.place ≠ some q)
      (memy : y ∈ rest) (placex : x.place = some q) (placey : y.place = some r)
      (aroundx : s.around? q = some outer) (aroundy : s.around? r = some outer) : False := by
    obtain ⟨z, tail, placez⟩ := nested.2.outer_mem memy placey aroundy
    rcases nested.1 q placex with lies | ⟨name, rfl⟩
    · obtain ⟨w, head, placew⟩ := Option.bind_eq_some_iff.mp (lies.trans aroundx)
      cases rest with
      | nil => cases head
      | cons first rest =>
          obtain rfl : first = w := Option.some.inj head
          exact (List.pairwise_cons.mp distinct.tail).1 z tail outer placew placez
    · cases aroundx
  induction roll with
  | nil => cases memx
  | cons first rest ih =>
      rcases List.mem_cons.mp memx with rfl | inx <;> rcases List.mem_cons.mp memy with rfl | iny
      · rfl
      · exact (apart nested distinct iny placex placey aroundx aroundy).elim
      · exact (apart nested distinct inx placey placex aroundy aroundx).elim
      · exact ih nested.2 distinct.tail inx iny

/-- What holds of turns in a session. -/
structure KeepsTurns (s : Session) : Prop where
  /-- Out of turn, every operation of a writer is refused and changes nothing. -/
  declines : ∀ c q, s.writerOf? c = some q → ¬ s.HasTurn q → s.Declines c
  /-- Letting go of a writer out of turn changes nothing either. -/
  releases : ∀ a h, s.handle? a = some h → ¬ s.HasTurn h.place →
    s.Agrees (s.step (.writer a .release)).2
  /-- A writer is opened where no other is open, or by the innermost one inside itself. -/
  allows : ∀ c outer q, c.isWriting = true → s.opening? c = some (outer, q) →
    s.answers c = true ∨ s.opensChild c = true → s.AllowsOpening outer
  /-- Nothing else opens a writer. -/
  opens : ∀ c q, c.isWriting = true → (s.stateAt q).token? = none →
    ((s.step c).2.stateAt q).token? ≠ none → ∃ outer, s.opening? c = some (outer, q)
  /-- The open writers form one chain. -/
  chained : ∃ roll, s.Chained roll
  /-- No two siblings are open. -/
  siblings : ∀ q r outer, (s.stateAt q).token? ≠ none → (s.stateAt r).token? ≠ none →
    s.around? q = some outer → s.around? r = some outer → q = r

theorem Stands.keepsTurns (stands : s.Stands o) : s.KeepsTurns where
  declines _ _ := declines_of_away
  releases a h found away := by
    obtain ⟨s', run, agrees⟩ := release_of_away away
    have called : s.operation? (.writer a .release) = some (doing (Session.release h)) := by
      rw [operation?, found]
      rfl
    rwa [step_of_ok called (doing_ok run)]
  allows _ _ _ _ := stands.allowsOpening
  opens c q writing closed opened := by
    by_contra away
    exact opened (s.closed_step writing closed away)
  chained := by
    obtain ⟨-, roll, tells⟩ := stands
    exact ⟨roll, tells.chained⟩
  siblings q r outer openq openr aroundq aroundr := by
    obtain ⟨-, roll, tells⟩ := stands
    have kept {q : Place} (opened : (s.stateAt q).token? ≠ none) :
        ∃ x ∈ roll, x.place = some q := by
      obtain ⟨t, token⟩ := Option.ne_none_iff_exists'.mp opened
      have shown : (s.stateAt q).shown? = some (t, (s.stateAt q).standing) := by
        rw [WriterState.shown?, token, Option.map_some]
      exact ⟨_, (tells.registers.held _ _ _).mp shown, rfl⟩
    obtain ⟨x, memx, placex⟩ := kept openq
    obtain ⟨y, memy, placey⟩ := kept openr
    have same := tells.registers.nested.siblings tells.registers.pairwise_place memx memy placex
      placey aroundq aroundr
    exact Option.some.inj (placex.symm.trans ((congrArg Opening.place same).trans placey))

/-- However a session began and whatever its writers did, answered or refused: only the innermost open
writer writes, and only it has writers opened inside it. -/
theorem keepsTurns_run (begun : new document {} settings = .ok s₀)
    (writing : ∀ c ∈ cs, c.isWriting = true) : (s₀.run cs).KeepsTurns :=
  ((stands_of_new begun).run writing).keepsTurns

theorem keepsTurns_run_openInterval :
    new true {} {} = .ok (newDocument {}) ∧ (∀ c ∈ openInterval, c.isWriting = true) ∧
      ((newDocument {}).run openInterval).KeepsTurns := by
  have begun : new true {} {} = .ok (newDocument {}) := rfl
  have writing : ∀ c ∈ openInterval, c.isWriting = true := by decide
  exact ⟨begun, writing, keepsTurns_run begun writing⟩

end Session

end SceneStream
