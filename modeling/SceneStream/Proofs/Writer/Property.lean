import SceneStream.Proofs.Writer.Basic

/-!
# What a property takes

A write to a property is refused unless the property is the innermost writer and can still be an
object, and unless the write's own conditions hold. Otherwise it makes the calls of one entry. A
refused write changes nothing, since no check comes after the first call.
-/

namespace SceneStream.Property

open Writing

variable {s : Stream} {p p' p'' : Property} {t : Token}

/-- Whether this is the innermost open writer of the stream. -/
def HasTurn (p : Property) (s : Stream) : Prop := ∃ t, p.token = some t ∧ s.active? = some t

/-- Whether the property is innermost, and neither a bare value nor a list. -/
def TakesEntries (p : Property) (s : Stream) : Prop :=
  p.HasTurn s ∧ (p.scope = .unopened ∨ p.scope = .object)

/-- Where it is legal, the operation writes `w` and leaves the property as `p'`, which notes what
was written; elsewhere it is refused. -/
structure Adds (s : Stream) (p : Property) (op : PropertyM Unit) (legal : Prop) (w : Write)
    (p' : Property) : Prop where
  refuses : ¬ legal → Refuses op ⟨s, p⟩
  takes : legal → p.TakesEntries s
  draws : legal → Draws s p op ((w.entry p.scope).calls p.scope) p'
  kept : p' = { p with
    scope := (w.entry p.scope).scope
    intervalWritten := p'.intervalWritten
    valueWritten := p'.valueWritten }

theorem opening_ok (h : p.token = some t) : opening ⟨s, p⟩ = .ok t ⟨s, p⟩ := by
  simp [opening, bind_apply, h]

/-- An operation that begins with the token of the property is refused out of turn, if it also
checks that the token is the innermost one. -/
theorem refuses_opening_bind {f : Token → PropertyM Unit} (away : ¬ p.HasTurn s)
    (h : ∀ t, s.active? ≠ some t → Refuses (f t) ⟨s, p⟩) : Refuses (opening >>= f) ⟨s, p⟩ := by
  cases token : p.token with
  | none =>
      apply Refuses.bind
      refine ⟨.invalidOperation (.propertyNotOpen p.name), rfl, ?_⟩
      simp [opening, bind_apply, token]
  | some t =>
      apply Refuses.after (opening_ok token)
      apply h t
      intro active
      exact away ⟨t, token, active⟩

section

variable {op : StreamM Unit} {a : List Call}

theorem whileActive_apply (h : p.token = some t) (active : s.active? = some t) :
    whileActive op ⟨s, p⟩ = onStream op ⟨s, p⟩ := by
  rw [whileActive, bind_of_ok (opening_ok h), onStream]
  simp only [bind_of_ok (Stream.expectActive_ok active)]
  rfl

theorem draws_whileActive (turn : p.HasTurn s) (h : Stream.Makes op a) :
    Draws s p (whileActive op) a p := by
  obtain ⟨t, token, active⟩ := turn
  exact Draws.of_eq (fun _ _ => whileActive_apply token active) (draws_onStream h)

theorem refuses_whileActive (away : ¬ p.HasTurn s) : Refuses (whileActive op) ⟨s, p⟩ := by
  apply refuses_opening_bind away
  intro t active
  exact refuses_onStream ((Stream.refuses_expectActive active).bind _)

theorem refuses_whileActive_of (h : Refuses op s) : Refuses (whileActive op) ⟨s, p⟩ := by
  by_cases turn : p.HasTurn s
  · obtain ⟨t, token, active⟩ := turn
    rw [Refuses, whileActive_apply token active]
    exact refuses_onStream h
  · exact refuses_whileActive turn

end

namespace Adds

variable {op op' : PropertyM Unit} {legal : Prop} {w : Write}

/-- The write after a check that passes. -/
theorem of_eq (same : ∀ s' : Stream, s'.settings = s.settings → op ⟨s', p⟩ = op' ⟨s', p⟩)
    (h : Adds s p op' legal w p') : Adds s p op legal w p' where
  refuses illegal := by
    rw [Refuses, same s rfl]
    exact h.refuses illegal
  takes := h.takes
  draws ok := (h.draws ok).of_eq fun _ _ => same _ rfl
  kept := h.kept

/-- A write that a check of its own refuses here. -/
theorem of_refuses (refuses : Refuses op ⟨s, p⟩) (illegal : ¬ legal)
    (kept : p' = { p with
      scope := (w.entry p.scope).scope
      intervalWritten := p'.intervalWritten
      valueWritten := p'.valueWritten }) : Adds s p op legal w p' where
  refuses _ := refuses
  takes ok := absurd ok illegal
  draws ok := absurd ok illegal
  kept := kept

theorem congr {legal' : Prop} (h : Adds s p op legal w p') (same : legal ↔ legal') :
    Adds s p op legal' w p' := propext same ▸ h

/-- Writes that come to the same entry here. -/
theorem of_entry {w' : Write} (h : Adds s p op legal w p')
    (same : w.entry p.scope = w'.entry p.scope) : Adds s p op legal w' p' where
  refuses := h.refuses
  takes := h.takes
  draws ok := same ▸ h.draws ok
  kept := same ▸ h.kept

/-- The write with a note of it. -/
theorem note {f : Property → Property} (h : Adds s p op legal w p')
    (keeps : ∀ q, f q = { q with
      intervalWritten := (f q).intervalWritten, valueWritten := (f q).valueWritten }) :
    Adds s p (do op; setOwn (f (← getOwn))) legal w (f p') where
  refuses illegal := (h.refuses illegal).bind _
  takes := h.takes
  draws ok := (h.draws ok).note f
  kept := by
    rw [keeps, h.kept]

/-- A property that took an entry and is an object takes more. -/
theorem takesEntries (h : Adds s p op legal w p') (ok : legal) (object : p'.scope = .object) :
    p'.TakesEntries s := by
  obtain ⟨⟨t, token, active⟩, -⟩ := h.takes ok
  have token' : p'.token = p.token := by rw [h.kept]
  exact ⟨⟨t, token'.trans token, active⟩, .inr object⟩

/-- Members one after the other. -/
theorem seq {ms ms' : List (String × Tree)} (first : Adds s p op legal (.members ms) p')
    (second : Adds s p' op' (p'.TakesEntries s) (.members ms') p'') :
    Adds s p (do op; op') legal (.members (ms ++ ms')) p'' where
  refuses illegal := (first.refuses illegal).bind _
  takes := first.takes
  draws ok := by
    have object : p'.scope = .object := by
      rw [first.kept]
      rfl
    have calls : ((Write.members (ms ++ ms')).entry p.scope).calls p.scope =
        ((Write.members ms).entry p.scope).calls p.scope ++
          ((Write.members ms').entry p'.scope).calls p'.scope := by
      simp [Write.entry, Entry.calls, object, Scope.opening, Tree.memberCalls_append]
    rw [calls]
    exact (first.draws ok).seq (second.draws (first.takesEntries ok object))
  kept := by
    have name : p'' = { p' with
      scope := .object
      intervalWritten := p''.intervalWritten
      valueWritten := p''.valueWritten } := second.kept
    rw [first.kept] at name
    exact name

end Adds

theorem adds_openScope :
    Adds s p openScope (p.TakesEntries s) (.members []) { p with scope := .object } where
  refuses illegal := by
    by_cases turn : p.HasTurn s
    · refine Refuses.bind (f := fun _ => setOwn { p with scope := .object }) ?_
      apply refuses_whileActive_of
      cases scope : p.scope with
      | unopened => exact absurd ⟨turn, .inl scope⟩ illegal
      | object => exact absurd ⟨turn, .inr scope⟩ illegal
      | bare | intervals => exact refuses_refuse _ _
    · exact (refuses_whileActive turn).bind fun _ => setOwn { p with scope := .object }
  takes := id
  draws ok := by
    obtain ⟨turn, scope⟩ := ok
    have noted : Draws s p (setOwn { p with scope := .object }) [] { p with scope := .object } :=
      draws_setOwn
    rcases scope with scope | scope
    · have begun := draws_whileActive turn (Stream.makes_perform .startObject)
      rw [scope]
      apply (begun.seq noted).of_eq
      intro text d
      simp only [openScope, bind_apply, getOwn_apply, scope]
      rfl
    · have begun := draws_whileActive turn Stream.makes_pure
      rw [scope]
      apply (begun.seq noted).of_eq
      intro text d
      simp only [openScope, bind_apply, getOwn_apply, scope]
  kept := rfl

/-- A member of the object, whatever makes the calls of its value. -/
theorem adds_member {op : StreamM Unit} {tree : Tree} (key : String)
    (h : Stream.Makes op tree.calls) :
    Adds s p (member key op) (p.TakesEntries s) (.members [(key, tree)])
      { p with scope := .object } := by
  have named : Adds s { p with scope := .object } (whileActive do Stream.name key; op)
      (TakesEntries { p with scope := .object } s) (.members [(key, tree)])
      { p with scope := .object } := by
    refine ⟨?_, id, ?_, rfl⟩
    · intro illegal
      apply refuses_whileActive
      intro turn
      exact illegal ⟨turn, .inr rfl⟩
    · intro ok
      have calls : [Call.name key] ++ tree.calls = Tree.memberCalls [(key, tree)] := by
        simp [Tree.memberCalls]
      apply draws_whileActive ok.1
      change Stream.Makes _ ([] ++ Tree.memberCalls [(key, tree)])
      rw [List.nil_append, ← calls]
      exact (Stream.makes_name key).seq h
  exact adds_openScope.seq named

theorem adds_scalar (key : String) (v : Scalar) :
    Adds s p (member key (Stream.value v)) (p.TakesEntries s) (.members [(key, .scalar v)])
      { p with scope := .object } :=
  adds_member key (Stream.makes_value v)

theorem adds_writeInterval (i : Interval) :
    Adds s p (writeInterval i) (p.TakesEntries s ∧ p.intervalWritten = false)
      (.members [("interval", .scalar (.text i.text))])
      { p with scope := .object, intervalWritten := true } := by
  cases written : p.intervalWritten with
  | true =>
      refine Adds.of_refuses ?_ (by simp) rfl
      exact ⟨.invalidOperation (.secondInterval p.name), rfl, by
        simp [writeInterval, bind_apply, written]⟩
  | false =>
      have noted := (adds_scalar (s := s) (p := p) "interval" (.text i.text)).note
        (f := fun q => { q with intervalWritten := true }) fun _ => rfl
      refine (noted.of_eq ?_).congr (by simp)
      intro s' _
      simp [writeInterval, bind_apply, written]

end SceneStream.Property
