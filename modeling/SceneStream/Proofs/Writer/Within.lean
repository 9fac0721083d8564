import SceneStream.Proofs.Writer.Calling
import SceneStream.Proofs.Writer.Lifecycle

/-!
# A property inside its parent

Between its opening and its closing a property keeps the containers of its parent open, and perhaps an
object of its own inside them. So whatever was written to it, and whatever was refused, it can be
closed, and then the containers of the parent are those behind one more member. The sink has no part
in this but that it may have no room.
-/

namespace SceneStream

open Writing

/-- The operation failed for want of room, on a sink that has a limit. -/
def WantsRoom {σ α : Type} (limit : Option Nat) (r : EStateM.Result Error σ α) : Prop :=
  limit ≠ none ∧ ∃ e s, r = .error e s ∧ e.isRefusal = false

namespace WantsRoom

variable {σ α β ω : Type} {limit : Option Nat}

theorem bind {x : EStateM Error σ α} {s : σ} (h : WantsRoom limit (x s))
    (f : α → EStateM Error σ β) : WantsRoom limit ((x >>= f) s) := by
  obtain ⟨limited, e, s', run, other⟩ := h
  exact ⟨limited, e, s', bind_of_error run f, other⟩

theorem after {x : EStateM Error σ α} {s s' : σ} {a : α} (run : x s = .ok a s')
    {f : α → EStateM Error σ β} (h : WantsRoom limit (f a s')) : WantsRoom limit ((x >>= f) s) := by
  rwa [bind_of_ok run]

theorem onStream {op : StreamM α} {s : Stream} {own : ω} (h : WantsRoom limit (op s)) :
    WantsRoom limit (onStream op ⟨s, own⟩) := by
  obtain ⟨limited, e, s', run, other⟩ := h
  exact ⟨limited, e, ⟨s', own⟩, by rw [Writing.onStream, run], other⟩

end WantsRoom

theorem Stream.RunsOut.wantsRoom {op : StreamM Unit} {s : Stream} (h : RunsOut op s) :
    WantsRoom s.sink.limit (op s) := by
  obtain ⟨e, s', run, other, limited, -⟩ := h
  exact ⟨limited, e, s', run, other⟩

namespace Stream

variable {s : Stream} {n : Nesting} {c : Call} {calls : List Call} {t : Token}

theorem MayOpen.continues {s' : Stream} (free : s.MayOpen) (like : s.Continues s') :
    s'.MayOpen := by
  unfold MayOpen active? at *
  rwa [like.writers, like.grant]

/-- The first call of a writer, where it is permitted. -/
theorem begin_of_accept (free : s.MayOpen) (permitted : s.nesting.accept c = some n) :
    (∃ s', begin c s = .ok s'.nextToken s'.opened ∧ s'.nesting = n ∧ s.Continues s') ∨
      WantsRoom s.sink.limit (begin c s) := by
  rcases Leads.perform permitted s rfl with ⟨s', run, noted, like⟩ | out
  · left
    refine ⟨s', ?_, noted, like⟩
    rw [begin, bind_of_ok (expectCanOpen_ok free), bind_of_ok run]
    exact beginWriter_ok (free.continues like)
  · exact .inr (.after (expectCanOpen_ok free) (out.wantsRoom.bind _))

theorem refuses_begin_of (h : ¬ s.MayOpen ∨ s.nesting.accept c = none) : Refuses (begin c) s := by
  by_cases free : s.MayOpen
  · exact Refuses.after (expectCanOpen_ok free)
      ((refuses_of_accept (h.resolve_left (not_not_intro free))).bind _)
  · exact refuses_begin_of_crowded free c

/-- The calls that complete what the innermost writer has written. -/
theorem finish_of_acceptAll (active : s.active? = some t)
    (permitted : s.nesting.acceptAll calls = some n) :
    (∃ s', finish (performs calls) t s = .ok () s'.closed ∧ s'.nesting = n ∧ s.Continues s') ∨
      WantsRoom s.sink.limit (finish (performs calls) t s) := by
  rcases Leads.performs permitted s rfl with ⟨s', run, noted, like⟩ | out
  · left
    refine ⟨s', ?_, noted, like⟩
    rw [finish, bind_of_ok (expectActive_ok active), bind_of_ok run]
    exact endWriter_ok ((congrArg List.head? like.writers).trans active)
  · exact .inr (.after (expectActive_ok active) (out.wantsRoom.bind _))

end Stream

namespace Property

variable {s : Stream} {p : Property} {t : Token} {n m : Nesting} {k : Kind} {e : k.Encoding}
  {b : Binding k}

/-! ## The containers of a property -/

/-- These are open containers of a property in this scope, and `outer` is what is left of them when it
is closed. -/
def Scope.Within (outer : Nesting) : Scope → Nesting → Prop
  | unopened, n => n.inside? = some outer
  | object, n => ∃ members, n = outer.enter (.object members false)
  | bare, n | intervals, n => n = outer

theorem Scope.Within.closing {outer : Nesting} {scope : Scope} (within : scope.Within outer n) :
    n.acceptAll scope.closing = some outer := by
  cases scope with
  | unopened =>
      have inside : n.inside? = some outer := within
      simp [Scope.closing, Nesting.accept, inside, Nesting.enter]
  | object =>
      obtain ⟨members, rfl⟩ := within
      rfl
  | bare | intervals =>
      obtain rfl : n = outer := within
      rfl

/-- An entry stays inside the same containers. -/
theorem Scope.Within.entry {outer : Nesting} {scope : Scope} (within : scope.Within outer n)
    {entry : Entry} (fits : entry.fits scope) :
    ∃ m, n.acceptAll (entry.calls scope) = some m ∧ entry.scope.Within outer m := by
  cases entry with
  | bare tree =>
      cases scope with
      | unopened => exact ⟨outer, Nesting.acceptAll_calls tree within, rfl⟩
      | bare | object | intervals => cases fits
  | members added =>
      cases scope with
      | unopened =>
          have inside : n.inside? = some outer := within
          refine ⟨outer.enter (.object (0 + added.length) false), ?_, _, rfl⟩
          simp only [Entry.calls, Scope.opening, Nesting.acceptAll_append, Nesting.acceptAll_cons,
            Nesting.accept, inside, Option.map_some, Option.bind_some, Nesting.acceptAll_nil]
          exact Nesting.acceptAll_memberCalls added
      | object =>
          obtain ⟨members, rfl⟩ := within
          exact ⟨_, Nesting.acceptAll_memberCalls added, _, rfl⟩
      | bare | intervals => cases fits

/-! ## Opening, writing, closing -/

theorem firstCall_of_member (role : p.role = .member) : p.firstCall = .name p.name := by
  rw [firstCall, role]

theorem start_of_accept (closed : p.token = none) (free : s.MayOpen)
    (permitted : s.nesting.accept p.firstCall = some n) :
    (∃ s', start ⟨s, p⟩ = .ok () ⟨s'.opened, p.started s'.nextToken⟩ ∧ s'.nesting = n ∧
        s.Continues s') ∨
      WantsRoom s.sink.limit (start ⟨s, p⟩) := by
  rw [start_apply closed]
  rcases Stream.begin_of_accept free permitted with ⟨s', run, rest⟩ | out
  · left
    refine ⟨s', ?_, rest⟩
    rw [bind_apply, onStream, run]
    rfl
  · exact .inr (out.onStream.bind _)

theorem refuses_start_of (h : p.token ≠ none ∨ ¬ s.MayOpen ∨ s.nesting.accept p.firstCall = none) :
    Refuses start ⟨s, p⟩ := refuses_start_of_begin (h.imp_right Stream.refuses_begin_of)

theorem finish_within {outer : Nesting} (token : p.token = some t) (active : s.active? = some t)
    (within : p.scope.Within outer s.nesting) :
    (∃ s', finish ⟨s, p⟩ = .ok () ⟨s'.closed, { p with token := none, scope := .unopened }⟩ ∧
        s'.nesting = outer ∧ s.Continues s') ∨
      WantsRoom s.sink.limit (finish ⟨s, p⟩) := by
  rw [finish_apply token, complete_eq_performs]
  rcases Stream.finish_of_acceptAll active within.closing with ⟨s', run, rest⟩ | out
  · left
    refine ⟨s', ?_, rest⟩
    rw [bind_apply, onStream, run]
    rfl
  · exact .inr (out.onStream.bind _)

/-- A valid value is written, and the property is left inside the same containers. -/
theorem write_within {outer : Nesting} (takes : p.TakesValue s) (valid : b.IsValid)
    (within : p.scope.Within outer s.nesting) :
    (∃ s' p', write k e b ⟨s, p⟩ = .ok () ⟨s', p'⟩ ∧ p'.token = p.token ∧
        p'.scope.Within outer s'.nesting ∧ s.Continues s') ∨
      WantsRoom s.sink.limit (write k e b ⟨s, p⟩) := by
  have executes := executes_write (e := e) takes valid
  obtain ⟨m, permitted, within'⟩ := within.entry (Write.fits_entry takes.1.2 _)
  rcases Stream.Leads.performs permitted s rfl with
    ⟨s', run, noted, like⟩ | ⟨e, s', run, other, limited, like⟩
  · exact .inl ⟨s', _, executes.answers s s' (refl s) run, executes.kept, noted ▸ within', like⟩
  · obtain ⟨q, -, failed⟩ := executes.fails s e s' (refl s) run
    exact .inr ⟨limited, e, ⟨s', q⟩, failed, other⟩

/-- An answered preparation began the object of the property, if need be, and granted a place in it. -/
theorem eq_of_prepareChild {w : Writing Property} (run : prepareChild ⟨s, p⟩ = .ok () w) :
    ∃ t s', p.token = some t ∧ s'.active? = some t ∧ s.Continues s' ∧
      w = ⟨s'.granting t, { p with scope := .object }⟩ := by
  have takes : p.TakesEntries s := by
    by_contra illegal
    obtain ⟨e, -, refused⟩ := refuses_prepareChild illegal
    cases refused.symm.trans run
  obtain ⟨t, token, active⟩ := takes.1
  obtain ⟨_, w', begun, granted⟩ := ok_of_bind run
  obtain ⟨-, made, own⟩ := (Executes.ok_iff (fun away => absurd trivial away)
    fun _ => executes_openScope takes).mp begun
  obtain ⟨s', p'⟩ := w'
  obtain rfl : p' = { p with scope := .object } := own
  have like : s.Continues s' := (Stream.continues_performs _).of_ok made
  have active' : s'.active? = some t := (congrArg List.head? like.writers).trans active
  rw [bind_of_ok (opening_ok (p := { p with scope := .object }) token), onStream,
    Stream.grantChild_ok active'] at granted
  exact ⟨t, s', token, active', like, (EStateM.Result.ok.inj granted).2.symm⟩

/-- In an object that is there already, nothing is written for a preparation. -/
theorem prepareChild_of_object (token : p.token = some t) (active : s.active? = some t)
    (object : p.scope = .object) : prepareChild ⟨s, p⟩ = .ok () ⟨s.granting t, p⟩ := by
  have same : { p with scope := .object } = p := by
    rw [← object]
  have executes := executes_openScope (p := p) ⟨⟨t, token, active⟩, .inr object⟩
  have begun := executes.answers s s (refl s) (by rw [object]; rfl)
  rw [same] at begun
  rw [prepareChild, bind_of_ok begun, bind_of_ok (opening_ok token), onStream,
    Stream.grantChild_ok active]

end Property

end SceneStream
