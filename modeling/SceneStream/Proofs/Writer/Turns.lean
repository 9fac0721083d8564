import SceneStream.Proofs.Writer.Basic

/-!
# Requests in any order

Whose turn it is hangs on three fields of a stream: the openings that are not closed, the grant, and
the next token. They are followed here through requests in any order and with any tokens, those of
writers that were ended long ago or that are not innermost included. Main statement:
`orderly_serve`.
-/

namespace SceneStream.Stream

/-- A request that bears on whose turn it is, with whatever token its caller holds. -/
inductive Request where
  | begin
  | finish (t : Token)
  | grant (t : Token)
  | check (t : Token)
  deriving DecidableEq, Repr

/-- What an accepted request did. -/
inductive Event where
  /-- A writer began, inside the innermost one if any was open. -/
  | began (t : Token) (inside : Option Token)
  | ended (t : Token)
  | granted (t : Token)
  | checked (t : Token)
  deriving DecidableEq, Repr

namespace Event

def issued? : Event → Option Token
  | began t _ => some t
  | _ => none

/-- Whether the openings are the same behind it. -/
def keepsWriters : Event → Bool
  | began .. | ended _ => false
  | granted _ | checked _ => true

/-- The writer that was innermost when another one began. -/
def parent? : Event → Option Token
  | began _ inside => inside
  | _ => none

def granted? : Event → Option Token
  | granted t => some t
  | _ => none

/-- What happened since the last writer began or was ended; the latest event stands first. -/
def recent (events : List Event) : List Event := events.takeWhile keepsWriters

end Event

def Request.run : Request → StreamM Event
  | begin => do
      let inside := (← get).active?
      return .began (← beginWriter) inside
  | finish t => do
      endWriter t
      return .ended t
  | grant t => do
      grantChild t
      return .granted t
  | check t => do
      expectActive t
      return .checked t

/-- One more request, after these events: an accepted one adds what it did, and a rejected one leaves
the stream that its failure left. -/
def serveNext (served : List Event × Stream) (r : Request) : List Event × Stream :=
  match r.run served.2 with
  | .ok event s => (event :: served.1, s)
  | .error _ s => (served.1, s)

/-- The requests one after another. What was accepted stands latest first. -/
def serve (requests : List Request) (s : Stream) : List Event × Stream :=
  requests.foldl serveNext ([], s)

/-! ## One request -/

/-- All that a request can come to. -/
inductive Outcome (s : Stream) : Request → EStateM.Result Error Stream Event → Prop where
  | began (mayOpen : s.MayOpen) :
      Outcome s .begin (.ok (.began s.nextToken s.active?) s.opened)
  | ended {t : Token} (active : s.active? = some t) : Outcome s (.finish t) (.ok (.ended t) s.closed)
  | granted {t : Token} (active : s.active? = some t) :
      Outcome s (.grant t) (.ok (.granted t) (s.granting t))
  | checked {t : Token} (active : s.active? = some t) : Outcome s (.check t) (.ok (.checked t) s)
  | rejected (r : Request) (e : Error) : Outcome s r (.error e s)

variable {s : Stream} {t : Token}

theorem refuses_endWriter (h : s.active? ≠ some t) : Refuses (endWriter t) s :=
  (refuses_expectActive h).bind _

theorem refuses_grantChild (h : s.active? ≠ some t) : Refuses (grantChild t) s :=
  (refuses_expectActive h).bind _

theorem refuses_beginWriter (h : ¬ s.MayOpen) : Refuses beginWriter s :=
  (refuses_expectCanOpen h).bind _

theorem Outcome.of_refuses {r : Request} (h : Refuses r.run s) : Outcome s r (r.run s) := by
  obtain ⟨e, -, run⟩ := h
  exact run ▸ .rejected r e

theorem outcome (r : Request) (s : Stream) : Outcome s r (r.run s) := by
  cases r with
  | begin =>
    by_cases mayOpen : s.MayOpen
    · have run : Request.begin.run s = .ok (.began s.nextToken s.active?) s.opened := by
        rw [Request.run, bind_of_ok (get_apply s), bind_of_ok (beginWriter_ok mayOpen)]
        rfl
      exact run ▸ .began mayOpen
    · exact .of_refuses ((refuses_beginWriter mayOpen).bind _ |>.after (get_apply s))
  | finish t =>
    by_cases active : s.active? = some t
    · have run : (Request.finish t).run s = .ok (.ended t) s.closed := bind_of_ok (endWriter_ok active) _
      exact run ▸ .ended active
    · exact .of_refuses ((refuses_endWriter active).bind _)
  | grant t =>
    by_cases active : s.active? = some t
    · have run : (Request.grant t).run s = .ok (.granted t) (s.granting t) :=
        bind_of_ok (grantChild_ok active) _
      exact run ▸ .granted active
    · exact .of_refuses ((refuses_grantChild active).bind _)
  | check t =>
    by_cases active : s.active? = some t
    · have run : (Request.check t).run s = .ok (.checked t) s := bind_of_ok (expectActive_ok active) _
      exact run ▸ .checked active
    · exact .of_refuses ((refuses_expectActive active).bind _)

/-! ## Any number of requests -/

/-- How the three fields stand to each other and to what happened so far. -/
structure Tracks (events : List Event) (s : Stream) : Prop where
  ordered : s.writers.Pairwise (· > ·)
  mem_writers_iff : ∀ t, t ∈ s.writers ↔ t < s.nextToken ∧ .ended t ∉ events
  ended_lt : ∀ t, .ended t ∈ events → t < s.nextToken
  issued : events.filterMap Event.issued? = (List.range s.nextToken).reverse
  grant_iff : ∀ t, s.grant = some t ↔ .granted t ∈ Event.recent events
  holder : ∀ t, s.grant = some t → s.active? = some t
  /-- Each writer that began inside another one used up a grant of it, and the last grant may be
  left. -/
  parents_le : ∀ t, (events.filterMap Event.parent?).count t + s.grant.toList.count t ≤
    (events.filterMap Event.granted?).count t

theorem mem_of_active? (active : s.active? = some t) : t ∈ s.writers := List.mem_of_head? active

namespace Tracks

variable {events : List Event}

theorem start (sink : Sink) (settings : Settings) : Tracks [] { sink, settings } where
  ordered := .nil
  mem_writers_iff := by simp
  ended_lt := by simp
  issued := rfl
  grant_iff := by simp [Event.recent]
  holder := by simp
  parents_le := by simp

theorem lt_nextToken (h : Tracks events s) (mem : t ∈ s.writers) : t < s.nextToken :=
  ((h.mem_writers_iff t).mp mem).1

theorem not_ended (h : Tracks events s) (active : s.active? = some t) : .ended t ∉ events :=
  ((h.mem_writers_iff t).mp (mem_of_active? active)).2

theorem opened (h : Tracks events s) (mayOpen : s.MayOpen) :
    Tracks (.began s.nextToken s.active? :: events) s.opened where
  ordered := List.pairwise_cons.mpr ⟨fun _ => h.lt_nextToken, h.ordered⟩
  mem_writers_iff := by
    intro t
    have fresh : .ended s.nextToken ∉ events := fun mem => (h.ended_lt _ mem).ne rfl
    simp only [Stream.opened, List.mem_cons, h.mem_writers_iff, reduceCtorEq, false_or]
    by_cases new : t = s.nextToken
    · simp [new, fresh]
    · simp only [new, false_or, Nat.lt_succ_iff_lt_or_eq, or_false]
  ended_lt := by
    intro t mem
    exact (h.ended_lt t (by simpa using mem)).trans (Nat.lt_succ_self _)
  issued := by
    simp [Event.issued?, h.issued, Stream.opened, List.range_succ]
  grant_iff := by
    intro t
    simp [Stream.opened, Event.recent, Event.keepsWriters]
  holder := by
    intro t held
    cases held
  parents_le := by
    intro t
    have counted := h.parents_le t
    cases inner : s.active? with
    | none =>
      simpa [List.filterMap_cons, Event.parent?, Event.granted?, Stream.opened] using
        Nat.le_of_add_right_le counted
    | some p =>
      -- The grant that was left is the one that is used up.
      have left : s.grant = some p := by
        rcases mayOpen with none | same
        · cases none.symm.trans inner
        · exact same.trans inner
      rw [left] at counted
      simpa [List.filterMap_cons, Event.parent?, Event.granted?, Stream.opened, List.count_cons]
        using counted

theorem closed (h : Tracks events s) (active : s.active? = some t) :
    Tracks (.ended t :: events) s.closed where
  ordered := h.ordered.tail
  mem_writers_iff := by
    intro t'
    obtain ⟨rest, writers⟩ : ∃ rest, s.writers = t :: rest := List.head?_eq_some_iff.mp active
    have below : ∀ t' ∈ rest, t' < t := (List.pairwise_cons.mp (writers ▸ h.ordered)).1
    have before := h.mem_writers_iff t'
    rw [writers, List.mem_cons] at before
    simp only [Stream.closed, writers, List.tail_cons, List.mem_cons, Event.ended.injEq, not_or]
    constructor
    · intro mem
      obtain ⟨lt, still⟩ := before.mp (.inr mem)
      exact ⟨lt, (below t' mem).ne, still⟩
    · rintro ⟨lt, other, still⟩
      exact (before.mpr ⟨lt, still⟩).resolve_left other
  ended_lt := by
    intro t' mem
    rcases List.mem_cons.mp mem with same | mem
    · cases same
      exact h.lt_nextToken (mem_of_active? active)
    · exact h.ended_lt t' mem
  issued := by simpa [List.filterMap_cons, Event.issued?, Stream.closed] using h.issued
  grant_iff := by
    intro t'
    simp [Stream.closed, Event.recent, Event.keepsWriters]
  holder := by
    intro t' held
    cases held
  parents_le := by
    intro t'
    simpa [List.filterMap_cons, Event.parent?, Event.granted?, Stream.closed] using
      Nat.le_of_add_right_le (h.parents_le t')

theorem granting (h : Tracks events s) (active : s.active? = some t) :
    Tracks (.granted t :: events) (s.granting t) where
  ordered := h.ordered
  mem_writers_iff := by
    intro t'
    simpa [Stream.granting] using h.mem_writers_iff t'
  ended_lt := by
    intro t' mem
    exact h.ended_lt t' (by simpa using mem)
  issued := by simpa [List.filterMap_cons, Event.issued?, Stream.granting] using h.issued
  grant_iff := by
    intro t'
    have held : .granted t' ∈ Event.recent events → t' = t := fun mem =>
      Option.some.inj ((h.holder t' ((h.grant_iff t').mpr mem)).symm.trans active)
    simp only [Stream.granting, Option.some.injEq, Event.recent, List.takeWhile_cons,
      Event.keepsWriters, if_true, List.mem_cons, Event.granted.injEq]
    exact ⟨fun same => .inl same.symm, fun mem => (mem.elim id held).symm⟩
  holder := by
    intro t' held
    exact active.trans held
  parents_le := by
    intro t'
    have counted := h.parents_le t'
    simp only [List.filterMap_cons, Event.parent?, Event.granted?, Stream.granting,
      Option.toList_some, List.count_cons, List.count_nil]
    omega

theorem checked (h : Tracks events s) (t : Token) : Tracks (.checked t :: events) s where
  ordered := h.ordered
  mem_writers_iff := by
    intro t'
    simpa using h.mem_writers_iff t'
  ended_lt := by
    intro t' mem
    exact h.ended_lt t' (by simpa using mem)
  issued := by simpa [List.filterMap_cons, Event.issued?] using h.issued
  grant_iff := by
    intro t'
    simpa [Event.recent, List.takeWhile_cons, Event.keepsWriters] using h.grant_iff t'
  holder := h.holder
  parents_le := by
    intro t'
    simpa [List.filterMap_cons, Event.parent?, Event.granted?] using h.parents_le t'

theorem serveNext (h : Tracks events s) (r : Request) :
    Tracks (Stream.serveNext (events, s) r).1 (Stream.serveNext (events, s) r).2 := by
  have outcome := outcome r s
  unfold Stream.serveNext
  generalize r.run s = result at outcome ⊢
  cases outcome with
  | began mayOpen => exact h.opened mayOpen
  | ended active => exact h.closed active
  | granted active => exact h.granting active
  | checked active => exact h.checked _
  | rejected => exact h

theorem foldl_serveNext (requests : List Request) {served : List Event × Stream}
    (h : Tracks served.1 served.2) :
    Tracks (requests.foldl Stream.serveNext served).1 (requests.foldl Stream.serveNext served).2 := by
  induction requests generalizing served with
  | nil => exact h
  | cons r rest ih => exact ih (h.serveNext r)

theorem serve (sink : Sink) (settings : Settings) (requests : List Request) :
    Tracks (Stream.serve requests { sink, settings }).1 (Stream.serve requests { sink, settings }).2 :=
  foldl_serveNext requests (start sink settings)

/-- A writer may be opened inside another one where this was granted since the last change. -/
theorem mayOpen_iff (h : Tracks events s) (active : s.active? = some t) :
    s.MayOpen ↔ .granted t ∈ Event.recent events := by
  rw [MayOpen, active, ← h.grant_iff]
  simp

end Tracks

/-- What holds of a stream whatever was requested of it. -/
structure Orderly (events : List Event) (s : Stream) : Prop where
  /-- The open writers stand innermost first, so their tokens ascend from the outermost one on. -/
  ordered : s.writers.Pairwise (· > ·)
  below : ∀ t ∈ s.writers, t < s.nextToken
  /-- Each token below the next one was issued once, in ascending order: the next one counts the
  writers that ever began. -/
  issued : events.filterMap Event.issued? = (List.range s.nextToken).reverse
  grant : s.grant = none ∨ ∃ t, s.active? = some t ∧ s.grant = some t
  /-- A token that was ended is refused from then on. -/
  ended : ∀ t, .ended t ∈ events →
    Refuses (expectActive t) s ∧ Refuses (endWriter t) s ∧ Refuses (grantChild t) s
  /-- Inside the innermost writer another one begins exactly if it was granted since the last one
  began or was ended. -/
  begins_iff : ∀ t, s.active? = some t →
    ((∃ new s', beginWriter s = .ok new s') ↔ .granted t ∈ Event.recent events)
  /-- No more writers began inside a writer than it granted. -/
  parents_le : ∀ t, (events.filterMap Event.parent?).count t ≤
    (events.filterMap Event.granted?).count t
  unchanged : ∀ (r : Request) (e : Error) (s' : Stream), r.run s = .error e s' → s' = s

/-- Whatever is requested of a new stream, its writers stay in order. -/
theorem orderly_serve (sink : Sink) (settings : Settings) (requests : List Request) :
    Orderly (serve requests { sink, settings }).1 (serve requests { sink, settings }).2 := by
  generalize made : serve requests { sink, settings } = served
  obtain ⟨events, s⟩ := served
  have tracks : Tracks events s := by simpa only [made] using Tracks.serve sink settings requests
  refine ⟨tracks.ordered, fun t => tracks.lt_nextToken, tracks.issued, ?_, ?_, ?_, ?_, ?_⟩
  · cases held : s.grant with
    | none => exact .inl rfl
    | some t => exact .inr ⟨t, tracks.holder t held, rfl⟩
  · intro t ended
    have away : s.active? ≠ some t := fun active => tracks.not_ended active ended
    exact ⟨refuses_expectActive away, refuses_endWriter away, refuses_grantChild away⟩
  · intro t active
    rw [← tracks.mayOpen_iff active]
    constructor
    · rintro ⟨new, s', run⟩
      by_contra barred
      obtain ⟨e, -, refused⟩ := refuses_beginWriter barred
      cases run.symm.trans refused
    · exact fun mayOpen => ⟨_, _, beginWriter_ok mayOpen⟩
  · intro t
    exact Nat.le_of_add_right_le (tracks.parents_le t)
  · intro r e s' failed
    have outcome := outcome r s
    rw [failed] at outcome
    cases outcome
    rfl

/-- A second writer waits for a grant, and the first one's token is of no use once it was ended. -/
example :
    (serve [.begin, .begin, .grant 0, .begin, .finish 0, .finish 1, .finish 0, .check 0] {}).1 =
      [.ended 0, .ended 1, .began 1 (some 0), .granted 0, .began 0 none] := by
  rfl

end SceneStream.Stream
