import SceneStream.Proofs.Session.Place

/-!
# The roll of open writers

The roll lists the open writers of a session, innermost first: the opening, the place where the
session keeps the writer, and what the writer shows. A writer that the program gave up while it was
open keeps its opening on the stream and has no place any more. Tokens fall from the innermost
opening outwards, so no two are equal; and a writer lies in the writer that its address says, as long
as both have their places.
-/

namespace SceneStream

/-- One opening of the stream. -/
structure Opening where
  token : Token
  /-- Where the writer is kept, unless the program gave it up. -/
  place : Option Place
  standing : Standing
  deriving DecidableEq, Repr

/-- The opening after the program gave up the writers at some places. -/
def Opening.forget (gone : Place → Bool) (x : Opening) : Opening :=
  { x with place := x.place.filter fun q => !gone q }

/-- What the program gave up has no place on the roll; all else stands where it stood. -/
theorem Opening.mem_forget {roll : List Opening} {gone : Place → Bool} {t : Token} {q : Place}
    {st : Standing} :
    (⟨t, some q, st⟩ : Opening) ∈ roll.map (Opening.forget gone) ↔
      gone q = false ∧ ⟨t, some q, st⟩ ∈ roll := by
  rw [List.mem_map]
  constructor
  · rintro ⟨⟨t', place, st'⟩, mem, eq⟩
    obtain ⟨rfl, kept, rfl⟩ := Opening.mk.inj eq
    obtain ⟨rfl, left⟩ := Option.filter_eq_some_iff.mp kept
    exact ⟨by simpa using left, mem⟩
  · rintro ⟨left, mem⟩
    exact ⟨_, mem, by simp [Opening.forget, left]⟩

namespace Session

/-- Whether the writer at a root is a packet. -/
def bearsPackets (s : Session) : Root → Bool
  | .document => true
  | .slot name => s.slots.get? name = some .packet
  | .interval _ => false

/-- Where the writer at an address is kept. -/
def placeAt (s : Session) (a : Address) : Place :=
  if a.path = [] ∧ s.bearsPackets a.root = true then .packet a.root else .property a

/-- The place around a place: a member lies in the writer of its object, an interval in its list. -/
def around? (s : Session) : Place → Option Place
  | .property { root := .interval list, path := [] } => some (.list list)
  | .property { path := [], .. } | .packet _ | .list _ => none
  | .property a => some (s.placeAt { a with path := a.path.dropLast })

/-- Whether a writer at this place may lie directly in the writer at the other one, or in a writer
without a place. The place of a list does not say in which property it lies. -/
def LiesIn (s : Session) (q : Place) (outer : Option Place) : Prop :=
  outer = s.around? q ∨ ∃ name, q = .list name

/-- Every writer on the roll lies in the one that its place says. -/
def Nested (s : Session) : List Opening → Prop
  | [] => True
  | x :: rest => (∀ q ∈ x.place, s.LiesIn q (rest.head?.bind Opening.place)) ∧ Nested s rest

/-- The roll accounts for every opening of the stream, and for every open writer of the session. -/
structure Registers (s : Session) (roll : List Opening) : Prop where
  writers : s.stream.writers = roll.map Opening.token
  decreasing : s.stream.writers.Pairwise (· > ·)
  fresh : ∀ t ∈ s.stream.writers, t < s.stream.nextToken
  held : ∀ q t st, (s.stateAt q).shown? = some (t, st) ↔ ⟨t, some q, st⟩ ∈ roll
  nested : s.Nested roll

variable {s s' : Session} {roll rest : List Opening} {x : Opening} {q outer : Place}
  {stream : Stream} {state : WriterState} {st : Standing} {t : Token}

theorem around?_cases (inside : s.around? q = some outer) :
    (∃ list, q = .property { root := .interval list } ∧ outer = .list list) ∨
      ∃ a, q = .property a ∧ a.path ≠ [] ∧
        outer = s.placeAt { a with path := a.path.dropLast } := by
  cases q with
  | packet | list => cases inside
  | property a =>
      obtain ⟨root, path⟩ := a
      cases path with
      | cons name path =>
          simp only [around?, Option.some.injEq] at inside
          exact .inr ⟨⟨root, name :: path⟩, rfl, List.cons_ne_nil _ _, inside.symm⟩
      | nil =>
          cases root with
          | document | slot => cases inside
          | interval list => exact .inl ⟨list, rfl, (Option.some.inj inside).symm⟩

/-- A member lies in the writer that it is a member of. -/
theorem around?_child (s : Session) (a : Address) (name : String) :
    s.around? (.property (a.child name)) = some (s.placeAt a) := by
  obtain ⟨root, path⟩ := a
  cases path with
  | nil => simp [Address.child, around?]
  | cons first path =>
      simp only [Address.child, List.cons_append, around?]
      rw [← List.cons_append, List.dropLast_concat]

/-- The places around others are the same where the same slots hold packets. -/
theorem around?_congr (slots : s'.slots = s.slots) : s'.around? = s.around? := by
  have bears : s'.bearsPackets = s.bearsPackets := by
    funext r
    cases r <;> simp [bearsPackets, slots]
  funext q
  unfold around? placeAt
  rw [bears]

theorem Nested.congr (h : s.Nested roll) (slots : s'.slots = s.slots) : s'.Nested roll := by
  induction roll with
  | nil => trivial
  | cons x rest ih =>
      constructor
      · intro q kept
        rw [LiesIn, around?_congr slots]
        exact h.1 q kept
      · exact ih h.2

/-- A roll from which nothing but whole nests of writers were given up. -/
theorem Nested.forget {gone : Place → Bool} (h : s.Nested roll)
    (around : ∀ q, gone q = false → s'.around? q = s.around? q)
    (whole : ∀ q outer, gone q = false → s.around? q = some outer → gone outer = false) :
    s'.Nested (roll.map (Opening.forget gone)) := by
  induction roll with
  | nil => trivial
  | cons x rest ih =>
      constructor
      · intro q kept
        obtain ⟨place, left⟩ := Option.filter_eq_some_iff.mp kept
        have left : gone q = false := by simpa using left
        apply (h.1 q place).imp_left
        intro inside
        have head : (rest.map (Opening.forget gone)).head?.bind Opening.place =
            (rest.head?.bind Opening.place).filter fun q => !gone q := by
          cases rest <;> rfl
        rw [head, around q left, inside]
        cases outer : s.around? q with
        | none => rfl
        | some outer' => simp [whole q outer' left outer]
      · exact ih h.2

/-- What is on the roll with a place inside another one lies directly outside of it there. -/
theorem Nested.outer_mem (h : s.Nested roll) (mem : x ∈ roll) (place : x.place = some q)
    (inside : s.around? q = some outer) : ∃ y ∈ roll.tail, y.place = some outer := by
  induction roll with
  | nil => cases mem
  | cons first rest ih =>
      rcases List.mem_cons.mp mem with rfl | mem
      · rcases h.1 q place with lies | ⟨name, rfl⟩
        · obtain ⟨y, head, kept⟩ := Option.bind_eq_some_iff.mp (lies.trans inside)
          exact ⟨y, List.mem_of_head? head, kept⟩
        · cases inside
      · obtain ⟨y, tail, kept⟩ := ih h.2 mem
        exact ⟨y, List.mem_of_mem_tail tail, kept⟩

namespace Registers

/-- The innermost opening. -/
theorem active? (h : s.Registers roll) : s.stream.active? = roll.head?.map Opening.token := by
  rw [Stream.active?, h.writers, List.head?_map]

/-- No two openings have the same token. -/
theorem token_ne (h : s.Registers (x :: rest)) {y : Opening} (mem : y ∈ rest) :
    y.token ≠ x.token := by
  have decreasing := h.decreasing
  rw [h.writers, List.map_cons, List.pairwise_cons] at decreasing
  exact Nat.ne_of_lt (decreasing.1 y.token (List.mem_map_of_mem mem))

/-- The innermost writer is at no other place of the roll. -/
theorem place_ne (h : s.Registers (x :: rest)) (place : x.place = some q) {y : Opening}
    (mem : y ∈ rest) : y.place ≠ some q := by
  intro same
  have here := (h.held q x.token x.standing).mpr (by simp [← place])
  have there := (h.held q y.token y.standing).mpr (by simp [← same, mem])
  rw [here] at there
  exact h.token_ne mem (congrArg Prod.fst (Option.some.inj there)).symm

/-- The state of the writer that is on the roll. -/
theorem token?_of_mem (h : s.Registers roll) (mem : x ∈ roll) (place : x.place = some q) :
    (s.stateAt q).token? = some x.token ∧ (s.stateAt q).standing = x.standing :=
  WriterState.token?_of_shown? ((h.held q _ _).mpr (by rwa [← place]))

/-- Around an open writer is one that is on the roll outside of it. -/
theorem outer_mem_of_token? (h : s.Registers roll) (token : (s.stateAt q).token? = some t)
    (inside : s.around? q = some outer) : ∃ y ∈ roll.tail, y.place = some outer := by
  have shown : (s.stateAt q).shown? = some (t, (s.stateAt q).standing) := by
    rw [WriterState.shown?, token, Option.map_some]
  exact h.nested.outer_mem ((h.held q _ _).mp shown) rfl inside

/-- A writer that would lie in the innermost one is closed. -/
theorem closed_inside (h : s.Registers (x :: rest)) (place : x.place = some outer)
    (inside : s.around? q = some outer) : (s.stateAt q).token? = none := by
  cases token : (s.stateAt q).token? with
  | none => rfl
  | some t =>
      obtain ⟨y, mem, kept⟩ := h.outer_mem_of_token? token inside
      exact absurd kept (h.place_ne place mem)

/-- A writer that would lie in a closed one is closed. -/
theorem closed_inside_closed (h : s.Registers roll) (inside : s.around? q = some outer)
    (closed : (s.stateAt outer).token? = none) : (s.stateAt q).token? = none := by
  cases token : (s.stateAt q).token? with
  | none => rfl
  | some t =>
      obtain ⟨y, mem, kept⟩ := h.outer_mem_of_token? token inside
      cases closed.symm.trans (h.token?_of_mem (List.mem_of_mem_tail mem) kept).1

/-- A writer whose opening is the innermost one is the first on the roll. -/
theorem head_of_active (h : s.Registers roll) (token : (s.stateAt q).token? = some t)
    (active : s.stream.active? = some t) :
    ∃ rest, roll = ⟨t, some q, (s.stateAt q).standing⟩ :: rest := by
  have mem := (h.held q t _).mp (by rw [WriterState.shown?, token]; rfl)
  cases roll with
  | nil => cases mem
  | cons x rest =>
      rw [h.active?] at active
      rcases List.mem_cons.mp mem with rfl | mem
      · exact ⟨rest, rfl⟩
      · exact absurd (Option.some.inj active).symm (h.token_ne mem)

/-- The writer that is put at a place is accounted for by a new head of the roll, as long as nothing
behind the head is kept at that place. -/
theorem held_put {t : Token} (put : s.Put q stream state s') (shown : state.shown? = some (t, st))
    (alone : ∀ u st', (⟨u, some q, st'⟩ : Opening) ∉ rest)
    (others : ∀ r, r ≠ q → ∀ u st',
      (s.stateAt r).shown? = some (u, st') ↔ (⟨u, some r, st'⟩ : Opening) ∈ rest)
    (r : Place) (u : Token) (st' : Standing) :
    (s'.stateAt r).shown? = some (u, st') ↔
      (⟨u, some r, st'⟩ : Opening) ∈ (⟨t, some q, st⟩ : Opening) :: rest := by
  by_cases same : r = q
  · subst same
    rw [put.here, shown]
    constructor
    · intro eq
      obtain ⟨rfl, rfl⟩ := Prod.mk.inj (Option.some.inj eq)
      exact List.mem_cons_self
    · intro mem
      rcases List.mem_cons.mp mem with eq | mem
      · cases eq
        rfl
      · exact absurd mem (alone u st')
  · rw [put.elsewhere r same, others r same]
    simp [same]

/-- Changes that no writer shows change nothing on the roll. -/
theorem congr (h : s.Registers roll) (writers : s'.stream.writers = s.stream.writers)
    (next : s'.stream.nextToken = s.stream.nextToken) (slots : s'.slots = s.slots)
    (same : ∀ q, (s'.stateAt q).shown? = (s.stateAt q).shown?) : s'.Registers roll where
  writers := writers.trans h.writers
  decreasing := writers ▸ h.decreasing
  fresh := by
    rw [writers, next]
    exact h.fresh
  held q t st := by
    rw [same]
    exact h.held q t st
  nested := h.nested.congr slots

/-- The innermost writer changes what it shows. -/
theorem restate {st' : Standing} (h : s.Registers (⟨t, some q, st⟩ :: rest))
    (put : s.Put q stream state s') (writers : stream.writers = s.stream.writers)
    (next : stream.nextToken = s.stream.nextToken) (shown : state.shown? = some (t, st')) :
    s'.Registers (⟨t, some q, st'⟩ :: rest) where
  writers := by rw [put.stream, writers, h.writers, List.map_cons, List.map_cons]
  decreasing := by
    rw [put.stream, writers]
    exact h.decreasing
  fresh := by
    rw [put.stream, writers, next]
    exact h.fresh
  held := by
    apply held_put put shown
    · intro u st' mem
      exact h.place_ne rfl mem rfl
    · intro r other u st'
      rw [h.held]
      simp [other]
  nested := h.nested.congr put.slots

/-- A writer is opened. -/
theorem push (h : s.Registers roll) (closed : (s.stateAt q).token? = none)
    (inside : s.LiesIn q (roll.head?.bind Opening.place)) (put : s.Put q stream state s')
    (writers : stream.writers = s.stream.nextToken :: s.stream.writers)
    (next : stream.nextToken = s.stream.nextToken + 1)
    (shown : state.shown? = some (s.stream.nextToken, st)) :
    s'.Registers (⟨s.stream.nextToken, some q, st⟩ :: roll) where
  writers := by rw [put.stream, writers, h.writers, List.map_cons]
  decreasing := by
    rw [put.stream, writers]
    exact h.decreasing.cons fun t mem => h.fresh t mem
  fresh t mem := by
    rw [put.stream, writers] at mem
    rw [put.stream, next]
    rcases List.mem_cons.mp mem with rfl | mem
    · exact Nat.lt_succ_self _
    · exact Nat.lt_succ_of_lt (h.fresh t mem)
  held := by
    apply held_put put shown
    · intro u st' mem
      have stale := (h.held q u st').mpr mem
      rw [WriterState.shown?_of_token? closed] at stale
      cases stale
    · intro r other u st'
      exact h.held r u st'
  nested := by
    constructor
    · intro r kept
      obtain rfl : q = r := Option.some.inj kept
      rw [LiesIn, around?_congr put.slots]
      exact inside
    · exact h.nested.congr put.slots

/-- The innermost writer is closed. -/
theorem pop (h : s.Registers (x :: rest)) (place : x.place = some q)
    (put : s.Put q stream state s') (writers : stream.writers = s.stream.writers.tail)
    (next : stream.nextToken = s.stream.nextToken) (closed : state.token? = none) :
    s'.Registers rest where
  writers := by rw [put.stream, writers, h.writers, List.map_cons, List.tail_cons]
  decreasing := by
    rw [put.stream, writers]
    exact h.decreasing.tail
  fresh t mem := by
    rw [put.stream, writers] at mem
    rw [put.stream, next]
    exact h.fresh t (List.mem_of_mem_tail mem)
  held r t st' := by
    by_cases same : r = q
    · subst same
      rw [put.here, WriterState.shown?_of_token? closed]
      exact ⟨nofun, fun mem => absurd rfl (h.place_ne place mem)⟩
    · rw [put.elsewhere r same, h.held, List.mem_cons, or_iff_right]
      rintro rfl
      exact same (Option.some.inj place)
  nested := h.nested.2.congr put.slots

/-- The program gives up writers. What lies in a writer that is given up is given up with it. -/
theorem forget (h : s.Registers roll) {gone : Place → Bool} (stream : s'.stream = s.stream)
    (closed : ∀ q, gone q = true → (s'.stateAt q).token? = none)
    (same : ∀ q, gone q = false → (s'.stateAt q).shown? = (s.stateAt q).shown?)
    (around : ∀ q, gone q = false → s'.around? q = s.around? q)
    (whole : ∀ q outer, gone q = false → s.around? q = some outer → gone outer = false) :
    s'.Registers (roll.map (Opening.forget gone)) where
  writers := by
    rw [stream, h.writers, List.map_map]
    rfl
  decreasing := stream ▸ h.decreasing
  fresh := stream ▸ h.fresh
  held q t st := by
    rw [Opening.mem_forget]
    cases gone_q : gone q with
    | true => simp [WriterState.shown?_of_token? (closed q gone_q)]
    | false => simp [same q gone_q, h.held]
  nested := h.nested.forget around whole

end Registers

end Session

end SceneStream
