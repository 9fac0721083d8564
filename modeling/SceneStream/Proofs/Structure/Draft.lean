import SceneStream.Proofs.Structure.Tree

/-!
# Drafts

A draft is a tree of which only the first calls have been made. Its type has no others: what is
still open is a chain of containers, each with the part in progress inside it, and the innermost one
says what may come next. `Draft.accept` is the whole law of which call is permitted.
-/

namespace SceneStream

/-- A container around the part in progress, with what it holds already. -/
inductive Outer where
  | item (done : List Tree)
  | member (done : List (String × Tree)) (key : String)

inductive Draft where
  | blank
  | complete (t : Tree)
  /-- Inside an array, after whole items. -/
  | array (items : List Tree) (outer : List Outer)
  /-- Inside an object, after whole members. -/
  | object (members : List (String × Tree)) (outer : List Outer)
  /-- Inside an object, after a name that has no value yet. -/
  | named (members : List (String × Tree)) (key : String) (outer : List Outer)

namespace Outer

/-- The frame of the container while its part is in progress. -/
def frame : Outer → Frame
  | item done => .array (done.length + 1)
  | member done _ => .object (done.length + 1) false

/-- The calls that were made before the part in progress. -/
def calls : Outer → List Call
  | item done => .startSequence :: Tree.itemCalls done
  | member done key => .startObject :: (Tree.memberCalls done ++ [.name key])

end Outer

namespace Draft

/-- The draft after a whole value in the innermost of these containers. -/
def place : List Outer → Tree → Draft
  | [], t => complete t
  | .item done :: outer, t => array (done ++ [t]) outer
  | .member done key :: outer, t => object (done ++ [(key, t)]) outer

/-- The containers around the next value, if a value may come next. -/
def inside? : Draft → Option (List Outer)
  | blank => some []
  | array items outer => some (.item items :: outer)
  | named members key outer => some (.member members key :: outer)
  | complete _ | object .. => none

/-- The draft after one more call, if the call is permitted. -/
def accept : Draft → Call → Option Draft
  | d, .startObject => d.inside?.map (object [])
  | d, .startSequence => d.inside?.map (array [])
  | d, .value v => d.inside?.map (place · (.scalar v))
  | object members outer, .name key => some (named members key outer)
  | object members outer, .endObject => some (place outer (.object members))
  | array items outer, .endSequence => some (place outer (.array items))
  | _, _ => none

/-- The draft after several more calls, if each is permitted. -/
def acceptAll (d : Draft) (calls : List Call) : Option Draft := calls.foldlM accept d

@[simp] theorem acceptAll_nil (d : Draft) : d.acceptAll [] = some d := rfl

@[simp] theorem acceptAll_cons (d : Draft) (c : Call) (calls : List Call) :
    d.acceptAll (c :: calls) = (d.accept c).bind (acceptAll · calls) := rfl

theorem acceptAll_append (d : Draft) (a b : List Call) :
    d.acceptAll (a ++ b) = (d.acceptAll a).bind (acceptAll · b) := List.foldlM_append

/-- The containers of the text, innermost first. -/
def frames : Draft → List Frame
  | blank | complete _ => []
  | array items outer => .array items.length :: outer.map Outer.frame
  | object members outer => .object members.length false :: outer.map Outer.frame
  | named members _ outer => .object (members.length + 1) true :: outer.map Outer.frame

/-- Whether a root value has been begun. -/
def started : Draft → Bool
  | blank => false
  | _ => true

/-- The calls that were made, innermost container last. -/
def calls : Draft → List Call
  | blank => []
  | complete t => t.calls
  | array items outer =>
    outer.reverse.flatMap Outer.calls ++ (.startSequence :: Tree.itemCalls items)
  | object members outer =>
    outer.reverse.flatMap Outer.calls ++ (.startObject :: Tree.memberCalls members)
  | named members key outer =>
    outer.reverse.flatMap Outer.calls ++
      (.startObject :: (Tree.memberCalls members ++ [.name key]))

section

variable {d e : Draft} {outer : List Outer}

theorem calls_of_inside? (h : d.inside? = some outer) :
    d.calls = outer.reverse.flatMap Outer.calls := by
  cases d <;> simp only [inside?, Option.some.injEq, reduceCtorEq] at h <;> subst h <;>
    simp [calls, Outer.calls]

theorem calls_place (outer : List Outer) (t : Tree) :
    (place outer t).calls = outer.reverse.flatMap Outer.calls ++ t.calls := by
  rcases outer with _ | ⟨done | ⟨done, key⟩, outer⟩ <;>
    simp [place, calls, Outer.calls, Tree.itemCalls_append, Tree.memberCalls_append,
      Tree.itemCalls, Tree.memberCalls]

/-- Every permitted call is added to the calls that were made. -/
theorem calls_accept {c : Call} (h : d.accept c = some e) : e.calls = d.calls ++ [c] := by
  cases c with
  | startObject =>
      obtain ⟨outer, inside, rfl⟩ := Option.map_eq_some_iff.mp h
      rw [calls_of_inside? inside]
      simp [calls, Tree.memberCalls]
  | startSequence =>
      obtain ⟨outer, inside, rfl⟩ := Option.map_eq_some_iff.mp h
      rw [calls_of_inside? inside]
      simp [calls, Tree.itemCalls]
  | value v =>
      obtain ⟨outer, inside, rfl⟩ := Option.map_eq_some_iff.mp h
      rw [calls_of_inside? inside, calls_place, Tree.calls]
  | name key =>
      cases d with
      | object members outer =>
          obtain rfl := Option.some.inj h
          simp [calls]
      | _ => cases h
  | endObject =>
      cases d with
      | object members outer =>
          obtain rfl := Option.some.inj h
          rw [calls_place]
          simp [calls, Tree.calls]
      | _ => cases h
  | endSequence =>
      cases d with
      | array items outer =>
          obtain rfl := Option.some.inj h
          rw [calls_place]
          simp [calls, Tree.calls]
      | _ => cases h

theorem calls_acceptAll {calls : List Call} (h : d.acceptAll calls = some e) :
    e.calls = d.calls ++ calls := by
  induction calls generalizing d with
  | nil =>
      obtain rfl : d = e := Option.some.inj h
      simp
  | cons c calls ih =>
      obtain ⟨middle, first, rest⟩ := Option.bind_eq_some_iff.mp h
      rw [ih rest, calls_accept first, List.append_assoc, List.singleton_append]

end

mutual

/-- The calls of a tree write the tree wherever a value may come. -/
theorem acceptAll_calls (t : Tree) {d : Draft} {outer : List Outer}
    (inside : d.inside? = some outer) : d.acceptAll t.calls = some (place outer t) := by
  cases t with
  | scalar v => simp [Tree.calls, accept, inside]
  | array items =>
      simp only [Tree.calls, acceptAll_cons, accept, inside, Option.map_some, Option.bind_some]
      rw [acceptAll_append, acceptAll_itemCalls items [] outer]
      rfl
  | object members =>
      simp only [Tree.calls, acceptAll_cons, accept, inside, Option.map_some, Option.bind_some]
      rw [acceptAll_append, acceptAll_memberCalls members [] outer]
      rfl

theorem acceptAll_itemCalls (items done : List Tree) (outer : List Outer) :
    (array done outer).acceptAll (Tree.itemCalls items) = some (array (done ++ items) outer) := by
  cases items with
  | nil => simp [Tree.itemCalls]
  | cons t items =>
      rw [Tree.itemCalls, acceptAll_append, acceptAll_calls t rfl, Option.bind_some, place,
        acceptAll_itemCalls items, List.append_assoc, List.singleton_append]

theorem acceptAll_memberCalls (members done : List (String × Tree)) (outer : List Outer) :
    (object done outer).acceptAll (Tree.memberCalls members) =
      some (object (done ++ members) outer) := by
  cases members with
  | nil => simp [Tree.memberCalls]
  | cons m members =>
      obtain ⟨key, t⟩ := m
      rw [Tree.memberCalls, acceptAll_cons, accept, Option.bind_some, acceptAll_append,
        acceptAll_calls t rfl, Option.bind_some, place, acceptAll_memberCalls members,
        List.append_assoc, List.singleton_append]

end

/-- Every draft is reached by its own calls, so the calls that were made determine the draft. -/
theorem acceptAll_calls_self (d : Draft) : blank.acceptAll d.calls = some d := by
  have enter (outer : List Outer) :
      ∃ e, blank.acceptAll (outer.reverse.flatMap Outer.calls) = some e ∧
        e.inside? = some outer := by
    induction outer with
    | nil => exact ⟨blank, rfl, rfl⟩
    | cons o outer ih =>
        obtain ⟨e, reached, inside⟩ := ih
        rw [List.reverse_cons, List.flatMap_append, acceptAll_append, reached]
        cases o with
        | item done =>
            refine ⟨array done outer, ?_, rfl⟩
            simp [Outer.calls, accept, inside, acceptAll_itemCalls]
        | member done key =>
            refine ⟨named done key outer, ?_, rfl⟩
            simp [Outer.calls, accept, inside, acceptAll_append, acceptAll_memberCalls]
  cases d with
  | blank => rfl
  | complete t => exact acceptAll_calls (d := blank) t rfl
  | array items outer =>
      obtain ⟨e, reached, inside⟩ := enter outer
      simp [calls, acceptAll_append, reached, accept, inside, acceptAll_itemCalls]
  | object members outer =>
      obtain ⟨e, reached, inside⟩ := enter outer
      simp [calls, acceptAll_append, reached, accept, inside, acceptAll_memberCalls]
  | named members key outer =>
      obtain ⟨e, reached, inside⟩ := enter outer
      simp [calls, acceptAll_append, reached, accept, inside, acceptAll_memberCalls]

theorem eq_of_calls_eq {d e : Draft} (h : d.calls = e.calls) : d = e := by
  have same := acceptAll_calls_self d
  rw [h, acceptAll_calls_self e] at same
  exact (Option.some.inj same).symm

/-- A draft that is not inside a container holds a whole tree once a root value was begun. -/
theorem eq_complete_of_frames {d : Draft} (started : d.started = true) (closed : d.frames = []) :
    ∃ t, d = complete t := by
  cases d with
  | complete t => exact ⟨t, rfl⟩
  | blank => simp [Draft.started] at started
  | array | object | named => simp [frames] at closed

end Draft

/-- No two trees are described by the same calls. -/
theorem Tree.calls_injective {t u : Tree} (h : t.calls = u.calls) : t = u :=
  Draft.complete.inj (Draft.eq_of_calls_eq (d := .complete t) (e := .complete u) h)

/-- The calls of a tree do not go on as the calls of another one. -/
theorem Tree.eq_of_calls_append {t u : Tree} {a b : List Call} (h : t.calls ++ a = u.calls ++ b) :
    t = u ∧ a = b := by
  have stops {t u : Tree} {m : List Call} (more : u.calls = t.calls ++ m) : m = [] := by
    have reached := Draft.acceptAll_calls u (d := .blank) rfl
    rw [more, Draft.acceptAll_append, Draft.acceptAll_calls t (d := .blank) rfl, Option.bind_some]
      at reached
    cases m with
    | nil => rfl
    | cons c m => cases c <;> cases reached
  rcases List.append_eq_append_iff.mp h with ⟨m, more, rest⟩ | ⟨m, more, rest⟩
  · obtain rfl := stops more
    rw [List.append_nil] at more
    exact ⟨Tree.calls_injective more.symm, rest⟩
  · obtain rfl := stops more
    rw [List.append_nil] at more
    exact ⟨Tree.calls_injective more, rest.symm⟩

/-- Items whose calls go on as those of other items are the others and perhaps some more. -/
theorem Tree.eq_append_of_itemCalls {ts us : List Tree} {more : List Call}
    (h : Tree.itemCalls us ++ [.endSequence] = Tree.itemCalls ts ++ more) :
    ∃ rest, us = ts ++ rest := by
  induction ts generalizing us with
  | nil => exact ⟨us, rfl⟩
  | cons t ts ih =>
      cases us with
      | nil => cases t <;> cases h
      | cons u us =>
          simp only [Tree.itemCalls, List.append_assoc] at h
          obtain ⟨rfl, same⟩ := Tree.eq_of_calls_append h
          obtain ⟨rest, rfl⟩ := ih same
          exact ⟨rest, rfl⟩

/-- What begins with the opening bracket of an array is an array. -/
theorem Tree.array_of_calls {t : Tree} {more : List Call} (h : t.calls = .startSequence :: more) :
    ∃ items, t = .array items ∧ more = Tree.itemCalls items ++ [.endSequence] := by
  cases t with
  | array items => exact ⟨items, rfl, (List.cons.inj h).2.symm⟩
  | scalar | object => cases h

end SceneStream
