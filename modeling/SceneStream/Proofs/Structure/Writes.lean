import SceneStream.Proofs.Structure.Showing
import SceneStream.Property.Value

/-!
# Operations that make calls

Most operations of a stream are a fixed sequence of structural calls: where the draft permits the
whole sequence, the operation is answered and the stream shows the draft behind it. Such operations
are put together like the sequences that they make.
-/

namespace SceneStream

namespace Stream

/-- The operation makes these calls, wherever all of them are permitted. -/
def Makes (op : StreamM Unit) (calls : List Call) : Prop :=
  ∀ ⦃s : Stream⦄ ⦃d e : Draft⦄, s.Shows d → d.acceptAll calls = some e →
    ∃ text, op s = .ok () (s.drawn text e) ∧ (s.drawn text e).Shows e

theorem makes_pure : Makes (pure ()) [] := by
  intro s d e shows accepted
  obtain rfl : d = e := Option.some.inj accepted
  refine ⟨s.sink.text, ?_, ?_⟩
  · rw [shows.drawn_self]
    rfl
  · rwa [shows.drawn_self]

theorem makes_perform (c : Call) : Makes (perform c) [c] := by
  intro s d e shows accepted
  rw [Draft.acceptAll_cons] at accepted
  obtain ⟨next, permitted, rest⟩ := Option.bind_eq_some_iff.mp accepted
  obtain rfl : next = e := Option.some.inj rest
  exact perform_of_accept shows permitted

theorem Makes.seq {op op' : StreamM Unit} {a b : List Call} (first : Makes op a)
    (second : Makes op' b) : Makes (do op; op') (a ++ b) := by
  intro s d f shows accepted
  rw [Draft.acceptAll_append] at accepted
  obtain ⟨e, before, after⟩ := Option.bind_eq_some_iff.mp accepted
  obtain ⟨text, run, shown⟩ := first shows before
  obtain ⟨text', run', shown'⟩ := second shown after
  exact ⟨text', by rw [bind_of_ok run, run', drawn_drawn], shown'⟩

theorem Makes.forM {α : Type} {f : α → StreamM Unit} {calls : α → List Call}
    (h : ∀ x, Makes (f x) (calls x)) (xs : List α) : Makes (xs.forM f) (xs.flatMap calls) := by
  induction xs with
  | nil => exact makes_pure
  | cons x xs ih => exact (h x).seq ih

theorem makes_name (key : String) : Makes (name key) [.name key] := makes_perform (.name key)

theorem makes_value (v : Scalar) : Makes (value v) [.value v] := makes_perform (.value v)

end Stream

namespace Tree

/-- The value of a literal: its one component, or an array of them. -/
def ofLiteral (k : Kind) (e : k.Encoding) (v : k.Value) : Tree :=
  match k.components e v with
  | [c] => scalar c
  | cs => array (cs.map scalar)

/-- Samples in one flat array, the time of each before its components. -/
def ofSamples (k : Kind) (e : k.Encoding) (epoch : Option Instant) (s : TimeSeries k.Value) : Tree :=
  array (s.samples.flatMap fun (date, v) =>
    scalar (Stream.timeScalar epoch date) :: (k.components e v).map scalar)

theorem itemCalls_scalars (cs : List Scalar) :
    itemCalls (cs.map scalar) = cs.flatMap fun c => [.value c] := by
  induction cs with
  | nil => rfl
  | cons c cs ih => simp only [List.map_cons, itemCalls, calls, ih, List.flatMap_cons]

theorem itemCalls_flatMap {α : Type} (f : α → List Tree) (xs : List α) :
    itemCalls (xs.flatMap f) = xs.flatMap fun x => itemCalls (f x) := by
  induction xs with
  | nil => rfl
  | cons x xs ih => rw [List.flatMap_cons, itemCalls_append, ih, List.flatMap_cons]

end Tree

namespace Stream

theorem makes_values (cs : List Scalar) : Makes (values cs) (Tree.itemCalls (cs.map .scalar)) := by
  rw [Tree.itemCalls_scalars]
  exact Makes.forM makes_value cs

/-- Items between the brackets of an array. -/
theorem Makes.array {op : StreamM Unit} {items : List Tree} (h : Makes op (Tree.itemCalls items)) :
    Makes (do startSequence; op; endSequence) (Tree.array items).calls :=
  (makes_perform .startSequence).seq (h.seq (makes_perform .endSequence))

theorem makes_literal (k : Kind) (e : k.Encoding) (v : k.Value) :
    Makes (literal k e v) (Tree.ofLiteral k e v).calls := by
  have length := k.length_components e v
  unfold literal Tree.ofLiteral
  split
  next single =>
    obtain ⟨c, one⟩ := List.length_eq_one_iff.mp (length.trans single)
    rw [one]
    exact makes_values [c]
  next several =>
    split
    next c one => exact absurd (by rw [← length, one, List.length_singleton]) several
    next => exact (makes_values _).array

theorem makes_samples (k : Kind) (e : k.Encoding) (epoch : Option Instant)
    (s : TimeSeries k.Value) :
    Makes (samples k e epoch s) (Tree.ofSamples k e epoch s).calls := by
  apply Makes.array
  rw [Tree.itemCalls_flatMap]
  exact Makes.forM (fun x => (makes_value _).seq (makes_values _)) s.samples

end Stream

end SceneStream
