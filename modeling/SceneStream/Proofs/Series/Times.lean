import Mathlib.Data.List.Chain
import SceneStream.Proofs.Time.Elapsed
import SceneStream.Proofs.Writer.Value

/-!
# The times of samples

The dates of a series never decrease, in the whole series and so in every window of it. Written as
seconds after an epoch they never decrease either, as long as each date is in step with the next one
under that epoch. Near a leap second they need not be: an instant behind the epoch can have a time
below zero.
-/

namespace SceneStream

/-- One number is at most another; both are finite. -/
def Binary.AtMost {f : Binary.Format} (x y : Binary f) : Prop :=
  ∃ a ∈ x.toRat?, ∃ b ∈ y.toRat?, a ≤ b

namespace Binary.AtMost

variable {f : Format} {x y z : Binary f}

theorem iff_of_toRat? {a b : ℚ} (hx : x.toRat? = some a) (hy : y.toRat? = some b) :
    x.AtMost y ↔ a ≤ b := by
  simp [AtMost, hx, hy]

theorem trans (first : x.AtMost y) (second : y.AtMost z) : x.AtMost z := by
  obtain ⟨a, hx, b, hy, le⟩ := first
  obtain ⟨b', hy', c, hz, le'⟩ := second
  obtain rfl : b = b' := Option.some.inj (hy.symm.trans hy')
  exact ⟨a, hx, c, hz, le.trans le'⟩

instance : Trans (AtMost (f := f)) AtMost AtMost := ⟨trans⟩

end Binary.AtMost

namespace Instant

variable {epoch a b : Instant}

theorem secondsSince_atMost (le : a ≤ b) (inStep : InStep epoch a b) :
    (secondsSince epoch a).AtMost (secondsSince epoch b) :=
  (Binary.AtMost.iff_of_toRat? (toRat?_secondsSince epoch a) (toRat?_secondsSince epoch b)).mpr
    (roundedSeconds_mono (nanosSince_mono le inStep))

@[simp] theorem secondsSince_self (epoch : Instant) : secondsSince epoch epoch = .zero false := by
  have nothing := nanosSince_self epoch
  simp only [secondsSince, nothing]
  decide +kernel

end Instant

/-! ## Dates -/

theorem isChain_of_firstDecrease? {dates : List Instant} (none : firstDecrease? dates = none) :
    dates.IsChain (· ≤ ·) := by
  fun_induction firstDecrease? dates with
  | case1 a b rest less => cases none
  | case2 a b rest ordered ih =>
      exact .cons_cons (Instant.not_lt.mp ordered) (ih (Option.map_eq_none_iff.mp none))
  | case3 dates short =>
      match dates with
      | [] => exact .nil
      | [a] => exact .singleton a
      | a :: b :: rest => exact absurd rfl (short a b rest)

namespace TimeSeries

variable {α : Type}

theorem isChain_dates (s : TimeSeries α) : s.dates.IsChain (· ≤ ·) :=
  ((isChain_of_firstDecrease? s.ordered).drop s.start).take s.length

/-- The times of the samples in the window, in seconds after an epoch. -/
def times (s : TimeSeries α) (epoch : Instant) : List Double :=
  s.dates.map (Instant.secondsSince epoch)

theorem length_times (s : TimeSeries α) (epoch : Instant) : (s.times epoch).length = s.length := by
  rw [times, List.length_map, length_dates]

theorem pairwise_times (s : TimeSeries α) {epoch : Instant}
    (inStep : s.dates.IsChain (Instant.InStep epoch)) :
    (s.times epoch).Pairwise Binary.AtMost := by
  have ordered : (s.times epoch).IsChain Binary.AtMost := by
    rw [times, List.isChain_map, List.isChain_iff_getElem]
    intro i inside
    exact Instant.secondsSince_atMost (List.isChain_iff_getElem.mp s.isChain_dates i inside)
      (List.isChain_iff_getElem.mp inStep i inside)
  exact ordered.pairwise

/-- After its own first date, a window starts at zero and stays behind it. -/
theorem times_firstDate (s : TimeSeries α) {epoch : Instant} (first : s.firstDate? = some epoch)
    (inStep : s.dates.IsChain (Instant.InStep epoch)) :
    (s.times epoch).head? = some (.zero false) ∧
      ∀ t ∈ s.times epoch, (Binary.zero false : Double).AtMost t := by
  have start : (s.times epoch).head? = some (.zero false) := by
    rw [times, List.head?_map, ← firstDate?, first, Option.map_some, Instant.secondsSince_self]
  refine ⟨start, ?_⟩
  obtain ⟨rest, split⟩ := List.head?_eq_some_iff.mp start
  have ordered := s.pairwise_times inStep
  rw [split] at ordered ⊢
  have zero := Binary.toRat?_zero (f := .double) false
  intro t member
  rcases List.mem_cons.mp member with rfl | later
  · exact (Binary.AtMost.iff_of_toRat? zero zero).mpr le_rfl
  · exact List.rel_of_pairwise_cons ordered later

end TimeSeries

/-! ## Arrays of samples -/

section

variable {α β : Type} {block : α → List β} {size : Nat}

theorem length_flatMap_blocks (sized : ∀ x, (block x).length = size) (xs : List α) :
    (xs.flatMap block).length = xs.length * size := by
  rw [List.length_flatMap, List.map_congr_left fun x _ => sized x, List.map_const',
    List.sum_replicate_nat]

/-- The items from one block to the next are that block. -/
theorem block_flatMap (sized : ∀ x, (block x).length = size) {xs : List α} {i : Nat} {x : α}
    (at_i : xs[i]? = some x) : ((xs.flatMap block).drop (i * size)).take size = block x := by
  induction xs generalizing i with
  | nil => cases at_i
  | cons y xs ih =>
      rw [List.flatMap_cons]
      cases i with
      | zero =>
          obtain rfl := Option.some.inj at_i
          rw [Nat.zero_mul, List.drop_zero, ← sized y, List.take_left]
      | succ i =>
          rw [Nat.succ_mul, Nat.add_comm, ← List.drop_drop, ← sized y, List.drop_left, sized]
          exact ih at_i

/-- In blocks of one length, every so many items a block begins. -/
theorem getElem?_flatMap_blocks (sized : ∀ x, (block x).length = size + 1) (xs : List α) (i : Nat) :
    (xs.flatMap block)[i * (size + 1)]? = xs[i]?.bind fun x => (block x).head? := by
  cases at_i : xs[i]? with
  | none =>
      rw [Option.bind_none, List.getElem?_eq_none_iff, length_flatMap_blocks sized]
      exact Nat.mul_le_mul_right _ (List.getElem?_eq_none_iff.mp at_i)
  | some x =>
      rw [Option.bind_some, ← block_flatMap sized at_i, List.head?_take, if_neg (Nat.succ_ne_zero _),
        List.head?_drop]

end

/-- The times in an array of samples whose window starts at `first`: one stands in front of the
components of each sample, and none is below the one before it. Where the epoch is the first date,
the first time is zero and none is negative. -/
structure OrderedTimes (k : Kind) (first epoch : Option Instant) (items : List Tree)
    (times : List Double) : Prop where
  length : items.length = times.length * (k.arity + 1)
  placed : ∀ i, items[i * (k.arity + 1)]? = times[i]?.map fun t => .scalar (.double t)
  ordered : times.Pairwise Binary.AtMost
  fromFirst : epoch = first →
    (∀ t ∈ times.head?, t = .zero false) ∧ ∀ t ∈ times, (Binary.zero false : Double).AtMost t

variable {k : Kind} {e : k.Encoding} {s : TimeSeries k.Value}

/-- A window without samples has no times. -/
theorem orderedTimes_nil (first : Option Instant) : OrderedTimes k first none [] [] :=
  ⟨by simp, by simp, .nil, by simp⟩

theorem orderedTimes_samples {epoch : Instant} (inStep : s.dates.IsChain (Instant.InStep epoch)) :
    ∃ items, Tree.ofSamples k e (some epoch) s = .array items ∧
      OrderedTimes k s.firstDate? (some epoch) items (s.times epoch) := by
  let block (x : Instant × k.Value) : List Tree :=
    .scalar (Stream.timeScalar (some epoch) x.1) :: (k.components e x.2).map .scalar
  have sized (x) : (block x).length = k.arity + 1 := by
    rw [List.length_cons, List.length_map, k.length_components]
  have paired : s.samples.map Prod.fst = s.dates :=
    List.map_fst_zip (by rw [s.length_dates, s.length_values])
  refine ⟨s.samples.flatMap block, rfl, ?_, ?_, s.pairwise_times inStep, ?_⟩
  · rw [length_flatMap_blocks sized, TimeSeries.times, ← paired, List.length_map, List.length_map]
  · intro i
    rw [getElem?_flatMap_blocks sized, TimeSeries.times, ← paired, List.map_map, List.getElem?_map,
      Option.map_map]
    cases s.samples[i]? <;> rfl
  · intro chosen
    have start := s.times_firstDate chosen.symm inStep
    exact ⟨fun t head => Option.some.inj (head.symm.trans start.1), start.2⟩

/-- The epoch of a series: none for a window without samples. -/
theorem ofSamples_of_firstDate? (none : s.firstDate? = none) (epoch : Option Instant) :
    Tree.ofSamples k e epoch s = .array [] := by
  have dates : s.dates = [] := List.head?_eq_none_iff.mp none
  rw [Tree.ofSamples, TimeSeries.samples, dates]
  rfl

namespace Property

/-- The times that a property writes under an epoch never run backwards, as long as each date in the
window is in step with the next one; in step, no two instants change their order under an epoch. -/
theorem orderedTimes_writeSeries (stream : Stream) (p : Property) (k : Kind) (e : k.Encoding)
    (s : TimeSeries k.Value) (seconds : stream.settings.timeEncoding = .epochSeconds)
    (inStep : ∀ epoch ∈ s.firstDate?.bind stream.settings.sampleEpoch,
      s.dates.IsChain (Instant.InStep epoch)) :
    (∃ items times, Adds stream p (writeSeries k e s)
        (p.valueWritten = false ∧ (∀ v ∈ s.values, k.defect? v = none) ∧ p.TakesEntries stream)
        (.members ((s.firstDate?.bind stream.settings.sampleEpoch).toList.map
          (fun t => ("epoch", .scalar (.text t.text))) ++ [(k.key e, .array items)]))
        (p.valued (.ofSeries stream.settings k e s)) ∧
      times.length = s.length ∧
      OrderedTimes k s.firstDate? (s.firstDate?.bind stream.settings.sampleEpoch) items times) ∧
    ∀ {epoch a b : Instant}, a ≤ b → Instant.InStep epoch a b →
      (Instant.secondsSince epoch a).AtMost (Instant.secondsSince epoch b) := by
  refine ⟨?_, Instant.secondsSince_atMost⟩
  have adds := adds_writeSeries (s := stream) (p := p) k e s
  simp only [Write.ofSeries] at adds ⊢
  cases first : s.firstDate? with
  | none =>
      have empty : s.length = 0 := by
        rw [← s.length_dates, List.head?_eq_none_iff.mp first, List.length_nil]
      rw [first, ofSamples_of_firstDate? first] at adds
      exact ⟨[], [], adds, empty.symm, orderedTimes_nil none⟩
  | some date =>
      have chosen : s.firstDate?.bind stream.settings.sampleEpoch =
          some (stream.settings.epoch.getD date) := by
        rw [first, Option.bind_some, Settings.sampleEpoch, seconds]
      obtain ⟨items, array, ordered⟩ := orderedTimes_samples (e := e) (inStep _ chosen)
      rw [chosen, array] at adds
      rw [first] at chosen ordered
      rw [chosen]
      exact ⟨items, _, adds, s.length_times _, ordered⟩

end Property

/-- Half a second into the leap second at the end of 2016. -/
def Instant.leapSecond : Instant := ⟨1483228799, 1500000000, by decide, by decide⟩

/-- Two samples within a leap second, and one more than two seconds after it. -/
def TimeSeries.acrossLeap : TimeSeries Double where
  allDates := [Instant.leapSecond, ⟨1483228799, 1750000000, by decide, by decide⟩,
    ⟨1483228802, 250000000, by decide, by decide⟩]
  allValues := [.zero false, .zero false, .zero false]
  start := 0
  length := 3
  values_length := rfl
  ordered := by decide
  window := by decide

/-- The height of an object, as it was just opened. -/
def Property.openHeight : Writing Property where
  stream :=
    { sink := { text := "\x7b\"height\":" }
      frames := [.object 1 true]
      rootWritten := true
      writers := [0]
      nextToken := 1 }
  own := { name := "height", token := some 0 }

theorem Property.orderedTimes_acrossLeap :
    let taken : Prop := openHeight.own.valueWritten = false ∧
      (∀ v ∈ TimeSeries.acrossLeap.values, Kind.number.defect? v = none) ∧
      openHeight.own.TakesEntries openHeight.stream
    TimeSeries.acrossLeap.dates.IsChain (Instant.InStep Instant.leapSecond) ∧ taken ∧
    EStateM.run' (writeSeries .number () TimeSeries.acrossLeap) openHeight = some () ∧
    (∃ items times, Adds openHeight.stream openHeight.own
        (writeSeries .number () TimeSeries.acrossLeap) taken
        (.members [("epoch", .scalar (.text Instant.leapSecond.text)), ("number", .array items)])
        (openHeight.own.valued (.ofSeries {} .number () TimeSeries.acrossLeap)) ∧
      times.length = 3 ∧
      OrderedTimes .number (some Instant.leapSecond) (some Instant.leapSecond) items times) ∧
    (Instant.secondsSince Instant.leapSecond Instant.leapSecond).AtMost
      (Instant.secondsSince Instant.leapSecond ⟨1483228802, 250000000, by decide, by decide⟩) := by
  intro taken
  have inStep : TimeSeries.acrossLeap.dates.IsChain (Instant.InStep Instant.leapSecond) := by decide
  have legal : taken := ⟨rfl, by decide, ⟨0, rfl, rfl⟩, .inl rfl⟩
  have kept := orderedTimes_writeSeries openHeight.stream openHeight.own .number ()
    TimeSeries.acrossLeap rfl fun epoch chosen => by
      obtain rfl : Instant.leapSecond = epoch := Option.some.inj chosen
      exact inStep
  exact ⟨inStep, legal, by decide +kernel, kept.1, kept.2 (by decide) (by decide)⟩

/-- Time runs backwards at the end of a leap second: half a second into it comes the next minute, and
its time after an epoch within the leap second is minus one half. -/
theorem Instant.secondsSince_afterLeap :
    let minute : Instant := ⟨1483228800, 0, by decide, by decide⟩
    leapSecond < minute ∧ firstDecrease? [leapSecond, minute] = none ∧
      (secondsSince leapSecond leapSecond).toRat? = some 0 ∧
      (secondsSince leapSecond minute).toRat? = some (-1 / 2) ∧
      ¬ (secondsSince leapSecond leapSecond).AtMost
        (secondsSince leapSecond minute) := by
  have start : (secondsSince leapSecond leapSecond).toRat? = some 0 := by
    rw [secondsSince_self, Binary.toRat?_zero]
  have next : (secondsSince leapSecond ⟨1483228800, 0, by decide, by decide⟩).toRat? =
      some (-1 / 2) := by decide +kernel
  refine ⟨by decide, by decide, start, next, ?_⟩
  rw [Binary.AtMost.iff_of_toRat? start next]
  norm_num

end SceneStream
