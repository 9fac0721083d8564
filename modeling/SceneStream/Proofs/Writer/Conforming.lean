import SceneStream.Proofs.Series.Slicing
import SceneStream.Proofs.Reference.RoundTrip
import SceneStream.Proofs.Session.Deeds
import SceneStream.Proofs.Writer.Finite

/-!
# Values that conform

What stands in a document is judged by the names in it and by nothing else: under the key of a kind
stand values of the kind, samples of it, or the list of intervals of a property that is called alike,
and a scalar under the name of a property is a value of the property's kind. A value conforms if its
scalars are such as the constructor of its kind lets through. Whatever is written for a valid value
conforms, by whichever way the value came.
-/

namespace SceneStream

/-! ## Scalars -/

/-- Whether these are the scalars of one value of the kind, in this encoding, with all that the kind
requires of its values. Of URIs it is required that they are admitted. -/
def Kind.Accepts (admits : String → Prop) : (k : Kind) → k.Encoding → List Scalar → Prop
  | .boolean, _, cs => ∃ b, cs = [.bool b]
  | .number, _, cs => ∃ x : Double, x.isFinite = true ∧ cs = [.double x]
  | .integer, _, cs =>
    ∃ n : Int, Int32.minValue.toInt ≤ n ∧ n ≤ Int32.maxValue.toInt ∧ cs = [.integer n]
  | .string, _, cs => ∃ text, cs = [.text text]
  | .uri, _, cs => ∃ text, admits text ∧ cs = [.text text]
  | .color, .rgba, cs =>
    ∃ channels : List Int, channels.length = 4 ∧ (∀ n ∈ channels, 0 ≤ n ∧ n ≤ 255) ∧
      cs = channels.map .integer
  | .color, .rgbaf, cs =>
    ∃ channels : List Single, channels.length = 4 ∧
      (∀ x ∈ channels, ∃ r ∈ x.toRat?, 0 ≤ r ∧ r ≤ 1) ∧ cs = channels.map .single
  | .extent, _, cs =>
    ∃ xs : List Double, xs.length = 4 ∧ (∀ x ∈ xs, x.isFinite = true) ∧ cs = xs.map .double
  | .bounds, _, cs => ∃ lower upper : Double, lower.AtMost upper ∧ cs = [.double lower, .double upper]
  | .cartesian2, _, cs =>
    ∃ xs : List Double, xs.length = 2 ∧ (∀ x ∈ xs, x.isFinite = true) ∧ cs = xs.map .double
  | .cartesian, _, cs =>
    ∃ xs : List Double, xs.length = 3 ∧ (∀ x ∈ xs, x.isFinite = true) ∧ cs = xs.map .double
  | .heightReference, _, cs => ∃ w : HeightReference, cs = [.text (Vocabulary.token w)]
  | .shadowMode, _, cs => ∃ w : ShadowMode, cs = [.text (Vocabulary.token w)]
  | .classificationType, _, cs => ∃ w : ClassificationType, cs = [.text (Vocabulary.token w)]

/-- The texts of a value that are URIs. -/
def Kind.uris : (k : Kind) → k.Value → List String
  | .uri, u => [Uri.text u]
  | _, _ => []

theorem Color.toByte_le (x : Single) : Color.toByte x ≤ 255 := by
  unfold toByte
  split
  · exact Nat.min_le_left _ _
  · exact Nat.zero_le _

/-- Bounds that are not refused are a pair of numbers of which the first is at most the second. -/
theorem Bounds.atMost_of_defect? {b : Bounds} (valid : b.defect? = none) :
    b.lower.AtMost b.upper := by
  unfold defect? at valid
  split at valid
  next lower upper at_lower at_upper =>
    rw [Binary.AtMost.iff_of_toRat? at_lower at_upper]
    by_contra reversed
    rw [if_pos (not_le.mp reversed)] at valid
    cases valid
  next => cases valid

theorem Binary.unit_of_inUnit {f : Binary.Format} {x : Binary f} (h : x.inUnit = true) :
    ∃ r ∈ x.toRat?, 0 ≤ r ∧ r ≤ 1 := by
  unfold inUnit at h
  split at h
  next r value => exact ⟨r, value, by simpa using h⟩
  next => cases h

theorem forall_isFinite_of_allFinite {xs : List Double} {d : Defect}
    (valid : (if allFinite xs then none else some d) = none) : ∀ x ∈ xs, x.isFinite = true := by
  intro x mem
  exact isFinite_of_allFinite valid _ (List.mem_map_of_mem mem)

/-- What is written for a value that is not refused is what its kind accepts. -/
theorem Kind.accepts_components {admits : String → Prop} {k : Kind} {v : k.Value}
    (valid : k.defect? v = none) (admitted : ∀ u ∈ k.uris v, admits u) (e : k.Encoding) :
    k.Accepts admits e (k.components e v) := by
  cases k with
  | boolean | string | heightReference | shadowMode | classificationType => exact ⟨_, rfl⟩
  | number => exact ⟨v, isFinite_components (k := .number) valid () _ (List.mem_singleton_self _), rfl⟩
  | integer => exact ⟨v.toInt, Int32.minValue_le_toInt v, Int32.toInt_le v, rfl⟩
  | uri => exact ⟨_, admitted _ (List.mem_singleton_self _), rfl⟩
  | bounds => exact ⟨_, _, Bounds.atMost_of_defect? valid, rfl⟩
  | extent | cartesian2 | cartesian => exact ⟨_, rfl, forall_isFinite_of_allFinite valid, rfl⟩
  | color =>
    cases e with
    | rgba =>
      refine ⟨(Color.bytes v).map Int.ofNat, rfl, ?_, by rw [List.map_map]; rfl⟩
      intro n mem
      obtain ⟨b, byte, rfl⟩ := List.mem_map.mp mem
      obtain ⟨x, -, rfl⟩ := List.mem_map.mp byte
      exact ⟨Int.natCast_nonneg _, Int.ofNat_le.mpr (Color.toByte_le x)⟩
    | rgbaf =>
      refine ⟨_, rfl, fun x mem => ?_, rfl⟩
      exact Binary.unit_of_inUnit (List.all_eq_true.mp v.inUnit x mem)

/-- A series holds the URIs of its window. -/
def Binding.uris {k : Kind} : Binding k → List String
  | .literal v => k.uris v
  | .samples series => series.values.flatMap k.uris
  | .reference _ => []

/-! ## Trees -/

/-- Whether some composite or a packet has a property of this name that holds values of the kind. -/
def Kind.IsOf (k : Kind) (name : String) : Prop :=
  ∃ shape : Shape, shape.child? name = some (.value k)

namespace Tree

/-- A value that is one scalar, or an array of several. -/
def ofScalars : List Scalar → Tree
  | [c] => scalar c
  | cs => array (cs.map scalar)

/-- Samples in one flat array, the time of each before its scalars. -/
def ofTimed (epoch : Option Instant) (samples : List (Instant × List Scalar)) : Tree :=
  array (samples.flatMap fun sample =>
    scalar (Stream.timeScalar epoch sample.1) :: sample.2.map scalar)

mutual

/-- Whether this may stand under this name in a document. -/
inductive Conforms (admits : String → Prop) : String → Tree → Prop where
  /-- A literal in place of a whole property. -/
  | bare {k : Kind} {name : String} {cs : List Scalar} (property : k.IsOf name)
      (simple : k.isBare = true) (accepts : k.Accepts admits k.standard cs) :
      Conforms admits name (ofScalars cs)
  | value {k : Kind} {e : k.Encoding} {cs : List Scalar} (accepts : k.Accepts admits e cs) :
      Conforms admits (k.key e) (ofScalars cs)
  | samples {k : Kind} {e : k.Encoding} (epoch : Option Instant)
      {samples : List (Instant × List Scalar)}
      (accept : ∀ sample ∈ samples, k.Accepts admits e sample.2) :
      Conforms admits (k.key e) (ofTimed epoch samples)
  | reference {text : String} {r : Reference} (parsed : Reference.parse text = .ok r) :
      Conforms admits "reference" (scalar (.text text))
  | epoch (t : Instant) : Conforms admits "epoch" (scalar (.text t.text))
  | interval (i : Interval) : Conforms admits "interval" (scalar (.text i.text))
  | delete (b : Bool) : Conforms admits "delete" (scalar (.bool b))
  | algorithm (a : InterpolationAlgorithm) :
      Conforms admits "interpolationAlgorithm" (scalar (.text (Vocabulary.token a)))
  | degree {n : Nat} (positive : n ≠ 0) :
      Conforms admits "interpolationDegree" (scalar (.integer n))
  | packet (c : PacketCommand) : Conforms admits c.toMember.1 (scalar c.toMember.2)
  | whole {name : String} {t : Tree} (composed : Composed admits t) : Conforms admits name t

/-- Whether an object has conforming members only, and an array such objects. -/
inductive Composed (admits : String → Prop) : Tree → Prop where
  | object {members : List (String × Tree)}
      (each : ∀ m ∈ members, Conforms admits m.1 m.2) : Composed admits (object members)
  | array {items : List Tree} (each : ∀ t ∈ items, Composed admits t) :
      Composed admits (array items)

end

theorem ofSamples_eq (k : Kind) (e : k.Encoding) (epoch : Option Instant)
    (series : TimeSeries k.Value) :
    ofSamples k e epoch series =
      ofTimed epoch (series.samples.map fun sample => (sample.1, k.components e sample.2)) := by
  rw [ofTimed, List.flatMap_map]
  rfl

end Tree

/-! ## What stands inside of a tree -/

namespace Tree

/-- Whether this stands under this name somewhere in the tree. -/
inductive StandsIn (name : String) (t : Tree) : Tree → Prop where
  | here {members : List (String × Tree)} (mem : (name, t) ∈ members) :
      StandsIn name t (object members)
  | member {key : String} {u : Tree} {members : List (String × Tree)} (mem : (key, u) ∈ members)
      (inside : StandsIn name t u) : StandsIn name t (object members)
  | item {u : Tree} {items : List Tree} (mem : u ∈ items) (inside : StandsIn name t u) :
      StandsIn name t (array items)

variable {admits : String → Prop} {name key : String} {t u : Tree} {cs : List Scalar}
  {items : List Tree}

theorem not_standsIn_scalars (scalars : ∀ u ∈ items, ∃ v, u = scalar v) :
    ¬ StandsIn name t (array items) := by
  rintro (_ | _ | ⟨mem, inside⟩)
  obtain ⟨v, rfl⟩ := scalars _ mem
  cases inside

theorem not_standsIn_ofScalars : ¬ StandsIn name t (ofScalars cs) := by
  unfold ofScalars
  split
  · rintro ⟨⟩
  · apply not_standsIn_scalars
    intro u mem
    obtain ⟨v, -, rfl⟩ := List.mem_map.mp mem
    exact ⟨v, rfl⟩

theorem not_standsIn_ofTimed {epoch : Option Instant} {samples : List (Instant × List Scalar)} :
    ¬ StandsIn name t (ofTimed epoch samples) := by
  apply not_standsIn_scalars
  intro u mem
  obtain ⟨sample, -, mem⟩ := List.mem_flatMap.mp mem
  rcases List.mem_cons.mp mem with rfl | mem
  · exact ⟨_, rfl⟩
  · obtain ⟨v, -, rfl⟩ := List.mem_map.mp mem
    exact ⟨v, rfl⟩

/-- What has names inside is an object, or an array of objects. -/
theorem StandsIn.composed (stands : StandsIn name t u) (conforms : Conforms admits key u) :
    Composed admits u := by
  cases conforms with
  | bare | value => exact absurd stands not_standsIn_ofScalars
  | samples => exact absurd stands not_standsIn_ofTimed
  | reference | epoch | interval | delete | algorithm | degree | packet => cases stands
  | whole composed => exact composed

theorem StandsIn.conforms (stands : StandsIn name t u) (composed : Composed admits u) :
    Conforms admits name t := by
  induction stands with
  | here mem =>
    cases composed with
    | object each => exact each _ mem
  | member mem inside ih =>
    cases composed with
    | object each => exact ih (inside.composed (each _ mem))
  | item mem inside ih =>
    cases composed with
    | array each => exact ih (each _ mem)

end Tree

/-! ## What a name tells -/

/-- All properties that have values, and the kinds of these. -/
def valueRows : List (String × Kind) :=
  [Shape.packet, .property (.composite .rectangle), .property (.composite .box),
    .property (.composite .material), .property (.composite .solidColor),
    .property (.composite .image), .property (.composite .grid)].flatMap fun shape =>
      shape.rows.filterMap fun row =>
        match row.content with
        | .value k => some (row.name, k)
        | .composite _ => none

/-- The kind of the values of a property. -/
def kindNamed? (name : String) : Option Kind := (valueRows.find? (·.1 = name)).map (·.2)

/-- Properties of one name have values of one kind, whatever they are properties of. -/
theorem Kind.IsOf.kindNamed?_eq {k : Kind} {name : String} (property : k.IsOf name) :
    kindNamed? name = some k := by
  obtain ⟨shape, child⟩ := property
  obtain ⟨row, found, content⟩ := Option.map_eq_some_iff.mp child
  have same : row.name = name := by simpa using List.find?_some found
  have listed : (name, k) ∈ valueRows := by
    refine List.mem_flatMap.mpr ⟨shape, ?_, List.mem_filterMap.mpr
      ⟨row, List.mem_of_find?_eq_some found, by rw [content, same]⟩⟩
    rcases shape with _ | _ | (_ | _ | _ | _ | _ | _)
    case property.value => cases found
    all_goals simp
  have rows : (valueRows.all fun row => kindNamed? row.1 = some row.2) = true := by decide +kernel
  simpa using List.all_eq_true.mp rows _ listed

/-- A property that is called like a key has values of the kind that the key belongs to. -/
theorem eq_of_kindNamed?_key {k k' : Kind} {e : k.Encoding}
    (named : kindNamed? (k.key e) = some k') : k = k' := by
  have same : ((kindNamed? (k.key e)).all (k = ·)) = true := by
    cases k <;> cases e <;> decide +kernel
  rw [named] at same
  simpa using same

/-- No property is called like a member of a packet that is none. -/
theorem kindNamed?_toMember (c : PacketCommand) : kindNamed? c.toMember.1 = none := by
  cases c <;> rfl

theorem Tree.eq_of_ofScalars {v : Scalar} {cs : List Scalar} (h : ofScalars cs = scalar v) :
    cs = [v] := by
  unfold ofScalars at h
  split at h
  · rw [Tree.scalar.inj h]
  · cases h

/-- A scalar that conforms under the name of a property is a value of the property's kind. -/
theorem Tree.Conforms.accepts {admits : String → Prop} {k : Kind} {name : String} {v : Scalar}
    (conforms : Tree.Conforms admits name (.scalar v)) (property : k.IsOf name) :
    ∃ e, k.Accepts admits e [v] := by
  have named := property.kindNamed?_eq
  generalize whole : Tree.scalar v = t at conforms
  cases conforms with
  | bare other _ accepts =>
    obtain rfl := Option.some.inj (other.kindNamed?_eq.symm.trans named)
    rw [Tree.eq_of_ofScalars whole.symm] at accepts
    exact ⟨_, accepts⟩
  | value accepts =>
    obtain rfl := eq_of_kindNamed?_key named
    rw [Tree.eq_of_ofScalars whole.symm] at accepts
    exact ⟨_, accepts⟩
  | samples => cases whole
  | reference | epoch | interval | delete | algorithm | degree => cases named
  | packet c => cases (kindNamed?_toMember c).symm.trans named
  | whole composed =>
    subst whole
    cases composed

/-! ## Writes -/

namespace Write

/-- Whether what the write adds to an object conforms. -/
def Keyed (admits : String → Prop) : Write → Prop
  | literal _ key t => Tree.Conforms admits key t
  | members added => ∀ m ∈ added, Tree.Conforms admits m.1 m.2

/-- Whether the write conforms where it stands for a whole property of this name. -/
def Alone (admits : String → Prop) (name : String) : Write → Prop
  | literal simple _ t => simple = true → Tree.Conforms admits name t
  | members _ => True

/-- Whether the write conforms wherever it is made to a property that has values of this kind. -/
structure Conforms (admits : String → Prop) (k : Kind) (w : Write) : Prop where
  keyed : w.Keyed admits
  alone : ∀ {name}, k.IsOf name → w.Alone admits name

variable {admits : String → Prop} {k : Kind} {v : k.Value} {b : Binding k}
  {series : TimeSeries k.Value} {added : List (String × Tree)}

theorem conforms_members (each : ∀ m ∈ added, Tree.Conforms admits m.1 m.2) (k : Kind) :
    (members added).Conforms admits k := ⟨each, fun _ => trivial⟩

theorem conforms_ofLiteral (valid : k.defect? v = none) (admitted : ∀ u ∈ k.uris v, admits u)
    (force : Bool) (e : k.Encoding) : (ofLiteral force k e v).Conforms admits k where
  keyed := .value (Kind.accepts_components valid admitted e)
  alone := by
    intro name property simple
    obtain ⟨⟨bare, rfl⟩, -⟩ : (k.isBare = true ∧ e = k.standard) ∧ force = false := by
      simpa using simple
    exact .bare property bare (Kind.accepts_components valid admitted _)

theorem conforms_ofSeries (valid : ∀ v ∈ series.values, k.defect? v = none)
    (admitted : ∀ u ∈ series.values.flatMap k.uris, admits u) (settings : Settings)
    (e : k.Encoding) : (ofSeries settings k e series).Conforms admits k := by
  apply conforms_members
  intro m mem
  rcases List.mem_append.mp mem with mem | mem
  · obtain ⟨t, -, rfl⟩ := List.mem_map.mp mem
    exact .epoch t
  · obtain rfl := List.mem_singleton.mp mem
    rw [Tree.ofSamples_eq]
    refine .samples _ fun sample mem => ?_
    obtain ⟨⟨date, v⟩, paired, rfl⟩ := List.mem_map.mp mem
    have shown := (List.of_mem_zip paired).2
    exact Kind.accepts_components (valid v shown)
      (fun u mem => admitted u (List.mem_flatMap.mpr ⟨v, shown, mem⟩)) e

theorem conforms_ofReference (r : Reference) (k : Kind) : (ofReference r).Conforms admits k :=
  conforms_members (List.forall_mem_singleton.mpr (.reference r.parse_text)) k

theorem conforms_ofBinding (valid : b.IsValid) (admitted : ∀ u ∈ b.uris, admits u)
    (settings : Settings) (force : Bool) (e : k.Encoding) :
    (ofBinding settings force k e b).Conforms admits k := by
  cases b with
  | literal v => exact conforms_ofLiteral valid admitted force e
  | samples series => exact conforms_ofSeries valid admitted settings e
  | reference r => exact conforms_ofReference r k

end Write

end SceneStream
