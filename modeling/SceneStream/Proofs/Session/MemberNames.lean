import SceneStream.Proofs.Session.Refinement

/-!
# The names in the object of a property

A property between its opening and its closing takes writes of its own, and each that is answered adds
members to its object. The interval and the value are written once at most. Nothing keeps a program
from writing the flag for removal, the algorithm or the degree again, and then the object has two
members of one name; all other names stay distinct.
-/

namespace SceneStream

open Writing

/-- What a property with values writes of its own, between its opening and its closing. -/
inductive OwnWrite where
  | interval (i : Interval)
  | delete (flag : Bool)
  | value (c : ValueCommand)

namespace OwnWrite

/-- The operation of a write, where the property has its kind. -/
def op? (k : Kind) : OwnWrite → Option (PropertyM Unit)
  | interval i => some (Property.writeInterval i)
  | delete flag => some (Property.writeDelete flag)
  | value c => Session.valueOp? k c

def isInterval : OwnWrite → Bool
  | interval _ => true
  | .delete _ | .value _ => false

def isValue : OwnWrite → Bool
  | value c => c.isValue
  | .interval _ | .delete _ => false

/-- The name that is written again with each repetition of the write. -/
def repeats? : OwnWrite → Option String
  | delete _ => some "delete"
  | value (.algorithm _) => some "interpolationAlgorithm"
  | value (.degree _) => some "interpolationDegree"
  | interval _ | value _ => none

def toWrite (settings : Settings) (force : Bool) : OwnWrite → Write
  | interval i => .members [("interval", .scalar (.text i.text))]
  | delete flag => .members [("delete", .scalar (.bool flag))]
  | value c => c.toWrite settings force

end OwnWrite

/-- The members that a write adds to an object. -/
def Write.added : Write → List (String × Tree)
  | literal _ key t => [(key, t)]
  | members added => added

/-- Their names. -/
def Write.names (w : Write) : List String := w.added.map Prod.fst

/-- The names that a write adds to the object of a property. -/
def OwnWrite.names (settings : Settings) (force : Bool) (c : OwnWrite) : List String :=
  (c.toWrite settings force).names

namespace Property

/-- Makes writes one after the other, whatever becomes of them, and keeps those that are answered. -/
def writeAll (k : Kind) (w : Writing Property) : List OwnWrite → List OwnWrite × Writing Property
  | [] => ([], w)
  | c :: cs =>
    match c.op? k with
    | none => writeAll k w cs
    | some op =>
      match op w with
      | .ok () w => (c :: (writeAll k w cs).1, (writeAll k w cs).2)
      | .error _ w => writeAll k w cs

end Property

/-! ## The names of one write -/

/-- The names that a value may be written under. -/
def valueKeys : List String :=
  ["boolean", "number", "string", "uri", "rgba", "rgbaf", "wsen", "wsenDegrees",
    "distanceDisplayCondition", "cartesian2", "cartesian", "heightReference", "shadowMode",
    "classificationType", "epoch", "reference"]

theorem Kind.key_mem_valueKeys (k : Kind) (e : k.Encoding) :
    k.key e ∈ valueKeys ∧ k.key e ≠ "epoch" := by
  cases k <;> cases e <;> decide

namespace Write

variable {k : Kind} {e : k.Encoding}

theorem names_ofSeries (settings : Settings) (series : TimeSeries k.Value) :
    (ofSeries settings k e series).names = [k.key e] ∨
      (ofSeries settings k e series).names = ["epoch", k.key e] := by
  cases epoch : series.firstDate?.bind settings.sampleEpoch with
  | none => exact .inl (by simp [ofSeries, names, added, epoch])
  | some t => exact .inr (by simp [ofSeries, names, added, epoch])

/-- The names of one value are names of values, and differ. -/
structure NamesValue (names : List String) : Prop where
  keys : ∀ key ∈ names, key ∈ valueKeys
  nodup : names.Nodup

theorem namesValue_nil : NamesValue [] := ⟨by simp, .nil⟩

theorem namesValue_key : NamesValue [k.key e] :=
  ⟨by simpa using (k.key_mem_valueKeys e).1, List.nodup_singleton _⟩

theorem namesValue_ofSeries (settings : Settings) (series : TimeSeries k.Value) :
    NamesValue (ofSeries settings k e series).names := by
  rcases names_ofSeries (e := e) settings series with names | names
  · rw [names]
    exact namesValue_key
  · obtain ⟨mem, other⟩ := k.key_mem_valueKeys e
    rw [names]
    constructor
    · intro key here
      rcases List.mem_cons.mp here with rfl | here
      · decide
      · rwa [List.mem_singleton.mp here]
    · simpa using other.symm

theorem namesValue_ofReference (r : Reference) : NamesValue (ofReference r).names :=
  ⟨by simp [ofReference, names, added, valueKeys], by simp [ofReference, names, added]⟩

theorem namesValue_ofBinding (settings : Settings) (force : Bool) (b : Binding k) :
    NamesValue (ofBinding settings force k e b).names := by
  cases b with
  | literal v => exact namesValue_key
  | samples series => exact namesValue_ofSeries settings series
  | reference r => exact namesValue_ofReference r

/-- A value command writes under names of values. -/
theorem namesValue_toWrite {c : ValueCommand} (value : c.isValue = true) (settings : Settings)
    (force : Bool) : NamesValue (c.toWrite settings force).names := by
  cases c with
  | write k e b => exact namesValue_ofBinding settings force b
  | samples k dates values =>
      simp only [ValueCommand.toWrite]
      split
      · exact namesValue_ofSeries settings _
      · exact namesValue_nil
  | window k dates values start length =>
      simp only [ValueCommand.toWrite]
      split
      · exact namesValue_ofSeries settings _
      · exact namesValue_nil
  | reference source =>
      simp only [ValueCommand.toWrite]
      split
      · exact namesValue_ofReference _
      · exact namesValue_nil
  | resolved u resolver => exact namesValue_key (k := .uri) (e := ())
  | algorithm | degree => cases value

end Write

/-! ## The names of several writes -/

/-- The names that writes may give to more than one member. -/
def repeatableKeys : List String := ["delete", "interpolationAlgorithm", "interpolationDegree"]

namespace OwnWrite

variable {settings : Settings} {force : Bool} {c : OwnWrite} {cs : List OwnWrite} {key : String}

/-- A write is the interval, a value, or one that may be repeated. -/
theorem cases (c : OwnWrite) :
    c.isInterval = true ∧ c.repeats? = none ∨ c.isValue = true ∧ c.repeats? = none ∨
      ∃ name ∈ repeatableKeys, c.repeats? = some name := by
  cases c with
  | interval => exact .inl ⟨rfl, rfl⟩
  | delete => exact .inr (.inr ⟨"delete", by decide, rfl⟩)
  | value c =>
      cases c with
      | write | samples | window | reference | resolved => exact .inr (.inl ⟨rfl, rfl⟩)
      | algorithm => exact .inr (.inr ⟨"interpolationAlgorithm", by decide, rfl⟩)
      | degree => exact .inr (.inr ⟨"interpolationDegree", by decide, rfl⟩)

theorem names_of_isInterval (interval : c.isInterval = true) :
    c.names settings force = ["interval"] := by
  cases c with
  | interval => rfl
  | delete | value => cases interval

theorem names_of_isValue (value : c.isValue = true) :
    Write.NamesValue (c.names settings force) := by
  cases c with
  | interval | delete => cases value
  | value c => exact Write.namesValue_toWrite value settings force

theorem names_of_repeats? {name : String} (again : c.repeats? = some name) :
    c.names settings force = [name] := by
  cases c with
  | interval => cases again
  | delete =>
      obtain rfl := Option.some.inj again
      rfl
  | value c =>
      cases c with
      | write | samples | window | reference | resolved => cases again
      | algorithm | degree =>
          obtain rfl := Option.some.inj again
          rfl

/-- A name that may be repeated comes once from each write that repeats it. -/
theorem count_names_of_repeatable (repeatable : key ∈ repeatableKeys) (c : OwnWrite) :
    (c.names settings force).count key = if c.repeats? = some key then 1 else 0 := by
  have other : key ∉ valueKeys ∧ key ≠ "interval" := by
    revert key
    decide
  rcases c.cases with ⟨interval, once⟩ | ⟨value, once⟩ | ⟨name, -, again⟩
  · simp [names_of_isInterval interval, once, other.2.symm]
  · have away : key ∉ c.names settings force :=
      fun here => other.1 ((names_of_isValue value).keys key here)
    simp [List.count_eq_zero.mpr away, once]
  · by_cases same : name = key <;> simp [names_of_repeats? again, again, same]

/-- Any other name comes from the interval, or once at most from a value. -/
theorem count_names_le (unrepeatable : key ∉ repeatableKeys) (c : OwnWrite) :
    (c.names settings force).count key ≤
      if (if key = "interval" then c.isInterval else c.isValue) = true then 1 else 0 := by
  rcases c.cases with ⟨interval, -⟩ | ⟨value, -⟩ | ⟨name, mem, again⟩
  · by_cases same : key = "interval"
    · simp [names_of_isInterval interval, same, interval]
    · simp [names_of_isInterval interval, same, Ne.symm same]
  · have named : Write.NamesValue (c.names settings force) := names_of_isValue value
    by_cases same : key = "interval"
    · have away : key ∉ c.names settings force := by
        intro here
        exact absurd (named.keys key here) (same ▸ by decide)
      simp [List.count_eq_zero.mpr away]
    · simpa [same, value] using List.nodup_iff_count_le_one.mp named.nodup key
  · have other : name ≠ key := fun same => unrepeatable (same ▸ mem)
    simp [names_of_repeats? again, other]

/-- The names that writes add one after the other. -/
def allNames (settings : Settings) (force : Bool) (cs : List OwnWrite) : List String :=
  cs.flatMap (names settings force)

theorem count_allNames_of_repeatable (repeatable : key ∈ repeatableKeys) (cs : List OwnWrite) :
    (allNames settings force cs).count key = cs.countP (·.repeats? = some key) := by
  induction cs with
  | nil => rfl
  | cons c cs ih =>
      have first : (c.names settings force).count key = _ := count_names_of_repeatable repeatable c
      rw [allNames] at ih
      rw [allNames, List.flatMap_cons, List.count_append, first, ih, List.countP_cons,
        Nat.add_comm]
      simp

theorem count_allNames_le (unrepeatable : key ∉ repeatableKeys)
    (intervals : cs.countP isInterval ≤ 1) (values : cs.countP isValue ≤ 1) :
    (allNames settings force cs).count key ≤ 1 := by
  have bound : (allNames settings force cs).count key ≤
      cs.countP fun c => if key = "interval" then c.isInterval else c.isValue := by
    clear intervals values
    induction cs with
    | nil => exact Nat.le_refl 0
    | cons c cs ih =>
        have first : (c.names settings force).count key ≤ _ := count_names_le unrepeatable c
        rw [allNames] at ih
        rw [allNames, List.flatMap_cons, List.count_append, List.countP_cons]
        exact (Nat.add_le_add first ih).trans_eq (Nat.add_comm _ _)
  by_cases same : key = "interval"
  · simp only [same, if_true] at bound
    rw [same]
    exact bound.trans intervals
  · simp only [same, if_false] at bound
    exact bound.trans values

/-- The names are distinct exactly where no write was repeated under its name. -/
theorem nodup_allNames_iff (intervals : cs.countP isInterval ≤ 1) (values : cs.countP isValue ≤ 1) :
    (allNames settings force cs).Nodup ↔
      ∀ key ∈ repeatableKeys, cs.countP (·.repeats? = some key) ≤ 1 := by
  rw [List.nodup_iff_count_le_one]
  constructor
  · intro once key repeatable
    have count : (allNames settings force cs).count key = _ :=
      count_allNames_of_repeatable repeatable cs
    rw [← count]
    exact once key
  · intro once key
    by_cases repeatable : key ∈ repeatableKeys
    · rw [count_allNames_of_repeatable repeatable]
      exact once key repeatable
    · exact count_allNames_le repeatable intervals values

end OwnWrite

/-! ## One write -/

namespace Property

variable {s : Stream} {p : Property} {k : Kind} {c : OwnWrite} {op : PropertyM Unit}

/-- Whether the property takes the write now. -/
def Takes (p : Property) (s : Stream) : OwnWrite → Prop
  | .interval _ => p.TakesEntries s ∧ p.intervalWritten = false
  | .delete _ => p.TakesEntries s
  | .value c => c.IsValid ∧ (c.isValue = true → p.valueWritten = false) ∧ p.TakesEntries s

/-- The property behind a write that it took. -/
def noting (p : Property) (settings : Settings) (c : OwnWrite) : Property :=
  { p with
    scope := ((c.toWrite settings p.forceObject).entry p.scope).scope
    intervalWritten := p.intervalWritten || c.isInterval
    valueWritten := p.valueWritten || c.isValue }

/-- A value command is noted as what it makes of the property. -/
theorem noting_value (p : Property) (settings : Settings) (c : ValueCommand) :
    p.noting settings (.value c) =
      if c.isValue then p.valued (c.toWrite settings p.forceObject)
      else { p with scope := .object } := by
  cases value : c.isValue with
  | true => simp [noting, valued, OwnWrite.isInterval, OwnWrite.isValue, OwnWrite.toWrite, value]
  | false =>
      have object : ((c.toWrite settings p.forceObject).entry p.scope).scope = .object := by
        cases c with
        | write | samples | window | reference | resolved => cases value
        | algorithm | degree => rfl
      simp [noting, OwnWrite.isInterval, OwnWrite.isValue, OwnWrite.toWrite, value, object]

/-- A write of the property's own is refused, or adds what it describes. -/
theorem adds_ownWrite (found : c.op? k = some op) :
    Adds s p op (p.Takes s c) (c.toWrite s.settings p.forceObject) (p.noting s.settings c) := by
  cases c with
  | interval i =>
      obtain rfl := Option.some.inj found
      have noted : p.noting s.settings (.interval i) =
          { p with scope := .object, intervalWritten := true } := by
        simp [noting, OwnWrite.isInterval, OwnWrite.isValue, OwnWrite.toWrite, Write.entry,
          Entry.scope]
      exact noted ▸ adds_writeInterval i
  | delete flag =>
      obtain rfl := Option.some.inj found
      have noted : p.noting s.settings (.delete flag) = { p with scope := .object } := by
        simp [noting, OwnWrite.isInterval, OwnWrite.isValue, OwnWrite.toWrite, Write.entry,
          Entry.scope]
      exact noted ▸ adds_writeDelete flag
  | value c =>
      rw [noting_value]
      exact adds_valueOp found s p

end Property

/-! ## What a write does to the object -/

/-- Whatever a write puts in place of the object is no object. -/
def Write.IsPlain : Write → Prop
  | literal _ _ t => t.isObject = false
  | members _ => True

theorem Tree.isObject_ofLiteral (k : Kind) (e : k.Encoding) (v : k.Value) :
    (ofLiteral k e v).isObject = false := by
  unfold ofLiteral
  split <;> rfl

theorem OwnWrite.isPlain_toWrite (c : OwnWrite) (settings : Settings) (force : Bool) :
    (c.toWrite settings force).IsPlain := by
  cases c with
  | interval | delete => trivial
  | value c =>
      cases c with
      | write k e b =>
          cases b with
          | literal v => exact Tree.isObject_ofLiteral k e v
          | samples | reference => trivial
      | resolved u resolver => exact Tree.isObject_ofLiteral .uri () _
      | samples | window | reference =>
          simp only [toWrite, ValueCommand.toWrite]
          split <;> trivial
      | algorithm | degree => trivial

/-- A write is taken as members of the object, or stands in its place where nothing is written. -/
theorem Write.entry_cases {w : Write} (plain : w.IsPlain) (scope : Property.Scope) :
    w.entry scope = .members w.added ∨
      scope = .unopened ∧ ∃ t, w.entry scope = .bare t ∧ t.isObject = false := by
  cases w with
  | members => exact .inl rfl
  | literal simple key t =>
      by_cases alone : simple ∧ scope = .unopened
      · exact .inr ⟨alone.2, t, if_pos alone, plain⟩
      · exact .inl (if_neg alone)

namespace Property

/-- Behind the writes that were answered, the stream shows what a property in this scope has of its
value: nothing yet, one value in place of the object, or the members that the writes added. -/
def ShowsWritten (site : List Outer) (settings : Settings) (force : Bool)
    (answered : List OwnWrite) (s : Stream) : Scope → Prop
  | .unopened => answered = [] ∧ ∃ d, s.Shows d ∧ d.inside? = some site
  | .bare => ∃ t, s.Shows (.place site t) ∧ t.isObject = false
  | .object => ∃ members, s.Shows (.object members site) ∧
      members.map Prod.fst = OwnWrite.allNames settings force answered
  | .intervals => False

/-- The property is the innermost writer, and has taken the writes that were answered. -/
structure HasTaken (site : List Outer) (settings : Settings) (force : Bool) (w : Writing Property)
    (answered : List OwnWrite) : Prop where
  turn : w.own.HasTurn w.stream
  underSettings : w.stream.settings = settings
  underForce : w.own.forceObject = force
  interval : w.own.intervalWritten = answered.any OwnWrite.isInterval
  value : w.own.valueWritten = answered.any OwnWrite.isValue
  intervals : answered.countP OwnWrite.isInterval ≤ 1
  values : answered.countP OwnWrite.isValue ≤ 1
  shows : ShowsWritten site settings force answered w.stream w.own.scope

variable {site : List Outer} {settings : Settings} {force : Bool} {w : Writing Property}
  {answered : List OwnWrite}

/-- The calls of a write are permitted where the property takes it, and what they add is seen. -/
theorem ShowsWritten.accepts {scope : Scope}
    (written : ShowsWritten site settings force answered s scope)
    (takes : scope = .unopened ∨ scope = .object) (c : OwnWrite) :
    ∃ d e, s.Shows d ∧
      d.acceptAll (((c.toWrite settings force).entry scope).calls scope) = some e ∧
      ∀ s' : Stream, s'.Shows e → ShowsWritten site settings force (answered ++ [c]) s'
        ((c.toWrite settings force).entry scope).scope := by
  rcases takes with rfl | rfl
  · obtain ⟨rfl, d, shows, inside⟩ := written
    rcases Write.entry_cases (c.isPlain_toWrite settings force) .unopened with
      entry | ⟨-, t, entry, plain⟩
    · rw [entry]
      refine ⟨d, .object (c.toWrite settings force).added site, shows, ?_, ?_⟩
      · simp [Entry.calls, Scope.opening, Draft.accept, inside, Draft.acceptAll_memberCalls]
      · exact fun s' shown => ⟨_, shown, by simp [OwnWrite.allNames, OwnWrite.names, Write.names]⟩
    · rw [entry]
      exact ⟨d, .place site t, shows, Draft.acceptAll_calls t inside,
        fun s' shown => ⟨t, shown, plain⟩⟩
  · obtain ⟨members, shows, names⟩ := written
    rcases Write.entry_cases (c.isPlain_toWrite settings force) .object with
      entry | ⟨unopened, -⟩
    · rw [entry]
      refine ⟨_, .object (members ++ (c.toWrite settings force).added) site, shows, ?_, ?_⟩
      · exact Draft.acceptAll_memberCalls _ members site
      · exact fun s' shown => ⟨_, shown, by
          simp [OwnWrite.allNames, OwnWrite.names, Write.names, names]⟩
    · cases unopened

/-- A note that was not made yet is made by one more write at most. -/
theorem countP_concat_le {f : OwnWrite → Bool} (once : answered.countP f ≤ 1)
    (first : f c = true → answered.any f = false) : (answered ++ [c]).countP f ≤ 1 := by
  rw [List.countP_append, List.countP_singleton]
  split
  next noted =>
      have none : answered.countP f = 0 := by
        simpa [List.countP_eq_zero] using first noted
      omega
  next => exact once

/-- One more write is refused without a trace, or taken. -/
theorem HasTaken.write (taken : HasTaken site settings force w answered)
    (found : c.op? k = some op) :
    (∃ e, op w = .error e w) ∨
      ∃ w', op w = .ok () w' ∧ HasTaken site settings force w' (answered ++ [c]) := by
  obtain ⟨s, p⟩ := w
  have adds := adds_ownWrite (s := s) (p := p) found
  by_cases legal : p.Takes s c
  · right
    obtain ⟨t, token, active⟩ := taken.turn
    obtain ⟨d, e, shows, accepted, after⟩ := taken.shows.accepts (adds.takes legal).2 c
    have draws := adds.draws legal
    rw [taken.underSettings, taken.underForce] at draws
    obtain ⟨text, run, shown⟩ := draws.run shows accepted
    refine ⟨_, run, ⟨t, token, active⟩, taken.underSettings, taken.underForce, ?_, ?_, ?_, ?_, ?_⟩
    · have noted : p.intervalWritten = answered.any OwnWrite.isInterval := taken.interval
      simp [noting, noted]
    · have noted : p.valueWritten = answered.any OwnWrite.isValue := taken.value
      simp [noting, noted]
    · apply countP_concat_le taken.intervals
      intro interval
      rw [← taken.interval]
      cases c with
      | interval => exact legal.2
      | delete | value => cases interval
    · apply countP_concat_le taken.values
      intro value
      rw [← taken.value]
      cases c with
      | value => exact legal.2.1 value
      | interval | delete => cases value
    · have force : p.forceObject = force := taken.underForce
      simpa only [noting, force] using after _ shown
  · obtain ⟨e, -, refused⟩ := adds.refuses legal
    exact .inl ⟨e, refused⟩

/-- So are any writes, one after the other. -/
theorem HasTaken.writeAll (taken : HasTaken site settings force w answered) (k : Kind)
    (cs : List OwnWrite) :
    HasTaken site settings force (writeAll k w cs).2 (answered ++ (writeAll k w cs).1) := by
  induction cs generalizing w answered with
  | nil => simpa [Property.writeAll] using taken
  | cons c cs ih =>
      cases found : c.op? k with
      | none => simpa only [Property.writeAll, found] using ih taken
      | some op =>
          rcases taken.write found with ⟨e, refused⟩ | ⟨w', run, next⟩
          · simpa only [Property.writeAll, found, refused] using ih taken
          · simpa [Property.writeAll, found, run] using ih next

/-! ## From the opening to the closing -/

/-- The calls in front of the value of a property. -/
def naming (p : Property) : List Call :=
  match p.role with
  | .member => [.name p.name]
  | .element => []

/-- A property that was opened has taken nothing yet, and its value is due. -/
theorem hasTaken_of_start {d : Draft} (shows : s.Shows d) (opened : start ⟨s, p⟩ = .ok () w) :
    ∃ site e, d.acceptAll p.naming = some e ∧ e.inside? = some site ∧
      HasTaken site s.settings p.forceObject w [] := by
  by_cases open? : p.token ≠ none ∨ ¬ s.MayOpen ∨ d.acceptAll p.part.calls = none
  · obtain ⟨e, -, refused⟩ := refuses_start shows open?
    cases refused.symm.trans opened
  · simp only [not_or, not_not] at open?
    obtain ⟨closed, free, permitted⟩ := open?
    obtain ⟨e, accepted⟩ := Option.ne_none_iff_exists'.mp permitted
    obtain ⟨text, run, shown⟩ := start_ok closed free shows accepted
    obtain rfl := (EStateM.Result.ok.inj (run.symm.trans opened)).2
    rw [calls_part] at accepted
    have took (site : List Outer)
        (written : ShowsWritten site s.settings p.forceObject [] (s.drawn text e).opened
          p.part.scope) :
        HasTaken site s.settings p.forceObject
          ⟨(s.drawn text e).opened, p.started s.nextToken⟩ [] :=
      ⟨⟨_, rfl, rfl⟩, rfl, rfl, rfl, rfl, Nat.zero_le 1, Nat.zero_le 1, written⟩
    cases role : p.role with
    | member =>
        simp only [firstCall, role] at accepted
        cases d with
        | object members outer =>
            obtain rfl := Option.some.inj accepted
            refine ⟨.member members p.name :: outer, .named members p.name outer, ?_, rfl, ?_⟩
            · simp only [naming, role]
              rfl
            · apply took
              simp only [part, role]
              exact ⟨rfl, _, shown, rfl⟩
        | blank | complete | array | named => cases accepted
    | element =>
        simp only [firstCall, role] at accepted
        cases inside : d.inside? with
        | none => simp [Draft.accept, inside] at accepted
        | some site =>
            simp only [Draft.acceptAll_cons, Draft.accept, inside] at accepted
            obtain rfl := Option.some.inj accepted
            refine ⟨site, d, by simp [naming, role], inside, ?_⟩
            apply took
            simp only [part, role]
            exact ⟨[], shown, rfl⟩

/-- What the members of an object are named after the writes that were answered. -/
structure NamesMembers (settings : Settings) (force : Bool) (answered : List OwnWrite)
    (names : List String) : Prop where
  /-- The names are those of the writes, in their order. -/
  written : names = OwnWrite.allNames settings force answered
  /-- A name that writes repeat stands there once for each of them. -/
  repeated : ∀ key ∈ repeatableKeys, names.count key = answered.countP (·.repeats? = some key)
  /-- Every other name stands there once at most. -/
  once : ∀ key, key ∉ repeatableKeys → names.count key ≤ 1
  /-- So the names are distinct exactly where no write was repeated under its name. -/
  distinct : names.Nodup ↔ ∀ key ∈ repeatableKeys, answered.countP (·.repeats? = some key) ≤ 1

/-- The property is closed behind its writes, and its value is a tree whose members they name. -/
theorem HasTaken.finish (taken : HasTaken site settings force w answered) :
    ∃ w' tree, Property.finish w = .ok () w' ∧ w'.stream.Shows (.place site tree) ∧
      ∀ members, tree = .object members →
        NamesMembers settings force answered (members.map Prod.fst) := by
  obtain ⟨s, p⟩ := w
  obtain ⟨t, token, active⟩ := taken.turn
  have named (names : List String) (written : names = OwnWrite.allNames settings force answered) :
      NamesMembers settings force answered names := by
    subst written
    exact ⟨rfl, fun _ repeatable => OwnWrite.count_allNames_of_repeatable repeatable _,
      fun _ unrepeatable => OwnWrite.count_allNames_le unrepeatable taken.intervals taken.values,
      OwnWrite.nodup_allNames_iff taken.intervals taken.values⟩
  have closes {d : Draft} (tree : Tree) (shows : s.Shows d)
      (accepted : d.acceptAll p.scope.closing = some (.place site tree)) :
      ∃ w', Property.finish ⟨s, p⟩ = .ok () w' ∧ w'.stream.Shows (.place site tree) := by
    obtain ⟨text, run, shown⟩ := finish_ok token active shows accepted
    exact ⟨_, run, shown⟩
  have shows := taken.shows
  cases scope : p.scope with
  | unopened =>
      simp only [scope] at shows
      obtain ⟨rfl, d, shows, inside⟩ := shows
      obtain ⟨w', run, shown⟩ := closes (.object []) shows (by
        simp [scope, Scope.closing, Draft.accept, inside])
      refine ⟨w', _, run, shown, ?_⟩
      rintro members ⟨⟩
      exact named _ rfl
  | bare =>
      simp only [scope] at shows
      obtain ⟨tree, shows, plain⟩ := shows
      obtain ⟨w', run, shown⟩ := closes tree shows (by rw [scope]; rfl)
      refine ⟨w', tree, run, shown, ?_⟩
      rintro members rfl
      cases plain
  | object =>
      simp only [scope] at shows
      obtain ⟨members, shows, names⟩ := shows
      obtain ⟨w', run, shown⟩ := closes (.object members) shows (by rw [scope]; rfl)
      refine ⟨w', _, run, shown, ?_⟩
      rintro _ ⟨⟩
      exact named _ names
  | intervals =>
      simp only [scope] at shows
      exact shows.elim

/-- However a property with values is written to between its opening and its closing, as a member or as
an interval, on a sink that never fails: it can be closed, and has written one value, by the calls of
one tree. If that is an object, its members have the names of the writes that were answered, and are
distinct but for the flag for removal, the algorithm and the degree. -/
theorem namesMembers_writeAll {d : Draft} (shows : s.Shows d) (opened : start ⟨s, p⟩ = .ok () w)
    (k : Kind) (cs : List OwnWrite) :
    ∃ w' e, ∃ tree : Tree, Property.finish (writeAll k w cs).2 = .ok () w' ∧
      d.acceptAll (p.naming ++ tree.calls) = some e ∧ w'.stream.Shows e ∧
      ∀ members, tree = .object members →
        NamesMembers s.settings p.forceObject (writeAll k w cs).1 (members.map Prod.fst) := by
  obtain ⟨site, e, accepted, inside, taken⟩ := hasTaken_of_start shows opened
  obtain ⟨w', tree, closed, shown, names⟩ := (taken.writeAll k cs).finish
  refine ⟨w', .place site tree, tree, closed, ?_, shown, names⟩
  rw [Draft.acceptAll_append, accepted]
  exact Draft.acceptAll_calls tree inside

/-- A stream on which an object was begun and nothing else. -/
def openObject : Stream :=
  { sink := { text := "\x7b" }, frames := [.object 0 false], rootWritten := true }

/-- A height with its value between two flags for removal, and a second value. -/
def flaggedHeight : List OwnWrite :=
  [.delete true, .value (.write .number () (.literal (.zero false))), .delete false,
    .value (.write .number () (.literal (.zero true)))]

theorem namesMembers_writeAll_flaggedHeight :
    openObject.Shows (.object [] []) ∧
      start ⟨openObject, { name := "height" }⟩ =
        .ok () (behind start ⟨openObject, { name := "height" }⟩) ∧
      ∃ w' e, ∃ tree : Tree,
        Property.finish (writeAll .number (behind start ⟨openObject, { name := "height" }⟩)
          flaggedHeight).2 = .ok () w' ∧
        (Draft.object [] []).acceptAll (naming { name := "height" } ++ tree.calls) = some e ∧
        w'.stream.Shows e ∧
        ∀ members, tree = .object members → NamesMembers {} false
          (writeAll .number (behind start ⟨openObject, { name := "height" }⟩) flaggedHeight).1
          (members.map Prod.fst) := by
  have shows : openObject.Shows (.object [] []) := by
    obtain ⟨text, run, shown⟩ := Stream.perform_of_accept (Stream.shows_blank {})
      (c := .startObject) (e := .object [] []) rfl
    have begun : Stream.perform .startObject ({} : Stream) = .ok () openObject := rfl
    rwa [(EStateM.Result.ok.inj (run.symm.trans begun)).2] at shown
  have opened : start ⟨openObject, { name := "height" }⟩ =
      .ok () (behind start ⟨openObject, { name := "height" }⟩) := rfl
  exact ⟨shows, opened, namesMembers_writeAll shows opened .number flaggedHeight⟩

end Property

namespace Session

/-- A description that is flagged for removal twice. -/
def flaggedTwice : List Command :=
  let packet : Address := { root := .document }
  let description : Address := packet.child "description"
  [.document .openPacket, .parent packet (.startChild "description"),
    .property description (.delete true), .property description (.delete true),
    .writer description .finish, .writer packet .finish, .document .finish]

/-- Two members in the object of a property may have one name. -/
theorem repeated_of_flaggedTwice :
    ofDocument {} {} = .ok (newDocument {}) ∧ ∃ members : List (Json.Text × Json),
      Json.parse? ((newDocument {}).run flaggedTwice).stream.sink.contents =
        some (.array [.object [(some "description", .object members)]]) ∧
      ¬ (members.map Prod.fst).Nodup := by
  have text : ((newDocument {}).run flaggedTwice).stream.sink.contents =
      "[\x7b\"description\":\x7b\"delete\":true,\"delete\":true\x7d\x7d]" := by decide +kernel
  refine ⟨ofDocument_eq {}, [(some "delete", .bool true), (some "delete", .bool true)], ?_, ?_⟩
  · rw [text]
    rfl
  · decide

end Session

end SceneStream
