import Mathlib.Data.List.Nodup
import SceneStream.Proofs.Json.Members
import SceneStream.Proofs.Time.Reading
import SceneStream.Settings

/-!
# Settings come back from their text

Settings are written as an object with one member for each field. A text of settings may have any of
these members, in any order and among others that no field is named by, and white space around every
token. It is read as the settings with defaults for the fields that are missing, and with the epoch
that the text says.
-/

namespace SceneStream

open Json

namespace Settings

inductive Field where
  | pretty
  | indent
  | timeEncoding
  | epoch
  deriving DecidableEq, Repr

namespace Field

def name : Field → String
  | pretty => "pretty"
  | indent => "indent"
  | timeEncoding => "time_encoding"
  | epoch => "epoch"

/-- The fields in the order in which they are written. -/
def all : List Field := [pretty, indent, timeEncoding, epoch]

theorem name_inj {f g : Field} : f.name = g.name ↔ f = g := by
  cases f <;> cases g <;> decide

end Field

section

variable (s : Settings)

/-- The settings that the text of `s` says. -/
def asWritten (s : Settings) : Settings := { s with epoch := s.epoch.map Instant.asWritten }

/-- The settings with only these fields, and defaults for the others. -/
def keep (fields : List Field) : Settings :=
  let d : Settings := {}
  { pretty := if .pretty ∈ fields then s.pretty else d.pretty
    indent := if .indent ∈ fields then s.indent else d.indent
    timeEncoding := if .timeEncoding ∈ fields then s.timeEncoding else d.timeEncoding
    epoch := if .epoch ∈ fields then s.epoch else d.epoch }

/-- The value of a field as it is written. -/
def valueToken : Field → String
  | .pretty => if s.pretty then "true" else "false"
  | .indent => Nat.repr s.indent
  | .timeEncoding => quote s.timeEncoding.token
  | .epoch => s.epoch.elim "null" fun t => quote t.text

/-- The value of a field as it is read. -/
def value : Field → Json
  | .pretty => .bool s.pretty
  | .indent => .number (Nat.repr s.indent)
  | .timeEncoding => .string s.timeEncoding.token
  | .epoch => s.epoch.elim .null fun t => .string t.text

theorem denotes_value (f : Field) : Denotes (s.valueToken f) (s.value f) := by
  cases f with
  | pretty => exact .bool s.pretty
  | indent => exact denotes_repr s.indent
  | timeEncoding => exact denotes_quote s.timeEncoding.token
  | epoch =>
      unfold valueToken value
      cases s.epoch with
      | none => exact .null
      | some t => exact denotes_quote t.text

/-- The member that a field is written as. -/
def member (f : Field) : Member where
  nameToken := quote f.name
  valueToken := s.valueToken f
  name := f.name
  value := s.value f
  denotes_name := denotes_quote f.name
  denotes_value := s.denotes_value f

/-- A member of a text of settings: that of a field, or one that is named like no field. -/
inductive Part where
  | field (f : Field)
  | other (m : Member) (key : String) (named : m.name = some key)
      (unknown : ∀ f : Field, key ≠ f.name)

namespace Part

def field? : Part → Option Field
  | field f => some f
  | other .. => none

def member : Part → Member
  | field f => s.member f
  | other m .. => m

end Part

/-- The tokens of a text of settings with these members. -/
def tokens (parts : List Part) : List String := Member.objectTokens (parts.map (Part.member s))

/-- The text of settings has all fields in their order, and no white space. -/
theorem text_eq_join : s.text =
    String.join (s.tokens (Field.all.map .field)) := by
  have first : "\x7b\"pretty\":" = "\x7b" ++ quote Field.pretty.name ++ ":" := by decide
  have second : ",\"indent\":" = "," ++ quote Field.indent.name ++ ":" := by decide
  have third : ",\"time_encoding\":" = "," ++ quote Field.timeEncoding.name ++ ":" := by decide
  have fourth : ",\"epoch\":" = "," ++ quote Field.epoch.name ++ ":" := by decide
  unfold text
  rw [first, second, third, fourth]
  simp only [tokens, Field.all, Member.objectTokens, Member.tokensBehind, Member.tokens,
    List.map_cons, List.map_nil, List.cons_append, List.nil_append, String.join_cons,
    String.join_nil, String.append_assoc, String.append_empty]
  rfl

/-! ## Reading -/

variable {s}

theorem indent?_repr (fits : s.indent < sizeLimit) :
    indent? (.number (Nat.repr s.indent)) = some s.indent := by
  have digits : (Nat.repr s.indent).toList.all Char.isDigit = true :=
    List.all_eq_true.mpr fun _ hc => isDigit_of_mem_repr hc
  simp only [indent?, digits, Instant.Scan.numeral_repr, fits, if_true]

theorem epoch?_value : epoch? (s.value .epoch) = some s.asWritten.epoch := by
  unfold value asWritten
  cases s.epoch with
  | none => rfl
  | some t => simp [epoch?, Instant.ofText?_text]

theorem timeEncoding?_value : timeEncoding? (s.value .timeEncoding) = some s.timeEncoding :=
  TimeEncoding.ofToken?_token s.timeEncoding

/-- The members of a name are those of its field. -/
theorem filter_name (parts : List Part) (f : Field) :
    (parts.map fun p => ((p.member s).name, (p.member s).value)).filter (·.1 = some f.name) =
      ((parts.filterMap Part.field?).filter (· = f)).map fun g => (some g.name, s.value g) := by
  induction parts with
  | nil => rfl
  | cons p parts ih =>
      rw [List.map_cons, List.filter_cons, ih, List.filterMap_cons]
      cases p with
      | field g =>
          have same : some g.name = some f.name ↔ g = f := by
            rw [Option.some.injEq, Field.name_inj]
          simp only [Part.member, member, Part.field?, List.filter_cons, same, decide_eq_true_eq]
          split <;> rfl
      | other m key named unknown =>
          have other : ¬ some key = some f.name := fun same => unknown f (Option.some.inj same)
          simp only [Part.member, Part.field?, named, other, decide_false, Bool.false_eq_true,
            if_false]

/-- A field is read from its member alone, or has its default. -/
theorem field?_eq (parts : List Part) (once : (parts.filterMap Part.field?).Nodup) (f : Field) :
    field? (parts.map fun p => ((p.member s).name, (p.member s).value)) f.name =
      some (if f ∈ parts.filterMap Part.field? then some (s.value f) else none) := by
  unfold field?
  rw [filter_name, List.filter_eq]
  by_cases given : f ∈ parts.filterMap Part.field?
  · rw [List.count_eq_one_of_mem once given, if_pos given]
    rfl
  · rw [List.count_eq_zero_of_not_mem given, if_neg given]
    rfl

theorem fieldOr_ite {α : Type} {default a : α} {read : Json → Option α} {v : Json}
    (reads : read v = some a) (given : Prop) [Decidable given] :
    fieldOr default read (if given then some v else none) =
      some (if given then a else default) := by
  split
  · exact reads
  · rfl

/-- Settings are what their text says, unless their epoch is in a leap second within a minute. -/
theorem asWritten_eq_iff : s.asWritten = s ↔ ∀ t ∈ s.epoch, t.IsCivil := by
  obtain ⟨pretty, indent, timeEncoding, epoch⟩ := s
  cases epoch with
  | none => simp [asWritten]
  | some t => simp [asWritten, Instant.asWritten_eq_iff]

/-- Every field is read from its value as it was written. -/
theorem ofFields?_keep (fits : s.indent < sizeLimit) (fields : List Field) :
    let found (f : Field) := if f ∈ fields then some (s.value f) else none
    ofFields? (found .pretty) (found .indent) (found .timeEncoding) (found .epoch) =
      some (s.asWritten.keep fields) := by
  have pretty : pretty? (s.value .pretty) = some s.pretty := rfl
  have indent : indent? (s.value .indent) = some s.indent := indent?_repr fits
  simp only [ofFields?, fieldOr_ite pretty, fieldOr_ite indent, fieldOr_ite timeEncoding?_value,
    fieldOr_ite epoch?_value]
  rfl

theorem ofJson?_tree (fits : s.indent < sizeLimit) (parts : List Part)
    (once : (parts.filterMap Part.field?).Nodup) :
    ofJson? (Member.tree (parts.map (Part.member s))) =
      some (s.asWritten.keep (parts.filterMap Part.field?)) := by
  obtain ⟨members, hm⟩ : ∃ members, members =
      parts.map fun p => ((p.member s).name, (p.member s).value) := ⟨_, rfl⟩
  have tree : Member.tree (parts.map (Part.member s)) = .object members := by
    rw [hm, Member.tree, List.map_map]
    rfl
  have named : ¬ members.any (·.1.isNone) = true := by
    rw [hm, List.any_map, List.any_eq_true]
    rintro ⟨p, -, missing⟩
    cases p with
    | field f => cases missing
    | other m key named unknown => simp [Part.member, named] at missing
  have fields (f : Field) : field? members f.name =
      some (if f ∈ parts.filterMap Part.field? then some (s.value f) else none) := by
    rw [hm]
    exact field?_eq parts once f
  rw [tree, ofJson?, if_neg named]
  change (field? members (Field.name .pretty)).bind _ = _
  rw [fields]
  change (field? members (Field.name .indent)).bind _ = _
  rw [fields]
  change (field? members (Field.name .timeEncoding)).bind _ = _
  rw [fields]
  change (field? members (Field.name .epoch)).bind _ = _
  rw [fields]
  exact ofFields?_keep fits _

/-- Every text of these members is read as the settings with defaults for the fields that are
missing. -/
theorem parse_of_spaced (fits : s.indent < sizeLimit) {parts : List Part}
    (once : (parts.filterMap Part.field?).Nodup) {text : String}
    (spaced : Spaced (s.tokens parts) text) :
    parse text = .ok (s.asWritten.keep (parts.filterMap Part.field?)) := by
  rw [parse, Member.parse?_of_spaced spaced, Option.bind_some, ofJson?_tree fits parts once]

theorem parse_text (fits : s.indent < sizeLimit) : parse s.text = .ok s.asWritten := by
  have spaced : Spaced (s.tokens (Field.all.map .field)) s.text := by
    rw [text_eq_join]
    exact spaced_join _
  exact parse_of_spaced fits (by decide) spaced

end

/-- Settings come back from their text as what the text says: the same, unless their epoch is in a leap
second that does not end a minute. And so they do, but for the fields that are left out, from any text
that has some of its members in any order, each once, scalar members of other names among them, and
white space around every token. -/
theorem parse_keep {s : Settings} (fits : s.indent < sizeLimit) :
    parse s.text = .ok s.asWritten ∧ (s.asWritten = s ↔ ∀ t ∈ s.epoch, t.IsCivil) ∧
      s.text = String.join (s.tokens (Field.all.map .field)) ∧
      ∀ (parts : List Part) (text : String), (parts.filterMap Part.field?).Nodup →
        Spaced (s.tokens parts) text →
          parse text = .ok (s.asWritten.keep (parts.filterMap Part.field?)) :=
  ⟨parse_text fits, asWritten_eq_iff, s.text_eq_join,
    fun _ _ once spaced => parse_of_spaced fits once spaced⟩

/-- A member that no field is named by. -/
def note : Part := .other
  { nameToken := quote "note"
    valueToken := "-1E400"
    name := some "note"
    value := .number "-1E400"
    denotes_name := denotes_quote "note"
    denotes_value := .number (.inr ⟨"1E400".toList, rfl, .power, rfl, rfl⟩) } "note" rfl
  (fun f => by cases f <;> decide)

theorem parse_leapEpoch :
    let s : Settings := {
      pretty := true
      indent := 18446744073709551615
      epoch := some ⟨1483228799, 1500000000, by decide, by decide⟩ }
    s.indent < sizeLimit ∧
      parse "\x7b\"note\" :\t-1E400,\n\"epoch\":\"2016-12-31T23:59:60.500Z\"\r\x7d" =
        .ok { epoch := s.epoch } := by
  intro s
  have fits : s.indent < sizeLimit := by decide
  have white (space : String) (h : space.toList.all (blanks.contains ·) = true) :
      IsWhite space.toList := by
    intro c hc
    simpa using List.all_eq_true.mp h c hc
  have text : "\x7b\"note\" :\t-1E400,\n\"epoch\":\"2016-12-31T23:59:60.500Z\"\r\x7d" =
      "" ++ "\x7b" ++ ("" ++ quote "note" ++ (" " ++ ":" ++ ("\t" ++ "-1E400" ++ ("" ++ "," ++
        ("\n" ++ quote "epoch" ++ ("" ++ ":" ++ ("" ++ s.valueToken .epoch ++
          ("\r" ++ "\x7d" ++ "")))))))) := by decide
  rw [text]
  refine ⟨fits, (parse_keep fits).2.2.2 [note, .field .epoch] _ (by decide) ?_⟩
  repeat' first | exact .nil (white _ rfl) | refine .cons (white _ rfl) ?_

/-- A leap second that follows second 30 is written like the second behind it and read as that, which
another time has elapsed since. -/
theorem parse_leapWithinMinute :
    let epoch : Instant := ⟨1483228770, 1500000000, by decide, by decide⟩
    let read : Instant := ⟨1483228771, 500000000, by decide, by decide⟩
    let time : Instant := ⟨1483228772, 0, by decide, by decide⟩
    let s : Settings := { epoch := some epoch }
    s.indent < sizeLimit ∧ epoch.date.year = 2016 ∧ parse s.text = .ok { epoch := some read } ∧
      parse s.text ≠ .ok s ∧ epoch.nanosSince time = 1500000000 ∧
      read.nanosSince time = 500000000 := by
  intro epoch read time s
  have fits : s.indent < sizeLimit := by decide
  have written : s.asWritten = { epoch := some read } := by decide
  have parsed : parse s.text = .ok { epoch := some read } := by rw [parse_text fits, written]
  refine ⟨fits, by decide, parsed, ?_, by decide, by decide⟩
  intro same
  have settings : ({ epoch := some read } : Settings) = s := Except.ok.inj (parsed.symm.trans same)
  exact absurd settings (by decide)

end Settings

end SceneStream
