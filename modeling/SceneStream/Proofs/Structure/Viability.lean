import SceneStream.Proofs.Json.Refusing
import SceneStream.Proofs.Structure.RoundTrip

/-!
# Exactly what JSON permits

A text can be gone on with if more text makes it one JSON text. The stream takes a call just when its
text can be gone on with behind the call's token: every draft has a completion, its open containers
closed one after the other, and behind a token that is not permitted the reader comes to no tree,
whatever follows.
-/

namespace SceneStream

open Json

/-- White space, behind a comma or without one. -/
def Json.IsSeparator (text : List Char) : Prop :=
  ∃ blanks, IsSpacing blanks ∧ (text = blanks ∨ text = ',' :: blanks)

def Call.isValue : Call → Bool
  | .value _ => true
  | _ => false

/-- More text behind this one, a separator and the call's token makes one JSON text. A blank keeps
the token from running into the one before it, and no colon makes a name of a value. -/
def Json.Extends (text separator : String) (pretty : Bool) (c : Call) : Prop :=
  ∃ rest : String, (parse? (text ++ separator ++ " " ++ c.token pretty ++ rest)).isSome = true ∧
    (c.isValue = true → (rest.toList.dropWhile Reader.isBlank).head? ≠ some ':')

/-- What closes a container once its part in progress is whole. -/
def Outer.closer : Outer → Char
  | item _ => ']'
  | member .. => '\x7d'

namespace Draft

variable {d e : Draft} {outer : List Outer} {text : List Char}

/-! ## Every draft can be completed -/

/-- A text that completes a draft. -/
def completion : Draft → List Char
  | blank => "true".toList
  | complete _ => []
  | array _ outer => ']' :: outer.map Outer.closer
  | object _ outer => '\x7d' :: outer.map Outer.closer
  | named _ _ outer => "true".toList ++ '\x7d' :: outer.map Outer.closer

/-- A permitted call with no comma in front of it may follow at once. -/
theorem reads_token {c : Call} (h : Reads text d.assembly) (permitted : d.accept c = some e)
    (bare : d.comma c = "") : Reads (text ++ (c.token false).toList) e.assembly := by
  have reads := reads_accept h permitted isSpacing_nil false
  rwa [bare, String.toList_empty, List.append_nil, List.append_nil] at reads

/-- The brackets of the open containers close them one after the other. -/
theorem reads_closers (outer : List Outer) {t : Tree} (h : Reads text (place outer t).assembly) :
    ∃ v, Reads (text ++ outer.map Outer.closer) ⟨[], .complete v⟩ := by
  induction outer generalizing text t with
  | nil =>
      rw [List.map_nil, List.append_nil]
      exact ⟨t.json, h⟩
  | cons o outer ih =>
      rw [List.map_cons, List.append_cons]
      cases o with
      | item done => exact ih (reads_token (c := .endSequence) h rfl rfl)
      | member done key => exact ih (reads_token (c := .endObject) h rfl rfl)

theorem reads_completion (h : Reads text d.assembly) :
    ∃ v, Reads (text ++ d.completion) ⟨[], .complete v⟩ := by
  cases d with
  | blank => exact ⟨_, reads_token (c := .value (.bool true)) h rfl rfl⟩
  | complete t =>
      rw [completion, List.append_nil]
      exact ⟨t.json, h⟩
  | array items outer =>
      rw [completion, List.append_cons]
      exact reads_closers outer (reads_token (c := .endSequence) h rfl rfl)
  | object members outer =>
      rw [completion, List.append_cons]
      exact reads_closers outer (reads_token (c := .endObject) h rfl rfl)
  | named members key outer =>
      have answered := reads_token (c := .value (.bool true)) h rfl rfl
      rw [completion, ← List.append_assoc, List.append_cons]
      exact reads_closers outer (reads_token (c := .endObject) answered rfl rfl)

/-- No completion begins with a colon. -/
theorem head?_completion (d : Draft) :
    (d.completion.dropWhile Reader.isBlank).head? ≠ some ':' := by
  cases d <;> simp [completion, Reader.isBlank]

theorem isSome_parse?_completion {text : String} (h : Reads text.toList d.assembly) :
    (parse? (text ++ String.ofList d.completion)).isSome = true := by
  obtain ⟨v, reads⟩ := reads_completion h
  rw [parse?_of_reads (v := v) (by rwa [String.toList_append, String.toList_ofList])]
  rfl

/-- Behind a permitted call, the text can be gone on with. -/
theorem extends_of_accept {text separator : String} {c : Call} {blanks : List Char}
    (h : Reads text.toList d.assembly) (permitted : d.accept c = some e)
    (spacing : IsSpacing blanks) (separates : separator.toList = (d.comma c).toList ++ blanks)
    (pretty : Bool) : Extends text separator pretty c := by
  have reads := reads_accept h permitted (spacing.append isSpacing_space) pretty
  refine ⟨String.ofList e.completion, isSome_parse?_completion (d := e) ?_, fun _ => ?_⟩
  · simpa [separates, String.toList_append, List.append_assoc] using reads
  · rw [String.toList_ofList]
    exact e.head?_completion

/-! ## Nothing goes on with a token that is not permitted -/

/-- Behind a separator, the reader is where it was, or behind the comma if one may come. -/
theorem run_separator {text separator : List Char} {a : Assembly} (h : Reads text a)
    (separates : IsSeparator separator) :
    ∃ b?, (b? = some a ∨ b? = a.comma?) ∧
      Reader.start.run (text ++ separator ++ [' ']) = b?.map (⟨.between, ·⟩) := by
  obtain ⟨blanks, spacing, rfl | rfl⟩ := separates
  · refine ⟨some a, .inl rfl, ?_⟩
    rw [List.append_assoc, h.run_white (spacing.append isSpacing_space).isWhite (by simp)]
    rfl
  · refine ⟨a.comma?, .inr rfl, ?_⟩
    have first : Reader.start.run (text ++ [',']) = a.comma?.map (⟨.between, ·⟩) :=
      h.run_outside fun p _ => next?_of_mark (by simp) p
    have apart : text ++ ',' :: blanks ++ [' '] = (text ++ [',']) ++ (blanks ++ [' ']) := by simp
    rw [apart, Reader.run_append, first]
    cases a.comma? with
    | none => rfl
    | some b => exact run_white (spacing.append isSpacing_space).isWhite b

/-- Where the reader may be behind the text of a draft, or behind one more comma. -/
inductive Separated : Draft → Assembly → Prop where
  | blank : Separated blank .start
  | complete (t : Tree) : Separated (complete t) ⟨[], .complete t.json⟩
  | array {items : List Tree} {outer : List Outer} {done : List Json} {stack : List Container}
    {turn : Turn} (due : turn = .firstItem ∨ turn = .next ∨ turn = .value) :
    Separated (array items outer) ⟨.array done :: stack, turn⟩
  | object {members : List (String × Tree)} {outer : List Outer} {done : List (Json.Text × Json)}
    {stack : List Container} {turn : Turn}
    (due : turn = .firstName ∨ turn = .next ∨ turn = .name) :
    Separated (object members outer) ⟨.object done :: stack, turn⟩
  | named {members : List (String × Tree)} {key : String} {outer : List Outer}
    {done : List (Json.Text × Json)} {name : Json.Text} {stack : List Container} :
    Separated (named members key outer) ⟨.member done name :: stack, .value⟩

section

variable {b : Assembly}

theorem separated_assembly (d : Draft) : d.Separated d.assembly := by
  cases d with
  | blank => exact .blank
  | complete t => exact .complete t
  | array items outer =>
      refine .array ?_
      split <;> simp
  | object members outer =>
      refine .object ?_
      split <;> simp
  | named members key outer => exact .named

theorem separated_comma (h : d.assembly.comma? = some b) : d.Separated b := by
  cases d with
  | blank | complete | named => cases h
  | array items outer =>
      simp only [assembly] at h
      split at h <;> cases h
      exact .array (.inr (.inr rfl))
  | object members outer =>
      simp only [assembly] at h
      split at h <;> cases h
      exact .object (.inr (.inr rfl))

theorem Separated.acceptsValue (h : d.Separated b) (outside : d.inside? = none) :
    b.acceptsValue = false := by
  cases h with
  | complete => rfl
  | object due => rcases due with rfl | rfl | rfl <;> rfl
  | blank | array | named => cases outside

/-- Only an object waits for names. -/
theorem Separated.acceptsName (h : d.Separated b)
    (other : ∀ members outer, d ≠ Draft.object members outer) : b.acceptsName = false := by
  cases h with
  | blank | complete | named => rfl
  | array due => rcases due with rfl | rfl | rfl <;> rfl
  | object => exact absurd rfl (other _ _)

theorem Separated.endObject? (h : d.Separated b)
    (other : ∀ members outer, d ≠ Draft.object members outer) : b.endObject? = none := by
  cases h with
  | object => exact absurd rfl (other _ _)
  | blank | complete | array | named => rfl

theorem Separated.endArray? (h : d.Separated b)
    (other : ∀ items outer, d ≠ Draft.array items outer) : b.endArray? = none := by
  cases h with
  | array => exact absurd rfl (other _ _)
  | blank | complete | object | named => rfl

/-- A string is a name wherever it may be one. -/
theorem Separated.colon (h : d.Separated b) (due : b.acceptsName = true) (t : Json.Text) :
    ∃ stack, b.text t = ⟨stack, .colon⟩ := by
  cases h with
  | object turn =>
      rcases turn with rfl | rfl | rfl
      · exact ⟨_, rfl⟩
      · cases due
      · exact ⟨_, rfl⟩
  | blank | complete | named => cases due
  | array turn => rcases turn with rfl | rfl | rfl <;> cases due

/-- The token of a call that is not permitted leads to no tree. -/
theorem stops_token {c : Call} {rest : List Char} (h : d.Separated b)
    (forbidden : d.accept c = none)
    (noName : c.isValue = true → (rest.dropWhile Reader.isBlank).head? ≠ some ':')
    (pretty : Bool) : (⟨.between, b⟩ : Reader).Stops ((c.token pretty).toList ++ rest) := by
  have notDue (outside : d.inside? = none) := h.acceptsValue outside
  cases c with
  | startObject =>
      have due := notDue (Option.map_eq_none_iff.mp forbidden)
      have refused : Reader.begin? b '\x7b' = none := by
        simp [Reader.begin?, Reader.isBlank, Assembly.beginObject?, due]
      rw [Call.token]
      exact Reader.stops_cons refused rest
  | startSequence =>
      have due := notDue (Option.map_eq_none_iff.mp forbidden)
      have refused : Reader.begin? b '[' = none := by
        simp [Reader.begin?, Reader.isBlank, Assembly.beginArray?, due]
      rw [Call.token]
      exact Reader.stops_cons refused rest
  | value v =>
      have due := notDue (Option.map_eq_none_iff.mp forbidden)
      by_cases isText : ∃ t, v = .text t
      · obtain ⟨t, rfl⟩ := isText
        cases name : b.acceptsName with
        | false => exact stops_quote due name t rest
        | true =>
            change Reader.Stops _ ((Json.quote t).toList ++ rest)
            rw [Reader.stops_append (run_quote (.inr name) t)]
            obtain ⟨stack, named⟩ := h.colon name (some t)
            rw [named]
            exact stops_of_colon (noName rfl)
      · exact Reader.stops_of_run (run_scalar_of_not_due due fun t text => isText ⟨t, text⟩) rest
  | name key =>
      have other : ∀ members outer, d ≠ object members outer := by
        rintro members outer rfl
        cases forbidden
      have noName := h.acceptsName other
      have colon : ∃ spaces, ((Call.name key).token pretty).toList =
          (Json.quote key).toList ++ ':' :: spaces := by
        cases pretty with
        | false => exact ⟨[], String.toList_append⟩
        | true => exact ⟨[' '], String.toList_append⟩
      obtain ⟨spaces, token⟩ := colon
      rw [token, List.append_assoc, List.cons_append]
      cases value : b.acceptsValue with
      | false => exact stops_quote value noName key _
      | true => exact stops_quote_colon value key _
  | endObject =>
      have other : ∀ members outer, d ≠ object members outer := by
        rintro members outer rfl
        cases forbidden
      have refused : Reader.begin? b '\x7d' = none := by
        simp [Reader.begin?, Reader.isBlank, h.endObject? other]
      rw [Call.token]
      exact Reader.stops_cons refused rest
  | endSequence =>
      have other : ∀ items outer, d ≠ array items outer := by
        rintro items outer rfl
        cases forbidden
      have refused : Reader.begin? b ']' = none := by
        simp [Reader.begin?, Reader.isBlank, h.endArray? other]
      rw [Call.token]
      exact Reader.stops_cons refused rest

end

/-- Behind the token of a call that is not permitted, nothing goes on with the text. -/
theorem not_extends_of_forbidden {text separator : String} {c : Call}
    (h : Reads text.toList d.assembly) (forbidden : d.accept c = none)
    (separates : IsSeparator separator.toList) (pretty : Bool) :
    ¬ Extends text separator pretty c := by
  rintro ⟨rest, complete, noName⟩
  obtain ⟨b?, separated, run⟩ := run_separator h separates
  have split : (text ++ separator ++ " " ++ c.token pretty ++ rest).toList =
      (text.toList ++ separator.toList ++ [' ']) ++ ((c.token pretty).toList ++ rest.toList) := by
    simp [String.toList_append]
  rw [parse?, split, Reader.run_append, run] at complete
  cases b? with
  | none => cases complete
  | some b =>
      have here : d.Separated b := by
        rcases separated with same | comma
        · exact Option.some.inj same ▸ separated_assembly d
        · exact separated_comma comma.symm
      rw [Option.map_some, Option.bind_some, stops_token here forbidden noName pretty] at complete
      cases complete

end Draft

namespace Stream

/-- What the stream makes of a call in some state, told by its text alone. -/
structure Decides (s : Stream) (c : Call) : Prop where
  /-- The call is accepted just when some text goes on with its token. -/
  accepts : (∃ s', perform c s = .ok () s') ↔
    ∃ separator : String, IsSeparator separator.toList ∧
      Extends s.sink.contents separator s.settings.pretty c
  /-- The token is then written behind a separator with which some text goes on. -/
  writes : ∀ s', perform c s = .ok () s' → ∃ separator : String,
    IsSeparator separator.toList ∧ Extends s.sink.contents separator s.settings.pretty c ∧
      s'.sink.contents = s.sink.contents ++ separator ++ c.token s.settings.pretty
  /-- Otherwise the call is a misuse, and nothing changes. -/
  refuses : ∀ e s', perform c s = .error e s' → s' = s ∧ ∃ m, e = .invalidOperation m

variable {s : Stream} {d : Draft}

theorem isSeparator_comma {blanks : String} (d : Draft) (c : Call)
    (spacing : IsSpacing blanks.toList) : IsSeparator (d.comma c ++ blanks).toList := by
  refine ⟨blanks.toList, spacing, ?_⟩
  rcases d.comma_cases c with none | one
  · exact .inl (by rw [none, String.empty_append])
  · exact .inr (by rw [one, String.toList_append]; rfl)

theorem decides_of_shows (h : s.Shows d) (c : Call) : Decides s c := by
  have reads : Reads s.sink.contents.toList d.assembly := by
    rw [h.contents]
    exact h.reads
  cases permitted : d.accept c with
  | none =>
      obtain ⟨m, misuse⟩ := misuse_perform h permitted
      refine ⟨⟨?_, ?_⟩, ?_, ?_⟩
      · rintro ⟨s', run⟩
        cases misuse.symm.trans run
      · rintro ⟨separator, separates, goesOn⟩
        exact absurd goesOn (Draft.not_extends_of_forbidden reads permitted separates _)
      · intro s' run
        cases misuse.symm.trans run
      · intro e s' run
        cases misuse.symm.trans run
        exact ⟨rfl, m, rfl⟩
  | some e =>
      obtain ⟨blanks, spacing, run⟩ := perform_eq_of_accept h permitted
      have separates := isSeparator_comma d c spacing
      have goesOn : Extends s.sink.contents (d.comma c ++ blanks) s.settings.pretty c :=
        Draft.extends_of_accept reads permitted spacing String.toList_append _
      refine ⟨⟨fun _ => ⟨_, separates, goesOn⟩, fun _ => ⟨_, run⟩⟩, ?_, ?_⟩
      · intro s' run'
        obtain rfl := (EStateM.Result.ok.inj (run.symm.trans run')).2
        refine ⟨_, separates, goesOn, ?_⟩
        have whole : s.sink.cut = [] := by rw [h.sink]
        rw [h.contents, Sink.contents_of_whole (by exact whole)]
        simp [Stream.drawn, String.append_assoc]
      · intro e' s' run'
        cases run.symm.trans run'

/-- Once a whole root value is written, no call is ever accepted. -/
theorem performAll_of_complete {t : Tree} (h : s.Shows (.complete t)) (calls : List Call) :
    performAll s calls = ([], s) := by
  induction calls with
  | nil => rfl
  | cons c calls ih =>
      have forbidden : (Draft.complete t).accept c = none := by cases c <;> rfl
      obtain ⟨m, misuse⟩ := misuse_perform h forbidden
      rw [performAll, misuse]
      exact ih

/-- In every state that calls lead to, some text goes on with what is written. The stream takes just
the calls that JSON permits there, refuses the others without a trace, and takes none once a whole
root value is written. -/
theorem decides_performAll (settings : Settings) (calls : List Call) :
    (∃ rest : String, (parse? ((performAll { settings } calls).2.sink.contents ++ rest)).isSome) ∧
    (∀ c, Decides (performAll { settings } calls).2 c) ∧
    ((performAll { settings } calls).2.rootWritten = true →
      (performAll { settings } calls).2.depth = 0 →
      ∀ more, performAll (performAll { settings } calls).2 more =
        ([], (performAll { settings } calls).2)) := by
  obtain ⟨d, shows, -⟩ := performAll_shows (shows_blank settings) calls
  refine ⟨⟨String.ofList d.completion, ?_⟩, decides_of_shows shows, ?_⟩
  · rw [shows.contents]
    exact Draft.isSome_parse?_completion shows.reads
  · intro rootWritten closed more
    have started : d.started = true := shows.started.symm.trans rootWritten
    have frames : d.frames = [] := by
      rw [← shows.frames]
      exact List.eq_nil_of_length_eq_zero closed
    obtain ⟨t, rfl⟩ := Draft.eq_complete_of_frames started frames
    exact performAll_of_complete shows more

/-- Behind a whole array there is nothing more to write. -/
theorem decides_performAll_array :
    let calls : List Call := [.startSequence, .name "a", .value (.integer 1), .endSequence]
    let s := (performAll { settings := { pretty := true } } calls).2
    s.rootWritten = true ∧ s.depth = 0 ∧ (∀ c, Decides s c) ∧
      ∀ more, performAll s more = ([], s) :=
  have decided := decides_performAll { pretty := true } _
  ⟨rfl, rfl, decided.2.1, decided.2.2 rfl rfl⟩

end Stream

end SceneStream
