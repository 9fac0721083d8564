import SceneStream.Json.Reader

/-!
# What the reader makes of a piece of text

A number at the end of a text is finished by whatever follows it, so the reader may still be inside
of it when all that matters has been read. `Reads` looks past this: it says which part of the tree a
text has given, with a number at its end taken as whole. Each kind of token extends it in one way.
-/

namespace SceneStream.Json

namespace Reader

@[simp] theorem run_nil (r : Reader) : r.run [] = some r := rfl

@[simp] theorem run_cons (r : Reader) (c : Char) (text : List Char) :
    r.run (c :: text) = (r.step c).bind (run · text) := rfl

theorem run_append (r : Reader) (a b : List Char) :
    r.run (a ++ b) = (r.run a).bind (run · b) := List.foldlM_append

/-- What has been read, if the reader is between tokens or after a number that may stop there. -/
def settled? (r : Reader) : Option Assembly :=
  match r.mode with
  | .between => some r.assembly
  | .number p seen =>
    if p.complete then some (r.assembly.value (.number (String.ofList seen.reverse))) else none
  | _ => none

end Reader

/-- The text gives this part of a tree. -/
def Reads (text : List Char) (a : Assembly) : Prop :=
  ∃ r, Reader.start.run text = some r ∧ r.settled? = some a

/-- A spelling that a number without a sign has. -/
def IsMagnitude (text : List Char) : Prop :=
  ∃ p : NumberPhase, p.complete = true ∧ text.foldlM NumberPhase.next? .sign = some p

/-- A spelling that a number has. -/
def IsNumeral (text : List Char) : Prop :=
  IsMagnitude text ∨ ∃ magnitude, text = '-' :: magnitude ∧ IsMagnitude magnitude

/-- A whole text is read as a tree once its value is complete. -/
theorem parse?_of_reads {text : String} {v : Json} (h : Reads text.toList ⟨[], .complete v⟩) :
    parse? text = some v := by
  obtain ⟨r, reached, settled⟩ := h
  have finished : r.finish? = some v := by
    change r.settled?.bind _ = some v
    rw [settled]
    rfl
  rw [parse?, reached, Option.bind_some, finished]

/-- A text that gives a part of a tree is no whole text as long as more of the tree is to come. -/
theorem turn_of_parse? {text : String} {a : Assembly} {v : Json} (h : Reads text.toList a)
    (parsed : parse? text = some v) : a.turn = .complete v := by
  obtain ⟨r, reached, settled⟩ := h
  have finished : r.finish? = some v := by
    rwa [parse?, reached, Option.bind_some] at parsed
  change r.settled?.bind _ = some v at finished
  rw [settled, Option.bind_some] at finished
  split at finished
  next turn =>
    obtain rfl := Option.some.inj finished
    exact turn
  next => cases finished

section

variable {text : List Char} {a b : Assembly}

theorem reads_nil : Reads [] .start := ⟨Reader.start, rfl, rfl⟩

/-- Where a value or a name is due, no number is left unfinished. -/
theorem Reads.between (h : Reads text a) (due : a.acceptsValue = true ∨ a.acceptsName = true) :
    Reader.start.run text = some ⟨.between, a⟩ := by
  obtain ⟨⟨mode, assembly⟩, reached, settled⟩ := h
  cases mode with
  | between =>
      obtain rfl := Option.some.inj settled
      exact reached
  | number p seen =>
      simp only [Reader.settled?] at settled
      split at settled
      · obtain rfl := Option.some.inj settled
        revert due
        rcases assembly with ⟨_ | ⟨_ | _ | _, _⟩, turn⟩ <;>
          simp [Assembly.value, Assembly.place, Assembly.acceptsValue, Assembly.acceptsName]
      · cases settled
  | word | text | escape | digits => cases settled

/-- A text that is read on from a place between two tokens. -/
theorem Reads.of_run {piece : List Char} {r : Reader}
    (h : Reader.start.run text = some ⟨.between, a⟩)
    (piece_run : Reader.run ⟨.between, a⟩ piece = some r) (settled : r.settled? = some b) :
    Reads (text ++ piece) b :=
  ⟨r, by rw [Reader.run_append, h, Option.bind_some, piece_run], settled⟩

/-- A character that cannot belong to a number ends the one before it, if there is one, and is then
read as behind any other token. -/
theorem Reads.run_outside {c : Char} (h : Reads text a)
    (outside : ∀ p : NumberPhase, p.complete = true → p.next? c = none) :
    Reader.start.run (text ++ [c]) = Reader.begin? a c := by
  obtain ⟨⟨mode, assembly⟩, reached, whole⟩ := h
  rw [Reader.run_append, reached, Option.bind_some, Reader.run_cons]
  cases mode with
  | between =>
      obtain rfl := Option.some.inj whole
      simp [Reader.step]
  | number p seen =>
      simp only [Reader.settled?] at whole
      split at whole
      · next complete =>
          obtain rfl := Option.some.inj whole
          simp [Reader.step, outside p complete, complete]
      · cases whole
  | word | text | escape | digits => cases whole

/-- The white space that may stand between tokens: spaces, tabs and line breaks. -/
def blanks : List Char := [' ', '\t', '\n', '\r']

theorem next?_of_mark {c : Char} (hc : c ∈ [',', ':', '[', ']', '\x7b', '\x7d'] ++ blanks)
    (p : NumberPhase) : p.next? c = none := by
  simp only [blanks, List.cons_append, List.nil_append, List.mem_cons, List.not_mem_nil,
    or_false] at hc
  rcases hc with rfl | rfl | rfl | rfl | rfl | rfl | rfl | rfl | rfl | rfl <;> cases p <;> rfl

theorem begin?_blank {c : Char} (a : Assembly) (hc : c ∈ blanks) :
    Reader.begin? a c = some ⟨.between, a⟩ := by
  have isBlank : Reader.isBlank c = true := by simpa [Reader.isBlank, blanks, or_assoc] using hc
  simp [Reader.begin?, isBlank]

/-- A blank puts the reader between two tokens. -/
theorem Reads.run_blank {c : Char} (h : Reads text a) (hc : c ∈ blanks) :
    Reader.start.run (text ++ [c]) = some ⟨.between, a⟩ := by
  rw [h.run_outside, begin?_blank a hc]
  exact fun p _ => next?_of_mark (List.mem_append_right _ hc) p

/-- White space between tokens. -/
def IsWhite (text : List Char) : Prop := ∀ c ∈ text, c ∈ blanks

/-- Spaces and line breaks, the white space that a stream writes. -/
def IsSpacing (text : List Char) : Prop := ∀ c ∈ text, c = ' ' ∨ c = '\n'

theorem IsSpacing.isWhite (spacing : IsSpacing text) : IsWhite text := by
  intro c hc
  rcases spacing c hc with rfl | rfl <;> simp [blanks]

theorem isSpacing_nil : IsSpacing [] := fun _ hc => absurd hc List.not_mem_nil

theorem IsSpacing.append {first second : List Char} (h : IsSpacing first)
    (h' : IsSpacing second) : IsSpacing (first ++ second) := by
  intro c hc
  exact (List.mem_append.mp hc).elim (h c) (h' c)

theorem isSpacing_space : IsSpacing [' '] := fun _ hc => .inl (List.mem_singleton.mp hc)

theorem run_white {space : List Char} (white : IsWhite space) (a : Assembly) :
    Reader.run ⟨.between, a⟩ space = some ⟨.between, a⟩ := by
  induction space with
  | nil => rfl
  | cons c space ih =>
      obtain ⟨first, rest⟩ := List.forall_mem_cons.mp white
      rw [Reader.run_cons, show Reader.step ⟨.between, a⟩ c = _ from begin?_blank a first,
        Option.bind_some, ih rest]

/-- Some white space puts the reader between two tokens. -/
theorem Reads.run_white {space : List Char} (h : Reads text a) (white : IsWhite space)
    (some_blank : space ≠ []) : Reader.start.run (text ++ space) = some ⟨.between, a⟩ := by
  cases space with
  | nil => exact absurd rfl some_blank
  | cons c space =>
      obtain ⟨first, rest⟩ := List.forall_mem_cons.mp white
      rw [List.append_cons, Reader.run_append, h.run_blank first, Option.bind_some,
        Json.run_white rest]

theorem Reads.white {space : List Char} (h : Reads text a) (white : IsWhite space) :
    Reads (text ++ space) a := by
  by_cases some_blank : space = []
  · rwa [some_blank, List.append_nil]
  · exact ⟨⟨.between, a⟩, h.run_white white some_blank, rfl⟩

/-- The punctuation of JSON stands outside of numbers. -/
theorem Reads.mark {c : Char} {next : Option Assembly} (h : Reads text a)
    (hc : c ∈ [',', ':', '[', ']', '\x7b', '\x7d'])
    (first : Reader.begin? a c = next.map (⟨.between, ·⟩)) (hb : next = some b) :
    Reads (text ++ [c]) b := by
  refine ⟨⟨.between, b⟩, ?_, rfl⟩
  rw [h.run_outside, first, hb, Option.map_some]
  exact fun p _ => next?_of_mark (List.mem_append_left _ hc) p

theorem Reads.comma (h : Reads text a) (hb : a.comma? = some b) : Reads (text ++ [',']) b :=
  h.mark (by simp) rfl hb

theorem Reads.colon (h : Reads text a) (hb : a.colon? = some b) : Reads (text ++ [':']) b :=
  h.mark (by simp) rfl hb

theorem Reads.beginArray (h : Reads text a) (hb : a.beginArray? = some b) :
    Reads (text ++ ['[']) b :=
  h.mark (by simp) rfl hb

theorem Reads.endArray (h : Reads text a) (hb : a.endArray? = some b) : Reads (text ++ [']']) b :=
  h.mark (by simp) rfl hb

theorem Reads.beginObject (h : Reads text a) (hb : a.beginObject? = some b) :
    Reads (text ++ ['\x7b']) b :=
  h.mark (by simp) rfl hb

theorem Reads.endObject (h : Reads text a) (hb : a.endObject? = some b) :
    Reads (text ++ ['\x7d']) b :=
  h.mark (by simp) rfl hb

/-! ## Strings -/

/-- Where a value is due, a string is one. -/
theorem text_of_acceptsValue (due : a.acceptsValue = true) (t : Text) :
    a.text t = a.value (.string t) := by
  have noName : a.acceptsName = false := by
    obtain ⟨stack, turn⟩ := a
    cases turn <;> first | rfl | cases due
  simp [Assembly.text, noName]

/-- What the characters between two quotation marks spell: each stands for itself, unless it ends the
string, begins an escape or is a control character, which none may be. -/
inductive Spells : List Char → PartialText → Prop where
  | nil : Spells [] .start
  | plain {body : List Char} {t : PartialText} {c : Char} (h : Spells body t) (quote : c ≠ '"')
      (slash : c ≠ '\\') (visible : ¬ c.toNat < 0x20) : Spells (body ++ [c]) (t.push c)
  | short {body : List Char} {t : PartialText} {letter c : Char} (h : Spells body t)
      (short : Reader.shortEscape? letter = some c) : Spells (body ++ ['\\', letter]) (t.push c)
  | unit {body : List Char} {t : PartialText} {c₁ c₂ c₃ c₄ : Char} {d₁ d₂ d₃ d₄ : Nat}
      (h : Spells body t) (h₁ : Reader.hexValue? c₁ = some d₁) (h₂ : Reader.hexValue? c₂ = some d₂)
      (h₃ : Reader.hexValue? c₃ = some d₃) (h₄ : Reader.hexValue? c₄ = some d₄) :
      Spells (body ++ ['\\', 'u', c₁, c₂, c₃, c₄])
        (t.pushUnit (((d₁ * 16 + d₂) * 16 + d₃) * 16 + d₄))

section

variable {body : List Char} {t : PartialText}

theorem Spells.run (h : Spells body t) :
    Reader.run ⟨.text .start, a⟩ body = some ⟨.text t, a⟩ := by
  induction h with
  | nil => rfl
  | plain h quote slash visible ih =>
      rw [Reader.run_append, ih, Option.bind_some]
      simp [Reader.step, quote, slash, visible]
  | @short body t letter c h short ih =>
      have other : letter ≠ 'u' := by
        rintro rfl
        cases short
      rw [Reader.run_append, ih, Option.bind_some]
      simp [Reader.step, short, other]
  | unit h h₁ h₂ h₃ h₄ ih =>
      rw [Reader.run_append, ih, Option.bind_some]
      simp [Reader.step, h₁, h₂, h₃, h₄]

theorem hexValue?_digitChar :
    ∀ n < 16, Reader.hexValue? (Nat.digitChar n) = some n := by decide

/-- Every character comes back from its escape. -/
theorem Spells.escapeChar (h : Spells body t) (half : t.half = none) (c : Char) :
    Spells (body ++ Json.escapeChar c) ⟨c :: t.seen, none, t.paired⟩ := by
  have push (d : Char) : t.push d = ⟨d :: t.seen, none, t.paired⟩ := by
    simp [PartialText.push, half]
  have unit (n : Nat) (hn : n < 0x20) : Spells (body ++ (['\\', 'u', '0', '0'] ++ hexDigits n))
      ⟨Char.ofNat n :: t.seen, none, t.paired⟩ := by
    have zero : Reader.hexValue? '0' = some 0 := rfl
    have spelled := h.unit zero zero (hexValue?_digitChar (n / 16) (by omega))
      (hexValue?_digitChar (n % 16) (by omega))
    have whole : n / 16 * 16 + n % 16 = n := by omega
    simpa [hexDigits, PartialText.pushUnit, half, whole, show ¬ 0xD800 ≤ n by omega,
      show ¬ 0xDC00 ≤ n by omega] using spelled
  unfold Json.escapeChar
  split
  · exact push _ ▸ h.short rfl
  · exact push _ ▸ h.short rfl
  · exact push _ ▸ h.short rfl
  · exact push _ ▸ h.short rfl
  · exact push _ ▸ h.short rfl
  · exact push _ ▸ h.short rfl
  · exact push _ ▸ h.short rfl
  · next quote slash _ _ _ _ _ =>
      split
      · next control =>
          have spelled := unit c.toNat control
          rwa [Char.ofNat_toNat] at spelled
      · next visible => exact push _ ▸ h.plain quote slash visible

theorem Spells.escape (cs : List Char) (h : Spells body t) (half : t.half = none) :
    Spells (body ++ Json.escape cs) ⟨cs.reverse ++ t.seen, none, t.paired⟩ := by
  induction cs generalizing body t with
  | nil =>
      obtain ⟨seen, _, paired⟩ := t
      obtain rfl : _ = none := half
      rwa [Json.escape, List.flatMap_nil, List.append_nil]
  | cons c cs ih =>
      have more := ih (h.escapeChar half c) rfl
      rw [List.append_assoc, Json.escape, ← List.flatMap_cons] at more
      rwa [List.reverse_cons, List.append_assoc]

/-- What a text spells between its quotation marks is the text. -/
theorem exists_spells (s : String) : ∃ body t, Spells body t ∧
    (quote s).toList = '"' :: (body ++ ['"']) ∧ t.finish = some s := by
  refine ⟨escape s.toList, _, by simpa using Spells.escape s.toList .nil rfl, ?_, ?_⟩
  · simp [quote]
  · simp [PartialText.finish, PartialText.start]

/-- A string is read as what it spells, where a name or a value is due. -/
theorem Spells.run_string (h : Spells body t)
    (due : a.acceptsValue = true ∨ a.acceptsName = true) :
    Reader.run ⟨.between, a⟩ ('"' :: (body ++ ['"'])) = some ⟨.between, a.text t.finish⟩ := by
  have opened : Reader.begin? a '"' = some ⟨.text .start, a⟩ := by
    have : (a.acceptsValue || a.acceptsName) = true := by simpa using due
    simp [Reader.begin?, Reader.isBlank, this]
  rw [Reader.run_cons, show Reader.step ⟨.between, a⟩ '"' = some ⟨.text .start, a⟩ from opened,
    Option.bind_some, Reader.run_append, h.run, Option.bind_some, Reader.run_cons]
  simp [Reader.step]

end

/-- A quoted text is read as the text, where a name or a value is due. -/
theorem run_quote (due : a.acceptsValue = true ∨ a.acceptsName = true) (s : String) :
    Reader.run ⟨.between, a⟩ (quote s).toList = some ⟨.between, a.text (some s)⟩ := by
  obtain ⟨body, t, spells, text, finish⟩ := exists_spells s
  rw [text, spells.run_string due, finish]

theorem Reads.quote (h : Reads text a) (due : a.acceptsValue = true ∨ a.acceptsName = true)
    (s : String) : Reads (text ++ (quote s).toList) (a.text (some s)) :=
  Reads.of_run (h.between due) (run_quote due s) rfl

/-! ## Other scalars -/

theorem Reads.wordTrue (h : Reads text a) (due : a.acceptsValue = true) :
    Reads (text ++ "true".toList) (a.value (.bool true)) := by
  refine Reads.of_run (h.between (.inl due)) (r := ⟨.between, a.value (.bool true)⟩) ?_ rfl
  simp [Reader.step, Reader.begin?, Reader.isBlank, due]

theorem Reads.wordFalse (h : Reads text a) (due : a.acceptsValue = true) :
    Reads (text ++ "false".toList) (a.value (.bool false)) := by
  refine Reads.of_run (h.between (.inl due)) (r := ⟨.between, a.value (.bool false)⟩) ?_ rfl
  simp [Reader.step, Reader.begin?, Reader.isBlank, due]

theorem Reads.wordNull (h : Reads text a) (due : a.acceptsValue = true) :
    Reads (text ++ "null".toList) (a.value .null) := by
  refine Reads.of_run (h.between (.inl due)) (r := ⟨.between, a.value .null⟩) ?_ rfl
  simp [Reader.step, Reader.begin?, Reader.isBlank, due]

theorem run_number {p q : NumberPhase} {cs : List Char} (seen : List Char)
    (h : cs.foldlM NumberPhase.next? p = some q) :
    Reader.run ⟨.number p seen, a⟩ cs = some ⟨.number q (cs.reverse ++ seen), a⟩ := by
  induction cs generalizing p seen with
  | nil =>
      obtain rfl := Option.some.inj h
      rfl
  | cons c cs ih =>
      obtain ⟨middle, first, rest⟩ := Option.bind_eq_some_iff.mp h
      rw [Reader.run_cons]
      simp [Reader.step, first, ih (c :: seen) rest]

/-- What begins a number begins no other token. -/
theorem begin?_digit {c : Char} {p : NumberPhase} (h : NumberPhase.sign.next? c = some p) :
    Reader.begin? a c = if a.acceptsValue then some ⟨.number p [c], a⟩ else none := by
  have digit : c.isDigit = true := by
    by_cases zero : c = '0'
    · rw [zero]
      rfl
    · simp only [NumberPhase.next?, zero, if_false, Option.ite_none_right_eq_some] at h
      exact h.1
  have visible : ¬ Reader.isBlank c = true := by
    simp only [Reader.isBlank, Bool.or_eq_true, decide_eq_true_eq]
    rintro (((rfl | rfl) | rfl) | rfl) <;> cases digit
  unfold Reader.begin?
  rw [if_neg visible]
  split <;> first | (simp [h]; done) | cases digit

/-- A numeral is read as a number with its spelling. -/
theorem Reads.number (h : Reads text a) (due : a.acceptsValue = true) {s : String}
    (numeral : IsNumeral s.toList) : Reads (text ++ s.toList) (a.value (.number s)) := by
  suffices run : ∃ p : NumberPhase, p.complete = true ∧
      Reader.run ⟨.between, a⟩ s.toList = some ⟨.number p s.toList.reverse, a⟩ by
    obtain ⟨p, complete, run⟩ := run
    apply Reads.of_run (h.between (.inl due)) run
    simp [Reader.settled?, complete]
  rcases numeral with ⟨p, complete, spelt⟩ | ⟨magnitude, signed, p, complete, spelt⟩
  · refine ⟨p, complete, ?_⟩
    cases hs : s.toList with
    | nil =>
        rw [hs] at spelt
        obtain rfl := Option.some.inj spelt
        cases complete
    | cons c digits =>
        rw [hs] at spelt
        obtain ⟨first, begun, rest⟩ := Option.bind_eq_some_iff.mp spelt
        rw [Reader.run_cons, show Reader.step ⟨.between, a⟩ c = _ from begin?_digit begun,
          if_pos due, Option.bind_some, run_number _ rest, List.reverse_cons]
  · refine ⟨p, complete, ?_⟩
    have begun : Reader.step ⟨.between, a⟩ '-' = some ⟨.number .sign ['-'], a⟩ := by
      simp [Reader.step, Reader.begin?, Reader.isBlank, due]
    rw [signed, Reader.run_cons, begun, Option.bind_some, run_number _ spelt, List.reverse_cons]

end

end SceneStream.Json
