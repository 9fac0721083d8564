import SceneStream.Proofs.Json.Numeral

/-!
# White space between tokens

White space means nothing between the tokens of a JSON text and everything inside its strings. A text
is stripped of the spaces and line breaks that stand outside of strings by a machine that knows where
each character stands. Whatever a stream writes in one piece, a bracket, a mark, a quoted text or
another scalar, has none of them.
-/

namespace SceneStream

namespace Json

/-- Where a character of a JSON text stands. -/
inductive Region where
  /-- Between tokens, or in one that is no string. -/
  | outside
  /-- In a string. -/
  | inside
  /-- In a string, behind the backslash that begins an escape. -/
  | escaped
  deriving DecidableEq, Repr

/-- The region behind one more character. -/
def Region.next : Region → Char → Region
  | outside, c => if c = '"' then inside else outside
  | inside, c => if c = '"' then outside else if c = '\\' then escaped else inside
  | escaped, _ => inside

/-- The region behind a piece of text. -/
def Region.after (p : Region) (text : List Char) : Region := text.foldl next p

/-- Whether a character there only spaces the tokens. -/
def Region.isBlank (p : Region) (c : Char) : Bool := p = outside && (c = ' ' || c = '\n')

/-- What is left of a text that starts in this region without its blanks. -/
def strip : Region → List Char → List Char
  | _, [] => []
  | p, c :: rest => if p.isBlank c then strip (p.next c) rest else c :: strip (p.next c) rest

/-- A JSON text without the spaces and line breaks that stand outside of its strings. -/
def stripped (text : String) : String := String.ofList (strip .outside text.toList)

/-- A text that starts in one region ends in the other, and the second text is what is left of it. -/
structure Strips (p : Region) (wide narrow : List Char) (q : Region) : Prop where
  left : strip p wide = narrow
  ends : p.after wide = q

/-- A piece with no blanks, between two tokens. -/
def IsSolid (text : List Char) : Prop := Strips .outside text text .outside

section

variable {p q r : Region} {wide wide' narrow narrow' : List Char} {c : Char}

theorem Region.after_append (p : Region) (a b : List Char) :
    p.after (a ++ b) = (p.after a).after b := List.foldl_append

theorem strip_append (p : Region) (a b : List Char) :
    strip p (a ++ b) = strip p a ++ strip (p.after a) b := by
  induction a generalizing p with
  | nil => rfl
  | cons c a ih =>
      rw [List.cons_append, strip, strip, ih, Region.after, Region.after, List.foldl_cons]
      split
      · rfl
      · rw [List.cons_append]

theorem strips_nil (p : Region) : Strips p [] [] p := ⟨rfl, rfl⟩

theorem Strips.append (first : Strips p wide narrow q) (second : Strips q wide' narrow' r) :
    Strips p (wide ++ wide') (narrow ++ narrow') r where
  left := by rw [strip_append, first.left, first.ends, second.left]
  ends := by rw [Region.after_append, first.ends, second.ends]

theorem strips_visible (visible : p.isBlank c = false) : Strips p [c] [c] (p.next c) :=
  ⟨by simp [strip, visible], rfl⟩

/-- Characters that stay where they are, none of them a blank. -/
theorem strips_of_forall {text : List Char}
    (h : ∀ c ∈ text, p.isBlank c = false ∧ p.next c = p) : Strips p text text p := by
  induction text with
  | nil => exact strips_nil p
  | cons c text ih =>
      obtain ⟨⟨visible, stays⟩, rest⟩ := List.forall_mem_cons.mp h
      have first := strips_visible visible
      rw [stays] at first
      exact first.append (ih rest)

theorem strips_spacing {blanks : List Char} (spacing : IsSpacing blanks) :
    Strips .outside blanks [] .outside := by
  induction blanks with
  | nil => exact strips_nil _
  | cons c blanks ih =>
      obtain ⟨first, rest⟩ := List.forall_mem_cons.mp spacing
      have blank : Strips .outside [c] [] .outside := by
        rcases first with rfl | rfl <;> exact ⟨rfl, rfl⟩
      exact blank.append (ih rest)

end

/-! ## Strings -/

theorem strips_escapeChar (c : Char) : Strips .inside (escapeChar c) (escapeChar c) .inside := by
  have unit (n : Nat) (control : n < 0x20) : Strips .inside (['\\', 'u', '0', '0'] ++ hexDigits n)
      (['\\', 'u', '0', '0'] ++ hexDigits n) .inside := by
    have digits : strip .inside (hexDigits n) = hexDigits n ∧
        Region.after .inside (hexDigits n) = .inside := by
      revert n
      decide
    exact Strips.append ⟨rfl, rfl⟩ ⟨digits.1, digits.2⟩
  unfold escapeChar
  split
  · exact ⟨rfl, rfl⟩
  · exact ⟨rfl, rfl⟩
  · exact ⟨rfl, rfl⟩
  · exact ⟨rfl, rfl⟩
  · exact ⟨rfl, rfl⟩
  · exact ⟨rfl, rfl⟩
  · exact ⟨rfl, rfl⟩
  next quote slash _ _ _ _ _ =>
    split
    next control => exact unit c.toNat control
    next =>
      refine ⟨rfl, ?_⟩
      change Region.next .inside c = .inside
      rw [Region.next, if_neg quote, if_neg slash]

theorem strips_escape (cs : List Char) : Strips .inside (escape cs) (escape cs) .inside := by
  induction cs with
  | nil => exact strips_nil _
  | cons c cs ih => exact (strips_escapeChar c).append ih

/-- Nothing is stripped from a quoted text, whatever blanks, quotation marks and backslashes are in
it. -/
theorem isSolid_quote (s : String) : IsSolid (quote s).toList := by
  simp only [quote, String.toList_append, String.toList_ofList]
  have opened : Strips .outside "\"".toList "\"".toList .inside := ⟨rfl, rfl⟩
  have closed : Strips .inside "\"".toList "\"".toList .outside := ⟨rfl, rfl⟩
  exact (opened.append (strips_escape s.toList)).append closed

example : stripped "[ \" \\\" \",\n  1 ]" = "[\" \\\" \",1]" := by decide

/-! ## Other scalars -/

/-- What a number goes on with is no blank and does not begin a string. -/
theorem outside_of_next? {p q : NumberPhase} {c : Char} (h : p.next? c = some q) :
    Region.isBlank .outside c = false ∧ Region.next .outside c = .outside := by
  have stops (c : Char) (mark : c ∈ ['"', ' ', '\n']) : p.next? c = none := by
    simp only [List.mem_cons, List.not_mem_nil, or_false] at mark
    rcases mark with rfl | rfl | rfl <;> cases p <;> rfl
  have visible : c ∉ ['"', ' ', '\n'] := by
    intro mark
    rw [stops c mark] at h
    cases h
  simp only [List.mem_cons, List.not_mem_nil, or_false, not_or] at visible
  simp [Region.isBlank, Region.next, visible]

theorem isSolid_magnitude {text : List Char} (h : IsMagnitude text) : IsSolid text := by
  obtain ⟨q, -, spelt⟩ := h
  apply strips_of_forall
  generalize NumberPhase.sign = p at spelt
  induction text generalizing p with
  | nil => simp
  | cons c text ih =>
      obtain ⟨middle, first, rest⟩ := Option.bind_eq_some_iff.mp spelt
      exact List.forall_mem_cons.mpr ⟨outside_of_next? first, ih middle rest⟩

theorem isSolid_numeral {text : List Char} (h : IsNumeral text) : IsSolid text := by
  rcases h with magnitude | ⟨text, rfl, magnitude⟩
  · exact isSolid_magnitude magnitude
  · exact (strips_visible (p := .outside) (c := '-') rfl).append (isSolid_magnitude magnitude)

end Json

/-- A scalar is written without blanks around it. -/
theorem Scalar.isSolid_json (v : Scalar) : Json.IsSolid v.json.toList := by
  by_cases isText : ∃ s, v = .text s
  · obtain ⟨s, rfl⟩ := isText
    exact Json.isSolid_quote s
  · rcases Scalar.json_cases fun s text => isText ⟨s, text⟩ with word | numeral
    · simp only [List.mem_cons, List.not_mem_nil, or_false] at word
      rcases word with word | word | word <;> rw [word] <;> exact ⟨rfl, rfl⟩
    · exact Json.isSolid_numeral numeral

end SceneStream
