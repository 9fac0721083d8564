import SceneStream.Value.Reference

/-!
# References survive printing and parsing

The text of a reference spells its names in letters: a special character escaped, every other one
plain. Marks and points between names are plain letters, which no name has; so the text is cut where
it was joined, and each piece spells the name it was made from. Main statement: `text_roundTrip`.
-/

namespace SceneStream.Reference

/-- The letter that stands for a character in the text of a name. -/
def letter (c : Char) : Letter := if isSpecial c then .escaped c else .plain c

/-- The letters of a name in a text. -/
def letters (name : String) : List Letter := name.toList.map letter

@[simp] theorem char_letter (c : Char) : (letter c).char = c := by
  unfold letter
  split <;> rfl

@[simp] theorem spell_letters (name : String) : spell (letters name) = name := by
  have chars : Letter.char ∘ letter = id := funext char_letter
  simp [spell, letters, chars]

/-- A special character stands in no name without its backslash. -/
theorem plain_notMem_letters {c : Char} (special : isSpecial c = true) (name : String) :
    .plain c ∉ letters name := by
  intro mem
  obtain ⟨d, -, spelt⟩ := List.mem_map.mp mem
  unfold letter at spelt
  split at spelt
  · cases spelt
  next ordinary =>
    obtain rfl := Letter.plain.inj spelt
    exact ordinary special

/-! ## Reading letters -/

theorem letters?_escaped (c : Char) (rest : List Char) :
    letters? ('\\' :: c :: rest) = (letters? rest).map (.escaped c :: ·) := by
  rw [letters?.eq_def]
  simp

theorem letters?_plain {c : Char} (visible : c ≠ '\\') (rest : List Char) :
    letters? (c :: rest) = (letters? rest).map (.plain c :: ·) := by
  rw [letters?.eq_def]
  simp [visible]

/-- A character is read back as its letter, whether it needs a backslash or not. -/
theorem letters?_letter (c : Char) (rest : List Char) :
    letters? ((if isSpecial c then ['\\', c] else [c]) ++ rest) =
      (letters? rest).map (letter c :: ·) := by
  unfold letter
  split
  · exact letters?_escaped c rest
  next ordinary =>
    apply letters?_plain
    rintro rfl
    exact ordinary rfl

/-- The escaped form of a name is read as its letters, whatever stands behind it. -/
theorem letters?_escape (name : String) (rest : List Char) :
    letters? (escape name ++ rest) = (letters? rest).map (letters name ++ ·) := by
  unfold escape letters
  induction name.toList with
  | nil => simp
  | cons c cs ih =>
      rw [List.flatMap_cons, List.append_assoc, letters?_letter, ih, Option.map_map]
      rfl

/-- The letters of a path: those of its names, with plain points between them. -/
theorem letters?_path (path : List String) :
    letters? (['.'].intercalate (path.map escape)) =
      some ([.plain '.'].intercalate (path.map letters)) := by
  induction path with
  | nil => rfl
  | cons name path ih =>
      cases path with
      | nil =>
          have whole := letters?_escape name []
          rw [List.append_nil] at whole
          simp [whole, letters?]
      | cons next path =>
          simp only [List.map_cons, List.intercalate_cons_cons, List.append_assoc,
            List.singleton_append] at ih ⊢
          rw [letters?_escape, letters?_plain (by decide), ih]
          rfl

/-! ## Cutting letters -/

section

variable {c : Char}

theorem cutAt_ne_nil (c : Char) (ls : List Letter) : cutAt c ls ≠ [] := by
  cases ls with
  | nil => exact List.cons_ne_nil _ _
  | cons l rest =>
      rw [cutAt]
      split
      · exact List.cons_ne_nil _ _
      · split <;> exact List.cons_ne_nil _ _

theorem cutAt_separator (c : Char) (rest : List Letter) :
    cutAt c (.plain c :: rest) = [] :: cutAt c rest := by
  rw [cutAt]
  split
  next empty => exact absurd empty (cutAt_ne_nil c rest)
  next => simp [*]

/-- Any other letter belongs to the piece behind it. -/
theorem cutAt_cons {l : Letter} {rest first : List Letter} {others : List (List Letter)}
    (other : l ≠ .plain c) (cut : cutAt c rest = first :: others) :
    cutAt c (l :: rest) = (l :: first) :: others := by
  rw [cutAt, cut]
  simp [other]

/-- Letters without the separator are one piece. -/
theorem cutAt_of_notMem {piece : List Letter} (free : .plain c ∉ piece) :
    cutAt c piece = [piece] := by
  induction piece with
  | nil => rfl
  | cons l piece ih =>
      obtain ⟨other, free⟩ := List.ne_and_not_mem_of_not_mem_cons free
      exact cutAt_cons other.symm (ih free)

/-- Letters without the separator are the whole piece in front of one. -/
theorem cutAt_append_separator {piece : List Letter} (free : .plain c ∉ piece)
    (rest : List Letter) : cutAt c (piece ++ .plain c :: rest) = piece :: cutAt c rest := by
  induction piece with
  | nil => exact cutAt_separator c rest
  | cons l piece ih =>
      obtain ⟨other, free⟩ := List.ne_and_not_mem_of_not_mem_cons free
      exact cutAt_cons other.symm (ih free)

/-- What was joined with separators is cut into the same pieces. -/
theorem cutAt_intercalate {pieces : List (List Letter)} (some_piece : pieces ≠ [])
    (free : ∀ piece ∈ pieces, .plain c ∉ piece) :
    cutAt c ([.plain c].intercalate pieces) = pieces := by
  induction pieces with
  | nil => exact absurd rfl some_piece
  | cons piece pieces ih =>
      obtain ⟨first, rest⟩ := List.forall_mem_cons.mp free
      cases pieces with
      | nil =>
          rw [List.intercalate_singleton]
          exact cutAt_of_notMem first
      | cons next pieces =>
          rw [List.intercalate_cons_cons, List.append_assoc, List.singleton_append,
            cutAt_append_separator first, ih (List.cons_ne_nil _ _) rest]

end

/-! ## The round trip -/

/-- The letters of a whole text: a mark stands between the identifier and the path. -/
theorem letters?_text (r : Reference) :
    letters? (escape r.identifier ++ '#' :: ['.'].intercalate (r.path.map escape)) =
      some (letters r.identifier ++ .plain '#' :: [.plain '.'].intercalate (r.path.map letters)) := by
  rw [letters?_escape, letters?_plain (by decide), letters?_path]
  rfl

/-- A reference is built again from its own parts. -/
theorem of_parts (r : Reference) : of r.identifier r.path = .ok r := by
  rw [of, dif_neg r.identifier_ne, dif_neg r.path_ne, dif_neg r.segment_ne]

theorem parts_of_of {identifier : String} {path : List String} {r : Reference}
    (built : of identifier path = .ok r) : r.identifier = identifier ∧ r.path = path := by
  unfold of at built
  split at built
  · cases built
  split at built
  · cases built
  split at built
  · cases built
  obtain rfl := Except.ok.inj built
  exact ⟨rfl, rfl⟩

/-- A text is read by its letters: those in front of the first plain mark are the identifier, and
the ones behind it are cut into the path. -/
theorem parse_of_letters {text : String} {rest : List Char} {front back : List Letter}
    (chars : text.toList = '#' :: rest)
    (read : letters? rest = some (front ++ .plain '#' :: back)) (unmarked : .plain '#' ∉ front) :
    parse text = of (spell front) ((cutAt '.' back).map spell) := by
  have all : ∀ l ∈ front, decide (l ≠ .plain '#') = true := by
    intro l mem
    rw [decide_eq_true_eq]
    exact fun same => unmarked (same ▸ mem)
  simp only [parse, chars, read]
  rw [List.dropWhile_append_of_pos all, List.takeWhile_append_of_pos all]
  simp only [List.dropWhile_cons, List.takeWhile_cons, ne_eq, not_true_eq_false, decide_false,
    Bool.false_eq_true, if_false, List.append_nil]

/-- Reading the text of a reference gives the reference back. -/
theorem parse_text (r : Reference) : parse r.text = .ok r := by
  have unpointed : ∀ piece ∈ r.path.map letters, .plain '.' ∉ piece := by
    intro piece mem
    obtain ⟨name, -, rfl⟩ := List.mem_map.mp mem
    exact plain_notMem_letters rfl name
  have some_piece : r.path.map letters ≠ [] := by
    simpa using r.path_ne
  have names : (r.path.map letters).map spell = r.path := by
    rw [List.map_map]
    exact (List.map_congr_left fun name _ => spell_letters name).trans (List.map_id _)
  have chars : r.text.toList =
      '#' :: (escape r.identifier ++ '#' :: ['.'].intercalate (r.path.map escape)) := by
    rw [text, String.toList_ofList, List.cons_append]
  rw [parse_of_letters chars (letters?_text r) (plain_notMem_letters rfl _),
    cutAt_intercalate some_piece unpointed, names, spell_letters, of_parts]

/-- Whatever parts a reference is made of, its text gives them back, so no two references have the
same text. Printing what was read from any text gives a canonical text: it is read as the same
reference, and printing that gives the canonical text again. -/
theorem text_roundTrip :
    (∀ identifier path r, of identifier path = .ok r →
      ∃ r', parse r.text = .ok r' ∧ r'.identifier = identifier ∧ r'.path = path) ∧
    (∀ r r' : Reference, r.text = r'.text → r = r') ∧
    ∀ s canonical, (parse s).map text = .ok canonical →
      parse canonical = parse s ∧ (parse canonical).map text = .ok canonical := by
  refine ⟨fun identifier path r built => ?_, fun r r' same => ?_, fun s canonical printed => ?_⟩
  · exact ⟨r, parse_text r, parts_of_of built⟩
  · have read := parse_text r
    rw [same, parse_text r'] at read
    exact (Except.ok.inj read).symm
  · cases read : parse s with
    | error e =>
        rw [read] at printed
        cases printed
    | ok r =>
        rw [read] at printed
        obtain rfl := Except.ok.inj printed
        rw [parse_text r]
        exact ⟨rfl, rfl⟩

/-- Special characters in the identifier and in a segment, and a text with an escape that is not
needed. -/
theorem text_roundTrip_escaped :
    ∃ r, of "a#b" ["x.y", "\\"] = .ok r ∧ r.text = "#a\\#b#x\\.y.\\\\" ∧
      (∃ r', parse r.text = .ok r' ∧ r'.identifier = "a#b" ∧ r'.path = ["x.y", "\\"]) ∧
      (parse "#i\\d#p").map text = .ok "#id#p" ∧ parse "#id#p" = parse "#i\\d#p" ∧
      (parse "#id#p").map text = .ok "#id#p" := by
  have built : of "a#b" ["x.y", "\\"] = .ok ⟨"a#b", ["x.y", "\\"], by decide, by decide, by decide⟩ := by
    rw [of, dif_neg (by decide), dif_neg (by decide), dif_neg (by decide)]
  have printed : (parse "#i\\d#p").map text = .ok "#id#p" := by cbv
  exact ⟨_, built, by decide +kernel, text_roundTrip.1 _ _ _ built, printed,
    text_roundTrip.2.2 _ _ printed⟩

end SceneStream.Reference
