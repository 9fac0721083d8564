import SceneStream.Proofs.Reference.RoundTrip
import Mathlib.Data.List.Forall2
import Mathlib.Data.List.TakeWhile

/-!
# The grammar of references

The text of a reference is a mark, an identifier, another mark, and a path of segments with points
between them. A name is spelled in units: a backslash with any character behind it, or a single
character that is neither a backslash nor what ends the name. So a point may stand in an identifier
as it is, and a mark in a segment. Main statement: `parse_iff_derives`.
-/

namespace SceneStream.Reference

/-- The characters spell the name in units, none of which is `stop` itself. -/
inductive Spelling (stop : Char) : List Char → List Char → Prop
  | nil : Spelling stop [] []
  | escaped (c : Char) {cs name : List Char} (rest : Spelling stop cs name) :
    Spelling stop ('\\' :: c :: cs) (c :: name)
  | plain {c : Char} {cs name : List Char} (visible : c ≠ '\\') (inside : c ≠ stop)
    (rest : Spelling stop cs name) : Spelling stop (c :: cs) (c :: name)

/-- The characters spell the name in one unit or more. -/
def Names (stop : Char) (cs : List Char) (name : String) : Prop :=
  cs ≠ [] ∧ Spelling stop cs name.toList

/-- The grammar derives the text, with this identifier and this path. -/
def Derives (text identifier : String) (path : List String) : Prop :=
  ∃ (front : List Char) (pieces : List (List Char)), pieces ≠ [] ∧
    text.toList = '#' :: front ++ '#' :: ['.'].intercalate pieces ∧
    Names '#' front identifier ∧ List.Forall₂ (Names '.') pieces path

/-! ## Letters and the characters that spell them -/

/-- The characters that spell a letter. -/
def Letter.unit : Letter → List Char
  | plain c => [c]
  | escaped c => ['\\', c]

/-- The characters that spell letters. -/
def units (ls : List Letter) : List Char := ls.flatMap Letter.unit

@[simp] theorem units_nil : units [] = [] := rfl

@[simp] theorem units_cons (l : Letter) (ls : List Letter) :
    units (l :: ls) = l.unit ++ units ls := rfl

@[simp] theorem units_append (front back : List Letter) :
    units (front ++ back) = units front ++ units back := List.flatMap_append

/-- Letters are read from exactly the characters that spell them; a backslash is no letter without a
character behind it. -/
theorem letters?_eq_some_iff {cs : List Char} {ls : List Letter} :
    letters? cs = some ls ↔ units ls = cs ∧ .plain '\\' ∉ ls := by
  constructor
  · intro read
    fun_induction letters? cs generalizing ls with
    | case1 =>
        obtain rfl := Option.some.inj read
        exact ⟨rfl, List.not_mem_nil⟩
    | case2 => cases read
    | case3 d rest ih =>
        obtain ⟨inner, behind, rfl⟩ := Option.map_eq_some_iff.mp read
        obtain ⟨spelt, proper⟩ := ih behind
        exact ⟨by rw [units_cons, spelt]; rfl, List.not_mem_cons_of_ne_of_not_mem nofun proper⟩
    | case4 c rest visible ih =>
        obtain ⟨inner, behind, rfl⟩ := Option.map_eq_some_iff.mp read
        obtain ⟨spelt, proper⟩ := ih behind
        refine ⟨by rw [units_cons, spelt]; rfl, List.not_mem_cons_of_ne_of_not_mem ?_ proper⟩
        exact fun same => visible (Letter.plain.inj same).symm
  · rintro ⟨rfl, proper⟩
    induction ls with
    | nil => rfl
    | cons l ls ih =>
        obtain ⟨other, inner⟩ := List.ne_and_not_mem_of_not_mem_cons proper
        cases l with
        | plain c =>
            have visible : c ≠ '\\' := fun same => other (congrArg _ same.symm)
            rw [units_cons, Letter.unit, List.singleton_append, letters?_plain visible, ih inner]
            rfl
        | escaped c =>
            rw [units_cons, Letter.unit, List.cons_append, List.singleton_append,
              letters?_escaped, ih inner]
            rfl

/-- A name is spelled by letters, none of which is a plain `stop`. -/
theorem spelling_iff {stop : Char} {cs name : List Char} :
    Spelling stop cs name ↔
      ∃ ls, units ls = cs ∧ ls.map Letter.char = name ∧ .plain '\\' ∉ ls ∧ .plain stop ∉ ls := by
  constructor
  · intro spelling
    induction spelling with
    | nil => exact ⟨[], rfl, rfl, List.not_mem_nil, List.not_mem_nil⟩
    | escaped c rest ih =>
        obtain ⟨ls, rfl, rfl, proper, free⟩ := ih
        exact ⟨.escaped c :: ls, rfl, rfl, List.not_mem_cons_of_ne_of_not_mem nofun proper,
          List.not_mem_cons_of_ne_of_not_mem nofun free⟩
    | @plain c _ _ visible inside rest ih =>
        obtain ⟨ls, rfl, rfl, proper, free⟩ := ih
        refine ⟨.plain c :: ls, rfl, rfl, List.not_mem_cons_of_ne_of_not_mem ?_ proper,
          List.not_mem_cons_of_ne_of_not_mem ?_ free⟩
        · exact fun same => visible (Letter.plain.inj same).symm
        · exact fun same => inside (Letter.plain.inj same).symm
  · rintro ⟨ls, rfl, rfl, proper, free⟩
    induction ls with
    | nil => exact .nil
    | cons l ls ih =>
        obtain ⟨visible, proper'⟩ := List.ne_and_not_mem_of_not_mem_cons proper
        obtain ⟨inside, free'⟩ := List.ne_and_not_mem_of_not_mem_cons free
        cases l with
        | escaped c => exact .escaped c (ih proper' free')
        | plain c =>
            exact .plain (fun same => visible (congrArg _ same.symm))
              (fun same => inside (congrArg _ same.symm)) (ih proper' free')

/-- The letters spell a name: there is one at least, each stands for a character, and none would end
the name. -/
def IsName (stop : Char) (ls : List Letter) : Prop :=
  spell ls ≠ "" ∧ .plain '\\' ∉ ls ∧ .plain stop ∉ ls

/-- Letters are spelled by no characters exactly where they spell the empty name. -/
theorem units_ne_nil {ls : List Letter} : units ls ≠ [] ↔ spell ls ≠ "" := by
  rcases ls with _ | ⟨_ | _, _⟩ <;> simp [Letter.unit, spell, ← String.toList_inj]

theorem names_iff {stop : Char} {cs : List Char} {name : String} :
    Names stop cs name ↔ ∃ ls, units ls = cs ∧ spell ls = name ∧ IsName stop ls := by
  have spelled (ls : List Letter) : ls.map Letter.char = name.toList ↔ spell ls = name := by
    rw [spell, ← String.toList_inj, String.toList_ofList]
  constructor
  · rintro ⟨nonempty, spelling⟩
    obtain ⟨ls, rfl, chars, proper, free⟩ := spelling_iff.mp spelling
    exact ⟨ls, rfl, (spelled ls).mp chars, units_ne_nil.mp nonempty, proper, free⟩
  · rintro ⟨ls, rfl, chars, nonempty, proper, free⟩
    exact ⟨units_ne_nil.mpr nonempty,
      spelling_iff.mpr ⟨ls, rfl, (spelled ls).mpr chars, proper, free⟩⟩

theorem forall₂_names_iff {stop : Char} {pieces : List (List Char)} {path : List String} :
    List.Forall₂ (Names stop) pieces path ↔
      ∃ names : List (List Letter), names.map units = pieces ∧ names.map spell = path ∧
        ∀ ls ∈ names, IsName stop ls := by
  constructor
  · intro each
    induction each with
    | nil => exact ⟨[], rfl, rfl, List.forall_mem_nil _⟩
    | cons first rest ih =>
        obtain ⟨ls, rfl, rfl, named⟩ := names_iff.mp first
        obtain ⟨names, rfl, rfl, all⟩ := ih
        exact ⟨ls :: names, rfl, rfl, List.forall_mem_cons.mpr ⟨named, all⟩⟩
  · rintro ⟨names, rfl, rfl, all⟩
    rw [List.forall₂_map_left_iff, List.forall₂_map_right_iff, List.forall₂_same]
    exact fun ls mem => names_iff.mpr ⟨ls, rfl, rfl, all ls mem⟩

/-! ## Pieces between points -/

theorem units_intercalate (c : Char) (pieces : List (List Letter)) :
    units ([.plain c].intercalate pieces) = [c].intercalate (pieces.map units) := by
  induction pieces with
  | nil => rfl
  | cons piece pieces ih =>
      cases pieces with
      | nil => simp [List.intercalate_singleton]
      | cons next pieces =>
          simp only [List.map_cons, List.intercalate_cons_cons, units_append] at ih ⊢
          rw [ih]
          rfl

theorem mem_intercalate {α : Type} {x sep : α} {pieces : List (List α)}
    (mem : x ∈ [sep].intercalate pieces) : x = sep ∨ ∃ piece ∈ pieces, x ∈ piece := by
  induction pieces with
  | nil => cases mem
  | cons piece pieces ih =>
      cases pieces with
      | nil =>
          rw [List.intercalate_singleton] at mem
          exact .inr ⟨piece, List.mem_cons_self, mem⟩
      | cons next pieces =>
          rw [List.intercalate_cons_cons, List.append_assoc, List.mem_append, List.mem_append,
            List.mem_singleton] at mem
          rcases mem with here | same | behind
          · exact .inr ⟨piece, List.mem_cons_self, here⟩
          · exact .inl same
          · exact (ih behind).imp_right fun ⟨other, mem, inside⟩ =>
              ⟨other, List.mem_cons_of_mem _ mem, inside⟩

/-- The pieces that letters are cut into are joined to the same letters. -/
theorem intercalate_cutAt (c : Char) (ls : List Letter) :
    [.plain c].intercalate (cutAt c ls) = ls := by
  induction ls with
  | nil => rfl
  | cons l ls ih =>
      obtain ⟨first, others, cut⟩ := List.exists_cons_of_ne_nil (cutAt_ne_nil c ls)
      by_cases separator : l = .plain c
      · subst separator
        rw [cutAt_separator, cut, List.intercalate_cons_cons, ← cut, ih]
        rfl
      · rw [cut] at ih
        rw [cutAt_cons separator cut, ← ih]
        cases others <;> rfl

/-- A piece has letters of the whole, and no separator. -/
theorem of_mem_cutAt {c : Char} {ls piece : List Letter} (mem : piece ∈ cutAt c ls) :
    .plain c ∉ piece ∧ piece ⊆ ls := by
  induction ls generalizing piece with
  | nil =>
      obtain rfl := List.mem_singleton.mp mem
      exact ⟨List.not_mem_nil, List.Subset.refl _⟩
  | cons l ls ih =>
      obtain ⟨first, others, cut⟩ := List.exists_cons_of_ne_nil (cutAt_ne_nil c ls)
      by_cases separator : l = .plain c
      · subst separator
        rw [cutAt_separator] at mem
        rcases List.mem_cons.mp mem with rfl | mem
        · exact ⟨List.not_mem_nil, List.nil_subset _⟩
        · exact (ih mem).imp_right (List.subset_cons_of_subset _)
      · rw [cutAt_cons separator cut] at mem
        rw [cut] at ih
        rcases List.mem_cons.mp mem with rfl | mem
        · obtain ⟨free, inside⟩ := ih List.mem_cons_self
          exact ⟨List.not_mem_cons_of_ne_of_not_mem (Ne.symm separator) free,
            List.cons_subset_cons l inside⟩
        · exact (ih (List.mem_cons_of_mem _ mem)).imp_right (List.subset_cons_of_subset _)

/-! ## Reading what the grammar derives -/

section

variable {text identifier : String} {path : List String}

/-- A reference is made of any parts that are not empty. -/
theorem exists_of (identifier_ne : identifier ≠ "") (path_ne : path ≠ []) (segment_ne : "" ∉ path) :
    ∃ r, of identifier path = .ok r ∧ r.identifier = identifier ∧ r.path = path := by
  refine ⟨⟨identifier, path, identifier_ne, path_ne, segment_ne⟩, ?_, rfl, rfl⟩
  rw [of, dif_neg identifier_ne, dif_neg path_ne, dif_neg segment_ne]

theorem parse_of_derives (derives : Derives text identifier path) :
    ∃ r, parse text = .ok r ∧ r.identifier = identifier ∧ r.path = path := by
  obtain ⟨_, _, some_piece, chars, identified, segments⟩ := derives
  obtain ⟨front, rfl, rfl, nonempty, proper, unmarked⟩ := names_iff.mp identified
  obtain ⟨names, rfl, rfl, each⟩ := forall₂_names_iff.mp segments
  have some_name : names ≠ [] := by simpa using some_piece
  have read : letters? (units front ++ '#' :: ['.'].intercalate (names.map units)) =
      some (front ++ .plain '#' :: [.plain '.'].intercalate names) := by
    refine letters?_eq_some_iff.mpr ⟨?_, fun mem => ?_⟩
    · rw [units_append, units_cons, units_intercalate]
      rfl
    · rcases List.mem_append.mp mem with mem | mem
      · exact proper mem
      · rcases List.mem_cons.mp mem with same | mem
        · cases same
        · rcases mem_intercalate mem with same | ⟨ls, name, mem⟩
          · cases same
          · exact (each ls name).2.1 mem
  rw [parse_of_letters chars read unmarked,
    cutAt_intercalate some_name fun ls name => (each ls name).2.2]
  refine exists_of nonempty (by simpa using some_name) fun mem => ?_
  obtain ⟨ls, name, empty⟩ := List.mem_map.mp mem
  exact (each ls name).1 empty

/-- What is read as a reference begins with a mark and goes on in letters, with a plain mark among
them. -/
theorem letters_of_parse {r : Reference} (read : parse text = .ok r) :
    ∃ front back, text.toList = '#' :: units (front ++ .plain '#' :: back) ∧
      .plain '\\' ∉ front ++ .plain '#' :: back ∧ .plain '#' ∉ front := by
  unfold parse at read
  split at read
  · next rest chars =>
    split at read
    · cases read
    · next ls letters =>
      obtain ⟨rfl, proper⟩ := letters?_eq_some_iff.mp letters
      by_cases mark : .plain '#' ∈ ls
      · obtain ⟨front, back, rfl, unmarked⟩ := List.eq_append_cons_of_mem mark
        exact ⟨front, back, chars, proper, unmarked⟩
      · have whole : ls.dropWhile (· ≠ .plain '#') = [] := by
          rw [List.dropWhile_eq_nil_iff]
          exact fun l mem => decide_eq_true fun same => mark (same ▸ mem)
        rw [whole] at read
        cases read
  · cases read

theorem derives_of_parse {r : Reference} (read : parse text = .ok r) :
    Derives text r.identifier r.path := by
  obtain ⟨front, back, chars, proper, unmarked⟩ := letters_of_parse read
  have built := parse_of_letters chars (letters?_eq_some_iff.mpr ⟨rfl, proper⟩) unmarked
  obtain ⟨same_identifier, same_path⟩ := parts_of_of (built.symm.trans read)
  have proper_front : .plain '\\' ∉ front := fun mem => proper (List.mem_append_left _ mem)
  have proper_back : .plain '\\' ∉ back := fun mem =>
    proper (List.mem_append_right _ (List.mem_cons_of_mem _ mem))
  refine ⟨units front, (cutAt '.' back).map units, by simpa using cutAt_ne_nil '.' back, ?_,
    names_iff.mpr ⟨front, rfl, same_identifier.symm, ?_, proper_front, unmarked⟩,
    forall₂_names_iff.mpr ⟨cutAt '.' back, rfl, same_path.symm, fun ls mem => ⟨?_, ?_, ?_⟩⟩⟩
  · rw [← units_intercalate, intercalate_cutAt, chars, units_append]
    rfl
  · rw [← same_identifier]
    exact r.identifier_ne
  · intro empty
    exact r.segment_ne (same_path ▸ List.mem_map.mpr ⟨ls, mem, empty⟩)
  · exact fun inside => proper_back ((of_mem_cutAt mem).2 inside)
  · exact (of_mem_cutAt mem).1

/-- Whatever keeps a text from being read, it is the argument's fault. -/
theorem exists_defect {e : Error} (failed : parse text = .error e) :
    ∃ d, e = .invalidArgument d := by
  have built {identifier : String} {path : List String} (failed : of identifier path = .error e) :
      ∃ d, e = .invalidArgument d := by
    unfold of at failed
    repeat' split at failed
    all_goals first
      | exact ⟨_, (Except.error.inj failed).symm⟩
      | cases failed
  unfold parse at failed
  repeat' split at failed
  all_goals first
    | exact ⟨_, (Except.error.inj failed).symm⟩
    | exact built failed

end

/-- A text is read exactly where the grammar derives it, and what is read has the identifier and the
path it is derived with. Every other text is an invalid argument. -/
theorem parse_iff_derives (text : String) :
    (∀ identifier path, Derives text identifier path ↔
      ∃ r, parse text = .ok r ∧ r.identifier = identifier ∧ r.path = path) ∧
    ((∃ d, parse text = .error (.invalidArgument d)) ↔
      ∀ identifier path, ¬ Derives text identifier path) := by
  refine ⟨fun identifier path => ⟨parse_of_derives, ?_⟩, ?_, fun underivable => ?_⟩
  · rintro ⟨r, read, rfl, rfl⟩
    exact derives_of_parse read
  · rintro ⟨d, failed⟩ identifier path derives
    obtain ⟨r, read, -⟩ := parse_of_derives derives
    cases failed.symm.trans read
  · cases read : parse text with
    | ok r => exact absurd (derives_of_parse read) (underivable _ _)
    | error e =>
        obtain ⟨d, rfl⟩ := exists_defect read
        exact ⟨d, rfl⟩

end SceneStream.Reference
