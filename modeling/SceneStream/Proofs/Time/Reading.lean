import SceneStream.Proofs.Json.Numeral
import SceneStream.Proofs.Time.Calendar
import SceneStream.Time.Reading
import SceneStream.Time.Text

/-!
# An instant comes back from its text

The text of an instant is a row of padded numbers with a mark between each two. A reader takes such a
number whole, because it takes no more digits than the number was padded to or because the mark behind
it is no digit, and leaves the rest of the text to the next reader. A leap second comes back where its
text has a second 60; elsewhere it has the text of the instant that it is read as.
-/

namespace SceneStream

/-! ## Padded numbers -/

section

variable {width n : Nat}

theorem toList_padded (width n : Nat) : (padded width n).toList =
    List.replicate (width - (Nat.repr n).length) '0' ++ (Nat.repr n).toList := by
  rw [padded, String.toList_append, toList_pushn, String.toList_empty, List.nil_append]

theorem isDigit_of_mem_padded {c : Char} (h : c ∈ (padded width n).toList) : c.isDigit = true := by
  rw [toList_padded] at h
  rcases List.mem_append.mp h with zero | digit
  · rw [List.eq_of_mem_replicate zero]
    rfl
  · exact isDigit_of_mem_repr digit

theorem padded_ne_nil (width n : Nat) : (padded width n).toList ≠ [] := by
  rw [toList_padded]
  exact List.append_ne_nil_of_right_ne_nil _ (repr_ne_nil n)

theorem exists_digit_padded (width n : Nat) :
    ∃ c ds, (padded width n).toList = c :: ds ∧ c.isDigit = true := by
  obtain ⟨c, ds, digits⟩ := List.exists_cons_of_ne_nil (padded_ne_nil width n)
  have mem : c ∈ (padded width n).toList := by
    rw [digits]
    exact List.mem_cons_self
  exact ⟨c, ds, digits, isDigit_of_mem_padded mem⟩

theorem length_padded (positive : 0 < width) (small : n < 10 ^ width) :
    (padded width n).toList.length = width := by
  have short := (Nat.length_repr_le_iff positive).mpr small
  rw [toList_padded, List.length_append, List.length_replicate, String.length_toList]
  omega

end

namespace Instant

namespace Scan

theorem numeral_eq (ds : List Char) : numeral ds = Nat.ofDigitChars 10 ds 0 := by
  rw [Nat.ofDigitChars_eq_foldl, numeral]
  simp only [Nat.mul_comm]

theorem numeral_repr (n : Nat) : numeral (Nat.repr n).toList = n := by
  rw [numeral_eq, Nat.toList_repr, Nat.ofDigitChars_ten_toDigits]

theorem numeral_padded (width n : Nat) : numeral (padded width n).toList = n := by
  rw [numeral_eq, toList_padded, Nat.ofDigitChars_append, Nat.ofDigitChars_replicate_zero,
    Nat.mul_zero, ← numeral_eq, numeral_repr]

/-- The reader takes the beginning of the text and leaves the rest. -/
def Takes {α : Type} (scan : Scan α) (text : List Char) (a : α) (rest : List Char) : Prop :=
  scan.run text = some (a, rest)

section

variable {α β : Type} {scan : Scan α} {text rest rest' : List Char} {a : α} {b : β} {c : Char}

theorem takes_pure (a : α) (text : List Char) : Takes (pure a : Scan α) text a text := rfl

theorem takes_get (text : List Char) : Takes get text text text := rfl

theorem Takes.bind {next : α → Scan β} (first : Takes scan text a rest)
    (second : Takes (next a) rest b rest') : Takes (scan >>= next) text b rest' := by
  unfold Takes at first second ⊢
  rw [StateT.run_bind, first]
  exact second

theorem takes_char {p : Char → Bool} (h : p c = true) (rest : List Char) :
    Takes (char p) (c :: rest) c rest := by
  simp [Takes, char, h]

theorem takes_literal (c : Char) (rest : List Char) : Takes (literal c) (c :: rest) () rest :=
  (takes_char (by simp) rest).bind (takes_pure () rest)

theorem takes_peeks (p : Char → Bool) (text : List Char) :
    Takes (peeks p) text (text.head?.any p) text := rfl

/-- There are no blanks to skip before something else. -/
theorem takes_skipBlanks (h : text.head?.all (! isBlank ·) = true) :
    Takes skipBlanks text () text := by
  cases text with
  | nil => rfl
  | cons c text =>
      simp only [List.head?_cons, Option.all_some, Bool.not_eq_true'] at h
      simp [Takes, skipBlanks, skipWhile, h]

/-! ## Numbers -/

/-- The next character ends a row of digits. -/
def Stops (rest : List Char) : Prop := rest.head?.all (! Char.isDigit ·) = true

theorem takeWhile_digits {ds : List Char} (all : ∀ c ∈ ds, c.isDigit = true) (stops : Stops rest) :
    (ds ++ rest).takeWhile Char.isDigit = ds := by
  rw [List.takeWhile_append_of_pos all]
  cases rest with
  | nil => rw [List.takeWhile_nil, List.append_nil]
  | cons c rest =>
      simp only [Stops, List.head?_cons, Option.all_some, Bool.not_eq_true'] at stops
      simp [stops]

theorem takes_skipDigits (stops : Stops rest) : Takes (skipWhile Char.isDigit) rest () rest := by
  cases rest with
  | nil => rfl
  | cons c rest =>
      simp only [Stops, List.head?_cons, Option.all_some, Bool.not_eq_true'] at stops
      simp [Takes, skipWhile, stops]

/-- Digits are taken up to the limit, or up to another character that comes earlier. -/
theorem takes_digits {ds : List Char} {limit : Nat} (all : ∀ c ∈ ds, c.isDigit = true)
    (ends : ds.length = limit ∨ ds.length ≤ limit ∧ Stops rest) :
    Takes (digits limit) (ds ++ rest) ds rest := by
  have found : ((ds ++ rest).take limit).takeWhile Char.isDigit = ds := by
    rcases ends with rfl | ⟨short, stops⟩
    · have whole := takeWhile_digits all (show Stops [] from rfl)
      rw [List.append_nil] at whole
      rw [List.take_left, whole]
    · rw [List.take_append, List.take_of_length_le short]
      apply takeWhile_digits all
      unfold Stops
      rw [List.head?_take]
      split
      · rfl
      · exact stops
  simp [Takes, digits, found]

theorem takes_number {ds : List Char} {limit : Nat} (all : ∀ c ∈ ds, c.isDigit = true)
    (some_digit : ds ≠ []) (ends : ds.length = limit ∨ ds.length ≤ limit ∧ Stops rest) :
    Takes (number limit) (ds ++ rest) (numeral ds) rest := by
  apply (takes_digits all ends).bind
  rw [if_neg some_digit]
  exact takes_pure _ _

/-- A padded number is taken whole. -/
theorem takes_number_padded {width n limit : Nat}
    (ends : (padded width n).toList.length = limit ∨
      (padded width n).toList.length ≤ limit ∧ Stops rest) :
    Takes (number limit) ((padded width n).toList ++ rest) n rest := by
  have taken := takes_number (fun c hc => isDigit_of_mem_padded hc) (padded_ne_nil width n) ends
  rwa [numeral_padded] at taken

theorem isBlank_of_isDigit (digit : c.isDigit = true) : isBlank c = false := by
  obtain ⟨least, most⟩ : 48 ≤ c.toNat ∧ c.toNat ≤ 57 := by
    simpa [Char.isDigit, UInt32.le_iff_toNat_le] using digit
  simp only [isBlank, decide_eq_false_iff_not]
  omega

/-- A padded number has no blanks before it. -/
theorem takes_skipBlanks_padded (width n : Nat) (rest : List Char) :
    Takes skipBlanks ((padded width n).toList ++ rest) () ((padded width n).toList ++ rest) := by
  apply takes_skipBlanks
  obtain ⟨c, ds, digits, digit⟩ := exists_digit_padded width n
  simp [digits, isBlank_of_isDigit digit]

theorem takes_field {first last n : Nat} (inside : first ≤ n ∧ n ≤ last) (small : n < 100)
    (rest : List Char) : Takes (field first last) ((padded 2 n).toList ++ rest) n rest := by
  have two : (padded 2 n).toList.length = 2 := length_padded (by decide) small
  apply (takes_skipBlanks_padded 2 n rest).bind
  apply (takes_number_padded (.inl two)).bind
  rw [if_pos inside]
  exact takes_pure _ _

theorem takes_mark (visible : isBlank c = false) (rest : List Char) :
    Takes (mark c) (c :: rest) () rest :=
  (takes_skipBlanks (by simp [visible])).bind (takes_literal c rest)

/-- The mark that begins a text is no digit of a padded number. -/
theorem peeks_padded {mark : Char} (other : mark.isDigit = false) (width n : Nat)
    (rest : List Char) : ((padded width n).toList ++ rest).head?.any (· = mark) = false := by
  obtain ⟨c, ds, digits, digit⟩ := exists_digit_padded width n
  have : c ≠ mark := by
    rintro rfl
    rw [other] at digit
    cases digit
  simp [digits, this]

theorem takes_year (n : Int) (rest : List Char) :
    Takes year ((yearText n).toList ++ '-' :: rest) n ('-' :: rest) := by
  have signed : Takes (number ((padded 4 n.natAbs).toList ++ '-' :: rest).length)
      ((padded 4 n.natAbs).toList ++ '-' :: rest) n.natAbs ('-' :: rest) :=
    takes_number_padded (.inr ⟨by simp, rfl⟩)
  unfold yearText
  split
  next plain =>
    have four : (padded 4 n.natAbs).toList.length = 4 := length_padded (by decide) (by omega)
    apply (takes_skipBlanks_padded 4 n.natAbs _).bind
    apply (takes_peeks _ _).bind
    rw [peeks_padded rfl]
    apply (takes_peeks _ _).bind
    rw [peeks_padded rfl]
    apply (takes_number_padded (.inl four)).bind
    have whole : ((n.natAbs : Nat) : Int) = n := by omega
    rw [whole]
    exact takes_pure _ _
  next =>
    rw [String.toList_append]
    split
    next negative =>
      have whole : -((n.natAbs : Nat) : Int) = n := by omega
      change Takes year ('-' :: ((padded 4 n.natAbs).toList ++ '-' :: rest)) n _
      apply (takes_skipBlanks rfl).bind
      apply (takes_peeks _ _).bind
      apply (takes_literal '-' _).bind
      apply (takes_get _).bind
      apply signed.bind
      rw [whole]
      exact takes_pure _ _
    next late =>
      have whole : ((n.natAbs : Nat) : Int) = n := by omega
      change Takes year ('+' :: ((padded 4 n.natAbs).toList ++ '-' :: rest)) n _
      apply (takes_skipBlanks rfl).bind
      apply (takes_peeks _ _).bind
      apply (takes_peeks _ _).bind
      apply (takes_literal '+' _).bind
      apply (takes_get _).bind
      apply signed.bind
      rw [whole]
      exact takes_pure _ _

/-- A fraction of a second that is written with some digits. -/
theorem takes_fraction_digits {width n : Nat} (positive : 0 < width) (short : width ≤ 9)
    (small : n < 10 ^ width) (stops : Stops rest) :
    Takes fraction ('.' :: ((padded width n).toList ++ rest)) (n * Nat.pow 10 (9 - width)) rest := by
  have length := length_padded positive small
  have all : ∀ c ∈ (padded width n).toList, c.isDigit = true := fun c => isDigit_of_mem_padded
  apply (takes_peeks _ _).bind
  apply (takes_literal '.' _).bind
  apply (takes_digits all (.inr ⟨by omega, stops⟩)).bind
  rw [if_neg (padded_ne_nil width n)]
  apply (takes_skipDigits stops).bind
  rw [numeral_padded, length]
  exact takes_pure _ _

/-- A fraction is written with as many digits as it is read back from. -/
theorem takes_fraction {nanos : Nat} (small : nanos < billion) (rest : List Char) :
    Takes fraction ((fractionText nanos).toList ++ 'Z' :: rest) nanos ('Z' :: rest) := by
  have stops : Stops ('Z' :: rest) := rfl
  have digits (width n unit : Nat) (positive : 0 < width) (short : width ≤ 9)
      (small : n < 10 ^ width) (unit_eq : Nat.pow 10 (9 - width) = unit) (scaled : n * unit = nanos) :
      Takes fraction (("." ++ padded width n).toList ++ 'Z' :: rest) nanos ('Z' :: rest) := by
    have taken := takes_fraction_digits positive short small stops
    rw [unit_eq, scaled] at taken
    rwa [String.toList_append]
  unfold billion at small
  unfold fractionText
  split
  next whole =>
    rw [whole]
    exact (takes_peeks _ _).bind (takes_pure 0 _)
  next =>
    split
    next milli => exact digits 3 _ 1000000 (by decide) (by decide) (by omega) rfl (by omega)
    next =>
      split
      next micro => exact digits 6 _ 1000 (by decide) (by decide) (by omega) rfl (by omega)
      next => exact digits 9 _ 1 (by decide) (by decide) (by omega) rfl (by omega)

theorem takes_zone (rest : List Char) : Takes zone ('Z' :: rest) 0 rest := by
  have other : (('Z' :: rest).take 3).map Char.toUpper ≠ ['U', 'T', 'C'] := by
    simp
  apply (takes_get _).bind
  rw [if_neg other]
  apply (takes_peeks _ _).bind
  exact (takes_char rfl rest).bind (takes_pure 0 rest)

end

end Scan

/-! ## Instants -/

/-- In no leap second, or in one that civil time may have: behind the last second of a minute. -/
def IsCivil (t : Instant) : Prop := t.isLeap = true → t.seconds % 60 = 59

instance (t : Instant) : Decidable t.IsCivil :=
  inferInstanceAs (Decidable (t.isLeap = true → t.seconds % 60 = 59))

theorem of?_self (t : Instant) : of? t.seconds t.nanos = some t := by
  rw [of?, dif_pos t.in_range, dif_pos t.nanos_lt]

section

variable (t : Instant)

/-- The date that an instant is written with. -/
def date : Date := Date.ofDays (t.seconds / 86400)

/-- The second of the day that an instant is written with. -/
def clock : Nat := t.secondOfDay.toNat

/-- How many leap seconds an instant is in. -/
def leaps : Nat := if t.isLeap then 1 else 0

theorem isValid_date : t.date.isValid = true := Date.isValid_ofDays _

/-- The date of an instant lies in the years that an instant may have. -/
theorem year_date : firstYear ≤ t.date.year ∧ t.date.year ≤ lastYear := by
  obtain ⟨first, last⟩ := t.in_range
  rw [firstSecond_eq] at first
  rw [lastSecond_eq] at last
  have notBefore : Date.toDays ⟨firstYear, 1, 1⟩ ≤ t.seconds / 86400 := by omega
  have notAfter : t.seconds / 86400 < Date.toDays ⟨lastYear + 1, 1, 1⟩ := by omega
  exact ⟨Date.le_year_ofDays notBefore, Int.lt_add_one_iff.mp (Date.year_ofDays_lt notAfter)⟩

theorem clock_lt : t.clock < 86400 := by
  unfold clock secondOfDay
  omega

theorem seconds_eq : t.date.toDays * 86400 + t.clock = t.seconds := by
  unfold date clock secondOfDay
  rw [Date.toDays_ofDays]
  omega

theorem leaps_le : t.leaps ≤ 1 := by
  unfold leaps
  split <;> omega

variable {t} in
/-- A leap second at the end of a minute is written as second 60, and no other second is. -/
theorem ite_sixty (civil : t.IsCivil) :
    (if t.clock % 60 + t.leaps = 60 then 1 else 0) = t.leaps := by
  unfold leaps clock secondOfDay
  by_cases leap : t.isLeap = true
  · have last := civil leap
    rw [if_pos leap, if_pos (by omega)]
  · rw [if_neg leap, if_neg (by omega)]

/-- The nanoseconds are a fraction of a second and those of the leap seconds. -/
theorem nanos_eq : t.nanos - t.leaps * billion < billion ∧
    t.nanos - t.leaps * billion + t.leaps * billion = t.nanos := by
  have inside := t.nanos_lt
  unfold leaps isLeap
  simp only [decide_eq_true_eq]
  split <;> omega

theorem text_eq : t.text = dateText t.date ++ "T" ++ padded 2 (t.clock / 3600) ++ ":" ++
    padded 2 (t.clock / 60 % 60) ++ ":" ++ padded 2 (t.clock % 60 + t.leaps) ++
    fractionText (t.nanos - t.leaps * billion) ++ "Z" := rfl

theorem toList_text : t.text.toList = (yearText t.date.year).toList ++
    '-' :: ((padded 2 t.date.month).toList ++ '-' :: ((padded 2 t.date.day).toList ++
    'T' :: ((padded 2 (t.clock / 3600)).toList ++ ':' :: ((padded 2 (t.clock / 60 % 60)).toList ++
    ':' :: ((padded 2 (t.clock % 60 + t.leaps)).toList ++
    ((fractionText (t.nanos - t.leaps * billion)).toList ++ ['Z'])))))) := by
  simp [text_eq, dateText]

variable {t} in
theorem takes_instant (civil : t.IsCivil) : Scan.Takes Scan.instant t.text.toList t [] := by
  obtain ⟨month, day⟩ := Date.isValid_iff.mp t.isValid_date
  have day_le := day.2.trans (Date.daysInMonth_le _ _)
  have clock_lt := t.clock_lt
  have leaps_le := t.leaps_le
  obtain ⟨nanos_lt, nanos⟩ := t.nanos_eq
  rw [toList_text]
  unfold Scan.instant
  apply (Scan.takes_year _ _).bind
  apply (Scan.takes_mark rfl _).bind
  apply (Scan.takes_field month (by omega) _).bind
  apply (Scan.takes_mark rfl _).bind
  apply (Scan.takes_field ⟨day.1, day_le⟩ (by omega) _).bind
  apply (Scan.takes_char rfl _).bind
  apply (Scan.takes_field ⟨Nat.zero_le _, by omega⟩ (by omega) _).bind
  apply (Scan.takes_mark rfl _).bind
  apply (Scan.takes_field ⟨Nat.zero_le _, by omega⟩ (by omega) _).bind
  apply (Scan.takes_mark rfl _).bind
  apply (Scan.takes_field ⟨Nat.zero_le _, by omega⟩ (by omega) _).bind
  apply (Scan.takes_fraction nanos_lt []).bind
  apply (Scan.takes_skipBlanks rfl).bind
  apply (Scan.takes_zone []).bind
  apply (Scan.takes_skipBlanks rfl).bind
  -- What is left takes nothing more from the text: it puts the parts together.
  have accepted : ¬ ¬ (firstYear ≤ t.date.year ∧ t.date.year ≤ lastYear ∧ t.date.isValid = true) :=
    not_not_intro ⟨t.year_date.1, t.year_date.2, t.isValid_date⟩
  have seconds : t.date.toDays * 86400 + (t.clock / 3600 * 3600 + t.clock / 60 % 60 * 60 +
      (t.clock % 60 + t.leaps - t.leaps) : Nat) - 0 = t.seconds := by
    have := t.seconds_eq
    omega
  simp only [accepted, if_false, ite_sixty civil, seconds, nanos]
  unfold Scan.Takes
  rw [of?_self]
  rfl

end

/-- An instant of civil time is read back from its text. -/
theorem ofText?_text_of_isCivil {t : Instant} (civil : t.IsCivil) : ofText? t.text = some t := by
  have taken := takes_instant civil
  unfold Scan.Takes at taken
  rw [ofText?, taken]
  rfl

/-! ## Leap seconds within a minute -/

section

variable {t : Instant}

theorem not_isCivil_iff : ¬ t.IsCivil ↔ billion ≤ t.nanos ∧ t.seconds % 60 ≠ 59 := by
  rw [IsCivil, Classical.not_imp, isLeap, decide_eq_true_iff]

/-- There is room for the second behind one within a minute: the last year ends with a minute. -/
theorem in_range_succ (within : t.seconds % 60 ≠ 59) :
    firstSecond ≤ t.seconds + 1 ∧ t.seconds + 1 ≤ lastSecond := by
  have := t.in_range
  unfold firstSecond lastSecond at *
  omega

/-- The instant that the text of `t` says. A leap second within a minute is written like the second
behind it. -/
def asWritten (t : Instant) : Instant :=
  if civil : t.IsCivil then t else {
    seconds := t.seconds + 1
    nanos := t.nanos - billion
    in_range := in_range_succ (not_isCivil_iff.mp civil).2
    nanos_lt := (Nat.sub_le _ _).trans_lt t.nanos_lt }

theorem asWritten_of_isCivil (civil : t.IsCivil) : t.asWritten = t := dif_pos civil

theorem parts_asWritten (within : ¬ t.IsCivil) :
    t.asWritten.seconds = t.seconds + 1 ∧ t.asWritten.nanos = t.nanos - billion := by
  rw [asWritten, dif_neg within]
  exact ⟨rfl, rfl⟩

theorem isLeap_asWritten (within : ¬ t.IsCivil) : t.asWritten.isLeap = false := by
  have inside := t.nanos_lt
  rw [isLeap, (parts_asWritten within).2]
  unfold billion at *
  simp only [decide_eq_false_iff_not]
  omega

theorem isCivil_asWritten (t : Instant) : t.asWritten.IsCivil := by
  by_cases civil : t.IsCivil
  · rwa [asWritten_of_isCivil civil]
  · intro leap
    rw [isLeap_asWritten civil] at leap
    cases leap

/-- Only leap seconds within a minute have the text of another instant. -/
theorem asWritten_eq_iff : t.asWritten = t ↔ t.IsCivil := by
  refine ⟨fun same => ?_, asWritten_of_isCivil⟩
  rw [← same]
  exact t.isCivil_asWritten

theorem date_asWritten (within : ¬ t.IsCivil) : t.asWritten.date = t.date := by
  have last := (not_isCivil_iff.mp within).2
  rw [date, date, (parts_asWritten within).1]
  congr 1
  omega

/-- The second behind one within a minute has the same hour and minute. -/
theorem clock_asWritten (within : ¬ t.IsCivil) :
    t.asWritten.clock = t.clock + 1 ∧ t.clock % 60 < 59 := by
  have last := (not_isCivil_iff.mp within).2
  unfold clock secondOfDay
  rw [(parts_asWritten within).1]
  omega

theorem text_asWritten (t : Instant) : t.asWritten.text = t.text := by
  by_cases civil : t.IsCivil
  · rw [asWritten_of_isCivil civil]
  · obtain ⟨clock, within⟩ := clock_asWritten civil
    have leaps : t.leaps = 1 := if_pos (decide_eq_true (not_isCivil_iff.mp civil).1)
    have leaps' : t.asWritten.leaps = 0 := if_neg (by simp [isLeap_asWritten civil])
    have hour : (t.clock + 1) / 3600 = t.clock / 3600 := by omega
    have minute : (t.clock + 1) / 60 = t.clock / 60 := by omega
    have second : (t.clock + 1) % 60 = t.clock % 60 + 1 := by omega
    rw [text_eq, text_eq, date_asWritten civil, clock, leaps, leaps', (parts_asWritten civil).2, hour,
      minute, second]
    simp only [zero_mul, one_mul, tsub_zero, add_zero]

/-- Every instant is read from its text as the one that the text says. -/
theorem ofText?_text (t : Instant) : ofText? t.text = some t.asWritten := by
  rw [← text_asWritten]
  exact ofText?_text_of_isCivil t.isCivil_asWritten

end

end Instant

end SceneStream
