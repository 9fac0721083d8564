import SceneStream.Proofs.Binary.Rounding
import SceneStream.Proofs.Json.Reading
import SceneStream.Scalar

/-!
# Numbers are printed as numerals

Whatever a layout decides about fractions and exponents, the text of a finite binary number is a
spelling that JSON has. The digits of a positive number do not begin with a zero, and the shortest
decimal of a positive binary number is positive: the cell around the number does not reach to zero.
-/

namespace SceneStream

open Json

namespace Json

/-- Digits behind which a number may stop or go on in the same way. -/
theorem foldlM_digits {p : NumberPhase} (stays : ∀ c : Char, c.isDigit = true → p.next? c = some p)
    {ds : List Char} (digits : ∀ c ∈ ds, c.isDigit = true) :
    ds.foldlM NumberPhase.next? p = some p := by
  induction ds with
  | nil => rfl
  | cons c ds ih =>
      rw [List.foldlM_cons, stays c (digits c List.mem_cons_self)]
      exact ih fun d hd => digits d (List.mem_cons_of_mem c hd)

/-- Digits that must be there, after a mark that calls for them. -/
theorem foldlM_digits_of_ne_nil {p q : NumberPhase}
    (starts : ∀ c : Char, c.isDigit = true → p.next? c = some q)
    (stays : ∀ c : Char, c.isDigit = true → q.next? c = some q) {ds : List Char}
    (digits : ∀ c ∈ ds, c.isDigit = true) (some_digit : ds ≠ []) :
    ds.foldlM NumberPhase.next? p = some q := by
  cases ds with
  | nil => exact absurd rfl some_digit
  | cons c ds =>
      rw [List.foldlM_cons, starts c (digits c List.mem_cons_self)]
      exact foldlM_digits stays fun d hd => digits d (List.mem_cons_of_mem c hd)

theorem next?_of_isDigit {c : Char} (digit : c.isDigit = true) :
    NumberPhase.next? .whole c = some .whole ∧ NumberPhase.next? .point c = some .fraction ∧
      NumberPhase.next? .fraction c = some .fraction ∧
      NumberPhase.next? .exponentSign c = some .power ∧
      NumberPhase.next? .power c = some .power := by
  simp [NumberPhase.next?, digit]

/-- The whole part of a number: a single zero, or digits of which the first is none. -/
inductive IsWhole : List Char → Prop where
  | zero : IsWhole ['0']
  | digits (c : Char) (ds : List Char) (nonzero : c ≠ '0')
      (digits : ∀ d ∈ c :: ds, d.isDigit = true) : IsWhole (c :: ds)

theorem IsWhole.phase {whole : List Char} (h : IsWhole whole) :
    whole.foldlM NumberPhase.next? .sign = some .zero ∨
      whole.foldlM NumberPhase.next? .sign = some .whole := by
  cases h with
  | zero => exact .inl rfl
  | digits c ds nonzero digits =>
      right
      have first : NumberPhase.next? .sign c = some .whole := by
        simp [NumberPhase.next?, nonzero, digits c List.mem_cons_self]
      rw [List.foldlM_cons, first]
      exact foldlM_digits (fun d hd => (next?_of_isDigit hd).1)
        fun d hd => digits d (List.mem_cons_of_mem c hd)

theorem IsWhole.isMagnitude {whole : List Char} (h : IsWhole whole) : IsMagnitude whole := by
  rcases h.phase with h | h
  · exact ⟨.zero, rfl, h⟩
  · exact ⟨.whole, rfl, h⟩

variable {whole fraction power : List Char}

theorem IsWhole.phase_fraction (h : IsWhole whole) (digits : ∀ c ∈ fraction, c.isDigit = true)
    (some_digit : fraction ≠ []) :
    (whole ++ '.' :: fraction).foldlM NumberPhase.next? .sign = some .fraction := by
  have behind : fraction.foldlM NumberPhase.next? .point = some .fraction :=
    foldlM_digits_of_ne_nil (fun c hc => (next?_of_isDigit hc).2.1)
      (fun c hc => (next?_of_isDigit hc).2.2.1) digits some_digit
  rw [List.foldlM_append]
  rcases h.phase with h | h <;> rw [h] <;> exact behind

theorem IsWhole.isMagnitude_fraction (h : IsWhole whole)
    (digits : ∀ c ∈ fraction, c.isDigit = true) (some_digit : fraction ≠ []) :
    IsMagnitude (whole ++ '.' :: fraction) :=
  ⟨.fraction, rfl, h.phase_fraction digits some_digit⟩

/-- An exponent part may follow wherever the number may stop for want of one. -/
theorem isMagnitude_exponent {p : NumberPhase} {mantissa : List Char}
    (h : mantissa.foldlM NumberPhase.next? .sign = some p)
    (stop : p = .zero ∨ p = .whole ∨ p = .fraction) (sign : List Char)
    (hsign : sign = [] ∨ sign = ['+'] ∨ sign = ['-']) (digits : ∀ c ∈ power, c.isDigit = true)
    (some_digit : power ≠ []) : IsMagnitude (mantissa ++ 'e' :: (sign ++ power)) := by
  refine ⟨.power, rfl, ?_⟩
  have exponent : NumberPhase.next? p 'e' = some .exponent := by
    rcases stop with rfl | rfl | rfl <;> rfl
  have unsigned : power.foldlM NumberPhase.next? .exponent = some .power := by
    refine foldlM_digits_of_ne_nil ?_ (fun c hc => (next?_of_isDigit hc).2.2.2.2) digits some_digit
    intro c hc
    have other : ¬ (c = '+' ∨ c = '-') := by
      rintro (rfl | rfl) <;> cases hc
    simp [NumberPhase.next?, other, hc]
  have signed : power.foldlM NumberPhase.next? .exponentSign = some .power :=
    foldlM_digits_of_ne_nil (fun c hc => (next?_of_isDigit hc).2.2.2.1)
      (fun c hc => (next?_of_isDigit hc).2.2.2.2) digits some_digit
  rw [List.foldlM_append, h]
  change (p.next? 'e').bind _ = _
  rw [exponent, Option.bind_some]
  rcases hsign with rfl | rfl | rfl
  · exact unsigned
  · exact signed
  · exact signed

end Json

/-! ## Digits -/

theorem isDigit_of_mem_repr {n : Nat} {c : Char} (h : c ∈ (Nat.repr n).toList) :
    c.isDigit = true := by
  rw [Nat.toList_repr] at h
  exact Nat.isDigit_of_mem_toDigits (by decide) (by decide) h

theorem repr_ne_nil (n : Nat) : (Nat.repr n).toList ≠ [] := by
  rw [Nat.toList_repr]
  exact Nat.toDigits_ne_nil

/-- The digits of a positive number begin with another digit than zero. -/
theorem exists_head_toDigits (n : Nat) (positive : 0 < n) :
    ∃ c ds, Nat.toDigits 10 n = c :: ds ∧ c ≠ '0' := by
  induction n using Nat.strongRecOn with
  | ind n ih =>
      rw [Nat.toDigits_eq_if (by decide)]
      split
      · next small =>
          refine ⟨n.digitChar, [], rfl, ?_⟩
          have : ∀ k < 10, 0 < k → k.digitChar ≠ '0' := by decide
          exact this n small positive
      · next large =>
          obtain ⟨c, ds, digits, nonzero⟩ := ih (n / 10) (by omega) (by omega)
          exact ⟨c, ds ++ [(n % 10).digitChar], by rw [digits, List.cons_append], nonzero⟩

theorem isWhole_repr (n : Nat) : IsWhole (Nat.repr n).toList := by
  rcases Nat.eq_zero_or_pos n with rfl | positive
  · exact .zero
  · obtain ⟨c, ds, digits, nonzero⟩ := exists_head_toDigits n positive
    rw [← Nat.toList_repr] at digits
    rw [digits]
    exact .digits c ds nonzero fun d hd => isDigit_of_mem_repr (by rw [digits]; exact hd)

theorem isNumeral_int (n : Int) : IsNumeral (toString n).toList := by
  cases n with
  | ofNat n => exact .inl (isWhole_repr n).isMagnitude
  | negSucc n =>
      refine .inr ⟨(Nat.repr (n + 1)).toList, ?_, (isWhole_repr (n + 1)).isMagnitude⟩
      change ("-" ++ Nat.repr (n + 1)).toList = _
      rw [String.toList_append]
      rfl

/-! ## Layouts -/

theorem toList_pushn (s : String) (c : Char) (n : Nat) :
    (s.pushn c n).toList = s.toList ++ List.replicate n c := by
  rw [String.pushn_eq_repeat_push]
  induction n with
  | zero => simp [Nat.repeat]
  | succ n ih => rw [Nat.repeat, String.toList_push, ih, List.replicate_succ', List.append_assoc]

/-- Zeros behind a positive number keep it a whole part. -/
theorem isWhole_repr_zeros {n : Nat} (positive : 0 < n) (e : Nat) :
    IsWhole ((Nat.repr n).toList ++ List.replicate e '0') := by
  obtain ⟨c, ds, digits, nonzero⟩ := exists_head_toDigits n positive
  rw [← Nat.toList_repr] at digits
  rw [digits, List.cons_append]
  refine .digits c _ nonzero ?_
  intro d hd
  rw [← List.cons_append, List.mem_append, ← digits] at hd
  rcases hd with hd | hd
  · exact isDigit_of_mem_repr hd
  · rw [List.eq_of_mem_replicate hd]
    rfl

namespace Decimal.Layout

variable (l : Layout)

theorem isMagnitude_whole {digits : String} (h : IsWhole digits.toList) :
    IsMagnitude (l.whole digits).toList := by
  unfold whole
  split
  · rw [String.toList_append]
    have zero : ∀ c ∈ ['0'], c.isDigit = true := by
      intro c hc
      obtain rfl := List.mem_singleton.mp hc
      rfl
    exact h.isMagnitude_fraction zero (by decide)
  · exact h.isMagnitude

/-- The digits of a number, behind as many zeros as a point needs that has this many places. -/
def padded (digits places : Nat) : List Char :=
  if (digitsText digits).length ≤ places then
    List.replicate (places + 1 - (digitsText digits).length) '0' ++ (digitsText digits).toList
  else (digitsText digits).toList

theorem isDigit_of_mem_padded {digits places : Nat} {c : Char} (h : c ∈ padded digits places) :
    c.isDigit = true := by
  unfold padded at h
  split at h
  · rcases List.mem_append.mp h with h | h
    · rw [List.eq_of_mem_replicate h]
      rfl
    · exact isDigit_of_mem_repr h
  · exact isDigit_of_mem_repr h

theorem lt_length_padded (digits places : Nat) : places < (padded digits places).length := by
  have length : (digitsText digits).toList.length = (digitsText digits).length :=
    String.length_toList
  unfold padded
  split
  · simp only [List.length_append, List.length_replicate]
    omega
  · omega

/-- Before the point stands a single zero, or digits of a positive number from its first one. -/
theorem isWhole_take_padded {digits : Nat} (positive : 0 < digits) (places : Nat) :
    IsWhole ((padded digits places).take ((padded digits places).length - places)) := by
  have length : (digitsText digits).toList.length = (digitsText digits).length :=
    String.length_toList
  have long := lt_length_padded digits places
  by_cases short : (digitsText digits).length ≤ places
  · have zeros : padded digits places =
        List.replicate (places + 1 - (digitsText digits).length) '0' ++
          (digitsText digits).toList := if_pos short
    have one : (padded digits places).length - places = 1 := by
      rw [zeros]
      simp only [List.length_append, List.length_replicate]
      omega
    obtain ⟨n, hn⟩ : ∃ n, places + 1 - (digitsText digits).length = n + 1 :=
      ⟨places - (digitsText digits).length, by omega⟩
    rw [one, zeros, hn, List.replicate_succ]
    exact .zero
  · obtain ⟨c, ds, head, nonzero⟩ := exists_head_toDigits digits positive
    rw [← Nat.toList_repr] at head
    have cons : padded digits places = c :: ds := Eq.trans (if_neg short) head
    obtain ⟨k, hk⟩ : ∃ k, (padded digits places).length - places = k + 1 :=
      ⟨(padded digits places).length - places - 1, by omega⟩
    rw [hk, cons, List.take_succ_cons]
    have all : ∀ d ∈ padded digits places, d.isDigit = true := fun _ => isDigit_of_mem_padded
    rw [cons] at all
    refine .digits c _ nonzero ?_
    intro d hd
    apply all
    rcases List.mem_cons.mp hd with rfl | hd
    · exact List.mem_cons_self
    · exact List.mem_cons_of_mem c (List.mem_of_mem_take hd)

/-- A point that stands between the digits of a positive number, or before them and zeros. -/
theorem isMagnitude_pointed {digits : Nat} (positive : 0 < digits) (places : Nat)
    (some_place : 0 < places) {chars : List Char} (same : chars = padded digits places) :
    IsMagnitude (chars.take (chars.length - places) ++
      '.' :: chars.drop (chars.length - places)) := by
  rw [same]
  apply (isWhole_take_padded positive places).isMagnitude_fraction
  · intro c hc
    exact isDigit_of_mem_padded (List.mem_of_mem_drop hc)
  · intro none
    have := congrArg List.length none
    have long := lt_length_padded digits places
    simp only [List.length_drop, List.length_nil] at this
    omega

theorem isMagnitude_plain {d : Decimal} (positive : 0 < d.digits) :
    IsMagnitude (l.plain d).toList := by
  unfold plain
  cases d.exponent with
  | ofNat e =>
      apply l.isMagnitude_whole
      rw [String.toList_append, toList_pushn, String.toList_empty, List.nil_append]
      exact isWhole_repr_zeros positive e
  | negSucc e =>
      simp only [String.toList_append, String.toList_ofList, List.append_assoc]
      rw [show ".".toList = ['.'] from rfl, List.singleton_append]
      apply isMagnitude_pointed positive (e + 1) (Nat.succ_pos e)
      unfold padded
      split
      · rw [String.toList_append, toList_pushn, String.toList_empty, List.nil_append]
      · rfl

/-- The first of some digits, and behind a point the others if there are any. -/
def mantissa : List Char → List Char
  | [] => []
  | [c] => [c]
  | c :: rest => c :: '.' :: rest

theorem mantissa_phase {digits : List Char} (h : IsWhole digits) :
    ∃ p, (mantissa digits).foldlM NumberPhase.next? .sign = some p ∧
      (p = .zero ∨ p = .whole ∨ p = .fraction) := by
  cases h with
  | zero => exact ⟨.zero, rfl, .inl rfl⟩
  | digits c ds nonzero digits =>
      have first : IsWhole [c] := by
        refine .digits c [] nonzero ?_
        intro x hx
        obtain rfl := List.mem_singleton.mp hx
        exact digits x List.mem_cons_self
      cases ds with
      | nil =>
          rcases first.phase with h | h
          · exact ⟨.zero, h, .inl rfl⟩
          · exact ⟨.whole, h, .inr (.inl rfl)⟩
      | cons x rest =>
          refine ⟨.fraction, ?_, .inr (.inr rfl)⟩
          exact first.phase_fraction (fun y hy => digits y (List.mem_cons_of_mem c hy))
            (List.cons_ne_nil x rest)

/-- Scientific text is the mantissa, the letter and an exponent with or without a sign. -/
theorem toList_scientific (d : Decimal) :
    ∃ sign n, (sign = [] ∨ sign = ['+'] ∨ sign = ['-']) ∧
      (l.scientific d).toList =
        mantissa (digitsText d.digits).toList ++ 'e' :: (sign ++ (digitsText n).toList) := by
  cases leading : d.leading with
  | ofNat e =>
      refine ⟨if l.exponentPlus then ['+'] else [], e, by split <;> simp, ?_⟩
      rcases chars : (digitsText d.digits).toList with _ | ⟨c, _ | ⟨x, rest⟩⟩ <;>
        by_cases plus : l.exponentPlus <;> simp [scientific, leading, chars, mantissa, plus]
  | negSucc e =>
      refine ⟨['-'], e + 1, .inr (.inr rfl), ?_⟩
      rcases chars : (digitsText d.digits).toList with _ | ⟨c, _ | ⟨x, rest⟩⟩ <;>
        simp [scientific, leading, chars, mantissa]

theorem isMagnitude_scientific (d : Decimal) : IsMagnitude (l.scientific d).toList := by
  obtain ⟨p, reached, stop⟩ := mantissa_phase (isWhole_repr d.digits)
  obtain ⟨sign, n, hsign, text⟩ := l.toList_scientific d
  rw [text]
  exact isMagnitude_exponent reached stop sign hsign (fun c hc => isDigit_of_mem_repr hc)
    (repr_ne_nil n)

theorem isMagnitude_decimal {d : Decimal} (positive : 0 < d.digits) :
    IsMagnitude (l.decimal d).toList := by
  unfold decimal
  split
  · exact l.isMagnitude_plain positive
  · split
    · exact l.isMagnitude_plain positive
    · exact l.isMagnitude_scientific d

end Decimal.Layout

/-! ## Shortest decimals -/

namespace Decimal

theorem Cell.lower_pos (f : Binary.Format) {m : Nat} (positive : 0 < m) (q : Int) :
    0 < (Cell.of f m q).lower := by
  have unit := Binary.twoPow_pos q
  have one : (1 : Rat) ≤ m := by exact_mod_cast positive
  have least : Binary.twoPow q ≤ m * Binary.twoPow q := by nlinarith
  simp only [Cell.of]
  split <;> linarith

/-- Zero is no point of a cell above zero. -/
theorem Cell.digits_pos_of_onGrid? {c : Cell} (h : 0 < c.lower) {tie : Tie} {e : Int} {d : Decimal}
    (found : c.onGrid? tie e = some d) : 0 < d.digits := by
  have below_pos {below : Nat} (low : c.contains (below * tenPow e) = true) : 0 < below := by
    rcases Nat.eq_zero_or_pos below with rfl | positive
    · simp only [Cell.contains, Nat.cast_zero, zero_mul] at low
      split at low <;> simp only [decide_eq_true_eq] at low <;> linarith [low.1]
    · exact positive
  simp only [Cell.onGrid?] at found
  split at found
  · next low high =>
      obtain rfl := Option.some.inj found
      have := below_pos low
      simp only
      split <;> omega
  · next low high =>
      obtain rfl := Option.some.inj found
      exact below_pos low
  · obtain rfl := Option.some.inj found
    exact Nat.succ_pos _
  · cases found

theorem digits_exact_pos {m : Nat} (positive : 0 < m) (q : Int) : 0 < (exact m q).digits := by
  cases q with
  | ofNat n => exact Nat.mul_pos positive (Nat.two_pow_pos n)
  | negSucc n => exact Nat.mul_pos positive (Nat.pow_pos (by decide))

end Decimal

theorem Binary.digits_shortest_pos (f : Format) (tie : Decimal.Tie) {m : Nat} (positive : 0 < m)
    (q : Int) : 0 < (Binary.shortest f tie m q).digits := by
  unfold Binary.shortest
  cases found : (Decimal.Cell.of f m q).shortest? tie with
  | none => exact Decimal.digits_exact_pos positive q
  | some d =>
      obtain ⟨e, -, onGrid⟩ := List.exists_of_findSome?_eq_some found
      exact Decimal.Cell.digits_pos_of_onGrid? (Decimal.Cell.lower_pos f positive q) onGrid

/-- A finite number is printed as a numeral, whatever the layout. -/
theorem Decimal.Layout.isNumeral_text (l : Layout) {f : Binary.Format} {x : Binary f}
    (finite : x.isFinite = true) : IsNumeral (l.text x).toList := by
  cases x with
  | nan | infinite => cases finite
  | finite negative m q fits =>
      have magnitude : IsMagnitude (l.magnitude f m q).toList := by
        unfold magnitude
        split
        · exact l.isMagnitude_whole .zero
        · next nonzero =>
            exact l.isMagnitude_decimal
              (Binary.digits_shortest_pos f l.tie (Nat.pos_of_ne_zero nonzero) q)
      cases negative with
      | false => exact .inl (by simpa [Layout.text] using magnitude)
      | true => exact .inr ⟨_, by simp [Layout.text], magnitude⟩

/-- A scalar that is no text is written as a word or as a numeral. -/
theorem Scalar.json_cases {v : Scalar} (other : ∀ s, v ≠ .text s) :
    v.json ∈ ["true", "false", "null"] ∨ IsNumeral v.json.toList := by
  cases v with
  | bool b => exact .inl (by cases b <;> simp [json])
  | integer n => exact .inr (isNumeral_int n)
  | double x =>
      cases x with
      | nan => exact .inl (by simp [json, doubles, Decimal.Layout.text])
      | infinite => exact .inl (by simp [json, doubles, Decimal.Layout.text])
      | finite => exact .inr (doubles.isNumeral_text rfl)
  | single x =>
      cases x with
      | nan => exact .inl (by simp [json, singles, doubles, Decimal.Layout.text])
      | infinite => exact .inl (by simp [json, singles, doubles, Decimal.Layout.text])
      | finite => exact .inr (singles.isNumeral_text rfl)
  | text s => exact absurd rfl (other s)

end SceneStream
