/-!
# Sets of characters

A set of characters is kept as closed ranges of code points, in order and with a gap between any two
of them. A search stops at the first range that begins beyond the character; `contains_iff` says
that it misses nothing by that.
-/

namespace SceneStream

/-- Whether ranges come in order from `least` on, none of them empty and no two of them adjacent. -/
def CharSet.inOrder : (least : Nat) → List (Nat × Nat) → Bool
  | _, [] => true
  | least, (first, last) :: rest => least ≤ first && first ≤ last && inOrder (last + 2) rest

structure CharSet where
  ranges : List (Nat × Nat)
  ordered : CharSet.inOrder 0 ranges = true := by decide +kernel

namespace CharSet

/-- Searches ranges that are in order. -/
def search : List (Nat × Nat) → (n : Nat) → Bool
  | [], _ => false
  | (first, last) :: rest, n => if n < first then false else n ≤ last || search rest n

def contains (s : CharSet) (c : Char) : Bool := search s.ranges c.toNat

private theorem le_of_inOrder {least : Nat} {ranges : List (Nat × Nat)}
    (h : inOrder least ranges = true) {r : Nat × Nat} (hr : r ∈ ranges) : least ≤ r.1 := by
  induction ranges generalizing least with
  | nil => cases hr
  | cons head rest ih =>
    obtain ⟨first, last⟩ := head
    simp only [inOrder, Bool.and_eq_true, decide_eq_true_eq] at h
    obtain ⟨⟨hleast, hlast⟩, hrest⟩ := h
    rcases List.mem_cons.mp hr with rfl | hr
    · exact hleast
    · have := ih hrest hr
      omega

private theorem search_iff {least : Nat} {ranges : List (Nat × Nat)}
    (h : inOrder least ranges = true) (n : Nat) :
    search ranges n = true ↔ ∃ r ∈ ranges, r.1 ≤ n ∧ n ≤ r.2 := by
  induction ranges generalizing least with
  | nil => simp [search]
  | cons head rest ih =>
    obtain ⟨first, last⟩ := head
    simp only [inOrder, Bool.and_eq_true, decide_eq_true_eq] at h
    obtain ⟨⟨-, hlast⟩, hrest⟩ := h
    by_cases hn : n < first
    · have beyond : ∀ r ∈ rest, ¬ r.1 ≤ n := by
        intro r hr
        have := le_of_inOrder hrest hr
        omega
      simp only [search, hn, if_true, Bool.false_eq_true, List.mem_cons, false_iff, not_exists]
      rintro r ⟨rfl | hr, hle, -⟩
      · omega
      · exact beyond r hr hle
    · simp only [search, hn, if_false, Bool.or_eq_true, decide_eq_true_eq, ih hrest, List.mem_cons,
        exists_eq_or_imp]
      exact or_congr ⟨fun hle => ⟨by omega, hle⟩, fun hle => hle.2⟩ Iff.rfl

/-- The characters of a set are those of its ranges. -/
theorem contains_iff (s : CharSet) (c : Char) :
    s.contains c = true ↔ ∃ r ∈ s.ranges, r.1 ≤ c.toNat ∧ c.toNat ≤ r.2 :=
  search_iff s.ordered c.toNat

end CharSet

end SceneStream
