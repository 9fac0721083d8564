import SceneStream.Proofs.Structure.Tree
import SceneStream.Proofs.Time.Elapsed
import SceneStream.Proofs.Writer.Value

/-!
# Finite numbers

JSON has no text for a number that is not finite, so such a number would be written as null. A value
that its kind does not refuse has finite components, whatever its encoding, and the times of samples
are finite too.
-/

namespace SceneStream

/-- Whether a scalar is a finite number, or no number in binary. -/
def Scalar.isFinite : Scalar → Bool
  | double x => x.isFinite
  | single x => x.isFinite
  | bool _ | integer _ | text _ => true

/-- Whether the call writes no number that is not finite. -/
def Call.isFinite : Call → Bool
  | value v => v.isFinite
  | startObject | endObject | startSequence | endSequence | name _ => true

/-- A channel of a colour is finite. -/
theorem Binary.isFinite_of_inUnit {f : Binary.Format} {x : Binary f} (h : x.inUnit = true) :
    x.isFinite = true := by
  cases x with
  | finite => rfl
  | nan | infinite => cases h

theorem Bounds.isFinite_of_defect? {b : Bounds} (valid : b.defect? = none) :
    b.lower.isFinite = true ∧ b.upper.isFinite = true := by
  simp only [Binary.isFinite_iff_toRat?]
  unfold Bounds.defect? at valid
  split at valid
  next lower upper => exact ⟨by rw [lower]; rfl, by rw [upper]; rfl⟩
  next => cases valid

/-- Doubles that a check of all of them lets through are written as finite numbers. -/
theorem isFinite_of_allFinite {xs : List Double} {d : Defect}
    (valid : (if allFinite xs then none else some d) = none) :
    ∀ c ∈ xs.map Scalar.double, c.isFinite = true := by
  have finite : allFinite xs = true := by
    by_contra infinite
    rw [if_neg infinite] at valid
    cases valid
  intro c mem
  obtain ⟨x, component, rfl⟩ := List.mem_map.mp mem
  exact List.all_eq_true.mp finite x component

namespace Kind

/-- A value that is not refused has finite components, in every encoding. -/
theorem isFinite_components {k : Kind} {v : k.Value} (valid : k.defect? v = none) (e : k.Encoding) :
    ∀ c ∈ k.components e v, c.isFinite = true := by
  cases k with
  | boolean | integer | string | uri | heightReference | shadowMode | classificationType =>
      exact List.forall_mem_singleton.mpr rfl
  | number =>
      refine List.forall_mem_singleton.mpr ?_
      by_contra infinite
      rw [defect?, numberDefect?, if_neg (by exact infinite)] at valid
      cases valid
  | color =>
      cases e with
      | rgba =>
          intro c mem
          obtain ⟨n, -, rfl⟩ := List.mem_map.mp mem
          rfl
      | rgbaf =>
          intro c mem
          obtain ⟨x, channel, rfl⟩ := List.mem_map.mp mem
          exact Binary.isFinite_of_inUnit (List.all_eq_true.mp v.inUnit x channel)
  | extent | cartesian2 | cartesian => exact isFinite_of_allFinite valid
  | bounds =>
      obtain ⟨lower, upper⟩ := Bounds.isFinite_of_defect? valid
      exact List.forall_mem_cons.mpr ⟨lower, List.forall_mem_singleton.mpr upper⟩

end Kind

/-- The time of a sample is a text or a finite number. -/
theorem Stream.isFinite_timeScalar (epoch : Option Instant) (date : Instant) :
    (timeScalar epoch date).isFinite = true := by
  cases epoch with
  | none => rfl
  | some epoch =>
      rw [timeScalar, Scalar.isFinite, Binary.isFinite_iff_toRat?, Instant.toRat?_secondsSince]
      rfl

end SceneStream
