import SceneStream.Sink

/-!
# What a sink holds

A sink holds bytes. One without a limit holds every piece that was put into it; one with a limit holds
the first bytes of them, up to its limit, whatever characters they belong to.
-/

namespace SceneStream

/-- The bytes of a text. -/
def utf8 (text : String) : List UInt8 := text.toList.flatMap String.utf8EncodeChar

@[simp] theorem utf8_append (a b : String) : utf8 (a ++ b) = utf8 a ++ utf8 b := by
  simp [utf8]

@[simp] theorem utf8_push (text : String) (c : Char) :
    utf8 (text.push c) = utf8 text ++ String.utf8EncodeChar c := by
  simp [utf8]

@[simp] theorem length_utf8 (text : String) : (utf8 text).length = text.utf8ByteSize := by
  rw [← String.size_toByteArray, ← String.utf8Encode_toList, List.utf8Encode, utf8,
    ← ByteArray.size_data, List.data_toByteArray, List.size_toArray]

namespace Sink

variable {s : Sink}

/-- The bytes taken so far. -/
def bytes (s : Sink) : List UInt8 := utf8 s.text ++ s.cut

@[simp] theorem length_bytes (s : Sink) : s.bytes.length = s.size := by
  simp [bytes, size]

/-- The bytes that a sink holds of all that come to it. -/
def clip (s : Sink) (bytes : List UInt8) : List UInt8 :=
  match s.limit with
  | none => bytes
  | some limit => bytes.take limit

/-- A sink takes no more than it has room for, and cuts a character only where its room ends. -/
structure IsSound (s : Sink) : Prop where
  fits : ∀ limit, s.limit = some limit → s.size ≤ limit
  whole : s.cut ≠ [] → s.limit = some s.size

theorem isSound_empty (limit : Option Nat) : IsSound { limit } where
  fits _ _ := Nat.zero_le _
  whole cut := absurd rfl cut

/-- Whole characters are taken as long as there is room, and the first bytes of one more. -/
theorem bytes_fill (s : Sink) (room : Nat) (cs : List Char) (whole : s.cut ≠ [] → room = 0) :
    (s.fill room cs).bytes = s.bytes ++ (cs.flatMap String.utf8EncodeChar).take room := by
  fun_induction fill s room cs with
  | case1 s room => simp
  | case2 s room c rest fits ih =>
      have uncut : s.cut = [] := by
        cases cut : s.cut with
        | nil => rfl
        | cons =>
            have := c.utf8Size_pos
            have := whole (by simp [cut])
            omega
      have taken : (String.utf8EncodeChar c).take room = String.utf8EncodeChar c :=
        List.take_of_length_le (by rwa [String.length_utf8EncodeChar])
      rw [ih fun cut => absurd uncut cut, List.flatMap_cons, List.take_append, taken,
        String.length_utf8EncodeChar]
      simp [bytes, uncut]
  | case3 s room c rest beyond =>
      have short : room ≤ (String.utf8EncodeChar c).length := by
        rw [String.length_utf8EncodeChar]
        omega
      rw [List.flatMap_cons, List.take_append_of_le_length short]
      simp [bytes]

/-- Whether there is room for the whole of a piece. -/
def HasRoom (s : Sink) (piece : String) : Prop :=
  ∀ limit, s.limit = some limit → s.size + piece.utf8ByteSize ≤ limit

theorem hasRoom_of_le {piece : String} {limit : Nat} (limited : s.limit = some limit)
    (fits : s.size + piece.utf8ByteSize ≤ limit) : s.HasRoom piece := by
  intro limit' limited'
  cases limited.symm.trans limited'
  exact fits

theorem hasRoom_of_unlimited {piece : String} (unlimited : s.limit = none) : s.HasRoom piece := by
  intro limit limited
  cases unlimited.symm.trans limited

theorem put_of_hasRoom {piece : String} (room : s.HasRoom piece) :
    s.put piece = ({ s with text := s.text ++ piece }, true) := by
  unfold put
  split
  · rfl
  next limit limited => rw [if_pos (room limit limited)]

/-- A sink that has no room for the whole of a piece says so. -/
theorem put_of_over {piece : String} {limit : Nat} (limited : s.limit = some limit)
    (beyond : limit < s.size + piece.utf8ByteSize) :
    s.put piece = (s.fill (limit - s.size) piece.toList, false) := by
  simp [put, limited, Nat.not_le.mpr beyond]

/-- Where there is room for a piece, it follows what is there. -/
theorem bytes_append (sound : s.IsSound) {piece : String} (room : s.HasRoom piece) :
    { s with text := s.text ++ piece }.bytes = s.bytes ++ utf8 piece := by
  cases cut : s.cut with
  | nil => simp [bytes, cut]
  | cons =>
      have full := room s.size (sound.whole (by simp [cut]))
      have empty : utf8 piece = [] := by
        rw [← List.length_eq_zero_iff, length_utf8]
        omega
      simp [bytes, empty, cut]

/-- Every piece is taken as far as there is room. -/
theorem bytes_put (sound : s.IsSound) (piece : String) :
    (s.put piece).1.bytes = s.clip (s.bytes ++ utf8 piece) := by
  unfold clip
  split
  next limited =>
    have room : s.HasRoom piece := hasRoom_of_unlimited limited
    rw [put_of_hasRoom room, bytes_append sound room]
  next limit limited =>
    have bound := sound.fits limit limited
    by_cases fits : s.size + piece.utf8ByteSize ≤ limit
    · have room := hasRoom_of_le limited fits
      rw [put_of_hasRoom room, bytes_append sound room, List.take_of_length_le (by simpa)]
    · have full : s.cut ≠ [] → limit - s.size = 0 := by
        intro cut
        have := Option.some.inj (limited.symm.trans (sound.whole cut))
        omega
      have kept : s.bytes.take limit = s.bytes := List.take_of_length_le (by simpa using bound)
      rw [put_of_over limited (by omega), bytes_fill s _ _ full, List.take_append, length_bytes,
        kept, utf8]

theorem IsSound.put (sound : s.IsSound) (piece : String) : (s.put piece).1.IsSound := by
  have bytes := congrArg List.length (bytes_put sound piece)
  rw [length_bytes, clip] at bytes
  constructor
  · intro limit limited
    rw [limit_put] at limited
    simp only [limited, List.length_take] at bytes
    omega
  · intro cut
    rw [limit_put]
    cases limited : s.limit with
    | none =>
        rw [put_of_unlimited limited] at cut
        cases limited.symm.trans (sound.whole cut)
    | some limit =>
        simp only [limited, List.length_take, List.length_append, length_bytes, length_utf8] at bytes
        have room := sound.fits limit limited
        by_cases fits : s.size + piece.utf8ByteSize ≤ limit
        · rw [put_of_hasRoom (hasRoom_of_le limited fits)] at cut
          have full := Option.some.inj (limited.symm.trans (sound.whole cut))
          rw [bytes, full]
          congr 1
          omega
        · rw [bytes]
          congr 1
          omega

/-- A sink that is full keeps what it has. -/
theorem eq_of_full {bytes : List UInt8} {limit : Nat} (limited : s.limit = some limit)
    (sound : s.IsSound) (full : limit ≤ bytes.length) (grows : bytes <+: s.bytes) :
    s.bytes = bytes := by
  apply (grows.eq_of_length_le _).symm
  rw [length_bytes]
  exact Nat.le_trans (sound.fits limit limited) full

end Sink

end SceneStream
