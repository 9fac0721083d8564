import SceneStream.Proofs.Run

/-!
# Comparing two runs

One operation is run from two states. A comparison says which states are alike, and in which states
two runs have parted: from alike states an operation gives the same result and alike states again, or
the runs part. Once they have, they stay apart whatever either of them does. The rules below put such
facts together along the operation.
-/

namespace SceneStream

/-- What is compared of two runs. -/
structure Comparison (σ : Type) where
  /-- What any operation may do to a state. -/
  moves : σ → σ → Prop
  alike : σ → σ → Prop
  parted : σ → σ → Prop
  /-- The failures of runs that are alike. -/
  fine : Error → Prop
  moves_refl : ∀ s, moves s s
  moves_trans : ∀ s s' s'', moves s s' → moves s' s'' → moves s s''
  parted_of_moves : ∀ u l u' l', parted u l → moves u u' → moves l l' → parted u' l'
  fine_misuse : ∀ m, fine (.invalidOperation m)

namespace Comparison

variable {σ α β : Type} {C : Comparison σ}

instance : IsPreorder σ C.moves where
  refl := C.moves_refl
  trans := C.moves_trans

/-- Two runs that gave the same result and left alike states. -/
inductive Matches (C : Comparison σ) :
    EStateM.Result Error σ α → EStateM.Result Error σ α → Prop
  | ok (a : α) {u l : σ} (alike : C.alike u l) : C.Matches (.ok a u) (.ok a l)
  | error {e : Error} {u l : σ} (fine : C.fine e) (alike : C.alike u l) :
    C.Matches (.error e u) (.error e l)

/-- Two runs of the operation from alike states match or part. -/
structure Follows (C : Comparison σ) (op : EStateM Error σ α) : Prop where
  moves : Moves C.moves op
  runs : ∀ u l, C.alike u l → C.Matches (op u) (op l) ∨ C.parted (behind op u) (behind op l)

theorem follows_pure (a : α) : C.Follows (pure a : EStateM Error σ α) where
  moves := moves_pure a
  runs _ _ alike := .inl (.ok a alike)

theorem follows_throw {e : Error} (fine : C.fine e) :
    C.Follows (throw e : EStateM Error σ α) where
  moves := moves_throw e
  runs _ _ alike := .inl (.error fine alike)

theorem follows_refuse (m : Misuse) : C.Follows (refuse m : EStateM Error σ α) where
  moves := moves_refuse m
  runs _ _ alike := .inl (.error (C.fine_misuse m) alike)

theorem follows_modify {f : σ → σ} (moves : ∀ s, C.moves s (f s))
    (alike : ∀ u l, C.alike u l → C.alike (f u) (f l)) :
    C.Follows (modify f : EStateM Error σ PUnit) where
  moves := moves_modify moves
  runs u l same := by
    rw [modify_apply, modify_apply]
    exact .inl (.ok PUnit.unit (alike u l same))

theorem follows_modifyGet {f : σ → α × σ} (moves : ∀ s, C.moves s (f s).2)
    (alike : ∀ u l, C.alike u l → (f u).1 = (f l).1 ∧ C.alike (f u).2 (f l).2) :
    C.Follows (modifyGet f : EStateM Error σ α) where
  moves := moves
  runs u l same := by
    obtain ⟨value, alike⟩ := alike u l same
    rw [modifyGet_apply, modifyGet_apply, value]
    exact .inl (.ok _ alike)

/-- What follows an operation that was answered is one more move. -/
theorem moves_behind_bind {x : EStateM Error σ α} {f : α → EStateM Error σ β}
    (next : ∀ a, Moves C.moves (f a)) (s : σ) : C.moves (behind x s) (behind (x >>= f) s) := by
  cases run : x s with
  | ok a s' =>
      rw [behind_of_ok run, behind_bind_of_ok run]
      exact next a s'
  | error e s' =>
      rw [behind_of_error run, behind_bind_of_error run]
      exact C.moves_refl s'

theorem Follows.bind {x : EStateM Error σ α} {f : α → EStateM Error σ β} (first : C.Follows x)
    (next : ∀ a, C.Follows (f a)) : C.Follows (x >>= f) where
  moves := first.moves.bind fun a => (next a).moves
  runs u l alike := by
    rcases first.runs u l alike with same | apart
    · cases run : x u with
      | ok a u' =>
          cases run' : x l with
          | ok b l' =>
              rw [run, run'] at same
              cases same with
              | ok _ alike' =>
                  rw [bind_of_ok run, bind_of_ok run', behind_bind_of_ok run,
                    behind_bind_of_ok run']
                  exact (next a).runs u' l' alike'
          | error e l' =>
              rw [run, run'] at same
              cases same
      | error e u' =>
          cases run' : x l with
          | ok b l' =>
              rw [run, run'] at same
              cases same
          | error e' l' =>
              rw [run, run'] at same
              cases same with
              | error fine alike' =>
                  left
                  rw [bind_of_error run, bind_of_error run']
                  exact .error fine alike'
    · right
      exact C.parted_of_moves _ _ _ _ apart (moves_behind_bind (fun a => (next a).moves) u)
        (moves_behind_bind (fun a => (next a).moves) l)

theorem Follows.ite {c : Prop} [Decidable c] {x y : EStateM Error σ α} (yes : c → C.Follows x)
    (no : ¬c → C.Follows y) : C.Follows (if c then x else y) := by
  split
  next holds => exact yes holds
  next fails => exact no fails

/-- A step that looks at what alike states have in common. -/
theorem Follows.look {f : σ → EStateM Error σ β} (next : ∀ s, C.Follows (f s))
    (common : ∀ u l, C.alike u l → f u = f l) : C.Follows (get >>= f) where
  moves := Moves.look fun s => (next s).moves
  runs u l alike := by
    rw [bind_of_ok (get_apply u), bind_of_ok (get_apply l), behind_bind_of_ok (get_apply u),
      behind_bind_of_ok (get_apply l), ← common u l alike]
    exact (next u).runs u l alike

theorem Follows.forM {f : α → EStateM Error σ PUnit} {xs : List α}
    (each : ∀ x ∈ xs, C.Follows (f x)) : C.Follows (xs.forM f) := by
  induction xs with
  | nil => exact follows_pure ()
  | cons x xs ih =>
      obtain ⟨first, rest⟩ := List.forall_mem_cons.mp each
      exact first.bind fun _ => ih rest

end Comparison

end SceneStream
