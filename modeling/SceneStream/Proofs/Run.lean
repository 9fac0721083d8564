import Mathlib.Order.Defs.Unbundled
import SceneStream.Error

/-!
# Running an operation

The equations by which an operation on a state is taken apart, one step at a time. They hold by
definition; nothing later unfolds the monad.
-/

namespace SceneStream

variable {σ α β : Type}

theorem bind_apply (x : EStateM Error σ α) (f : α → EStateM Error σ β) (s : σ) :
    (x >>= f) s = match x s with
      | .ok a s => f a s
      | .error e s => .error e s := by
  change EStateM.bind x f s = _
  unfold EStateM.bind
  cases x s <;> rfl

theorem bind_of_ok {x : EStateM Error σ α} {s s' : σ} {a : α} (h : x s = .ok a s')
    (f : α → EStateM Error σ β) : (x >>= f) s = f a s' := by
  rw [bind_apply, h]

/-- A run of two steps that is answered is a run of each. -/
theorem ok_of_bind {x : EStateM Error σ α} {f : α → EStateM Error σ β} {s s'' : σ} {b : β}
    (h : (x >>= f) s = .ok b s'') : ∃ a s', x s = .ok a s' ∧ f a s' = .ok b s'' := by
  rw [bind_apply] at h
  cases run : x s with
  | ok a s' => exact ⟨a, s', rfl, by rwa [run] at h⟩
  | error e s' => simp [run] at h

/-- A run of two steps that fails does so in the first or in the second. -/
theorem error_of_bind {x : EStateM Error σ α} {f : α → EStateM Error σ β} {s s'' : σ} {e : Error}
    (h : (x >>= f) s = .error e s'') :
    x s = .error e s'' ∨ ∃ a s', x s = .ok a s' ∧ f a s' = .error e s'' := by
  rw [bind_apply] at h
  cases run : x s with
  | ok a s' => exact .inr ⟨a, s', rfl, by rwa [run] at h⟩
  | error e' s' =>
      rw [run] at h
      obtain ⟨rfl, rfl⟩ := EStateM.Result.error.inj h
      exact .inl rfl

theorem bind_of_error {x : EStateM Error σ α} {s s' : σ} {e : Error} (h : x s = .error e s')
    (f : α → EStateM Error σ β) : (x >>= f) s = .error e s' := by
  rw [bind_apply, h]

@[simp] theorem pure_apply (a : α) (s : σ) : (pure a : EStateM Error σ α) s = .ok a s := rfl

@[simp] theorem get_apply (s : σ) : (get : EStateM Error σ σ) s = .ok s s := rfl

@[simp] theorem modify_apply (f : σ → σ) (s : σ) :
    (modify f : EStateM Error σ PUnit) s = .ok ⟨⟩ (f s) := rfl

@[simp] theorem modifyGet_apply (f : σ → α × σ) (s : σ) :
    (modifyGet f : EStateM Error σ α) s = .ok (f s).1 (f s).2 := rfl

@[simp] theorem throw_apply (e : Error) (s : σ) :
    (throw e : EStateM Error σ α) s = .error e s := rfl

/-- Whether an error is a refusal: a call that the state or an argument does not allow, not a sink
that failed. -/
def Error.isRefusal : Error → Bool
  | .invalidOperation _ | .invalidArgument _ => true
  | .io _ | .json _ => false

/-- The operation is refused and leaves the state as it is. -/
def Refuses (op : EStateM Error σ α) (s : σ) : Prop :=
  ∃ e, e.isRefusal = true ∧ op s = .error e s

theorem Refuses.bind {x : EStateM Error σ α} {s : σ} (h : Refuses x s)
    (f : α → EStateM Error σ β) : Refuses (x >>= f) s := by
  obtain ⟨e, refusal, eq⟩ := h
  exact ⟨e, refusal, bind_of_error eq f⟩

/-- A step that only looks at the state passes the refusal of what follows on. -/
theorem Refuses.after {x : EStateM Error σ α} {s : σ} {a : α} {f : α → EStateM Error σ β}
    (looked : x s = .ok a s) (h : Refuses (f a) s) : Refuses (x >>= f) s := by
  obtain ⟨e, refusal, eq⟩ := h
  exact ⟨e, refusal, by rw [bind_of_ok looked, eq]⟩

theorem refuses_refuse (m : Misuse) (s : σ) : Refuses (refuse m : EStateM Error σ α) s :=
  ⟨_, rfl, rfl⟩

/-! ## Whatever comes of an operation -/

/-- The state that an operation leaves, whether it is answered or fails. -/
def behind (op : EStateM Error σ α) (s : σ) : σ :=
  match op s with
  | .ok _ s' | .error _ s' => s'

theorem behind_of_ok {op : EStateM Error σ α} {s s' : σ} {a : α} (h : op s = .ok a s') :
    behind op s = s' := by
  rw [behind, h]

theorem behind_of_error {op : EStateM Error σ α} {s s' : σ} {e : Error} (h : op s = .error e s') :
    behind op s = s' := by
  rw [behind, h]

theorem behind_bind_of_ok {x : EStateM Error σ α} {s s' : σ} {a : α} (h : x s = .ok a s')
    (f : α → EStateM Error σ β) : behind (x >>= f) s = behind (f a) s' := by
  rw [behind, bind_of_ok h, behind]

theorem behind_bind_of_error {x : EStateM Error σ α} {s s' : σ} {e : Error}
    (h : x s = .error e s') (f : α → EStateM Error σ β) : behind (x >>= f) s = s' :=
  behind_of_error (bind_of_error h f)

/-- The operation leads from every state to a state in this relation to it. -/
def Moves (T : σ → σ → Prop) (op : EStateM Error σ α) : Prop := ∀ s, T s (behind op s)

section

variable {T : σ → σ → Prop}

theorem Moves.of_ok {op : EStateM Error σ α} {s s' : σ} {a : α} (moves : Moves T op)
    (run : op s = .ok a s') : T s s' := behind_of_ok run ▸ moves s

theorem moves_modify {f : σ → σ} (h : ∀ s, T s (f s)) :
    Moves T (modify f : EStateM Error σ PUnit) := h

/-- A step that looks at the state. -/
theorem Moves.look {f : σ → EStateM Error σ β} (next : ∀ s, Moves T (f s)) :
    Moves T (get >>= f) := fun s => next s s

theorem Moves.ite {c : Prop} [Decidable c] {x y : EStateM Error σ α} (yes : Moves T x)
    (no : Moves T y) : Moves T (if c then x else y) := by
  split
  · exact yes
  · exact no

variable [IsPreorder σ T]

theorem moves_pure (a : α) : Moves T (pure a : EStateM Error σ α) := refl

theorem moves_throw (e : Error) : Moves T (throw e : EStateM Error σ α) := refl

theorem moves_refuse (m : Misuse) : Moves T (refuse m : EStateM Error σ α) := refl

theorem Moves.bind {x : EStateM Error σ α} {f : α → EStateM Error σ β} (first : Moves T x)
    (next : ∀ a, Moves T (f a)) : Moves T (x >>= f) := by
  intro s
  have begun := first s
  cases run : x s with
  | ok a s' =>
      rw [behind_of_ok run] at begun
      rw [behind_bind_of_ok run]
      exact trans_of T begun (next a s')
  | error e s' =>
      rw [behind_of_error run] at begun
      rwa [behind_bind_of_error run]

end

end SceneStream
