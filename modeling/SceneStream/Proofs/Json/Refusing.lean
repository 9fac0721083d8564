import SceneStream.Proofs.Json.Numeral

/-!
# Where the reader stops

A token that is not due is refused at its first character, and what was refused stays refused whatever
follows. A quoted text is the one token with two uses: it may stand for a name where a value was
meant, and then only a colon goes on with it.
-/

namespace SceneStream

namespace Json

variable {a b : Assembly} {text : List Char}

/-- The reader comes to no tree by this text, whatever was read before. -/
def Reader.Stops (r : Reader) (text : List Char) : Prop := (r.run text).bind finish? = none

theorem Reader.stops_of_run {r : Reader} (refused : r.run text = none) (rest : List Char) :
    r.Stops (text ++ rest) := by
  rw [Stops, run_append, refused]
  rfl

theorem Reader.stops_append {r r' : Reader} {piece : List Char} (run : r.run piece = some r') :
    r.Stops (piece ++ text) ↔ r'.Stops text := by
  rw [Stops, run_append, run, Option.bind_some, Stops]

/-- A character that is refused, and whatever follows. -/
theorem Reader.stops_cons {c : Char} (refused : begin? a c = none) (rest : List Char) :
    (⟨.between, a⟩ : Reader).Stops (c :: rest) := by
  have first : Reader.run ⟨.between, a⟩ [c] = none := by
    rw [run_cons, step, refused]
    rfl
  exact stops_of_run first rest

/-! ## Values that are not due -/

theorem run_magnitude_of_not_due (due : a.acceptsValue = false) (h : IsMagnitude text) :
    Reader.run ⟨.between, a⟩ text = none := by
  obtain ⟨p, complete, spelt⟩ := h
  cases text with
  | nil =>
      obtain rfl := Option.some.inj spelt
      cases complete
  | cons c digits =>
      obtain ⟨first, begun, -⟩ := Option.bind_eq_some_iff.mp spelt
      rw [Reader.run_cons, Reader.step, begin?_digit begun, due]
      rfl

theorem run_numeral_of_not_due (due : a.acceptsValue = false) (h : IsNumeral text) :
    Reader.run ⟨.between, a⟩ text = none := by
  rcases h with magnitude | ⟨magnitude, rfl, -⟩
  · exact run_magnitude_of_not_due due magnitude
  · simp [Reader.step, Reader.begin?, Reader.isBlank, due]

/-- Where no value is due, a scalar that is no text is refused. -/
theorem run_scalar_of_not_due (due : a.acceptsValue = false) {v : Scalar}
    (other : ∀ s, v ≠ .text s) : Reader.run ⟨.between, a⟩ v.json.toList = none := by
  rcases Scalar.json_cases other with word | numeral
  · simp only [List.mem_cons, List.not_mem_nil, or_false] at word
    rcases word with word | word | word <;> rw [word] <;>
      simp [Reader.step, Reader.begin?, Reader.isBlank, due]
  · exact run_numeral_of_not_due due numeral

/-! ## Quoted texts -/

/-- Where neither a value nor a name is due, a quoted text is refused. -/
theorem stops_quote (value : a.acceptsValue = false) (name : a.acceptsName = false) (s : String)
    (rest : List Char) : (⟨.between, a⟩ : Reader).Stops ((quote s).toList ++ rest) := by
  simp only [quote, String.toList_append, List.append_assoc]
  rw [show "\"".toList = ['"'] from rfl, List.singleton_append]
  exact Reader.stops_cons (by simp [Reader.begin?, Reader.isBlank, value, name]) _

/-- Where a value is due, a quoted text is one, and no colon goes on with it. -/
theorem stops_quote_colon (value : a.acceptsValue = true) (s : String) (rest : List Char) :
    (⟨.between, a⟩ : Reader).Stops ((quote s).toList ++ ':' :: rest) := by
  rw [Reader.stops_append (run_quote (.inl value) s)]
  apply Reader.stops_cons
  have complete : (a.value (.string (some s))).colon? = none := by
    rcases a with ⟨_ | ⟨_ | _ | _, _⟩, _⟩ <;> rfl
  simp [Reader.begin?, Reader.isBlank, text_of_acceptsValue value, complete]

/-- After a name, only a colon goes on. -/
theorem stops_of_colon {stack : List Container}
    (other : (text.dropWhile Reader.isBlank).head? ≠ some ':') :
    (⟨.between, ⟨stack, .colon⟩⟩ : Reader).Stops text := by
  induction text with
  | nil => rfl
  | cons c text ih =>
      by_cases blank : Reader.isBlank c = true
      · have stays : Reader.run ⟨.between, ⟨stack, .colon⟩⟩ [c] =
            some ⟨.between, ⟨stack, .colon⟩⟩ := by
          simp [Reader.step, Reader.begin?, blank]
        rw [List.dropWhile_cons, if_pos blank] at other
        rw [← List.singleton_append, Reader.stops_append stays]
        exact ih other
      · rw [List.dropWhile_cons, if_neg blank, List.head?_cons] at other
        apply Reader.stops_cons
        unfold Reader.begin?
        rw [if_neg blank]
        split
        all_goals
          simp [Assembly.beginArray?, Assembly.beginObject?, Assembly.endArray?,
            Assembly.endObject?, Assembly.comma?, Assembly.acceptsValue, Assembly.acceptsName] at other ⊢

end Json

end SceneStream
