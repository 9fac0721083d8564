import SceneStream.Proofs.Json.Numeral

/-!
# Objects whose members are scalars

A scalar is one token, and has more than one spelling where it is a number or a string. An object of
scalars is a row of tokens, and white space may stand before, between and behind them. However it is
spelled and spaced, such a text is read as the object with these members in their order.
-/

namespace SceneStream

namespace Json

/-! ## Scalars -/

/-- The token is a scalar with this value. -/
inductive Denotes : String → Json → Prop where
  | null : Denotes "null" .null
  | bool (b : Bool) : Denotes (if b then "true" else "false") (.bool b)
  | number {token : String} (numeral : IsNumeral token.toList) : Denotes token (.number token)
  | text {body : List Char} {t : PartialText} (spells : Spells body t) :
      Denotes (String.ofList ('"' :: (body ++ ['"']))) (.string t.finish)

section

variable {text : List Char} {a : Assembly} {token : String} {v : Json}

/-- A quoted text is a token for the text. -/
theorem denotes_quote (s : String) : Denotes (quote s) (.string (some s)) := by
  obtain ⟨body, t, spells, text, finish⟩ := exists_spells s
  rw [← finish, ← String.ofList_toList (s := quote s), text]
  exact .text spells

/-- A whole number is a token for its digits. -/
theorem denotes_repr (n : Nat) : Denotes (Nat.repr n) (.number (Nat.repr n)) :=
  .number (.inl (isWhole_repr n).isMagnitude)

theorem Reads.valueToken (h : Reads text a) (due : a.acceptsValue = true)
    (denotes : Denotes token v) : Reads (text ++ token.toList) (a.value v) := by
  cases denotes with
  | null => exact h.wordNull due
  | bool b =>
      cases b
      · exact h.wordFalse due
      · exact h.wordTrue due
  | number numeral => exact h.number due numeral
  | text spells =>
      rw [String.toList_ofList, ← text_of_acceptsValue due]
      exact Reads.of_run (h.between (.inl due)) (spells.run_string (.inl due)) rfl

/-- Where a name is due, a token for a string is one. -/
theorem Reads.nameToken {t : Text} (h : Reads text a) (due : a.acceptsName = true)
    (denotes : Denotes token (.string t)) : Reads (text ++ token.toList) (a.text t) := by
  cases denotes with
  | text spells =>
      rw [String.toList_ofList]
      exact Reads.of_run (h.between (.inr due)) (spells.run_string (.inr due)) rfl

end

/-! ## White space -/

/-- The text is these tokens, with white space before, between and behind them. -/
inductive Spaced : List String → String → Prop where
  | nil {space : String} (white : IsWhite space.toList) : Spaced [] space
  | cons {space token text : String} {tokens : List String} (white : IsWhite space.toList)
      (rest : Spaced tokens text) : Spaced (token :: tokens) (space ++ token ++ text)

/-- Tokens may follow each other with nothing between them. -/
theorem spaced_join (tokens : List String) : Spaced tokens (String.join tokens) := by
  have empty : IsWhite "".toList := fun _ hc => absurd hc List.not_mem_nil
  induction tokens with
  | nil => exact .nil empty
  | cons token tokens ih =>
      have joined : Spaced (token :: tokens) ("" ++ token ++ String.join tokens) := .cons empty ih
      rwa [String.empty_append, ← String.join_cons] at joined

/-- From a place where one part of a tree has been read the tokens lead to the other, however they
are spaced. -/
def Leads (tokens : List String) (a b : Assembly) : Prop :=
  ∀ (text : List Char) (more : String), Reads text a → Spaced tokens more →
    Reads (text ++ more.toList) b

section

variable {a b c : Assembly} {token : String} {tokens : List String}

theorem leads_nil (a : Assembly) : Leads [] a a := by
  intro text more h spaced
  cases spaced with
  | nil white => exact h.white white

theorem Leads.cons (step : ∀ text, Reads text a → Reads (text ++ token.toList) b)
    (rest : Leads tokens b c) : Leads (token :: tokens) a c := by
  intro text more h spaced
  cases spaced with
  | cons white spaced =>
      have reached := rest _ _ (step _ (h.white white)) spaced
      simpa only [String.toList_append, List.append_assoc] using reached

theorem parse?_of_leads {text : String} {v : Json} (h : Leads tokens .start ⟨[], .complete v⟩)
    (spaced : Spaced tokens text) : parse? text = some v :=
  parse?_of_reads (h [] text reads_nil spaced)

end

/-! ## Objects -/

/-- A member of an object as its two tokens, the value a scalar. -/
structure Member where
  nameToken : String
  valueToken : String
  name : Text
  value : Json
  denotes_name : Denotes nameToken (.string name)
  denotes_value : Denotes valueToken value

namespace Member

def tokens (m : Member) : List String := [m.nameToken, ":", m.valueToken]

/-- The tokens behind the first member of an object. -/
def tokensBehind : List Member → List String
  | [] => ["\x7d"]
  | m :: members => "," :: (m.tokens ++ tokensBehind members)

/-- The tokens of an object with these members. -/
def objectTokens : List Member → List String
  | [] => ["\x7b", "\x7d"]
  | m :: members => "\x7b" :: (m.tokens ++ tokensBehind members)

/-- The members as they are read. -/
def tree (members : List Member) : Json := .object (members.map fun m => (m.name, m.value))

variable {members : List (Text × Json)} {turn : Turn} {tokens : List String} {b : Assembly}

/-- Where a name is due, the tokens of a member add the member. -/
theorem leads (m : Member) (due : turn = .firstName ∨ turn = .name)
    (rest : Leads tokens ⟨[.object ((m.name, m.value) :: members)], .next⟩ b) :
    Leads (m.tokens ++ tokens) ⟨[.object members], turn⟩ b := by
  have acceptsName : Assembly.acceptsName ⟨[.object members], turn⟩ = true := by
    rcases due with rfl | rfl <;> rfl
  have named : Assembly.text ⟨[.object members], turn⟩ m.name =
      ⟨[.member members m.name], .colon⟩ := by
    simp [Assembly.text, acceptsName]
  refine .cons (fun _ h => named ▸ h.nameToken acceptsName m.denotes_name) ?_
  refine .cons (fun _ h => h.colon rfl) ?_
  exact .cons (fun _ h => h.valueToken rfl m.denotes_value) rest

theorem leads_tokensBehind (members : List (Text × Json)) (more : List Member) :
    Leads (tokensBehind more) ⟨[.object members], .next⟩
      ⟨[], .complete (.object (members.reverse ++ more.map fun m => (m.name, m.value)))⟩ := by
  induction more generalizing members with
  | nil =>
      refine .cons (fun _ h => h.endObject rfl) ?_
      simpa [Assembly.place] using leads_nil _
  | cons m more ih =>
      refine .cons (fun _ h => h.comma rfl) (m.leads (.inr rfl) ?_)
      simpa using ih ((m.name, m.value) :: members)

theorem leads_objectTokens (more : List Member) :
    Leads (objectTokens more) .start ⟨[], .complete (tree more)⟩ := by
  cases more with
  | nil =>
      refine .cons (fun _ h => h.beginObject rfl) (.cons (fun _ h => h.endObject rfl) ?_)
      exact leads_nil _
  | cons m more =>
      refine .cons (fun _ h => h.beginObject rfl) (m.leads (.inl rfl) ?_)
      simpa [tree] using leads_tokensBehind [(m.name, m.value)] more

/-- An object of scalars is read from its tokens, however they are spaced. -/
theorem parse?_of_spaced {text : String} {more : List Member}
    (spaced : Spaced (objectTokens more) text) : parse? text = some (tree more) :=
  parse?_of_leads (leads_objectTokens more) spaced

end Member

end Json

end SceneStream
