import SceneStream.Proofs.Json.Blanks
import SceneStream.Proofs.Writer.Finite

/-!
# Texts without null

Of all that stands outside of strings, only the word null begins with its letter. So a text that has no
such letter there is read as a tree without null, whatever the strings in it say.
-/

namespace SceneStream

namespace Json

/-! ## Trees -/

mutual

/-- Whether a tree has no null in it. -/
def isNullFree : Json → Bool
  | null => false
  | bool _ | number _ | string _ => true
  | array items => itemsNullFree items
  | object members => membersNullFree members

def itemsNullFree : List Json → Bool
  | [] => true
  | v :: items => v.isNullFree && itemsNullFree items

def membersNullFree : List (Text × Json) → Bool
  | [] => true
  | (_, v) :: members => v.isNullFree && membersNullFree members

end

theorem itemsNullFree_iff {items : List Json} :
    itemsNullFree items = true ↔ ∀ v ∈ items, v.isNullFree = true := by
  induction items with
  | nil => simp [itemsNullFree]
  | cons v items ih => rw [itemsNullFree, Bool.and_eq_true, ih, List.forall_mem_cons]

theorem membersNullFree_iff {members : List (Text × Json)} :
    membersNullFree members = true ↔ ∀ m ∈ members, m.2.isNullFree = true := by
  induction members with
  | nil => simp [membersNullFree]
  | cons m members ih => rw [membersNullFree, Bool.and_eq_true, ih, List.forall_mem_cons]

/-- Whether an open container has no null among what it holds. -/
def Container.IsNullFree : Container → Prop
  | array items => ∀ v ∈ items, v.isNullFree = true
  | object members | member members _ => ∀ m ∈ members, m.2.isNullFree = true

namespace Assembly

/-- Whether no null has been read. -/
structure IsNullFree (a : Assembly) : Prop where
  stack : ∀ c ∈ a.stack, c.IsNullFree
  turn : ∀ v, a.turn = .complete v → v.isNullFree = true

variable {a b : Assembly} {stack : List Container} {v : Json}

theorem isNullFree_place (free : ∀ c ∈ stack, c.IsNullFree) (value : v.isNullFree = true) :
    (place stack v).IsNullFree := by
  cases stack with
  | nil =>
      refine ⟨free, fun w whole => ?_⟩
      obtain rfl := Turn.complete.inj whole
      exact value
  | cons c rest =>
      obtain ⟨first, rest⟩ := List.forall_mem_cons.mp free
      refine ⟨?_, fun w whole => ?_⟩
      · cases c with
        | array items => exact List.forall_mem_cons.mpr ⟨List.forall_mem_cons.mpr ⟨value, first⟩, rest⟩
        | member members name =>
            exact List.forall_mem_cons.mpr ⟨List.forall_mem_cons.mpr ⟨value, first⟩, rest⟩
        | object members => exact List.forall_mem_cons.mpr ⟨first, rest⟩
      · cases c <;> cases whole

theorem IsNullFree.value (free : a.IsNullFree) (value : v.isNullFree = true) :
    (a.value v).IsNullFree := isNullFree_place free.stack value

theorem IsNullFree.text (free : a.IsNullFree) (t : Text) : (a.text t).IsNullFree := by
  unfold Assembly.text
  split
  next members rest _ stack =>
    have held := free.stack
    rw [stack] at held
    obtain ⟨first, others⟩ := List.forall_mem_cons.mp held
    exact ⟨List.forall_mem_cons.mpr ⟨first, others⟩, nofun⟩
  next => exact free.value rfl

theorem IsNullFree.beginArray? (free : a.IsNullFree) (begun : a.beginArray? = some b) :
    b.IsNullFree := by
  obtain ⟨-, same⟩ := Option.ite_none_right_eq_some.mp begun
  obtain rfl := Option.some.inj same
  exact ⟨List.forall_mem_cons.mpr ⟨by simp [Container.IsNullFree], free.stack⟩, nofun⟩

theorem IsNullFree.beginObject? (free : a.IsNullFree) (begun : a.beginObject? = some b) :
    b.IsNullFree := by
  obtain ⟨-, same⟩ := Option.ite_none_right_eq_some.mp begun
  obtain rfl := Option.some.inj same
  exact ⟨List.forall_mem_cons.mpr ⟨by simp [Container.IsNullFree], free.stack⟩, nofun⟩

theorem IsNullFree.endArray? (free : a.IsNullFree) (ended : a.endArray? = some b) :
    b.IsNullFree := by
  have closed {items : List Json} {rest : List Container} (stack : a.stack = .array items :: rest)
      (whole : some (place rest (.array items.reverse)) = some b) : b.IsNullFree := by
    have held := free.stack
    rw [stack] at held
    obtain ⟨first, others⟩ := List.forall_mem_cons.mp held
    obtain rfl := Option.some.inj whole
    apply isNullFree_place others
    rw [isNullFree, itemsNullFree_iff]
    exact fun v mem => first v (List.mem_reverse.mp mem)
  unfold Assembly.endArray? at ended
  split at ended
  next stack _ => exact closed stack ended
  next stack _ => exact closed stack ended
  next => cases ended

theorem IsNullFree.endObject? (free : a.IsNullFree) (ended : a.endObject? = some b) :
    b.IsNullFree := by
  have closed {members : List (Text × Json)} {rest : List Container}
      (stack : a.stack = .object members :: rest)
      (whole : some (place rest (.object members.reverse)) = some b) : b.IsNullFree := by
    have held := free.stack
    rw [stack] at held
    obtain ⟨first, others⟩ := List.forall_mem_cons.mp held
    obtain rfl := Option.some.inj whole
    apply isNullFree_place others
    rw [isNullFree, membersNullFree_iff]
    exact fun m mem => first m (List.mem_reverse.mp mem)
  unfold Assembly.endObject? at ended
  split at ended
  next stack _ => exact closed stack ended
  next stack _ => exact closed stack ended
  next => cases ended

theorem IsNullFree.comma? (free : a.IsNullFree) (parted : a.comma? = some b) : b.IsNullFree := by
  have held := free.stack
  unfold Assembly.comma? at parted
  split at parted
  next stack _ =>
    obtain rfl := Option.some.inj parted
    exact ⟨stack ▸ held, nofun⟩
  next stack _ =>
    obtain rfl := Option.some.inj parted
    exact ⟨stack ▸ held, nofun⟩
  next => cases parted

theorem IsNullFree.colon? (free : a.IsNullFree) (named : a.colon? = some b) : b.IsNullFree := by
  unfold Assembly.colon? at named
  split at named
  next =>
    obtain rfl := Option.some.inj named
    exact ⟨free.stack, nofun⟩
  next => cases named

end Assembly

/-! ## Texts -/

/-- Whether a text that starts in this region has the letter of null only in its strings. -/
def Region.Avoids : Region → List Char → Prop
  | _, [] => True
  | p, c :: rest => (p = .outside → c ≠ 'n') ∧ (p.next c).Avoids rest

/-- Where the reader is in a text. -/
def Mode.region : Mode → Region
  | .between | .word .. | .number .. => .outside
  | .text _ | .digits .. => .inside
  | .escape _ => .escaped

/-- Whether the word that is being read is not null. -/
def Mode.IsNullFree : Mode → Prop
  | .word left v => '"' ∉ left ∧ v.isNullFree = true
  | .between | .number .. | .text _ | .escape _ | .digits .. => True

namespace Reader

/-- Whether no null has been read, nor the beginning of one. -/
structure IsNullFree (r : Reader) : Prop where
  mode : r.mode.IsNullFree
  assembly : r.assembly.IsNullFree

variable {r r' : Reader} {a : Assembly} {c : Char}

/-- A character that begins a token or stands between two. -/
theorem isNullFree_begin? (free : a.IsNullFree) (other : c ≠ 'n') (begun : begin? a c = some r) :
    r.IsNullFree ∧ r.mode.region = Region.next .outside c := by
  have stays {b : Option Assembly} (read : b.map (⟨.between, ·⟩) = some r)
      (outside : Region.next .outside c = .outside) (kept : ∀ b', b = some b' → b'.IsNullFree) :
      r.IsNullFree ∧ r.mode.region = Region.next .outside c := by
    obtain ⟨b', found, rfl⟩ := Option.map_eq_some_iff.mp read
    exact ⟨⟨trivial, kept b' found⟩, outside.symm⟩
  have begins {m : Mode} (read : (if a.acceptsValue then some (⟨m, a⟩ : Reader) else none) = some r)
      (outside : Region.next .outside c = .outside) (word : m.IsNullFree)
      (region : m.region = .outside) : r.IsNullFree ∧ r.mode.region = Region.next .outside c := by
    obtain ⟨-, same⟩ := Option.ite_none_right_eq_some.mp read
    obtain rfl := Option.some.inj same
    exact ⟨⟨word, free⟩, region.trans outside.symm⟩
  unfold begin? at begun
  dsimp only at begun
  split at begun
  next blank =>
    obtain rfl := Option.some.inj begun
    have quote : c ≠ '"' := by
      rintro rfl
      cases blank
    exact ⟨⟨trivial, free⟩, by simp [Region.next, quote, Mode.region]⟩
  next =>
    split at begun
    next => exact stays begun rfl fun _ => free.beginArray?
    next => exact stays begun rfl fun _ => free.endArray?
    next => exact stays begun rfl fun _ => free.beginObject?
    next => exact stays begun rfl fun _ => free.endObject?
    next => exact stays begun rfl fun _ => free.comma?
    next => exact stays begun rfl fun _ => free.colon?
    next =>
      obtain ⟨-, same⟩ := Option.ite_none_right_eq_some.mp begun
      obtain rfl := Option.some.inj same
      exact ⟨⟨trivial, free⟩, rfl⟩
    next => exact begins begun rfl ⟨by decide, rfl⟩ rfl
    next => exact begins begun rfl ⟨by decide, rfl⟩ rfl
    next => exact absurd rfl other
    next => exact begins begun rfl trivial rfl
    next =>
      obtain ⟨p, digit, read⟩ := Option.bind_eq_some_iff.mp begun
      exact begins read (outside_of_next? digit).2 trivial rfl

/-- One more character, unless it is the letter of null outside of a string. -/
theorem IsNullFree.step (free : r.IsNullFree) (other : r.mode.region = .outside → c ≠ 'n')
    (read : r.step c = some r') : r'.IsNullFree ∧ r'.mode.region = r.mode.region.next c := by
  obtain ⟨mode, a⟩ := r
  obtain ⟨word, held⟩ := free
  cases mode with
  | between => exact isNullFree_begin? held (other rfl) read
  | word left v =>
      obtain ⟨quote, value⟩ := word
      cases left with
      | nil => exact isNullFree_begin? (held.value value) (other rfl) read
      | cons d left =>
          obtain ⟨rfl, goes⟩ := Option.ite_none_right_eq_some.mp read
          simp only [List.mem_cons, not_or] at quote
          have stays : Region.next .outside c = .outside := by simp [Region.next, Ne.symm quote.1]
          split at goes
          · obtain rfl := Option.some.inj goes
            exact ⟨⟨trivial, held.value value⟩, stays.symm⟩
          · obtain rfl := Option.some.inj goes
            exact ⟨⟨⟨quote.2, value⟩, held⟩, stays.symm⟩
  | number p seen =>
      simp only [Reader.step] at read
      split at read
      next q next =>
        obtain rfl := Option.some.inj read
        exact ⟨⟨trivial, held⟩, (outside_of_next? next).2.symm⟩
      next =>
        obtain ⟨-, begun⟩ := Option.ite_none_right_eq_some.mp read
        exact isNullFree_begin? (held.value rfl) (other rfl) begun
  | text t =>
      simp only [Reader.step] at read
      simp only [Mode.region, Region.next]
      split at read
      next quote =>
        obtain rfl := Option.some.inj read
        exact ⟨⟨trivial, held.text _⟩, by simp [quote]⟩
      next quote =>
        split at read
        next slash =>
          obtain rfl := Option.some.inj read
          exact ⟨⟨trivial, held⟩, by simp [slash]⟩
        next slash =>
          obtain ⟨-, goes⟩ := Option.ite_none_left_eq_some.mp read
          obtain rfl := Option.some.inj goes
          exact ⟨⟨trivial, held⟩, by simp [quote, slash]⟩
  | escape t =>
      simp only [Reader.step] at read
      split at read
      next =>
        obtain rfl := Option.some.inj read
        exact ⟨⟨trivial, held⟩, rfl⟩
      next =>
        obtain ⟨d, -, rfl⟩ := Option.map_eq_some_iff.mp read
        exact ⟨⟨trivial, held⟩, rfl⟩
  | digits t left unit =>
      obtain ⟨d, digit, rfl⟩ := Option.map_eq_some_iff.mp read
      have inside : Region.next .inside c = .inside := by
        have quote : c ≠ '"' := by
          rintro rfl
          cases digit
        have slash : c ≠ '\\' := by
          rintro rfl
          cases digit
        simp [Region.next, quote, slash]
      dsimp only
      split
      · exact ⟨⟨trivial, held⟩, inside.symm⟩
      · exact ⟨⟨trivial, held⟩, inside.symm⟩

theorem IsNullFree.run {text : List Char} (free : r.IsNullFree) (avoids : r.mode.region.Avoids text)
    (read : r.run text = some r') : r'.IsNullFree := by
  induction text generalizing r with
  | nil =>
      obtain rfl := Option.some.inj read
      exact free
  | cons c text ih =>
      obtain ⟨first, rest⟩ := avoids
      obtain ⟨middle, stepped, goes⟩ := Option.bind_eq_some_iff.mp read
      obtain ⟨free', region⟩ := free.step first stepped
      exact ih free' (region ▸ rest) goes

end Reader

/-- A text that has the letter of null only in its strings is read as a tree without null. -/
theorem isNullFree_of_avoids {text : String} {v : Json} (avoids : Region.Avoids .outside text.toList)
    (parsed : parse? text = some v) : v.isNullFree = true := by
  obtain ⟨r, read, finished⟩ := Option.bind_eq_some_iff.mp parsed
  have start : Reader.start.IsNullFree := ⟨trivial, by simp [Assembly.start, Reader.start], nofun⟩
  obtain ⟨word, held⟩ := start.run avoids read
  obtain ⟨a, settled, turn⟩ := Option.bind_eq_some_iff.mp finished
  have free : a.IsNullFree := by
    split at settled
    next =>
      obtain rfl := Option.some.inj settled
      exact held
    next =>
      obtain ⟨-, same⟩ := Option.ite_none_right_eq_some.mp settled
      obtain rfl := Option.some.inj same
      exact held.value rfl
    next => cases settled
  split at turn
  next whole =>
    obtain rfl := Option.some.inj turn
    exact free.turn _ whole
  next => cases turn

/-! ## Pieces of text -/

section

variable {p : Region} {text : List Char}

theorem avoids_append {a b : List Char} :
    p.Avoids (a ++ b) ↔ p.Avoids a ∧ (p.after a).Avoids b := by
  induction a generalizing p with
  | nil => exact (iff_of_eq (true_and _)).symm
  | cons c a ih =>
      change (_ ∧ (p.next c).Avoids (a ++ b)) ↔
        (_ ∧ (p.next c).Avoids a) ∧ ((p.next c).after a).Avoids b
      rw [ih, and_assoc]

theorem avoids_of_forall (other : ∀ c ∈ text, c ≠ 'n') : p.Avoids text := by
  induction text generalizing p with
  | nil => trivial
  | cons c text ih =>
      obtain ⟨first, rest⟩ := List.forall_mem_cons.mp other
      exact ⟨fun _ => first, ih rest⟩

theorem avoids_of_all (other : text.all (· != 'n') = true) : p.Avoids text :=
  avoids_of_forall fun c mem => bne_iff_ne.mp (List.all_eq_true.mp other c mem)

theorem avoids_escapeChar (c : Char) : Region.Avoids .inside (escapeChar c) := by
  have unit (n : Nat) (control : n < 0x20) :
      Region.Avoids .inside (['\\', 'u', '0', '0'] ++ hexDigits n) := by
    apply avoids_of_all
    revert n
    decide
  unfold escapeChar
  split
  case h_8 =>
    split
    next control => exact unit c.toNat control
    next => exact ⟨nofun, trivial⟩
  all_goals exact ⟨nofun, nofun, trivial⟩

theorem avoids_escape (cs : List Char) : Region.Avoids .inside (escape cs) := by
  induction cs with
  | nil => trivial
  | cons c cs ih =>
      refine avoids_append.mpr ⟨avoids_escapeChar c, ?_⟩
      rw [(strips_escapeChar c).ends]
      exact ih

/-- A piece between two tokens that does not have the letter of null. -/
structure IsNullless (text : List Char) : Prop where
  avoids : Region.Avoids .outside text
  ends : Region.after .outside text = .outside

theorem isNullless_quote (s : String) : IsNullless (quote s).toList where
  avoids := by
    simp only [quote, String.toList_append, String.toList_ofList, List.append_assoc]
    refine avoids_append.mpr ⟨⟨fun _ => by decide, trivial⟩, avoids_append.mpr ⟨avoids_escape _, ?_⟩⟩
    exact avoids_of_all (by decide)
  ends := (isSolid_quote s).ends

theorem isNullless_spacing {blanks : List Char} (spacing : IsSpacing blanks) :
    IsNullless blanks where
  avoids := by
    apply avoids_of_forall
    intro c mem
    rcases spacing c mem with rfl | rfl <;> decide
  ends := (strips_spacing spacing).ends

theorem isNullless_numeral (numeral : IsNumeral text) : IsNullless text := by
  have digits {text : List Char} (magnitude : IsMagnitude text) : ∀ c ∈ text, c ≠ 'n' := by
    obtain ⟨q, -, spelt⟩ := magnitude
    generalize NumberPhase.sign = p at spelt
    induction text generalizing p with
    | nil => simp
    | cons c text ih =>
        obtain ⟨middle, first, rest⟩ := Option.bind_eq_some_iff.mp spelt
        refine List.forall_mem_cons.mpr ⟨?_, ih middle rest⟩
        rintro rfl
        cases p <;> cases first
  refine ⟨avoids_of_forall ?_, (isSolid_numeral numeral).ends⟩
  rcases numeral with magnitude | ⟨text, rfl, magnitude⟩
  · exact digits magnitude
  · exact List.forall_mem_cons.mpr ⟨by decide, digits magnitude⟩

end

end Json

/-- A scalar that is a finite number or no number in binary is written without null. -/
theorem Scalar.isNullless_json {v : Scalar} (finite : v.isFinite = true) :
    Json.IsNullless v.json.toList := by
  cases v with
  | bool b =>
      cases b with
      | true => exact ⟨Json.avoids_of_all (by decide), rfl⟩
      | false => exact ⟨Json.avoids_of_all (by decide), rfl⟩
  | integer n => exact Json.isNullless_numeral (isNumeral_int n)
  | double x => exact Json.isNullless_numeral (doubles.isNumeral_text finite)
  | single x => exact Json.isNullless_numeral (singles.isNumeral_text finite)
  | text s => exact Json.isNullless_quote s

end SceneStream
