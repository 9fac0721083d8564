import SceneStream.Proofs.Outline.Basic

/-!
# The draft of an outline

The calls of a sound outline are permitted, so they lead to one draft. What is due in that draft and
which containers are open in it can be read off the parts: each part accounts for at most one
container, and a name without a value is the last call or none.
-/

namespace SceneStream

def Frame.bracket : Frame → Bracket
  | .object .. => .object
  | .array _ => .array

/-- Whether the container has a name without a value. -/
def Frame.isPending : Frame → Bool
  | .object _ pending => pending
  | .array _ => false

namespace Draft

/-- What is due, as long as a container is open. -/
def site? : Draft → Option Site
  | blank | complete _ => none
  | array .. => some .item
  | object .. => some .name
  | named .. => some .value

/-- The containers of the text, innermost first. -/
def brackets (d : Draft) : List Bracket := d.frames.map Frame.bracket

variable {d : Draft} {outer : List Outer}

theorem brackets_of_inside? (h : d.inside? = some outer) :
    outer.map (Frame.bracket ∘ Outer.frame) = d.brackets := by
  cases d <;> simp only [inside?, Option.some.injEq, reduceCtorEq] at h <;> subst h <;>
    simp [brackets, frames, Outer.frame, Frame.bracket]

theorem inside?_of_site? {site : Site} (h : d.site? = some site) (value : site ≠ .name) :
    ∃ outer, d.inside? = some outer := by
  cases d with
  | array | named => exact ⟨_, rfl⟩
  | object => exact absurd (Option.some.inj h).symm value
  | blank | complete => cases h

theorem eq_object_of_site? (h : d.site? = some .name) : ∃ ms outer, d = object ms outer := by
  cases d with
  | object ms outer => exact ⟨ms, outer, rfl⟩
  | blank | complete | array | named => cases h

/-- A container before the innermost one has no name that waits for its value. -/
theorem isPending_of_mem_tail {f : Frame} (h : f ∈ d.frames.tail) : f.isPending = false := by
  have settled {outer : List Outer} (h : f ∈ outer.map Outer.frame) : f.isPending = false := by
    obtain ⟨o, -, rfl⟩ := List.mem_map.mp h
    cases o <;> rfl
  cases d with
  | blank | complete => cases h
  | array | object | named => exact settled h

end Draft

/-- The container that the part keeps open. -/
def Part.brackets : Part → List Bracket
  | packet _ | element .. => [.object]
  | member _ body => body.scope.brackets
  | list .. => [.array]

/-- What is due inside these parts. -/
def Part.siteIn : List Part → Site
  | [] => .item
  | p :: _ => p.site

/-- Whether the draft is where these parts leave off. Outside of them all, that is the array of the
document, or the start of a stream without one. -/
def Draft.IsIn (d : Draft) (parts : List Part) : Prop :=
  d.site? = some (Part.siteIn parts) ∨ parts = [] ∧ d = blank

namespace Part

open Draft

variable {p : Part} {rest : List Part} {d : Draft}

theorem site_of_scope (h : p.scope = .object) : p.site = .name := by
  rcases p with _ | ⟨_, _ | _ | _ | _⟩ | _ | _ <;> first | rfl | cases h

/-- Where a part that is a container fits, a value is due. -/
theorem inside?_of_fits (fits : p.Fits rest) (container : ∀ name body, p ≠ member name body)
    (inside : d.IsIn rest) : ∃ outer, d.inside? = some outer := by
  rcases inside with site | ⟨-, rfl⟩
  · apply inside?_of_site? site
    cases rest with
    | nil => simp [siteIn]
    | cons outer rest =>
        rcases fits_cases fits with ⟨name, body, rfl, scope⟩ |
          ⟨name, members, items, rfl, rfl⟩ | ⟨name, items, rfl, rfl⟩
        · exact absurd rfl (container name body)
        · simp [siteIn, Part.site]
        · simp [siteIn, Part.site]
  · exact ⟨[], rfl⟩

section

variable {outer : List Outer}

/-- An object may be begun where a value is due. -/
theorem acceptAll_object (inside : d.inside? = some outer) (ms : List (String × Tree)) :
    d.acceptAll (.startObject :: Tree.memberCalls ms) = some (object ms outer) ∧
      (object ms outer).brackets = .object :: d.brackets := by
  constructor
  · simp [accept, inside, acceptAll_memberCalls]
  · rw [← brackets_of_inside? inside]
    simp [Draft.brackets, frames, Frame.bracket]

/-- An array may be begun where a value is due. -/
theorem acceptAll_array (inside : d.inside? = some outer) (items : List Tree) :
    d.acceptAll (.startSequence :: Tree.itemCalls items) = some (array items outer) ∧
      (array items outer).brackets = .array :: d.brackets := by
  constructor
  · simp [accept, inside, acceptAll_itemCalls]
  · rw [← brackets_of_inside? inside]
    simp [Draft.brackets, frames, Frame.bracket]

end

/-- The calls of a part are permitted where it fits, and lead to where its parts are due. -/
theorem acceptAll_calls (fits : p.Fits rest) (here : d.IsIn rest) :
    ∃ e, d.acceptAll p.calls = some e ∧ e.site? = some p.site ∧
      e.brackets = p.brackets ++ d.brackets := by
  cases p with
  | packet members | element name members =>
      obtain ⟨outer, inside⟩ := inside?_of_fits fits (by simp) here
      obtain ⟨accepted, brackets⟩ := acceptAll_object inside members
      exact ⟨_, accepted, rfl, brackets⟩
  | list name items =>
      obtain ⟨outer, inside⟩ := inside?_of_fits fits (by simp) here
      obtain ⟨accepted, brackets⟩ := acceptAll_array inside items
      exact ⟨_, accepted, rfl, brackets⟩
  | member name body =>
      obtain ⟨around, head, scope⟩ := fits
      obtain ⟨ms, outer, rfl⟩ : ∃ ms outer, d = object ms outer := by
        apply eq_object_of_site?
        cases rest with
        | nil => cases head
        | cons q rest =>
            obtain rfl : q = around := by simpa using head
            have site := here.resolve_right fun outside => List.cons_ne_nil _ _ outside.1
            rw [site, siteIn, site_of_scope scope]
      have named : (named ms name outer).inside? = some (.member ms name :: outer) := rfl
      rcases body with _ | t | members | _ | t
      · exact ⟨.named ms name outer, rfl, rfl, rfl⟩
      · exact ⟨place (.member ms name :: outer) t,
          (Draft.acceptAll_cons ..).trans (Draft.acceptAll_calls t named), rfl, rfl⟩
      · exact ⟨object members (.member ms name :: outer),
          (Draft.acceptAll_cons ..).trans (acceptAll_object named members).1, rfl, rfl⟩
      · exact ⟨.named ms name outer, rfl, rfl, rfl⟩
      · exact ⟨place (.member ms name :: outer) t,
          (Draft.acceptAll_cons ..).trans (Draft.acceptAll_calls t named), rfl, rfl⟩

/-- The calls of parts that lie in each other are permitted wherever an item is. -/
theorem acceptAll_chain {base : Draft} (outside : base.IsIn []) {parts : List Part}
    (chain : Chain parts) :
    ∃ d, base.acceptAll (parts.reverse.flatMap calls) = some d ∧ d.IsIn parts ∧
      d.brackets = parts.flatMap brackets ++ base.brackets := by
  induction parts with
  | nil => exact ⟨base, rfl, outside, rfl⟩
  | cons p rest ih =>
      obtain ⟨d, reached, here, open'⟩ := ih chain.2
      obtain ⟨e, accepted, site, open''⟩ := acceptAll_calls chain.1 here
      refine ⟨e, ?_, .inl site, by simp [open', open'']⟩
      simp [reached, Draft.acceptAll_append, accepted]

end Part

namespace Outline

open Draft

/-- The draft of an outline that is sound. -/
def draft (o : Outline) : Draft := (blank.acceptAll o.calls).getD .blank

variable {o o' : Outline}

/-- The containers around all parts. -/
def base (o : Outline) : List Bracket := if o.alone then [] else [.array]

/-- The calls of a sound outline, as long as something can follow. -/
private theorem draft_of_unfinished (h : o.Sound) (unfinished : o.finished = false) :
    blank.acceptAll o.calls = some o.draft ∧ o.draft.IsIn o.parts ∧
      o.draft.brackets = o.parts.flatMap Part.brackets ++ o.base := by
  obtain ⟨around, outside, reached, open'⟩ : ∃ around : Draft, around.IsIn [] ∧
      blank.acceptAll ((if o.alone then [] else [.startSequence]) ++ Tree.itemCalls o.items) =
        some around ∧ around.brackets = o.base := by
    cases alone : o.alone with
    | false =>
        refine ⟨array o.items [], .inl rfl, ?_, by simp [base, alone, Draft.brackets, frames,
          Frame.bracket]⟩
        simp [accept, inside?, acceptAll_itemCalls]
    | true =>
        have none := (h.single alone).1 unfinished
        exact ⟨blank, .inr ⟨rfl, rfl⟩, by simp [none, Tree.itemCalls], by simp [base, alone,
          Draft.brackets, frames]⟩
  obtain ⟨d, accepted, here, brackets⟩ := Part.acceptAll_chain outside h.chain
  have whole : blank.acceptAll o.calls = some d := by
    simp only [calls, unfinished, Bool.false_and, Bool.false_eq_true, if_false, List.append_nil]
    rw [Draft.acceptAll_append, reached]
    exact accepted
  have : o.draft = d := by rw [draft, whole, Option.getD_some]
  rw [this, brackets, open']
  exact ⟨whole, here, rfl⟩

/-- The calls of a document that is finished, or of a whole item without a document. -/
private theorem draft_of_finished (h : o.Sound) (finished : o.finished = true) :
    ∃ t, blank.acceptAll o.calls = some (.complete t) ∧ (o.alone = false → t = .array o.items) := by
  cases alone : o.alone with
  | false =>
      refine ⟨.array o.items, ?_, fun _ => rfl⟩
      simp [calls, h.finished finished, finished, alone, accept, inside?, acceptAll_append,
        acceptAll_itemCalls, place]
  | true =>
      obtain ⟨t, item⟩ := (h.single alone).2 finished
      refine ⟨t, ?_, fun document => by simp at document⟩
      simp only [calls, h.finished finished, alone, item, Tree.itemCalls, if_true, Bool.not_true,
        Bool.and_false, Bool.false_eq_true, if_false, List.reverse_nil, List.flatMap_nil,
        List.append_nil, List.nil_append]
      exact Draft.acceptAll_calls (d := blank) t rfl

/-- The calls of a sound outline lead to its draft. -/
theorem Sound.acceptAll_calls (h : o.Sound) : blank.acceptAll o.calls = some o.draft := by
  cases finished : o.finished with
  | false => exact (draft_of_unfinished h finished).1
  | true =>
      obtain ⟨t, whole, -⟩ := draft_of_finished h finished
      rw [draft, whole, Option.getD_some]

theorem Sound.draft_finished (h : o.Sound) (finished : o.finished = true) :
    ∃ t, o.draft = .complete t ∧ (o.alone = false → t = .array o.items) := by
  obtain ⟨t, whole, document⟩ := draft_of_finished h finished
  exact ⟨t, by rw [draft, whole, Option.getD_some], document⟩

theorem Sound.isIn_draft (h : o.Sound) (unfinished : o.finished = false) :
    o.draft.IsIn o.parts := (draft_of_unfinished h unfinished).2.1

theorem Sound.brackets_draft (h : o.Sound) (unfinished : o.finished = false) :
    o.draft.brackets = o.parts.flatMap Part.brackets ++ o.base :=
  (draft_of_unfinished h unfinished).2.2

/-- What is added between two sound outlines is permitted. -/
theorem Sound.acceptAll_draft (h : o.Sound) (h' : o'.Sound) {added : List Call}
    (calls : o'.calls = o.calls ++ added) : o.draft.acceptAll added = some o'.draft := by
  have := h'.acceptAll_calls
  rw [calls, Draft.acceptAll_append, h.acceptAll_calls] at this
  exact this

end Outline

end SceneStream
