import SceneStream.Proofs.Outline.Part

/-!
# Outlines

An outline is what all successful operations on a document describe together: the closed items of
the document's array, and the parts that open writers have written, innermost first. Every deed is a
step from one outline to the next. The calls of an outline lead to exactly one draft, and a deed
only adds calls. On a stream without a document the one item that it can hold stands alone.
-/

namespace SceneStream

structure Outline where
  items : List Tree := []
  /-- What the open writers have written, innermost first. -/
  parts : List Part := []
  /-- Whether nothing can follow: the document's array is closed, or the one item is. -/
  finished : Bool := false
  /-- Whether there is no document, and so no array around the items. -/
  alone : Bool := false

/-- What a successful operation does. -/
inductive Deed where
  | enter (p : Part)
  | write (w : Write)
  | leave
  | finish

namespace Outline

/-- The parts around a new one: a list takes the place of the object. -/
def around (o : Outline) : Part → List Part
  | .list .. =>
    match o.parts with
    | .member name .nothing :: rest => .member name (.intervals none) :: rest
    | parts => parts
  | _ => o.parts

def after (o : Outline) : Deed → Outline
  | .enter p => { o with parts := p :: o.around p }
  | .write w =>
    match o.parts with
    | [] => o
    | p :: rest => { o with parts := p.write (w.entry p.scope) :: rest }
  | .leave =>
    match o.parts with
    | [] => o
    | [p] => { o with
        items := o.items ++ [p.tree], parts := [], finished := o.finished || o.alone }
    | p :: outer :: rest => { o with parts := outer.receive p :: rest }
  | .finish => { o with finished := true }

def afterAll (o : Outline) (deeds : List Deed) : Outline := deeds.foldl after o

@[simp] theorem afterAll_nil (o : Outline) : o.afterAll [] = o := rfl

@[simp] theorem afterAll_cons (o : Outline) (deed : Deed) (deeds : List Deed) :
    o.afterAll (deed :: deeds) = (o.after deed).afterAll deeds := rfl

/-- All calls that were made so far. -/
def calls (o : Outline) : List Call :=
  (if o.alone then [] else [.startSequence]) ++ Tree.itemCalls o.items ++
    o.parts.reverse.flatMap Part.calls ++
    if o.finished && !o.alone then [.endSequence] else []

/-- The parts lie inside each other as they may, and none is open once nothing can follow. -/
structure Sound (o : Outline) : Prop where
  chain : Part.Chain o.parts
  settled : ∀ p ∈ o.parts.head?, p.awaitsList = false
  finished : o.finished = true → o.parts = []
  items : ∀ t ∈ o.items, t.IsItem
  single : o.alone = true →
    (o.finished = false → o.items = []) ∧ (o.finished = true → ∃ t, o.items = [t])

variable {o : Outline} {p : Part} {rest : List Part} {w : Write}

theorem sound_empty (alone : Bool) : Sound { alone } :=
  ⟨trivial, by simp, fun _ => rfl, by simp, fun _ => ⟨fun _ => rfl, nofun⟩⟩

theorem Sound.unfinished (h : o.Sound) (parts : o.parts = p :: rest) : o.finished = false := by
  cases finished : o.finished with
  | false => rfl
  | true => simp [h.finished finished] at parts

/-- No deed puts an array around the items, or takes it away. -/
theorem alone_after (o : Outline) (deed : Deed) : (o.after deed).alone = o.alone := by
  cases deed with
  | enter | finish => rfl
  | write => cases parts : o.parts <;> simp [after, parts]
  | leave => rcases parts : o.parts with _ | ⟨p, _ | _⟩ <;> simp [after, parts]

theorem alone_afterAll (o : Outline) (deeds : List Deed) : (o.afterAll deeds).alone = o.alone := by
  induction deeds generalizing o with
  | nil => rfl
  | cons deed deeds ih => rw [afterAll_cons, ih, alone_after]

/-! ## Deeds that keep an outline sound -/

/-- A part may be entered where it fits, with whatever it has written already. -/
theorem Sound.enter (h : o.Sound) (unfinished : o.finished = false) (fits : p.Fits (o.around p))
    (whole : p.awaitsList = false) : (o.after (.enter p)).Sound := by
  refine ⟨⟨fits, ?_⟩, by simpa [after] using whole, by simp [after, unfinished], h.items, h.single⟩
  have chain := h.chain
  unfold around
  split
  · split
    next parts => rwa [parts] at chain
    next => exact chain
  · exact chain

theorem calls_enter (unfinished : o.finished = false) :
    (o.after (.enter p)).calls = o.calls ++ p.calls := by
  have around : (o.around p).reverse.flatMap Part.calls = o.parts.reverse.flatMap Part.calls := by
    unfold Outline.around
    split
    · split
      next parts => simp [parts, Part.calls, Body.calls]
      next => rfl
    · rfl
  simp [calls, after, around, unfinished]

theorem Sound.write (h : o.Sound) (parts : o.parts = p :: rest)
    (takes : (w.entry p.scope).fits p.scope) : (o.after (.write w)).Sound := by
  have chain := h.chain
  rw [parts] at chain
  have run : o.after (.write w) = { o with parts := p.write (w.entry p.scope) :: rest } := by
    simp [after, parts]
  rw [run]
  exact ⟨⟨Part.fits_write takes chain.1, chain.2⟩, by simpa using Part.awaitsList_write takes,
    by simp [h.unfinished parts], h.items, h.single⟩

theorem calls_write (h : o.Sound) (parts : o.parts = p :: rest)
    (takes : (w.entry p.scope).fits p.scope) :
    (o.after (.write w)).calls = o.calls ++ (w.entry p.scope).calls p.scope := by
  simp [calls, after, parts, h.unfinished parts, Part.calls_write takes]

theorem Sound.leave (h : o.Sound) (parts : o.parts = p :: rest) : (o.after .leave).Sound := by
  have chain := h.chain
  have unfinished := h.unfinished parts
  rw [parts] at chain
  cases rest with
  | nil =>
      have run : o.after .leave = { o with
          items := o.items ++ [p.tree], parts := [], finished := o.alone } := by
        simp [after, parts, unfinished]
      rw [run]
      refine ⟨trivial, by simp, fun _ => rfl, ?_, ?_⟩
      · intro t mem
        rcases List.mem_append.mp mem with mem | mem
        · exact h.items t mem
        · rw [List.mem_singleton.mp mem]
          exact Part.isItem_tree chain.1
      · intro alone
        refine ⟨fun open' => absurd (alone.symm.trans open') nofun, fun _ => ⟨p.tree, ?_⟩⟩
        rw [(h.single alone).1 unfinished, List.nil_append]
  | cons outer rest =>
      have run : o.after .leave = { o with parts := outer.receive p :: rest } := by
        simp [after, parts]
      rw [run]
      exact ⟨⟨Part.fits_receive chain.1 chain.2.1, chain.2.2⟩,
        by simpa using Part.awaitsList_receive chain.1, by simp [unfinished], h.items, h.single⟩

theorem calls_leave (h : o.Sound) (parts : o.parts = p :: rest) :
    (o.after .leave).calls = o.calls ++ p.closing := by
  have chain := h.chain
  have unfinished := h.unfinished parts
  have whole := h.settled p (by simp [parts])
  rw [parts] at chain
  cases rest with
  | nil =>
      simp [calls, after, parts, unfinished, Tree.itemCalls_append, Tree.itemCalls,
        Part.calls_tree chain.1]
  | cons outer rest =>
      simp [calls, after, parts, unfinished, Part.calls_receive chain.1 whole]

/-- The document is finished where no part is open. -/
theorem Sound.finish (h : o.Sound) (document : o.alone = false) (parts : o.parts = []) :
    (o.after .finish).Sound :=
  ⟨h.chain, h.settled, fun _ => parts, h.items, fun alone => by simp [after, document] at alone⟩

theorem calls_finish (document : o.alone = false) (unfinished : o.finished = false) :
    (o.after .finish).calls = o.calls ++ [.endSequence] := by
  simp [calls, after, document, unfinished]

end Outline

end SceneStream
