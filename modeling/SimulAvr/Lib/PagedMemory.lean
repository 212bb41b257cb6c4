import Mathlib.Logic.Function.Basic
import Mathlib.Data.List.Basic

/-!
# Memories that are programmed by the page

A memory of pages is programmed through a buffer with a word for every offset in a page.  An
erase sets the words of a page to `ones`, a fill sets a word of the buffer, and a write makes
every word of a page the conjunction of itself and the word of the buffer at its offset.  A
page that is erased, and then written after all words of the buffer have been filled, holds
the words that were filled in last (`run_program`).
-/

namespace PagedMemory

variable {α β π ω : Type}

/-- The page and the offset of an address. -/
structure Geometry (α β π : Type) where
  page : α → π
  offset : α → β

/-- The memory and the buffer. -/
@[ext]
structure State (α β ω : Type) where
  image : α → ω
  buffer : β → ω

/-- An operation. -/
inductive Op (β π ω : Type) where
  | erase (p : π)
  | fill (i : β) (w : ω)
  /-- Fill the buffer with `ones`. -/
  | clear
  | write (p : π)

section

variable [AndOp ω] [DecidableEq β] [DecidableEq π]

/-- The effect of an operation. -/
def Op.apply (g : Geometry α β π) (ones : ω) (s : State α β ω) : Op β π ω → State α β ω
  | erase p => { s with image := fun a => if g.page a = p then ones else s.image a }
  | fill i w => { s with buffer := Function.update s.buffer i w }
  | clear => { s with buffer := fun _ => ones }
  | write p =>
    { s with image := fun a =>
        if g.page a = p then s.image a &&& s.buffer (g.offset a) else s.image a }

/-- The effect of operations, one after the other. -/
def run (g : Geometry α β π) (ones : ω) (ops : List (Op β π ω)) (s : State α β ω) :
    State α β ω :=
  ops.foldl (Op.apply g ones) s

variable (g : Geometry α β π) (ones : ω)

@[simp]
theorem run_cons
    (op : Op β π ω) (ops : List (Op β π ω)) (s : State α β ω) :
  run g ones (op :: ops) s = run g ones ops (op.apply g ones s)
  := rfl

theorem run_append
    (ops ops' : List (Op β π ω)) (s : State α β ω) :
  run g ones (ops ++ ops') s = run g ones ops' (run g ones ops s)
  := by
  apply List.foldl_append

end

/-- The word that is filled in last at an offset. -/
def FilledLast (fills : List (β × ω)) (i : β) (w : ω) : Prop :=
  ∃ before after, fills = before ++ (i, w) :: after ∧ ∀ f ∈ after, f.1 ≠ i

/-- The words that are filled in last, in another representation. -/
theorem FilledLast.map
    {fills : List (β × ω)} {i : β} {w : ω} (h : FilledLast fills i w) {ω' : Type} (f : ω → ω') :
  FilledLast (fills.map (Prod.map id f)) i (f w)
  := by
  obtain ⟨before, after, rfl, hafter⟩ := h
  use before.map (Prod.map id f), after.map (Prod.map id f)
  constructor
  · rw [List.map_append, List.map_cons]
    rfl
  · rw [List.forall_mem_map]
    apply hafter

variable [AndOp ω] [DecidableEq β] [DecidableEq π] (g : Geometry α β π) (ones : ω)

/-- Fills of other words of the buffer, which leave the memory. -/
theorem run_fills_of_ne
    {fills : List (β × ω)} {i : β} (h : ∀ f ∈ fills, f.1 ≠ i) (s : State α β ω) :
  (run g ones (fills.map fun f => .fill f.1 f.2) s).buffer i = s.buffer i
  := by
  induction fills generalizing s with
  | nil => rfl
  | cons f fills ih =>
    obtain ⟨hne, hfills⟩ := List.forall_mem_cons.mp h
    rw [List.map_cons, run_cons, ih hfills]
    apply Function.update_of_ne hne.symm

/-- Fills leave the memory. -/
theorem run_fills_image
    (fills : List (β × ω)) (s : State α β ω) :
  (run g ones (fills.map fun f => .fill f.1 f.2) s).image = s.image
  := by
  induction fills generalizing s with
  | nil => rfl
  | cons f fills ih =>
    rw [List.map_cons, run_cons, ih]
    rfl

/-- The last fill of a word counts. -/
theorem run_fills_buffer
    {fills : List (β × ω)} {i : β} {w : ω} (h : FilledLast fills i w) (s : State α β ω) :
  (run g ones (fills.map fun f => .fill f.1 f.2) s).buffer i = w
  := by
  obtain ⟨before, after, rfl, hafter⟩ := h
  rw [List.map_append, run_append, List.map_cons, run_cons, run_fills_of_ne g ones hafter]
  apply Function.update_self

/-- A page that is erased and written holds what was filled in last, and the other pages are
left. -/
theorem run_program
    (hones : ∀ w : ω, ones &&& w = w) (p : π) {fills : List (β × ω)} {data : β → ω}
    (hdata : ∀ i, FilledLast fills i (data i)) (s : State α β ω) :
  (run g ones (.erase p :: fills.map (fun f => .fill f.1 f.2) ++ [.write p]) s).image =
    fun a => if g.page a = p then data (g.offset a) else s.image a
  := by
  rw [run_append, run_cons, run_cons]
  funext a
  change (if g.page a = p then _ &&& _ else _) = _
  rw [run_fills_image, run_fills_buffer g ones (hdata _)]
  change (if g.page a = p then (if g.page a = p then ones else _) &&& _ else if _ then _ else _) = _
  split
  · apply hones
  · rfl

/-! ### Words of the buffer that have not been filled -/

/-- The words of the buffer that have been filled since the last write or clear, after an
operation -/
def Op.mark (filled : β → Prop) : Op β π ω → β → Prop
  | erase _ => filled
  | fill i _ => fun j => j = i ∨ filled j
  | clear => fun _ => False
  | write _ => fun _ => False

/-- Every write changes only words whose word of the buffer has been filled. -/
def Contained : (filled : β → Prop) → List (Op β π ω) → State α β ω → Prop
  | _, [], _ => True
  | filled, op :: ops, s =>
    ((∃ p, op = .write p) → ∀ a, ¬ filled (g.offset a) → (op.apply g ones s).image a = s.image a)
      ∧ Contained (op.mark filled) ops (op.apply g ones s)

/-- At every write, a word of the buffer that has not been filled has all the ones of the words of
the page at its offset. -/
def Covering : (filled : β → Prop) → List (Op β π ω) → State α β ω → Prop
  | _, [], _ => True
  | filled, op :: ops, s =>
    (∀ p, op = .write p → ∀ a, g.page a = p → ¬ filled (g.offset a) →
        s.image a &&& s.buffer (g.offset a) = s.image a)
      ∧ Covering (op.mark filled) ops (op.apply g ones s)

/-- Before every write, and after the one before it, the buffer is cleared. -/
def ClearedBefore : (cleared : Prop) → List (Op β π ω) → Prop
  | _, [] => True
  | _, .clear :: ops => ClearedBefore True ops
  | cleared, .write _ :: ops => cleared ∧ ClearedBefore False ops
  | cleared, _ :: ops => ClearedBefore cleared ops

theorem contained_iff
    (filled : β → Prop) (ops : List (Op β π ω)) (s : State α β ω) :
  Contained g ones filled ops s ↔ Covering g ones filled ops s
  := by
  induction ops generalizing filled s with
  | nil => exact Iff.rfl
  | cons op ops ih =>
    rw [Contained, Covering, ih]
    apply and_congr_left'
    constructor
    · rintro h p rfl a ha hfilled
      have heq := h ⟨p, rfl⟩ a hfilled
      change (if g.page a = p then _ else _) = _ at heq
      rwa [if_pos ha] at heq
    · rintro h ⟨p, rfl⟩ a hfilled
      change (if g.page a = p then _ else _) = _
      split
      · next ha => exact h p rfl a ha hfilled
      · rfl

/-- A buffer that is cleared before every write covers all words. -/
theorem covering_of_cleared
    (hones : ∀ w : ω, w &&& ones = w) {filled : β → Prop} {cleared : Prop}
    {ops : List (Op β π ω)} (hops : ClearedBefore cleared ops) {s : State α β ω}
    (hs : cleared → ∀ i, ¬ filled i → s.buffer i = ones) :
  Covering g ones filled ops s
  := by
  induction ops generalizing filled cleared s with
  | nil => trivial
  | cons op ops ih =>
    cases op with
    | erase p =>
      refine ⟨nofun, ih hops hs⟩
    | fill i w =>
      refine ⟨nofun, ih hops ?_⟩
      intro hcleared j hj
      rw [Op.mark, not_or] at hj
      exact (Function.update_of_ne hj.1 w s.buffer).trans (hs hcleared j hj.2)
    | clear =>
      exact ⟨nofun, ih hops fun _ _ _ => rfl⟩
    | write p =>
      obtain ⟨hcleared, hops⟩ := hops
      refine ⟨?_, ih hops False.elim⟩
      intro _ _ a _ hfilled
      rw [hs hcleared _ hfilled, hones]

end PagedMemory
