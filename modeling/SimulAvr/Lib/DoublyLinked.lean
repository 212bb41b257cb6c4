import Mathlib.Data.List.Nodup
import Mathlib.Logic.Function.Basic
import Mathlib.Tactic.Common

/-!
# Doubly linked lists

A store gives the nodes that pointers point to.  `Linked store before l after` says that the
pointers of `l`, in order, are those of a segment of a doubly linked list, between the pointers
`before` and `after`.  A segment is linked exactly if its two parts are, each next to the other
(`linked_append`); its ends are linked to other nodes by `setNext` and `setPrev`, and a node is
taken out of a list by the two (`Linked.unlink`).
-/

namespace DoublyLinked

variable {π α : Type}

/-- A node: the pointers to the nodes before it and after it, and its data -/
structure Node (π α : Type) where
  prev : Option π
  next : Option π
  data : α

/-- The pointer to the first node of a segment that is followed by `after` -/
def first : List (π × α) → Option π → Option π
  | [], after => after
  | (p, _) :: _, _ => some p

/-- The pointer to the last node of a segment that `before` precedes -/
def last : Option π → List (π × α) → Option π
  | before, [] => before
  | _, (p, _) :: l => last (some p) l

/-- The nodes of a segment are linked, in order. -/
def Linked (store : π → Option (Node π α)) : Option π → List (π × α) → Option π → Prop
  | _, [], _ => True
  | before, (p, x) :: l, after =>
    store p = some { prev := before, next := first l after, data := x }
      ∧ Linked store (some p) l after

section

variable {store store' : π → Option (Node π α)} {before after : Option π} {l r : List (π × α)}

theorem first_append :
  first (l ++ r) after = first l (first r after)
  := by
  cases l with
  | nil => rfl
  | cons => rfl

theorem last_append :
  last before (l ++ r) = last (last before l) r
  := by
  induction l generalizing before with
  | nil => rfl
  | cons e l ih => exact ih

/-- The last node of a segment -/
theorem last_concat
    (e : π × α) :
  last before (l ++ [e]) = some e.1
  := last_append

/-- A segment in two parts -/
theorem linked_append :
  Linked store before (l ++ r) after
    ↔ Linked store before l (first r after) ∧ Linked store (last before l) r after
  := by
  induction l generalizing before with
  | nil => simp [Linked, last]
  | cons e l ih =>
    rw [List.cons_append, Linked, Linked, ih, first_append, last, and_assoc]

/-- A segment depends on its own nodes. -/
theorem Linked.congr
    (h : Linked store before l after) (heq : ∀ e ∈ l, store' e.1 = store e.1) :
  Linked store' before l after
  := by
  induction l generalizing before with
  | nil => trivial
  | cons e l ih =>
    rw [List.forall_mem_cons] at heq
    rw [Linked, heq.1]
    exact ⟨h.1, ih h.2 heq.2⟩

/-- The node at a place of a segment -/
theorem Linked.node
    {e : π × α} (h : Linked store before (l ++ e :: r) after) :
  store e.1 = some { prev := last before l, next := first r after, data := e.2 }
  := (linked_append.mp h).2.1

/-- A list is determined by the pointer to its first node. -/
theorem Linked.unique
    (hl : Linked store before l none) (hr : Linked store before r none)
    (hfirst : first l none = first r none) :
  l = r
  := by
  induction l generalizing before r with
  | nil =>
    cases r with
    | nil => rfl
    | cons => contradiction
  | cons e l ih =>
    cases r with
    | nil => contradiction
    | cons e' r =>
      obtain ⟨p, x⟩ := e
      obtain ⟨p', x'⟩ := e'
      obtain rfl : p = p' := Option.some.inj hfirst
      obtain ⟨hnode, hrest⟩ := hl
      obtain ⟨hnode', hrest'⟩ := hr
      rw [hnode] at hnode'
      simp only [Option.some.injEq, Node.mk.injEq] at hnode'
      obtain ⟨-, hnext, rfl⟩ := hnode'
      rw [ih hrest hrest' hnext]

/-- The pointer to the last node of a segment is one of its pointers. -/
theorem mem_of_last
    {p : π} (h : last none l = some p) :
  p ∈ l.map Prod.fst
  := by
  rcases List.eq_nil_or_concat l with rfl | ⟨l, e, rfl⟩
  · contradiction
  · rw [List.concat_eq_append, last_concat] at h
    rw [← Option.some.inj h]
    simp

/-- The pointer to the first node of a segment is one of its pointers. -/
theorem mem_of_first
    {p : π} (h : first l none = some p) :
  p ∈ l.map Prod.fst
  := by
  cases l with
  | nil => contradiction
  | cons e l =>
    rw [← Option.some.inj h]
    exact List.mem_cons_self

end

/-! ### Links -/

variable [DecidableEq π]

/-- The pointer to the next node is set, of the node that a pointer points to, if any. -/
def setNext (store : π → Option (Node π α)) : Option π → Option π → π → Option (Node π α)
  | none, _ => store
  | some p, q => Function.update store p ((store p).map fun node => { node with next := q })

/-- The pointer to the previous node is set, of the node that a pointer points to, if any. -/
def setPrev (store : π → Option (Node π α)) : Option π → Option π → π → Option (Node π α)
  | none, _ => store
  | some p, q => Function.update store p ((store p).map fun node => { node with prev := q })

variable {store : π → Option (Node π α)} {before after : Option π} {l r : List (π × α)}

theorem setNext_of_ne
    {p : Option π} {a : π} (h : p ≠ some a) (q : Option π) :
  setNext store p q a = store a
  := by
  cases p with
  | none => rfl
  | some p => exact Function.update_of_ne (fun heq => h (congrArg some heq.symm)) _ _

theorem setPrev_of_ne
    {p : Option π} {a : π} (h : p ≠ some a) (q : Option π) :
  setPrev store p q a = store a
  := by
  cases p with
  | none => rfl
  | some p => exact Function.update_of_ne (fun heq => h (congrArg some heq.symm)) _ _

/-- No node is added by a link. -/
theorem setNext_eq_none_iff
    {p q : Option π} {a : π} :
  setNext store p q a = none ↔ store a = none
  := by
  cases p with
  | none => rfl
  | some p =>
    rw [setNext, Function.update_apply]
    split
    · next heq => rw [heq, Option.map_eq_none_iff]
    · rfl

theorem setPrev_eq_none_iff
    {p q : Option π} {a : π} :
  setPrev store p q a = none ↔ store a = none
  := by
  cases p with
  | none => rfl
  | some p =>
    rw [setPrev, Function.update_apply]
    split
    · next heq => rw [heq, Option.map_eq_none_iff]
    · rfl

/-- The last node of a segment is linked to another one. -/
theorem Linked.setNext
    (h : Linked store none l after) (hl : (l.map Prod.fst).Nodup) (q : Option π) :
  Linked (setNext store (last none l) q) none l q
  := by
  rcases List.eq_nil_or_concat l with rfl | ⟨l, e, rfl⟩
  · trivial
  · rw [List.concat_eq_append] at h hl ⊢
    have hnode := h.node
    obtain ⟨hinit, -⟩ := linked_append.mp h
    rw [last_concat, linked_append]
    constructor
    · apply hinit.congr
      intro e' he'
      apply setNext_of_ne
      rw [List.map_append, List.nodup_append] at hl
      intro heq
      exact hl.2.2 e'.1 (List.mem_map_of_mem he') e.1 List.mem_cons_self (Option.some.inj heq).symm
    · refine ⟨?_, trivial⟩
      rw [DoublyLinked.setNext, Function.update_self, hnode]
      rfl

/-- The first node of a segment is linked to another one. -/
theorem Linked.setPrev
    (h : Linked store before r none) (hr : (r.map Prod.fst).Nodup) (q : Option π) :
  Linked (setPrev store (first r none) q) q r none
  := by
  cases r with
  | nil => trivial
  | cons e r =>
    obtain ⟨hnode, hrest⟩ := h
    rw [List.map_cons, List.nodup_cons] at hr
    constructor
    · rw [first, DoublyLinked.setPrev, Function.update_self, hnode]
      rfl
    · apply hrest.congr
      intro e' he'
      apply setPrev_of_ne
      intro heq
      rw [Option.some.inj heq] at hr
      exact hr.1 (List.mem_map_of_mem he')

/-- A node is taken out of a list. -/
theorem Linked.unlink
    {e : π × α} (h : Linked store none (l ++ e :: r) none)
    (hnodup : ((l ++ e :: r).map Prod.fst).Nodup) :
  Linked (DoublyLinked.setPrev (DoublyLinked.setNext store (last none l) (first r none))
    (first r none) (last none l)) none (l ++ r) none
  := by
  obtain ⟨hl, -, hr⟩ := linked_append.mp h
  rw [List.map_append, List.map_cons, List.nodup_append, List.nodup_cons] at hnodup
  obtain ⟨hlnodup, ⟨-, hrnodup⟩, hdisjoint⟩ := hnodup
  rw [linked_append]
  constructor
  · apply (hl.setNext hlnodup (first r none)).congr
    intro e' he'
    apply setPrev_of_ne
    intro hfirst
    exact hdisjoint e'.1 (List.mem_map_of_mem he') e'.1
      (List.mem_cons_of_mem _ (mem_of_first hfirst)) rfl
  · apply Linked.setPrev _ hrnodup
    · exact some e.1
    · apply hr.congr
      intro e' he'
      apply setNext_of_ne
      intro hlast
      exact hdisjoint e'.1 (mem_of_last hlast) e'.1
        (List.mem_cons_of_mem _ (List.mem_map_of_mem he')) rfl

/-- A new node is put after a list. -/
theorem Linked.concat
    (h : Linked store none l none) (hl : (l.map Prod.fst).Nodup) {q : π} (hq : q ∉ l.map Prod.fst)
    (x : α) :
  Linked (DoublyLinked.setPrev (DoublyLinked.setNext
      (Function.update store q (some { prev := none, next := none, data := x }))
      (last none l) (some q)) (some q) (last none l)) none (l ++ [(q, x)]) none
  := by
  have hne (e : π × α) (he : e ∈ l) : e.1 ≠ q := by
    rintro rfl
    exact hq (List.mem_map_of_mem he)
  rw [linked_append]
  constructor
  · have hnew := h.congr fun e he =>
      Function.update_of_ne (hne e he) (some { prev := none, next := none, data := x }) store
    apply (hnew.setNext hl (some q)).congr
    intro e he
    apply setPrev_of_ne
    exact fun heq => hne e he (Option.some.inj heq).symm
  · have hnode : DoublyLinked.setNext (Function.update store q
        (some { prev := none, next := none, data := x })) (last none l) (some q) q
        = some { prev := none, next := none, data := x } := by
      rw [setNext_of_ne fun hlast => hq (mem_of_last hlast)]
      exact Function.update_self _ _ _
    have hlinked : Linked _ none [(q, x)] none := ⟨hnode, trivial⟩
    exact hlinked.setPrev (List.nodup_singleton q) _

/-- A new node is put before a list. -/
theorem Linked.cons
    (h : Linked store none l none) (hl : (l.map Prod.fst).Nodup) {q : π} (hq : q ∉ l.map Prod.fst)
    (x : α) :
  Linked (DoublyLinked.setNext (DoublyLinked.setPrev
      (Function.update store q (some { prev := none, next := none, data := x }))
      (first l none) (some q)) (some q) (first l none)) none ((q, x) :: l) none
  := by
  have hne (e : π × α) (he : e ∈ l) : e.1 ≠ q := by
    rintro rfl
    exact hq (List.mem_map_of_mem he)
  constructor
  · have hnode : DoublyLinked.setPrev (Function.update store q
        (some { prev := none, next := none, data := x })) (first l none) (some q) q
        = some { prev := none, next := none, data := x } := by
      rw [setPrev_of_ne fun hfirst => hq (mem_of_first hfirst)]
      exact Function.update_self _ _ _
    rw [DoublyLinked.setNext, Function.update_self, hnode]
    rfl
  · have hnew := h.congr fun e he =>
      Function.update_of_ne (hne e he) (some { prev := none, next := none, data := x }) store
    apply (hnew.setPrev hl (some q)).congr
    intro e he
    apply setNext_of_ne
    exact fun heq => hne e he (Option.some.inj heq).symm

end DoublyLinked
