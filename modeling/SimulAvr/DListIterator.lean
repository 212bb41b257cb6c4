import SimulAvr.DList

/-!
# The iterator of the doubly linked list

`dlist_iterator` calls a function on every element and removes the elements for which it returns a
value that is not zero.  The step to the next node comes after the removal, and reads the node that
has been removed: the iterator does what it says exactly if nothing is removed
(`dlist_iterator_iff`).
-/

namespace SimulAvr

open Program DoublyLinked

/-- `DListFP_Iter`, as a function of the element and of the user data, which it may change -/
abbrev DListFPIter (α σ : Type) : Type :=
  α → σ → Int × σ

section

variable {α σ : Type}

/-! ### The function -/

/-- `dlist_iterator_cmp`: the difference of two pointers, in classes of a size, as an `int` -/
def dlistIteratorCmp (size : Int) (addr : α → Int) : DListFPCmp α :=
  fun n1 n2 => (BitVec.ofInt 32 ((addr n1 - addr n2).tdiv size)).toInt

/-- The head after a call of the function has returned: `dlist_delete` if it is not zero -/
def dlistIteratorDelete (cmp : DListFPCmp α) (fuel : Nat) (head : Option Ptr) (data : α)
    (ret : Int) : DListM α (Option Ptr) :=
  if ret ≠ 0 then dlistDelete fuel head data (some cmp) else return head

/-- The loop of `dlist_iterator`, from a node on, with the steps of `dlist_delete` -/
def dlistIteratorLoop (cmp : DListFPCmp α) (steps : Nat) (func : DListFPIter α σ) :
    (fuel : Nat) → (head node : Option Ptr) → (userData : σ) → DListM α (Option Ptr × σ)
  | _, head, none, userData => return (head, userData)
  | 0, _, some _, _ => throw .fuel
  | fuel + 1, head, some node, userData => do
    let fields ← readNode node
    let head ← dlistIteratorDelete cmp steps head fields.data (func fields.data userData).1
    let fields' ← readNode node
    dlistIteratorLoop cmp steps func fuel head fields'.next (func fields.data userData).2

/-- `dlist_iterator` -/
def dlistIterator (size : Int) (addr : α → Int) (fuel : Nat) (head : Option Ptr)
    (func : Option (DListFPIter α σ)) (userData : σ) : DListM α (Option Ptr × σ) :=
  match func with
  | none => throw (.message "no iteration func supplied")
  | some func =>
    dlistIteratorLoop (dlistIteratorCmp size addr) fuel func fuel head head userData

/-! ### The calls -/

namespace DListFPIter

/-- What the function returns, called on every element once, in order -/
def returned (func : DListFPIter α σ) : σ → List α → List Int
  | _, [] => []
  | userData, x :: xs => (func x userData).1 :: returned func (func x userData).2 xs

/-- The elements for which the function returns zero -/
def kept (func : DListFPIter α σ) : σ → List α → List α
  | _, [] => []
  | userData, x :: xs =>
    if (func x userData).1 = 0 then x :: kept func (func x userData).2 xs
    else kept func (func x userData).2 xs

/-- The user data after the calls -/
def userDataAfter (func : DListFPIter α σ) (userData : σ) (xs : List α) : σ :=
  xs.foldl (fun userData x => (func x userData).2) userData

variable {func : DListFPIter α σ} {userData : σ} {xs : List α}

/-- Nothing is removed. -/
theorem kept_eq_self
    (h : ∀ ret ∈ func.returned userData xs, ret = 0) :
  func.kept userData xs = xs
  := by
  induction xs generalizing userData with
  | nil => rfl
  | cons x xs ih =>
    rw [returned, List.forall_mem_cons] at h
    rw [kept, if_pos h.1, ih h.2]

end DListFPIter

variable {func : DListFPIter α σ} {userData userData' : σ} {heap heap' : Heap α}
  {head head' : Option Ptr} {l l' r : List (Ptr × α)} {cmp : DListFPCmp α} {steps fuel : Nat}

/-- An element has the pointer of its data. -/
theorem dlistIteratorCmp_self
    (size : Int) (addr : α → Int) (x : α) :
  dlistIteratorCmp size addr x x = 0
  := by
  rw [dlistIteratorCmp, Int.sub_self, Int.zero_tdiv]
  rfl

/-- The nodes in memory are those of one list. -/
theorem Listed.unique
    (h : Listed heap head l) (h' : Listed heap head l') :
  l = l'
  := h.linked.unique h'.linked (h.head.symm.trans h'.head)

/-- The loop, where nothing is removed -/
theorem Listed.iteratorLoop_keeps
    (h : Listed heap head (l ++ r))
    (hzero : ∀ ret ∈ func.returned userData (r.map Prod.snd), ret = 0)
    (hfuel : r.length ≤ fuel) :
  (dlistIteratorLoop cmp steps func fuel head (first r none) userData).run heap
    = .ok ((head, func.userDataAfter userData (r.map Prod.snd)), heap)
  := by
  induction r generalizing l userData fuel with
  | nil =>
    cases fuel with
    | zero => rfl
    | succ => rfl
  | cons e r ih =>
    cases fuel with
    | zero => contradiction
    | succ fuel =>
      have hnode := h.linked.node
      rw [List.map_cons, DListFPIter.returned, List.forall_mem_cons] at hzero
      rw [first, dlistIteratorLoop, run_bind_of_ok (run_readNode hnode), dlistIteratorDelete,
        if_neg (not_not.mpr hzero.1), run_bind_of_ok rfl, run_bind_of_ok (run_readNode hnode)]
      rw [List.append_cons] at h
      exact ih h hzero.2 (Nat.le_of_succ_le_succ hfuel)

/-- What the first match of a removal at a node is: an earlier node, or the node itself -/
theorem eraseP_middle
    {β : Type} {p : β → Bool} {x : β} (hx : p x = true) (l r : List β) :
  (∃ l₁ y l₂, l = l₁ ++ y :: l₂ ∧ (l ++ x :: r).eraseP p = l₁ ++ l₂ ++ x :: r)
    ∨ (l ++ x :: r).eraseP p = l ++ r
  := by
  by_cases hany : ∃ y ∈ l, p y = true
  · obtain ⟨z, hz, hpz⟩ := hany
    obtain ⟨y, l₁, l₂, -, -, hl, herase⟩ := List.exists_of_eraseP hz hpz
    apply Or.inl
    use l₁, y, l₂, hl
    rw [List.eraseP_append_left hpz _ hz, herase]
  · apply Or.inr
    rw [List.eraseP_append_right _ fun y hy hpy => hany ⟨y, hy, hpy⟩, List.eraseP_cons_of_pos hx]

/-- A step of the loop that returns: nothing is removed, or a node before the one that the function
was called for -/
theorem Listed.iteratorLoop_step
    {e : Ptr × α} {ret : (Option Ptr × σ) × Heap α} (h : Listed heap head (l ++ e :: r))
    (hcmp : ∀ x, cmp x x = 0) (hsteps : (l ++ e :: r).length ≤ steps)
    (hrun : (dlistIteratorLoop cmp steps func fuel head (some e.1) userData).run heap = .ok ret) :
  ∃ fuel₁ heap₁ head₁ l₀, Listed heap₁ head₁ (l₀ ++ e :: r)
    ∧ (dlistIteratorLoop cmp steps func fuel₁ head₁ (first r none) (func e.2 userData).2).run heap₁
      = .ok ret
    ∧ ((func e.2 userData).1 = 0 ∧ l₀ = l
      ∨ (func e.2 userData).1 ≠ 0 ∧ ∃ l₁ y l₂, l = l₁ ++ y :: l₂ ∧ l₀ = l₁ ++ l₂)
  := by
  cases fuel with
  | zero => contradiction
  | succ fuel =>
    rw [dlistIteratorLoop, run_bind_of_ok (run_readNode h.linked.node)] at hrun
    by_cases hret : (func e.2 userData).1 ≠ 0
    · rw [dlistIteratorDelete, if_pos hret] at hrun
      obtain ⟨heap₁, head₁, hdelete, hlisted, -⟩ := h.dlistDelete e.2 cmp hsteps
      rw [run_bind_of_ok hdelete] at hrun
      rcases eraseP_middle (p := fun e' => cmp e'.2 e.2 = 0) (decide_eq_true (hcmp e.2)) l r with
        ⟨l₁, y, l₂, hl, herase⟩ | herase
      · rw [herase] at hlisted
        rw [run_bind_of_ok (run_readNode hlisted.linked.node)] at hrun
        exact ⟨fuel, heap₁, head₁, l₁ ++ l₂, hlisted, hrun, .inr ⟨hret, l₁, y, l₂, hl, rfl⟩⟩
      · -- the node itself has been removed, so that the read of its next node fails
        rw [herase] at hlisted
        rw [run_bind_eq_ok] at hrun
        obtain ⟨fields, _, hread, -⟩ := hrun
        have hfreed : heap₁.nodes e.1 = none := by
          by_contra hin
          have hmem := hlisted.all e.1 hin
          have hnodup := h.nodup
          rw [List.map_append, List.map_cons, List.nodup_middle, List.nodup_cons,
            ← List.map_append] at hnodup
          exact hnodup.1 hmem
        rw [run_readNode_none hfreed] at hread
        contradiction
    · rw [dlistIteratorDelete, if_neg hret, run_bind_of_ok rfl,
        run_bind_of_ok (run_readNode h.linked.node)] at hrun
      exact ⟨fuel, heap, head, l, h, hrun, .inl ⟨not_not.mp hret, rfl⟩⟩

/-- The loop that has passed all nodes returns the head. -/
theorem iteratorLoop_none
    {ret : (Option Ptr × σ) × Heap α}
    (hrun : (dlistIteratorLoop cmp steps func fuel head none userData).run heap = .ok ret) :
  ret = ((head, userData), heap)
  := by
  cases fuel with
  | zero => exact (Except.ok.inj hrun).symm
  | succ => exact (Except.ok.inj hrun).symm

/-- The loop adds no node. -/
theorem Listed.iteratorLoop_sublist
    (h : Listed heap head (l ++ r)) (hcmp : ∀ x, cmp x x = 0) (hsteps : (l ++ r).length ≤ steps)
    (hrun : (dlistIteratorLoop cmp steps func fuel head (first r none) userData).run heap
      = .ok ((head', userData'), heap')) :
  ∃ l', Listed heap' head' l' ∧ l'.Sublist (l ++ r)
  := by
  induction r generalizing l userData fuel heap head with
  | nil =>
    cases iteratorLoop_none hrun
    exact ⟨_, h, List.Sublist.refl _⟩
  | cons e r ih =>
    obtain ⟨fuel₁, heap₁, head₁, l₀, hlisted, hrun₁, hl₀⟩ := h.iteratorLoop_step hcmp hsteps hrun
    have hsub : l₀.Sublist l := by
      rcases hl₀ with ⟨-, rfl⟩ | ⟨-, l₁, y, l₂, rfl, rfl⟩
      · exact List.Sublist.refl _
      · exact (List.sublist_cons_self y l₂).append_left l₁
    have hsub' := hsub.append_right (e :: r)
    have hle := Nat.le_trans hsub'.length_le hsteps
    rw [List.append_cons] at hlisted hle
    obtain ⟨l', hlisted', hl'⟩ := ih hlisted hle hrun₁
    rw [← List.append_cons] at hl'
    exact ⟨l', hlisted', hl'.trans hsub'⟩

/-- Where the function does not return zero for an element, the loop does not return the list of
those for which it does. -/
theorem Listed.iteratorLoop_wrong
    (h : Listed heap head (l ++ r)) (hdistinct : ((l ++ r).map Prod.snd).Nodup)
    (hcmp : ∀ x, cmp x x = 0) (hsteps : (l ++ r).length ≤ steps)
    (hne : ¬ ∀ ret ∈ func.returned userData (r.map Prod.snd), ret = 0)
    (hrun : (dlistIteratorLoop cmp steps func fuel head (first r none) userData).run heap
      = .ok ((head', userData'), heap'))
    (hl' : Listed heap' head' l') :
  l'.map Prod.snd ≠ l.map Prod.snd ++ func.kept userData (r.map Prod.snd)
  := by
  induction r generalizing l userData fuel heap head with
  | nil => exact absurd (List.forall_mem_nil _) hne
  | cons e r ih =>
    obtain ⟨fuel₁, heap₁, head₁, l₀, hlisted, hrun₁, ⟨hzero, rfl⟩ | ⟨-, l₁, y, l₂, rfl, rfl⟩⟩ :=
      h.iteratorLoop_step hcmp hsteps hrun
    · rw [List.map_cons, DListFPIter.returned, List.forall_mem_cons] at hne
      have hrest := fun hall => hne ⟨hzero, hall⟩
      rw [List.append_cons] at hlisted hdistinct hsteps
      have hwrong := ih hlisted hdistinct hsteps hrest hrun₁
      rw [List.map_append, List.append_assoc] at hwrong
      rw [List.map_cons, DListFPIter.kept, if_pos hzero]
      exact hwrong
    · -- the element `y` has been removed, for which the function has returned zero
      intro heq
      have hle : (l₁ ++ l₂ ++ [e] ++ r).length ≤ steps := by
        simp only [List.length_append, List.length_cons] at hsteps ⊢
        simp only [List.length_nil]
        omega
      rw [List.append_cons] at hlisted
      obtain ⟨l'', hlisted', hsub⟩ := hlisted.iteratorLoop_sublist hcmp hle hrun₁
      rw [hl'.unique hlisted'] at heq
      have hmem : y.2 ∈ l''.map Prod.snd := by
        rw [heq, List.map_append, List.map_cons]
        simp
      have hmem' := (hsub.map Prod.snd).subset hmem
      rw [← List.append_cons, List.append_assoc] at hmem'
      rw [List.append_assoc, List.cons_append, List.map_append, List.map_cons, List.nodup_middle,
        List.nodup_cons, ← List.map_append] at hdistinct
      exact hdistinct.1 hmem'

/-- The iterator calls the function once on every element, in order, reads no node that is not in
memory, and returns the list of the elements for which the function returns zero. -/
def IteratorLaw (size : Int) (addr : α → Int) (fuel : Nat) (func : DListFPIter α σ) (userData : σ)
    (heap : Heap α) (head : Option Ptr) (l : List (Ptr × α)) : Prop :=
  ∃ heap' head' l', (dlistIterator size addr fuel head (some func) userData).run heap
      = .ok ((head', func.userDataAfter userData (l.map Prod.snd)), heap')
    ∧ Listed heap' head' l' ∧ l'.map Prod.snd = func.kept userData (l.map Prod.snd)

/-- For every list with distinct data pointers and every function, the iterator does what it says
exactly if the function returns zero for every element. -/
theorem dlist_iterator_iff
    (size : Int) (addr : α → Int) (func : DListFPIter α σ) (userData : σ) (h : Listed heap head l)
    (hdistinct : (l.map fun e => addr e.2).Nodup) (hfuel : l.length ≤ fuel) :
  IteratorLaw size addr fuel func userData heap head l
    ↔ ∀ ret ∈ func.returned userData (l.map Prod.snd), ret = 0
  := by
  have hcmp := dlistIteratorCmp_self size addr
  have hfirst := h.head
  constructor
  · rintro ⟨heap', head', l', hrun, hlisted, helems⟩
    by_contra hne
    have hdata : (l.map Prod.snd).Nodup := by
      have hmap : (l.map Prod.snd).map addr = l.map fun e => addr e.2 := List.map_map
      rw [← hmap] at hdistinct
      exact hdistinct.of_map
    rw [dlistIterator, hfirst] at hrun
    rw [hfirst] at h
    exact Listed.iteratorLoop_wrong (l := []) h hdata hcmp hfuel hne hrun hlisted helems
  · intro hzero
    refine ⟨heap, head, l, ?_, h, (DListFPIter.kept_eq_self hzero).symm⟩
    have hrun := @Listed.iteratorLoop_keeps _ _ _ _ _ _ [] _ (dlistIteratorCmp size addr) fuel _
      h hzero hfuel
    rw [← hfirst] at hrun
    exact hrun

/-- A list of the elements 16 and 32, which are their own pointers -/
def twoNodes : Heap Int where
  nodes p :=
    if p = 0 then some { prev := none, next := some 1, data := 16 }
    else if p = 1 then some { prev := some 0, next := none, data := 32 }
    else none
  unrefs := []

theorem twoNodes_listed :
  Listed twoNodes (some 0) [(0, 16), (1, 32)]
  := by
  constructor
  · decide
  · rfl
  · exact ⟨rfl, rfl, trivial⟩
  · intro p hp
    by_contra hmem
    apply hp
    simp only [List.map_cons, List.map_nil, List.mem_cons, List.not_mem_nil, or_false, not_or] at hmem
    change (if p = 0 then _ else if p = 1 then _ else none) = none
    rw [if_neg hmem.1, if_neg hmem.2]

/-- The first element removes itself: the iterator reads the node that has been unreferenced. -/
theorem dlist_iterator_freed :
  (dlistIterator 16 id 2 (some 0) (some fun (x : Int) (calls : List Int) =>
      (if x = 16 then 1 else 0, calls ++ [x])) []).run twoNodes = .error (.badPointer 0)
    ∧ ¬ IteratorLaw 16 id 2 (fun (x : Int) (calls : List Int) =>
      (if x = 16 then 1 else 0, calls ++ [x])) [] twoNodes (some 0) [(0, 16), (1, 32)]
  := by
  have hrun : (dlistIterator 16 id 2 (some 0) (some fun (x : Int) (calls : List Int) =>
      (if x = 16 then 1 else 0, calls ++ [x])) []).run twoNodes = .error (.badPointer 0) := rfl
  use hrun
  rintro ⟨heap', head', l', hok, -⟩
  rw [hrun] at hok
  contradiction

/-- A function that returns zero is called for 16 and for 32. -/
theorem dlist_iterator_calls :
  IteratorLaw 16 id 2 (fun (x : Int) (calls : List Int) => (0, calls ++ [x])) [] twoNodes (some 0)
    [(0, 16), (1, 32)]
  := by
  apply (dlist_iterator_iff 16 id _ [] twoNodes_listed (by decide) (by decide)).mpr
  decide

end

end SimulAvr
