import Mathlib.Data.Set.Finite.List
import SimulAvr.Lib.DoublyLinked
import SimulAvr.Lib.Program

/-!
# The doubly linked list

The functions of `DList` on a memory of nodes, in which a field of a node can be read and written
while the node has not been unreferenced.  From the empty list, they do what the operations on a
list of elements do (`dlist_refines`): `dlist_add` appends, or does nothing if `cmp` finds an equal
element, `dlist_add_head` prepends, `dlist_delete` removes the first element that `cmp` finds, and
`dlist_lookup` returns it.
-/

namespace SimulAvr

open Program DoublyLinked

/-- A pointer to a node that is not `NULL` -/
abbrev Ptr : Type := Nat

/-- `DListFP_Cmp`, as a function of the elements -/
abbrev DListFPCmp (α : Type) : Type :=
  α → α → Int

/-- The nodes in memory, and the elements that `class_unref` has been called for, in order -/
structure Heap (α : Type) where
  nodes : Ptr → Option (Node Ptr α)
  unrefs : List α

/-- How a function of `DList` may fail -/
inductive DListError where
  /-- A field of a node that is not in memory is read or written. -/
  | badPointer (p : Ptr)
  /-- `avr_error` -/
  | message (text : String)
  /-- A loop takes more steps than it may. -/
  | fuel

/-- A function of `DList` -/
abbrev DListM (α β : Type) : Type :=
  Program (Heap α) DListError β

section

variable {α : Type}

/-! ### Nodes -/

/-- The fields of a node -/
def readNode (p : Ptr) : DListM α (Node Ptr α) :=
  fun heap =>
    match heap.nodes p with
    | some node => .ok (node, heap)
    | none => .error (.badPointer p)

/-- `node->next = …` -/
def writeNext (p : Ptr) (next : Option Ptr) : DListM α Unit := do
  let node ← readNode p
  modify fun heap =>
    { heap with nodes := Function.update heap.nodes p (some { node with next := next }) }

/-- `node->prev = …` -/
def writePrev (p : Ptr) (prev : Option Ptr) : DListM α Unit := do
  let node ← readNode p
  modify fun heap =>
    { heap with nodes := Function.update heap.nodes p (some { node with prev := prev }) }

/-- `class_unref`, of an element -/
def classUnref (data : α) : DListM α Unit :=
  modify fun heap => { heap with unrefs := heap.unrefs ++ [data] }

/-- `class_unref`, of a node: `dlist_destroy_node` -/
def classUnrefNode (p : Ptr) : DListM α Unit := do
  let node ← readNode p
  classUnref node.data
  modify fun heap => { heap with nodes := Function.update heap.nodes p none }

/-- `dlist_new_node`, with the function that allocates memory -/
def dlistNewNode (malloc : (Ptr → Option (Node Ptr α)) → Ptr) (data : α) : DListM α Ptr := do
  let heap ← get
  let node := malloc heap.nodes
  set { heap with
    nodes := Function.update heap.nodes node (some { prev := none, next := none, data := data }) }
  return node

/-! ### The functions -/

/-- `cmp && ((*cmp) (node->data, data) == 0)` -/
def isEqual (cmp : Option (DListFPCmp α)) (data y : α) : Bool :=
  cmp.any fun cmp => cmp y data = 0

/-- The loop of `dlist_add`, from a node on -/
def dlistAddLoop (malloc : (Ptr → Option (Node Ptr α)) → Ptr) (data : α)
    (cmp : Option (DListFPCmp α)) : (fuel : Nat) → (node : Ptr) → DListM α Unit
  | 0, _ => throw .fuel
  | fuel + 1, node => do
    let fields ← readNode node
    if isEqual cmp data fields.data then
      -- node already exists and we were asked to keep nodes unique
      classUnref data
    else
      match fields.next with
      | none => do
        -- at the tail
        let next ← dlistNewNode malloc data
        writeNext node (some next)
        writePrev next (some node)
      | some next => dlistAddLoop malloc data cmp fuel next

/-- `dlist_add` -/
def dlistAdd (malloc : (Ptr → Option (Node Ptr α)) → Ptr) (fuel : Nat) (head : Option Ptr)
    (data : α) (cmp : Option (DListFPCmp α)) : DListM α (Option Ptr) :=
  match head with
  | none => do
    -- the list is empty, make new node the head
    let node ← dlistNewNode malloc data
    return some node
  | some node => do
    dlistAddLoop malloc data cmp fuel node
    return head

/-- `dlist_add_head` -/
def dlistAddHead (malloc : (Ptr → Option (Node Ptr α)) → Ptr) (head : Option Ptr) (data : α) :
    DListM α (Option Ptr) := do
  let node ← dlistNewNode malloc data
  match head with
  | none => return some node
  | some head => do
    writePrev head (some node)
    writeNext node (some head)
    return some node

/-- The cases of `dlist_delete`, for a node with the given fields -/
def dlistUnlink (head : Option Ptr) (node : Node Ptr α) : DListM α (Option Ptr) :=
  match node.prev, node.next with
  | none, none =>
    -- deleting only node in list
    return none
  | none, some next => do
    -- node is head, but other nodes exist
    writePrev next none
    return some next
  | some prev, none => do
    -- node is tail, but other nodes exist
    writeNext prev none
    return head
  | some prev, some next => do
    -- node is not head nor tail
    writeNext prev (some next)
    writePrev next (some prev)
    return head

/-- The loop of `dlist_delete`, from a node on -/
def dlistDeleteLoop (head : Option Ptr) (data : α) (cmp : DListFPCmp α) :
    (fuel : Nat) → (node : Option Ptr) → DListM α (Option Ptr)
  | _, none => return head
  | 0, some _ => throw .fuel
  | fuel + 1, some node => do
    let fields ← readNode node
    if cmp fields.data data = 0 then
      let head ← dlistUnlink head fields
      -- this will also unref the node's data
      classUnrefNode node
      return head
    else
      dlistDeleteLoop head data cmp fuel fields.next

/-- `dlist_delete` -/
def dlistDelete (fuel : Nat) (head : Option Ptr) (data : α) (cmp : Option (DListFPCmp α)) :
    DListM α (Option Ptr) :=
  match cmp with
  | none => throw (.message "compare function not specified")
  | some cmp => dlistDeleteLoop head data cmp fuel head

/-- The loop of `dlist_lookup`, from a node on -/
def dlistLookupLoop (data : α) (cmp : DListFPCmp α) :
    (fuel : Nat) → (node : Option Ptr) → DListM α (Option α)
  | _, none => return none
  | 0, some _ => throw .fuel
  | fuel + 1, some node => do
    let fields ← readNode node
    if cmp fields.data data = 0 then
      return some fields.data
    else
      dlistLookupLoop data cmp fuel fields.next

/-- `dlist_lookup` -/
def dlistLookup (fuel : Nat) (head : Option Ptr) (data : α) (cmp : Option (DListFPCmp α)) :
    DListM α (Option α) :=
  match cmp with
  | none => throw (.message "compare function not specified")
  | some cmp => dlistLookupLoop data cmp fuel head

/-! ### Steps on nodes in memory -/

variable {heap : Heap α} {p : Ptr} {node : Node Ptr α}

theorem run_readNode
    (h : heap.nodes p = some node) :
  (readNode p).run heap = .ok (node, heap)
  := by
  change (match heap.nodes p with | some node => _ | none => _) = _
  rw [h]

theorem run_readNode_none
    (h : heap.nodes p = none) :
  (readNode p).run heap = .error (.badPointer p)
  := by
  change (match heap.nodes p with | some node => _ | none => _) = _
  rw [h]

theorem run_writeNext
    (h : heap.nodes p = some node) (next : Option Ptr) :
  (writeNext p next).run heap = .ok ((), { heap with nodes := setNext heap.nodes (some p) next })
  := by
  rw [writeNext, run_bind_of_ok (run_readNode h), run_modify, setNext, h]
  rfl

theorem run_writePrev
    (h : heap.nodes p = some node) (prev : Option Ptr) :
  (writePrev p prev).run heap = .ok ((), { heap with nodes := setPrev heap.nodes (some p) prev })
  := by
  rw [writePrev, run_bind_of_ok (run_readNode h), run_modify, setPrev, h]
  rfl

theorem run_classUnrefNode
    (h : heap.nodes p = some node) :
  (classUnrefNode p).run heap = .ok ((),
    { nodes := Function.update heap.nodes p none, unrefs := heap.unrefs ++ [node.data] })
  := by
  rw [classUnrefNode, run_bind_of_ok (run_readNode h)]
  rfl

theorem run_dlistNewNode
    (malloc : (Ptr → Option (Node Ptr α)) → Ptr) (data : α) (heap : Heap α) :
  (dlistNewNode malloc data).run heap = .ok (malloc heap.nodes,
    { heap with
      nodes := Function.update heap.nodes (malloc heap.nodes)
        (some { prev := none, next := none, data := data }) })
  := rfl

/-! ### The list in memory -/

/-- The memory has the nodes of a list, and no others; the first one is the head. -/
structure Listed (heap : Heap α) (head : Option Ptr) (l : List (Ptr × α)) : Prop where
  nodup : (l.map Prod.fst).Nodup
  head : head = first l none
  linked : Linked heap.nodes none l none
  all : ∀ p, heap.nodes p ≠ none → p ∈ l.map Prod.fst

/-- Memory that is not in use is allocated. -/
def AllocatesFree (malloc : (Ptr → Option (Node Ptr α)) → Ptr) : Prop :=
  ∀ nodes : Ptr → Option (Node Ptr α), { p | nodes p ≠ none }.Finite → nodes (malloc nodes) = none

variable {malloc : (Ptr → Option (Node Ptr α)) → Ptr} {l r : List (Ptr × α)} {head : Option Ptr}

/-- The node that is allocated is not one of the list. -/
theorem Listed.malloc_not_mem
    (h : Listed heap head l) (hmalloc : AllocatesFree malloc) :
  malloc heap.nodes ∉ l.map Prod.fst
  := by
  have hfree : heap.nodes (malloc heap.nodes) = none := by
    apply hmalloc
    exact (List.finite_toSet (l.map Prod.fst)).subset h.all
  intro hmem
  obtain ⟨e, he, heq⟩ := List.mem_map.mp hmem
  obtain ⟨before, after, hsplit⟩ := List.append_of_mem he
  have hlinked := h.linked
  rw [hsplit] at hlinked
  rw [← heq, hlinked.node] at hfree
  contradiction

/-! ### The functions on the list in memory -/

/-- The store with a node after the last one of a list -/
def concatNode (store : Ptr → Option (Node Ptr α)) (l : List (Ptr × α)) (q : Ptr) (data : α) :
    Ptr → Option (Node Ptr α) :=
  setPrev (setNext (Function.update store q (some { prev := none, next := none, data := data }))
    (last none l) (some q)) (some q) (last none l)

theorem run_dlistAddLoop
    {e : Ptr × α} (h : Linked heap.nodes none (l ++ e :: r) none)
    (hmalloc : malloc heap.nodes ∉ (l ++ e :: r).map Prod.fst) {fuel : Nat}
    (hfuel : r.length < fuel) (data : α) (cmp : Option (DListFPCmp α)) :
  (dlistAddLoop malloc data cmp fuel e.1).run heap = .ok ((),
    if ((e :: r).map Prod.snd).any (isEqual cmp data) then
      { heap with unrefs := heap.unrefs ++ [data] }
    else
      { heap with nodes := concatNode heap.nodes (l ++ e :: r) (malloc heap.nodes) data })
  := by
  induction fuel generalizing l e r with
  | zero => contradiction
  | succ fuel ih =>
    rw [dlistAddLoop, run_bind_of_ok (run_readNode h.node), List.map_cons, List.any_cons]
    cases hequal : isEqual cmp data e.2 with
    | true => rfl
    | false =>
      rw [if_neg (by simp), Bool.false_or]
      cases r with
      | nil =>
        have hne : e.1 ≠ malloc heap.nodes := by
          rintro heq
          rw [← heq] at hmalloc
          simp at hmalloc
        have hnode : Function.update heap.nodes (malloc heap.nodes)
            (some { prev := none, next := none, data := data }) e.1 = _ :=
          (Function.update_of_ne hne _ _).trans h.node
        have hnew : setNext (Function.update heap.nodes (malloc heap.nodes)
            (some { prev := none, next := none, data := data })) (some e.1)
            (some (malloc heap.nodes)) (malloc heap.nodes) = _ :=
          (setNext_of_ne (fun heq => hne (Option.some.inj heq)) _).trans (Function.update_self _ _ _)
        change ((dlistNewNode malloc data >>= _).run heap) = _
        rw [run_bind_of_ok (run_dlistNewNode malloc data heap),
          run_bind_of_ok (run_writeNext hnode _), run_writePrev hnew, concatNode, last_concat]
        rfl
      | cons e' r =>
        have hnext : l ++ e :: e' :: r = (l ++ [e]) ++ e' :: r := by simp
        rw [hnext] at h hmalloc ⊢
        exact ih h hmalloc (by simpa using hfuel)

/-- A new node after a list -/
theorem Listed.concat
    (h : Listed heap head l) {q : Ptr} (hq : q ∉ l.map Prod.fst) (data : α) :
  Listed { heap with nodes := concatNode heap.nodes l q data } (first (l ++ [(q, data)]) none)
    (l ++ [(q, data)])
  := by
  constructor
  · rw [List.map_append, List.nodup_append]
    refine ⟨h.nodup, List.nodup_singleton q, ?_⟩
    rintro p hp _ hmem rfl
    rw [List.mem_singleton.mp hmem] at hp
    exact hq hp
  · rfl
  · exact h.linked.concat h.nodup hq data
  · intro p hp
    rw [List.map_append, List.mem_append]
    by_cases heq : p = q
    · rw [heq]
      exact .inr List.mem_cons_self
    · apply Or.inl
      apply h.all
      intro hnone
      apply hp
      rw [concatNode, setPrev_eq_none_iff, setNext_eq_none_iff, Function.update_of_ne heq, hnone]

theorem Listed.dlistAdd
    (h : Listed heap head l) (hmalloc : AllocatesFree malloc) {fuel : Nat}
    (hfuel : l.length ≤ fuel) (data : α) (cmp : Option (DListFPCmp α)) :
  ∃ heap' head' l', (dlistAdd malloc fuel head data cmp).run heap = .ok (head', heap')
    ∧ Listed heap' head' l'
    ∧ if (l.map Prod.snd).any (isEqual cmp data) then
        l' = l ∧ heap'.unrefs = heap.unrefs ++ [data]
      else
        l'.map Prod.snd = l.map Prod.snd ++ [data] ∧ heap'.unrefs = heap.unrefs
  := by
  have hnew := h.malloc_not_mem hmalloc
  have hconcat := h.concat hnew data
  have hhead := h.head
  cases l with
  | nil =>
    rw [first] at hhead
    have hstore : concatNode heap.nodes [] (malloc heap.nodes) data
        = Function.update heap.nodes (malloc heap.nodes)
          (some { prev := none, next := none, data := data }) := by
      rw [concatNode, last, setNext, setPrev, Function.update_self, Function.update_idem]
      rfl
    rw [hstore] at hconcat
    rw [hhead]
    exact ⟨_, _, _, rfl, hconcat, rfl, rfl⟩
  | cons e r =>
    rw [first] at hhead
    have hloop := run_dlistAddLoop (l := []) h.linked hnew hfuel data cmp
    rw [hhead, SimulAvr.dlistAdd, run_bind_of_ok hloop]
    by_cases hany : ((e :: r).map Prod.snd).any (isEqual cmp data) = true
    · use { heap with unrefs := heap.unrefs ++ [data] }, some e.1, e :: r
      rw [if_pos hany]
      refine ⟨rfl, ⟨h.nodup, rfl, h.linked, h.all⟩, ?_⟩
      rw [if_pos hany]
      exact ⟨rfl, rfl⟩
    · rw [if_neg hany]
      refine ⟨_, _, _, rfl, hconcat, ?_⟩
      rw [if_neg hany, List.map_append]
      exact ⟨rfl, rfl⟩

theorem Listed.dlistAddHead
    (h : Listed heap head l) (hmalloc : AllocatesFree malloc) (data : α) :
  ∃ heap' head' l', (dlistAddHead malloc head data).run heap = .ok (head', heap')
    ∧ Listed heap' head' l' ∧ l'.map Prod.snd = data :: l.map Prod.snd
    ∧ heap'.unrefs = heap.unrefs
  := by
  have hnew := h.malloc_not_mem hmalloc
  generalize hq : malloc heap.nodes = q at hnew
  have hlisted : Listed
      { heap with
        nodes := setNext (setPrev (Function.update heap.nodes q
          (some { prev := none, next := none, data := data })) (first l none) (some q)) (some q)
          (first l none) } (some q) ((q, data) :: l) := by
    constructor
    · rw [List.map_cons, List.nodup_cons]
      exact ⟨hnew, h.nodup⟩
    · rfl
    · exact h.linked.cons h.nodup hnew data
    · intro p hp
      rw [List.map_cons, List.mem_cons]
      by_cases heq : p = q
      · exact .inl heq
      · apply Or.inr
        apply h.all
        intro hnone
        apply hp
        rw [setNext_eq_none_iff, setPrev_eq_none_iff, Function.update_of_ne heq, hnone]
  have hhead := h.head
  cases l with
  | nil =>
    have hstore : setNext (setPrev (Function.update heap.nodes q
        (some { prev := none, next := none, data := data })) none (some q)) (some q) none
        = Function.update heap.nodes q (some { prev := none, next := none, data := data }) := by
      rw [setPrev, setNext, Function.update_self, Function.update_idem]
      rfl
    rw [first] at hhead hlisted
    rw [hstore] at hlisted
    rw [hhead]
    refine ⟨_, _, _, ?_, hlisted, rfl, rfl⟩
    rw [← hq]
    rfl
  | cons e r =>
    rw [first] at hhead hlisted
    have hne : e.1 ≠ q := by
      rintro rfl
      exact hnew List.mem_cons_self
    have hnode : Function.update heap.nodes q (some { prev := none, next := none, data := data })
        e.1 = _ :=
      (Function.update_of_ne hne _ _).trans h.linked.1
    have hnew : setPrev (Function.update heap.nodes q
        (some { prev := none, next := none, data := data })) (some e.1) (some q) q = _ :=
      (setPrev_of_ne (fun heq => hne (Option.some.inj heq)) _).trans (Function.update_self _ _ _)
    rw [hhead]
    refine ⟨_, _, _, ?_, hlisted, rfl, rfl⟩
    rw [SimulAvr.dlistAddHead, run_bind_of_ok (run_dlistNewNode malloc data heap)]
    subst hq
    change (writePrev e.1 (some _) >>= _).run _ = _
    rw [run_bind_of_ok (run_writePrev hnode _), run_bind_of_ok (run_writeNext hnew _)]
    rfl

/-- A node without neighbours in the list, or with them, is taken out of it. -/
theorem run_dlistUnlink
    {e : Ptr × α} (h : Linked heap.nodes none (l ++ e :: r) none)
    (hnodup : ((l ++ e :: r).map Prod.fst).Nodup) (hhead : head = first (l ++ e :: r) none) :
  (dlistUnlink head { prev := last none l, next := first r none, data := e.2 }).run heap
    = .ok (first (l ++ r) none,
      { heap with
        nodes := setPrev (setNext heap.nodes (last none l) (first r none)) (first r none)
          (last none l) })
  := by
  rcases List.eq_nil_or_concat l with rfl | ⟨l, e₀, rfl⟩
  · cases r with
    | nil => rfl
    | cons e₁ r =>
      change (writePrev e₁.1 none >>= _).run heap = _
      rw [run_bind_of_ok (run_writePrev h.2.1 none)]
      rfl
  · rw [List.concat_eq_append] at h hnodup hhead ⊢
    rw [List.append_assoc] at h
    have hprev := h.node (e := e₀)
    have hfirst : head = first (l ++ [e₀] ++ r) none := by
      rw [hhead]
      cases l with
      | nil => rfl
      | cons => rfl
    rw [last_concat, ← hfirst]
    cases r with
    | nil =>
      change (writeNext e₀.1 none >>= _).run heap = _
      rw [run_bind_of_ok (run_writeNext hprev none)]
      rfl
    | cons e₁ r =>
      have hnext : heap.nodes e₁.1 = some
          { prev := some e.1, next := first r none, data := e₁.2 } := by
        rw [← List.append_assoc] at h
        exact (linked_append.mp h).2.2.1
      have hne : e₀.1 ≠ e₁.1 := by
        intro heq
        rw [List.map_append, List.nodup_append] at hnodup
        apply hnodup.2.2 e₀.1 (by simp) e₁.1 (by simp) heq
      change (writeNext e₀.1 (some e₁.1) >>= _).run heap = _
      rw [run_bind_of_ok (run_writeNext hprev _)]
      have hnext' : setNext heap.nodes (some e₀.1) (some e₁.1) e₁.1 = _ :=
        (setNext_of_ne (fun heq => hne (Option.some.inj heq)) _).trans hnext
      rw [run_bind_of_ok (run_writePrev hnext' _)]
      rfl

/-- The node of a list is removed. -/
theorem Listed.remove
    {e : Ptr × α} (h : Listed heap head (l ++ e :: r)) (data : α) :
  Listed
    { nodes := Function.update (setPrev (setNext heap.nodes (last none l) (first r none))
        (first r none) (last none l)) e.1 none
      unrefs := heap.unrefs ++ [data] } (first (l ++ r) none) (l ++ r)
  := by
  have hnodup := h.nodup
  rw [List.map_append, List.map_cons, List.nodup_middle, List.nodup_cons] at hnodup
  have hmem (e' : Ptr × α) (he' : e' ∈ l ++ r) : e'.1 ≠ e.1 := by
    intro heq
    apply hnodup.1
    rw [← heq, ← List.map_append]
    exact List.mem_map_of_mem he'
  constructor
  · rw [List.map_append]
    exact hnodup.2
  · rfl
  · apply (h.linked.unlink h.nodup).congr
    intro e' he'
    exact Function.update_of_ne (hmem e' he') _ _
  · intro p hp
    by_cases heq : p = e.1
    · rw [heq] at hp
      exact absurd (Function.update_self _ _ _) hp
    · have hall := h.all p fun hnone => hp ((Function.update_of_ne heq _ _).trans
        (by rw [setPrev_eq_none_iff, setNext_eq_none_iff, hnone]))
      rw [List.map_append, List.map_cons, List.mem_append, List.mem_cons] at hall
      rw [List.map_append, List.mem_append]
      rcases hall with hl | heq' | hr
      · exact .inl hl
      · exact absurd heq' heq
      · exact .inr hr

theorem Listed.dlistDeleteLoop
    (h : Listed heap head (l ++ r)) {data : α} {cmp : DListFPCmp α}
    (hl : ∀ e ∈ l, cmp e.2 data ≠ 0) {fuel : Nat} (hfuel : r.length ≤ fuel) :
  ∃ heap' head', (dlistDeleteLoop head data cmp fuel (first r none)).run heap = .ok (head', heap')
    ∧ Listed heap' head' (l ++ r.eraseP fun e => cmp e.2 data = 0)
    ∧ heap'.unrefs
      = heap.unrefs ++ ((r.map Prod.snd).find? fun y => cmp y data = 0).toList
  := by
  induction r generalizing l fuel with
  | nil =>
    use heap, head
    refine ⟨?_, h, by simp⟩
    cases fuel with
    | zero => rfl
    | succ => rfl
  | cons e r ih =>
    cases fuel with
    | zero => contradiction
    | succ fuel =>
      have hnode := h.linked.node
      rw [first, SimulAvr.dlistDeleteLoop, run_bind_of_ok (run_readNode hnode), List.map_cons]
      by_cases hequal : cmp e.2 data = 0
      · have hremove := h.remove e.2
        have hkeep : setPrev (setNext heap.nodes (last none l) (first r none)) (first r none)
            (last none l) e.1 = heap.nodes e.1 := by
          have hnodup := h.nodup
          rw [List.map_append, List.map_cons, List.nodup_append, List.nodup_cons] at hnodup
          obtain ⟨-, ⟨hr, -⟩, hdisjoint⟩ := hnodup
          rw [setPrev_of_ne fun hfirst => hr (mem_of_first hfirst),
            setNext_of_ne fun hlast => hdisjoint _ (mem_of_last hlast) _ List.mem_cons_self rfl]
        rw [if_pos hequal, run_bind_of_ok (run_dlistUnlink h.linked h.nodup h.head),
          run_bind_of_ok (run_classUnrefNode (hkeep.trans hnode)),
          List.eraseP_cons_of_pos (by simpa using hequal),
          List.find?_cons_of_pos (by simpa using hequal)]
        exact ⟨_, _, rfl, hremove, rfl⟩
      · rw [if_neg hequal, List.eraseP_cons_of_neg (by simpa using hequal),
          List.find?_cons_of_neg (by simpa using hequal)]
        rw [List.append_cons] at h
        obtain ⟨heap', head', hrun, hlisted, hunrefs⟩ := ih h (by
          intro e' he'
          rcases List.mem_append.mp he' with he' | he'
          · exact hl e' he'
          · rw [List.mem_singleton.mp he']
            exact hequal) (Nat.le_of_succ_le_succ hfuel)
        rw [List.append_cons]
        exact ⟨heap', head', hrun, hlisted, hunrefs⟩

/-- `dlist_delete` removes the first node whose element `cmp` finds. -/
theorem Listed.dlistDelete
    (h : Listed heap head l) (data : α) (cmp : DListFPCmp α) {fuel : Nat}
    (hfuel : l.length ≤ fuel) :
  ∃ heap' head', (dlistDelete fuel head data (some cmp)).run heap = .ok (head', heap')
    ∧ Listed heap' head' (l.eraseP fun e => cmp e.2 data = 0)
    ∧ heap'.unrefs
      = heap.unrefs ++ ((l.map Prod.snd).find? fun y => cmp y data = 0).toList
  := by
  have hnone : ∀ e ∈ ([] : List (Ptr × α)), cmp e.2 data ≠ 0 := List.forall_mem_nil _
  have hloop := Listed.dlistDeleteLoop (l := []) h hnone hfuel
  rw [← h.head] at hloop
  exact hloop

theorem Listed.dlistLookupLoop
    (h : Linked heap.nodes none (l ++ r) none) (data : α) (cmp : DListFPCmp α) {fuel : Nat}
    (hfuel : r.length ≤ fuel) :
  (dlistLookupLoop data cmp fuel (first r none)).run heap
    = .ok ((r.map Prod.snd).find? (fun y => cmp y data = 0), heap)
  := by
  induction r generalizing l fuel with
  | nil =>
    cases fuel with
    | zero => rfl
    | succ => rfl
  | cons e r ih =>
    cases fuel with
    | zero => contradiction
    | succ fuel =>
      rw [first, SimulAvr.dlistLookupLoop, run_bind_of_ok (run_readNode h.node), List.map_cons]
      by_cases hequal : cmp e.2 data = 0
      · rw [if_pos hequal, List.find?_cons_of_pos (by simpa using hequal)]
        rfl
      · rw [if_neg hequal, List.find?_cons_of_neg (by simpa using hequal)]
        have hnext : l ++ e :: r = (l ++ [e]) ++ r := by simp
        rw [hnext] at h
        exact ih h (Nat.le_of_succ_le_succ hfuel)

/-! ### Sequences of operations -/

/-- A call of one of the functions -/
inductive DListOp (α : Type) where
  | add (data : α) (cmp : Option (DListFPCmp α))
  | addHead (data : α)
  | delete (data : α) (cmp : DListFPCmp α)
  | lookup (data : α) (cmp : DListFPCmp α)

namespace DListOp

/-- The call, for a head: the new head, and what a lookup returns -/
def exec (malloc : (Ptr → Option (Node Ptr α)) → Ptr) (fuel : Nat) (head : Option Ptr) :
    DListOp α → DListM α (Option Ptr × Option α)
  | add data cmp => do return (← dlistAdd malloc fuel head data cmp, none)
  | addHead data => do return (← dlistAddHead malloc head data, none)
  | delete data cmp => do return (← dlistDelete fuel head data (some cmp), none)
  | lookup data cmp => do return (head, ← dlistLookup fuel head data (some cmp))

/-- The elements after the call -/
def elems (xs : List α) : DListOp α → List α
  | add data cmp => if xs.any (isEqual cmp data) then xs else xs ++ [data]
  | addHead data => data :: xs
  | delete data cmp => xs.eraseP fun y => cmp y data = 0
  | lookup _ _ => xs

/-- The elements that the call unreferences -/
def unrefs (xs : List α) : DListOp α → List α
  | add data cmp => if xs.any (isEqual cmp data) then [data] else []
  | addHead _ => []
  | delete data cmp => (xs.find? fun y => cmp y data = 0).toList
  | lookup _ _ => []

/-- What the call returns, beside the head -/
def result (xs : List α) : DListOp α → Option α
  | lookup data cmp => xs.find? fun y => cmp y data = 0
  | _ => none

end DListOp

/-- Calls, one after the other: the last head, and what they return -/
def dlistRun (malloc : (Ptr → Option (Node Ptr α)) → Ptr) (fuel : Nat) :
    Option Ptr → List (DListOp α) → DListM α (Option Ptr × List (Option α))
  | head, [] => return (head, [])
  | head, op :: ops => do
    let (head, result) ← op.exec malloc fuel head
    let (head, results) ← dlistRun malloc fuel head ops
    return (head, result :: results)

/-- A call does to the list in memory what it does to the list of elements. -/
theorem Listed.exec
    (h : Listed heap head l) (hmalloc : AllocatesFree malloc) {fuel : Nat}
    (hfuel : l.length ≤ fuel) (op : DListOp α) :
  ∃ heap' head' l', (op.exec malloc fuel head).run heap
      = .ok ((head', op.result (l.map Prod.snd)), heap')
    ∧ Listed heap' head' l' ∧ l'.map Prod.snd = op.elems (l.map Prod.snd)
    ∧ heap'.unrefs = heap.unrefs ++ op.unrefs (l.map Prod.snd)
  := by
  cases op with
  | add data cmp =>
    obtain ⟨heap', head', l', hrun, hlisted, helems⟩ := h.dlistAdd hmalloc hfuel data cmp
    use heap', head', l'
    rw [DListOp.exec, run_bind_of_ok hrun, DListOp.elems, DListOp.unrefs]
    refine ⟨rfl, hlisted, ?_⟩
    split at helems
    · next hany =>
      rw [if_pos hany, if_pos hany, helems.1]
      exact ⟨rfl, helems.2⟩
    · next hany =>
      rw [if_neg hany, if_neg hany, List.append_nil]
      exact helems
  | addHead data =>
    obtain ⟨heap', head', l', hrun, hlisted, helems, hunrefs⟩ := h.dlistAddHead hmalloc data
    use heap', head', l'
    rw [DListOp.exec, run_bind_of_ok hrun, hunrefs]
    exact ⟨rfl, hlisted, helems, (List.append_nil _).symm⟩
  | delete data cmp =>
    obtain ⟨heap', head', hrun, hlisted, hunrefs⟩ := h.dlistDelete data cmp hfuel
    refine ⟨heap', head', _, ?_, hlisted, ?_, hunrefs⟩
    · rw [DListOp.exec, run_bind_of_ok hrun]
      rfl
    · rw [DListOp.elems, List.eraseP_map]
      rfl
  | lookup data cmp =>
    have hrun := Listed.dlistLookupLoop (l := []) h.linked data cmp hfuel
    rw [← h.head] at hrun
    use heap, head, l
    rw [DListOp.exec, dlistLookup, run_bind_of_ok hrun]
    exact ⟨rfl, h, rfl, (List.append_nil _).symm⟩

namespace DListOp

/-- The elements after calls -/
def elemsAfter (ops : List (DListOp α)) (xs : List α) : List α :=
  ops.foldl (fun xs op => op.elems xs) xs

/-- The elements that calls unreference -/
def unrefsOf : List (DListOp α) → List α → List α
  | [], _ => []
  | op :: ops, xs => op.unrefs xs ++ unrefsOf ops (op.elems xs)

/-- What calls return -/
def resultsOf : List (DListOp α) → List α → List (Option α)
  | [], _ => []
  | op :: ops, xs => op.result xs :: resultsOf ops (op.elems xs)

/-- A call that adds an element only where `cmp` finds no equal one -/
def UniqueBy (cmp : DListFPCmp α) : DListOp α → Prop
  | add _ cmp' => cmp' = some cmp
  | addHead _ => False
  | _ => True

theorem length_elems_le
    (op : DListOp α) (xs : List α) :
  (op.elems xs).length ≤ xs.length + 1
  := by
  cases op with
  | add data cmp =>
    rw [elems]
    split
    · exact Nat.le_succ _
    · rw [List.length_append, List.length_singleton]
  | addHead data => exact Nat.le_refl _
  | delete data cmp => exact Nat.le_succ_of_le List.eraseP_sublist.length_le
  | lookup data cmp => exact Nat.le_succ _

/-- Calls that add elements only where `cmp` finds no equal one keep the elements different. -/
theorem pairwise_elems
    {cmp : DListFPCmp α} {op : DListOp α} (hop : op.UniqueBy cmp) {xs : List α}
    (h : xs.Pairwise fun x y => cmp x y ≠ 0) :
  (op.elems xs).Pairwise fun x y => cmp x y ≠ 0
  := by
  cases op with
  | add data cmp' =>
    rw [UniqueBy] at hop
    rw [elems, hop]
    split
    · exact h
    · next hnone =>
      rw [List.pairwise_append]
      refine ⟨h, List.pairwise_singleton _ _, ?_⟩
      rintro y hy z hz heq
      rw [List.mem_singleton.mp hz] at heq
      apply hnone
      rw [List.any_eq_true]
      use y, hy
      simpa [isEqual] using heq
  | addHead data => exact hop.elim
  | delete data cmp' => exact h.sublist List.eraseP_sublist
  | lookup data cmp' => exact h

end DListOp

/-- Calls do to the list in memory what they do to the list of elements. -/
theorem Listed.run
    (h : Listed heap head l) (hmalloc : AllocatesFree malloc) {fuel : Nat}
    (ops : List (DListOp α)) (hfuel : l.length + ops.length ≤ fuel) :
  ∃ heap' head' l', (dlistRun malloc fuel head ops).run heap
      = .ok ((head', DListOp.resultsOf ops (l.map Prod.snd)), heap')
    ∧ Listed heap' head' l' ∧ l'.map Prod.snd = DListOp.elemsAfter ops (l.map Prod.snd)
    ∧ heap'.unrefs = heap.unrefs ++ DListOp.unrefsOf ops (l.map Prod.snd)
  := by
  induction ops generalizing heap head l with
  | nil => exact ⟨heap, head, l, rfl, h, rfl, (List.append_nil _).symm⟩
  | cons op ops ih =>
    rw [List.length_cons] at hfuel
    have hle : l.length ≤ fuel := by omega
    obtain ⟨heap₁, head₁, l₁, hexec, hlisted, helems, hunrefs⟩ := h.exec hmalloc hle op
    have hlength := op.length_elems_le (l.map Prod.snd)
    rw [← helems, List.length_map, List.length_map] at hlength
    obtain ⟨heap', head', l', hrun, hlisted', helems', hunrefs'⟩ := ih hlisted (by omega)
    use heap', head', l'
    rw [dlistRun, run_bind_of_ok hexec]
    change ((dlistRun malloc fuel head₁ ops >>= _).run heap₁ = _) ∧ _
    rw [run_bind_of_ok hrun, helems', hunrefs', hunrefs, helems, List.append_assoc]
    exact ⟨rfl, hlisted', rfl, rfl⟩

/-- Whatever free memory is allocated, calls from the empty list return what they return of a list
of elements, and leave the nodes of that list in memory: a finite doubly linked list from the head
on, whose first node has no previous and whose last node has no next one.  If all elements are
added with `cmp`, it finds no two of them equal. -/
theorem dlist_refines
    (malloc : (Ptr → Option (Node Ptr α)) → Ptr) (hmalloc : AllocatesFree malloc)
    (ops : List (DListOp α)) (fuel : Nat) (hfuel : ops.length ≤ fuel) :
  ∃ heap head l, (dlistRun malloc fuel none ops).run { nodes := fun _ => none, unrefs := [] }
      = .ok ((head, DListOp.resultsOf ops []), heap)
    ∧ Listed heap head l ∧ l.map Prod.snd = DListOp.elemsAfter ops []
    ∧ heap.unrefs = DListOp.unrefsOf ops []
    ∧ ∀ cmp, (∀ op ∈ ops, op.UniqueBy cmp)
      → (DListOp.elemsAfter ops []).Pairwise fun x y => cmp x y ≠ 0
  := by
  have hempty : Listed (α := α) { nodes := fun _ => none, unrefs := [] } none [] :=
    ⟨List.nodup_nil, rfl, trivial, fun _ hne => absurd rfl hne⟩
  have hle : ([] : List (Ptr × α)).length + ops.length ≤ fuel := by
    rwa [List.length_nil, Nat.zero_add]
  obtain ⟨heap, head, l, hrun, hlisted, helems, hunrefs⟩ := hempty.run hmalloc ops hle
  use heap, head, l, hrun, hlisted, helems, hunrefs
  intro cmp hops
  exact List.foldlRecOn ops _ List.Pairwise.nil fun xs hxs op hop =>
    DListOp.pairwise_elems (hops op hop) hxs

open Classical in
/-- The least address that is not in use -/
noncomputable def leastFree (nodes : Ptr → Option (Node Ptr α)) : Ptr :=
  if h : ∃ p, nodes p = none then Nat.find h else 0

theorem leastFree_allocatesFree :
  AllocatesFree (leastFree (α := α))
  := by
  intro nodes hfinite
  obtain ⟨p, hp⟩ := hfinite.exists_notMem
  have hfree : ∃ p, nodes p = none := ⟨p, by simpa using hp⟩
  rw [leastFree, dif_pos hfree]
  exact Nat.find_spec hfree

/-- Elements are added, one of them twice, one is put before them, one is deleted and one is
looked up. -/
theorem dlist_refines_calls :
  ∃ heap head l, (dlistRun leastFree 6 none
      [.add 1 none, .add 2 (some fun x y => x - y), .add 1 (some fun x y => x - y), .addHead 3,
        .delete 1 fun x y => x - y, .lookup 2 fun x y => x - y]).run
      { nodes := fun _ => none, unrefs := [] }
      = .ok ((head, [none, none, none, none, none, some 2]), heap)
    ∧ Listed heap head l ∧ l.map Prod.snd = [3, (2 : Int)] ∧ heap.unrefs = [1, 1]
  := by
  obtain ⟨heap, head, l, hrun, hlisted, helems, hunrefs, -⟩ := dlist_refines leastFree
    leastFree_allocatesFree [.add (1 : Int) none, .add 2 (some fun x y => x - y),
      .add 1 (some fun x y => x - y), .addHead 3, .delete 1 fun x y => x - y,
      .lookup 2 fun x y => x - y] 6 (by decide)
  exact ⟨heap, head, l, hrun, hlisted, helems, hunrefs⟩

end

end SimulAvr
