import SimulAvr.StackNest

/-!
# The hardware stack

The loop of `hw_push` copies towards the bottom of the array of a hardware stack, as that
of `hw_pop` does, so that a push of a second value overwrites the first.  A properly
nested sequence of pushes and pops returns the values of the matching pushes exactly when
no pop needs a value from below the newest one (`hw_stack_lifo`).
-/

namespace SimulAvr

open Lifo

/-! ### The loops -/

/-- The copies `stack[i] = stack[i + 1]` for `i` up to `n`, from the lowest on. -/
theorem foldl_update_succ
    (stack : Nat → BitVec 32) (n i : Nat) :
  (List.range n).foldl (fun stack i => Function.update stack i (stack (i + 1))) stack i
    = if i < n then stack (i + 1) else stack i
  := by
  induction n generalizing i with
  | zero => rfl
  | succ n ih =>
    rw [List.range_succ, List.foldl_concat]
    by_cases heq : i = n
    · rw [heq, Function.update_self, ih, if_neg (by omega), if_pos (by omega)]
    · rw [Function.update_of_ne heq, ih]
      by_cases hlt : i < n
      · rw [if_pos hlt, if_pos (by omega)]
      · rw [if_neg hlt, if_neg (by omega)]

/-- The copies `stack[i] = stack[i + 1]` for `i` below `n`, from the highest on. -/
theorem foldl_reverse_update_succ
    (stack : Nat → BitVec 32) (n i : Nat) :
  (List.range n).reverse.foldl (fun stack i => Function.update stack i (stack (i + 1))) stack i
    = if i < n then stack n else stack i
  := by
  induction n generalizing stack i with
  | zero => rfl
  | succ n ih =>
    rw [List.range_succ, List.reverse_append, List.reverse_singleton, List.singleton_append,
      List.foldl_cons, ih]
    by_cases hlt : i < n
    · rw [if_pos hlt, if_pos (by omega), Function.update_self]
    · rw [if_neg hlt]
      by_cases heq : i = n
      · rw [heq, Function.update_self, if_pos (by omega)]
      · rw [Function.update_of_ne heq, if_neg (by omega)]

theorem hwPop_eq
    (depth : Nat) (stack : Nat → BitVec 32) (i : Nat) :
  (hwPop depth stack).2 i = if i < depth - 1 then stack (i + 1) else stack i
  := foldl_update_succ stack (depth - 1) i

theorem hwPush_eq
    (depth : Nat) (stack : Nat → BitVec 32) (val : BitVec 32) (i : Nat) :
  hwPush depth stack val i
    = if i = 0 then val else if i < depth - 1 then stack (depth - 1) else stack i
  := by
  rw [hwPush]
  by_cases heq : i = 0
  · rw [if_pos heq, heq, Function.update_self]
  · rw [if_neg heq, Function.update_of_ne heq, foldl_reverse_update_succ]

/-! ### Nested sequences -/

/-- The properly nested sequences with at most `depth` outstanding pushes. -/
abbrev HwNest (depth : Nat) : List (Nat × BitVec 32) → List StackOp →
    List (Nat × BitVec 32) → List (Nat × BitVec 32) → Prop :=
  Nest (fun _ _ => True) (fun s => s.length ≤ depth)

/-- Every pop takes a value that is pushed directly before it, or that is `z`; `fresh` says
that the operation before is a push. -/
def Shallow (z : BitVec 32) : Bool → List (Nat × BitVec 32) → List StackOp → Prop
  | _, _, [] => True
  | _, s, .push a :: ops => Shallow z true (a :: s) ops
  | _, [], .pop _ :: _ => True
  | fresh, a :: s, .pop _ :: ops => (fresh = true ∨ a.2 = z) ∧ Shallow z false s ops

/-- The last slot of a hardware stack holds `z`.  While there are values on the stack, so do
all slots but the first one, which holds the newest value if the operation before is a push,
or else `z`. -/
structure HwInv (depth : Nat) (z : BitVec 32) (fresh : Bool) (s : List (Nat × BitVec 32))
    (stack : Nat → BitVec 32) : Prop where
  last : stack (depth - 1) = z
  rest : s ≠ [] → ∀ i, 0 < i → i < depth → stack i = z
  first : ∀ a, s.head? = some a → stack 0 = if fresh then a.2 else z

section

variable {depth : Nat} {z : BitVec 32} {fresh : Bool} {s : List (Nat × BitVec 32)}
  {stack : Nat → BitVec 32} {a : Nat × BitVec 32}

theorem HwInv.push
    (hdepth : 2 ≤ depth) (h : HwInv depth z fresh s stack) (a : Nat × BitVec 32) :
  HwInv depth z true (a :: s) (hwPush depth stack a.2)
  := by
  constructor
  · rw [hwPush_eq, if_neg (by omega), if_neg (by omega), h.last]
  · intro _ i hpos hi
    rw [hwPush_eq, if_neg (by omega)]
    split
    · apply h.last
    · rw [show i = depth - 1 by omega]
      apply h.last
  · rintro b hb
    cases hb
    rw [hwPush_eq]
    rfl

theorem HwInv.pop
    (hdepth : 2 ≤ depth) (h : HwInv depth z fresh (a :: s) stack) :
  HwInv depth z false s (hwPop depth stack).2
  := by
  have hrest := h.rest (List.cons_ne_nil a s)
  constructor
  · rw [hwPop_eq, if_neg (by omega)]
    apply h.last
  · intro _ i hpos hi
    rw [hwPop_eq]
    split
    · apply hrest <;> omega
    · apply hrest i hpos hi
  · intro b _
    rw [hwPop_eq, if_pos (by omega)]
    apply hrest <;> omega

variable {δ : Type} [IoDevices δ] {c : AvrCore δ}

theorem stackPush_hw
    (h : c.stack = .hw depth stack) (bytes : Int) (val : BitVec 32) :
  (avrCoreStackPush bytes val).run c
    = .ok ((), { c with stack := .hw depth (hwPush depth stack val) })
  := by
  rw [avrCoreStackPush, Program.run_bind_of_ok (run_gets _ c), h]
  rfl

theorem stackPop_hw
    (h : c.stack = .hw depth stack) (bytes : Int) :
  (avrCoreStackPop bytes).run c
    = .ok (stack 0, { c with stack := .hw depth (hwPop depth stack).2 })
  := by
  rw [avrCoreStackPop, Program.run_bind_of_ok (run_gets _ c), h]
  rfl

/-- A sequence on a stack of at least two slots. -/
theorem HwInv.run
    (hdepth : 2 ≤ depth) {ops : List StackOp} {out t : List (Nat × BitVec 32)}
    (hnest : HwNest depth s ops out t) (hstack : c.stack = .hw depth stack)
    (h : HwInv depth z fresh s stack) :
  ∃ vals c', (stackRun ops).run c = .ok (vals, c') ∧
    (vals = out.map Prod.snd ↔ Shallow z fresh s ops)
  := by
  induction hnest generalizing c fresh stack with
  | nil s =>
    use [], c, rfl
    simp [Shallow]
  | @push s a _ _ _ _ _ ih =>
    obtain ⟨vals, c', hrun, hiff⟩ :=
      ih (c := { c with stack := .hw depth (hwPush depth stack a.2) }) rfl (h.push hdepth a)
    use vals, c'
    constructor
    · rw [stackRun, Program.run_bind_of_ok (stackPush_hw hstack _ _)]
      apply hrun
    · apply hiff
  | @pop s a n _ _ _ _ _ ih =>
    obtain ⟨vals, c', hrun, hiff⟩ :=
      ih (c := { c with stack := .hw depth (hwPop depth stack).2 }) rfl (h.pop hdepth)
    use stack 0 :: vals, c'
    constructor
    · rw [stackRun, Program.run_bind_of_ok (stackPop_hw hstack _), Program.run_bind_of_ok hrun]
      rfl
    · have hfirst : stack 0 = a.2 ↔ fresh = true ∨ a.2 = z := by
        rw [h.first a rfl]
        cases fresh with
        | false => simp [eq_comm]
        | true => simp
      rw [List.map_cons, List.cons.injEq, hfirst, hiff]
      rfl

/-- A sequence on a stack of one slot. -/
theorem hwRun_one
    {ops : List StackOp} {out t : List (Nat × BitVec 32)}
    (hnest : HwNest 1 s ops out t) (hlength : s.length ≤ 1) (hstack : c.stack = .hw 1 stack)
    (hfirst : ∀ a, s.head? = some a → stack 0 = a.2 ∧ fresh = true) :
  (∃ c', (stackRun ops).run c = .ok (out.map Prod.snd, c')) ∧ Shallow z fresh s ops
  := by
  induction hnest generalizing c fresh stack with
  | nil s => exact ⟨⟨c, rfl⟩, by simp [Shallow]⟩
  | @push s a _ _ _ hok _ ih =>
    have hnext : ∀ b, (a :: s).head? = some b → hwPush 1 stack a.2 0 = b.2 ∧ true = true := by
      intro b hb
      cases hb
      rw [hwPush_eq]
      exact ⟨rfl, rfl⟩
    obtain ⟨⟨c', hrun⟩, hshallow⟩ :=
      ih (c := { c with stack := .hw 1 (hwPush 1 stack a.2) }) hok rfl hnext
    refine ⟨⟨c', ?_⟩, hshallow⟩
    rw [stackRun, Program.run_bind_of_ok (stackPush_hw hstack _ _)]
    apply hrun
  | @pop s a n _ _ _ _ _ ih =>
    -- nothing is left after the pop
    have hnil : s = [] := by
      rw [List.length_cons] at hlength
      exact List.eq_nil_of_length_eq_zero (by omega)
    subst hnil
    have hnext : ∀ b, ([] : List (Nat × BitVec 32)).head? = some b →
        (hwPop 1 stack).2 0 = b.2 ∧ false = true := by
      intro b hb
      cases hb
    obtain ⟨⟨c', hrun⟩, hshallow⟩ :=
      ih (c := { c with stack := .hw 1 (hwPop 1 stack).2 }) (by simp) rfl hnext
    obtain ⟨hval, hfresh⟩ := hfirst a rfl
    refine ⟨⟨c', ?_⟩, .inl hfresh, hshallow⟩
    rw [stackRun, Program.run_bind_of_ok (stackPop_hw hstack _), hval,
      Program.run_bind_of_ok hrun]
    rfl

/-- A properly nested sequence of pushes and pops on a hardware stack, with no more pushes
outstanding than it has slots, returns the value of the matching push from every pop if and
only if every pop follows its push directly or takes a value equal to that of the last
slot. -/
theorem hw_stack_lifo
    (hdepth : 1 ≤ depth) (hstack : c.stack = .hw depth stack) {ops : List StackOp}
    {out rest : List (Nat × BitVec 32)} (hnest : HwNest depth [] ops out rest) :
  ∃ vals c', (stackRun ops).run c = .ok (vals, c') ∧
    (vals = out.map Prod.snd ↔ Shallow (stack (depth - 1)) false [] ops)
  := by
  by_cases hone : depth = 1
  · subst hone
    have hfirst : ∀ a, ([] : List (Nat × BitVec 32)).head? = some a →
        stack 0 = a.2 ∧ false = true := by
      intro a ha
      cases ha
    obtain ⟨⟨c', hrun⟩, hshallow⟩ := hwRun_one hnest (by simp) hstack hfirst (z := stack 0)
    use out.map Prod.snd, c', hrun
    simp [hshallow]
  · apply HwInv.run (by omega) hnest hstack
    constructor
    · rfl
    · intro hne
      contradiction
    · intro a ha
      cases ha

end

/-- An at90s2313 with a hardware stack of three slots in place of its stack in SRAM. -/
def AvrCore.threeSlots : AvrCore Unit :=
  { AvrCore.at90s2313 with stack := .hw 3 fun _ => 0 }

/-- A value pushed and popped, twice. -/
theorem hw_stack_lifo_twice :
  ∃ c', (stackRun [.push (2, 5), .pop 2, .push (2, 7), .pop 2]).run AvrCore.threeSlots
    = .ok ([5, 7], c')
  := by
  have hnest : HwNest 3 [] [.push (2, 5), .pop 2, .push (2, 7), .pop 2] [(2, 5), (2, 7)] [] :=
    .push (by decide) (.pop trivial (.push (by decide) (.pop trivial (.nil _))))
  obtain ⟨vals, c', hrun, hiff⟩ :=
    hw_stack_lifo (c := AvrCore.threeSlots) (by decide) rfl hnest
  use c'
  rw [hrun, hiff.mpr ⟨.inl rfl, .inl rfl, trivial⟩]
  rfl

/-- Two nested pushes of 5 and 7: the outer pop does not return 5. -/
theorem hw_stack_lifo_fails :
  HwNest 3 [] [.push (2, 5), .push (2, 7), .pop 2, .pop 2] [(2, 7), (2, 5)] [] ∧
    ¬ ∃ c', (stackRun [.push (2, 5), .push (2, 7), .pop 2, .pop 2]).run AvrCore.threeSlots
      = .ok ([7, 5], c')
  := by
  constructor
  · exact .push (by decide) (.push (by decide) (.pop trivial (.pop trivial (.nil _))))
  · rintro ⟨c', hrun⟩
    have hvals : ((stackRun [.push (2, 5), .push (2, 7), .pop 2, .pop 2]).run
        AvrCore.threeSlots).map Prod.fst = .ok [7, 0] := rfl
    rw [hrun] at hvals
    exact absurd hvals (by simp [Except.map])

end SimulAvr
