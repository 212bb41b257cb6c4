import SimulAvr.Lib.Lifo
import SimulAvr.StackMemory
import SimulAvr.Device

/-!
# Nested pushes and pops

The stack in SRAM as a stack of values: every properly nested sequence of pushes and pops
of one to three bytes returns from each pop the value of the matching push, truncated to
its bytes (`mem_stack_lifo`).
-/

namespace SimulAvr

open Lifo

section

variable {δ : Type}

/-- An operation on a stack: a push of the low bytes of a value, or a pop of bytes. -/
abbrev StackOp : Type :=
  Op (Nat × BitVec 32) Nat

namespace StackOp

/-- The number of bytes of an operation. -/
def bytes : StackOp → Nat
  | .push (n, _) => n
  | .pop n => n

/-- The stack pointer after an operation. -/
def move (sp : Word) : StackOp → Word
  | .push (n, _) => sp - .ofNat 16 n
  | .pop n => sp + .ofNat 16 n

end StackOp

/-- The operations on the stack of a core, which return the values of the pops. -/
def stackRun [IoDevices δ] : List StackOp → CoreM δ (List (BitVec 32))
  | [] => return []
  | .push (n, val) :: ops => do
    avrCoreStackPush n val
    stackRun ops
  | .pop n :: ops => do
    let val ← avrCoreStackPop n
    let vals ← stackRun ops
    return val :: vals

/-! ### The stack of values -/

/-- The number of bytes on a stack of values. -/
def stackBytes (s : List (Nat × BitVec 32)) : Nat :=
  (s.map Prod.fst).sum

/-- The properly nested sequences whose values never take more than `size` bytes: each pop
has the byte count of the matching push. -/
abbrev StackNest (size : Nat) : List (Nat × BitVec 32) → List StackOp →
    List (Nat × BitVec 32) → List (Nat × BitVec 32) → Prop :=
  Nest (fun a n => a.1 = n) (fun s => stackBytes s ≤ size)

/-- The `size` bytes at the stack pointer and below are in SRAM. -/
structure StackArea (c : AvrCore δ) (size : Nat) : Prop where
  stack : c.stack = .mem
  room : size ≤ 2 ^ 16
  sram : ∀ i < size, c.layout.IsSram (c.spGet - .ofNat 16 i)

/-- The core with another content of the SRAM, another stack pointer, and other messages to
the display. -/
def AvrCore.withStack (c : AvrCore δ) (data : Int → Byte) (spl sph : Byte)
    (display : List DisplayMsg) : AvrCore δ :=
  { c with
    sram := { c.sram with data := data }
    sp := { c.sp with spl := spl, sph := sph }
    display := display }

/-- What operations change that leave the values `s` on the stack: the stack pointer, and
bytes of the stack area. -/
structure NestEffect (c : AvrCore δ) (size : Nat) (s : List (Nat × BitVec 32))
    (c' : AvrCore δ) : Prop where
  sp : c'.spGet = c.spGet - .ofNat 16 (stackBytes s)
  outside : ∀ a, (∀ i < size, a ≠ c.spGet - .ofNat 16 i) → c'.sramByte a = c.sramByte a
  frame : ∃ data spl sph display, c' = c.withStack data spl sph display

/-- The bytes below `top` hold a stack of values, the newest lowest. -/
def StackHolds (c : AvrCore δ) (top : Word) : List (Nat × BitVec 32) → Prop
  | [] => True
  | (n, val) :: s => c.HoldsBytes (top - .ofNat 16 (stackBytes s)) n val ∧ StackHolds c top s

/-- The invariant of the operations: the values `s` are on the stack that starts at the
stack pointer of `c`. -/
structure NestInv (c : AvrCore δ) (size : Nat) (s : List (Nat × BitVec 32))
    (c' : AvrCore δ) : Prop extends NestEffect c size s c' where
  holds : StackHolds c' c.spGet s
  le : stackBytes s ≤ size

theorem stackBytes_cons
    (n : Nat) (val : BitVec 32) (s : List (Nat × BitVec 32)) :
  stackBytes ((n, val) :: s) = n + stackBytes s
  := by
  rw [stackBytes, List.map_cons, List.sum_cons]
  rfl

theorem stack_address_add
    (top : Word) (i j : Nat) :
  top - BitVec.ofNat 16 i - BitVec.ofNat 16 j = top - BitVec.ofNat 16 (i + j)
  := by
  rw [BitVec.ofNat_add]
  bv_omega

/-- The bytes that do not belong to the values on the stack do not matter. -/
theorem StackHolds.keep
    {c c' : AvrCore δ} {top : Word} {s : List (Nat × BitVec 32)} (h : StackHolds c top s)
    (hbytes : ∀ i < stackBytes s,
      c'.sramByte (top - .ofNat 16 i) = c.sramByte (top - .ofNat 16 i)) :
  StackHolds c' top s
  := by
  induction s with
  | nil => trivial
  | cons a s ih =>
    obtain ⟨n, val⟩ := a
    obtain ⟨hholds, hs⟩ := h
    rw [stackBytes_cons] at hbytes
    constructor
    · intro i hi
      rw [← hholds i hi, stack_address_add]
      apply hbytes
      omega
    · apply ih hs
      intro i hi
      apply hbytes
      omega

theorem NestEffect.layout
    {c c' : AvrCore δ} {size : Nat} {s : List (Nat × BitVec 32)} (h : NestEffect c size s c') :
  c'.layout = c.layout ∧ c'.stack = c.stack
  := by
  obtain ⟨data, spl, sph, display, rfl⟩ := h.frame
  exact ⟨rfl, rfl⟩

variable [IoDevices δ] {c c₁ : AvrCore δ} {size n : Nat} {val : BitVec 32}
  {s : List (Nat × BitVec 32)}

/-- A push adds its value to the stack. -/
theorem NestInv.push
    (harea : StackArea c size) (h : NestInv c size s c₁) (hn : n < 4)
    (hle : stackBytes ((n, val) :: s) ≤ size) :
  ∃ c₂, (avrCoreStackPush n val).run c₁ = .ok ((), c₂) ∧ NestInv c size ((n, val) :: s) c₂
  := by
  obtain ⟨hlayout, hstack⟩ := h.layout
  rw [stackBytes_cons] at hle
  have hroom := harea.room
  have hsram : ∀ i < (n : Int).toNat, c₁.layout.IsSram (c₁.spGet - .ofNat 16 i) := by
    intro i hi
    rw [hlayout, h.sp, stack_address_add]
    apply harea.sram
    omega
  obtain ⟨data, display, hrun, hholds, hkeep⟩ :=
    stackPush_run (by omega) val (hstack.trans harea.stack) hsram
  rw [Int.toNat_natCast] at hrun hholds hkeep
  rw [h.sp] at hholds hkeep
  refine ⟨_, hrun, ?_⟩
  constructor
  · constructor
    · rw [spGet_spSet, h.sp, stack_address_add, stackBytes_cons, Nat.add_comm]
    · intro a ha
      rw [← h.outside a ha]
      apply hkeep
      intro i hi
      rw [stack_address_add]
      apply ha
      omega
    · obtain ⟨data₁, spl, sph, display₁, rfl⟩ := h.frame
      exact ⟨data, _, _, _, rfl⟩
  · constructor
    · apply hholds
    · apply h.holds.keep
      intro i hi
      apply hkeep
      intro j hj
      rw [stack_address_add]
      apply stack_address_ne <;> omega
  · rw [stackBytes_cons]
    apply hle

/-- A pop takes the newest value from the stack. -/
theorem NestInv.pop
    (harea : StackArea c size) (h : NestInv c size ((n, val) :: s) c₁) (hn : n < 4) :
  ∃ c₂, (avrCoreStackPop n).run c₁ = .ok (lowBytes n val, c₂) ∧ NestInv c size s c₂
  := by
  obtain ⟨hlayout, hstack⟩ := h.layout
  have hle := h.le
  have hsp := h.sp
  rw [stackBytes_cons] at hle hsp
  rw [Nat.add_comm, ← stack_address_add] at hsp
  obtain ⟨hholds, hs⟩ := h.holds
  have hsram : ∀ i < (n : Int).toNat,
      c₁.layout.IsSram (c.spGet - .ofNat 16 (stackBytes s) - .ofNat 16 i) := by
    intro i hi
    rw [hlayout, stack_address_add]
    apply harea.sram
    omega
  have hrun := stackPop_run (by omega) (hstack.trans harea.stack) hsp hsram hholds
  rw [Int.toNat_natCast] at hrun
  refine ⟨_, hrun, ?_⟩
  constructor
  · constructor
    · apply spGet_spSet
    · apply h.outside
    · obtain ⟨data₁, spl, sph, display₁, rfl⟩ := h.frame
      exact ⟨data₁, _, _, _, rfl⟩
  · apply hs.keep
    intro i _
    rfl
  · omega

/-- A nested sequence returns the values that it pops. -/
theorem NestInv.run
    (harea : StackArea c size) {ops : List StackOp} (hbytes : ∀ op ∈ ops, op.bytes < 4)
    {out t : List (Nat × BitVec 32)} (hnest : StackNest size s ops out t)
    (h : NestInv c size s c₁) :
  ∃ c₂, (stackRun ops).run c₁ = .ok (out.map fun a => lowBytes a.1 a.2, c₂) ∧
    NestInv c size t c₂
  := by
  induction hnest generalizing c₁ with
  | nil s => exact ⟨c₁, rfl, h⟩
  | @push _ a _ _ _ hok _ ih =>
    have hn : a.1 < 4 := hbytes _ List.mem_cons_self
    obtain ⟨c₂, hpush, h₂⟩ := h.push harea hn hok
    obtain ⟨c₃, hrun, h₃⟩ := ih (fun op hop => hbytes op (List.mem_cons_of_mem _ hop)) h₂
    refine ⟨c₃, ?_, h₃⟩
    rw [stackRun, Program.run_bind_of_ok hpush, hrun]
  | @pop _ a _ _ _ _ hfits _ ih =>
    subst hfits
    have hn : a.1 < 4 := hbytes _ List.mem_cons_self
    obtain ⟨c₂, hpop, h₂⟩ := h.pop harea hn
    obtain ⟨c₃, hrun, h₃⟩ := ih (fun op hop => hbytes op (List.mem_cons_of_mem _ hop)) h₂
    refine ⟨c₃, ?_, h₃⟩
    rw [stackRun, Program.run_bind_of_ok hpop, Program.run_bind_of_ok hrun]
    rfl

omit [IoDevices δ] in
/-- Before the first operation the stack is empty. -/
theorem NestInv.refl
    (c : AvrCore δ) (size : Nat) :
  NestInv c size [] c
  := by
  constructor
  · constructor
    · rw [show stackBytes [] = 0 from rfl]
      simp
    · intro a _
      rfl
    · exact ⟨_, _, _, _, rfl⟩
  · trivial
  · apply Nat.zero_le

omit [IoDevices δ] in
/-- An operation moves the stack pointer by its bytes. -/
theorem NestInv.move
    {c₂ : AvrCore δ} {op : StackOp} {out t : List (Nat × BitVec 32)}
    (hop : StackNest size s [op] out t) (h : NestInv c size s c₁) (h' : NestInv c size t c₂) :
  c₂.spGet = op.move c₁.spGet
  := by
  rw [h.sp, h'.sp]
  cases hop with
  | @push _ a _ _ _ _ hnil =>
    cases hnil
    rw [StackOp.move, stack_address_add, stackBytes_cons, Nat.add_comm]
  | @pop _ a n _ _ _ hfits hnil =>
    cases hnil
    rw [StackOp.move, stackBytes_cons, hfits, Nat.add_comm, ← stack_address_add]
    bv_omega

/-- A properly nested sequence of pushes and pops of one to three bytes, on a stack whose area
is in SRAM, returns the truncated value of the matching push from every pop; it changes the
stack pointer as the values left on the stack prescribe, each operation by its byte count,
and otherwise only bytes of the area. -/
theorem mem_stack_lifo
    {c : AvrCore δ} {size : Nat} (harea : StackArea c size) {ops : List StackOp}
    (hbytes : ∀ op ∈ ops, 1 ≤ op.bytes ∧ op.bytes ≤ 3) {out rest : List (Nat × BitVec 32)}
    (hnest : StackNest size [] ops out rest) :
  (∃ c', (stackRun ops).run c = .ok (out.map fun a => lowBytes a.1 a.2, c') ∧
    NestEffect c size rest c' ∧ (rest = [] → c'.spGet = c.spGet)) ∧
  ∀ ops₁ op ops₂, ops = ops₁ ++ op :: ops₂ → ∃ vals c₁ vals' c₂,
    (stackRun ops₁).run c = .ok (vals, c₁) ∧ (stackRun [op]).run c₁ = .ok (vals', c₂) ∧
    c₂.spGet = op.move c₁.spGet
  := by
  have hlt (op) (hop : op ∈ ops) : op.bytes < 4 := by
    have := hbytes op hop
    omega
  constructor
  · obtain ⟨c', hrun, h⟩ := (NestInv.refl c size).run harea hlt hnest
    refine ⟨c', hrun, h.toNestEffect, ?_⟩
    rintro rfl
    rw [h.sp, show stackBytes [] = 0 from rfl]
    simp
  · rintro ops₁ op ops₂ rfl
    rw [List.append_cons] at hnest hlt
    obtain ⟨_, _, u, _, hfirst, _⟩ := hnest.append_inv
    obtain ⟨_, _, t, _, hbefore, hop⟩ := hfirst.append_inv
    obtain ⟨c₁, hrun₁, h₁⟩ := (NestInv.refl c size).run harea
      (fun op hop => hlt op (by simp [hop])) hbefore
    obtain ⟨c₂, hrun₂, h₂⟩ := h₁.run harea (fun op' hop' => hlt op' (by simp at hop'; simp [hop']))
      hop
    exact ⟨_, c₁, _, c₂, hrun₁, hrun₂, h₁.move hop h₂⟩

end

/-- A push of two bytes around a push of one byte, in an at90s2313. -/
theorem mem_stack_lifo_at90s2313 :
  ∃ c', (stackRun [.push (2, 0x1234), .push (1, 0x56), .pop 1, .pop 2]).run AvrCore.at90s2313
    = .ok ([0x56, 0x1234], c') ∧ c'.spGet = AvrCore.at90s2313.spGet
  := by
  have harea : StackArea AvrCore.at90s2313 3 := ⟨rfl, by decide, by decide⟩
  have hnest : StackNest 3 [] [.push (2, 0x1234), .push (1, 0x56), .pop 1, .pop 2]
      [(1, 0x56), (2, 0x1234)] [] :=
    .push (by decide) (.push (by decide) (.pop rfl (.pop rfl (.nil _))))
  obtain ⟨⟨c', hrun, -, hsp⟩, -⟩ := mem_stack_lifo harea (by decide) hnest
  exact ⟨c', hrun, hsp rfl⟩

end SimulAvr
