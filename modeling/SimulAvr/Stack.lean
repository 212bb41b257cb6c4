import SimulAvr.Memory

/-!
# The stack

The two implementations of the stack: the hardware stack of the devices without SRAM,
and the stack in data memory below the stack pointer, which holds the bytes of a value
with the low byte at the highest address.
-/

namespace SimulAvr

section

variable {δ : Type} [IoDevices δ]

/-- `hw_pop` -/
def hwPop (depth : Nat) (stack : Nat → BitVec 32) : BitVec 32 × (Nat → BitVec 32) :=
  (stack 0, (List.range (depth - 1)).foldl
    (fun stack i => Function.update stack i (stack (i + 1))) stack)

/-- `hw_push`, whose loop counts `i` down from `depth - 1` to `1` -/
def hwPush (depth : Nat) (stack : Nat → BitVec 32) (val : BitVec 32) :
    Nat → BitVec 32 :=
  Function.update
    ((List.range (depth - 1)).reverse.foldl
      (fun stack i => Function.update stack i (stack (i + 1))) stack) 0 val

/-- The loop of `mem_pop` with `i` bytes left to pop. -/
def memPopLoop : Nat → Word → BitVec 32 → CoreM δ (BitVec 32 × Word)
  | 0, sp, val => return (val, sp)
  | i + 1, sp, val => do
    let sp := sp + 1
    let b ← memRead sp.toNat
    memPopLoop i sp (val ||| (b.setWidth 32 <<< (i * 8)))

/-- `mem_pop` -/
def memPop (bytes : Int) : CoreM δ (BitVec 32) := do
  let sp ← gets AvrCore.spGet
  avrErrorIf (bytes < 0 ∨ bytes ≥ 4) "bytes out of bounds: %d" [bytes]
  let (val, sp) ← memPopLoop bytes.toNat sp 0
  update (fun c => c.spSet sp)
  return val

/-- The loop of `mem_push` with `n` bytes left to push. -/
def memPushLoop : Nat → Word → BitVec 32 → CoreM δ Word
  | 0, sp, _ => return sp
  | n + 1, sp, val => do
    memWrite sp.toNat (val.setWidth 8)
    memPushLoop n (sp - 1) (val >>> 8)

/-- `mem_push` -/
def memPush (bytes : Int) (val : BitVec 32) : CoreM δ Unit := do
  let sp ← gets AvrCore.spGet
  avrErrorIf (bytes < 0 ∨ bytes ≥ 4) "bytes out of bounds: %d" [bytes]
  let sp ← memPushLoop bytes.toNat sp val
  update (fun c => c.spSet sp)

/-- `avr_core_stack_pop` -/
def avrCoreStackPop (bytes : Int) : CoreM δ (BitVec 32) := do
  match ← gets AvrCore.stack with
  | .hw depth stack =>
    let (val, stack) := hwPop depth stack
    update (fun c => { c with stack := .hw depth stack })
    return val
  | .mem => memPop bytes

/-- `avr_core_stack_push` -/
def avrCoreStackPush (bytes : Int) (val : BitVec 32) : CoreM δ Unit := do
  match ← gets AvrCore.stack with
  | .hw depth stack =>
    update (fun c => { c with stack := .hw depth (hwPush depth stack val) })
  | .mem => memPush bytes val

end

end SimulAvr
