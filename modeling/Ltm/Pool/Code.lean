import Ltm.Foundations.ByteMemory

/-! # The shared heap: `pool.h`

The pool's code over a byte memory. A `block` header is four fields at fixed offsets: `prev_` at 0,
`next_` at 8, `size_` at 16 (eight bytes each) and the `int` `free_` at 24; with its padding
`sizeof(block)` is 32. The machine state carries, beside the memory, two records that the code never
reads: the byte ranges written, and whether some `size_t` addition or subtraction has wrapped.
`none` is a search loop that ran out of the turns it was given.
-/

namespace Ltm.Heap
open ByteMemory
set_option autoImplicit false
set_option maxHeartbeats 250000

abbrev sizeofBlock : ℕ := 32

abbrev minSize : ℕ := 0xf

/-- A `block` header as it stands in memory; `0` is the null pointer. -/
structure Header where
  prev : ℕ
  next : ℕ
  size : ℕ
  free : ℕ
  deriving DecidableEq, Repr

def header (m : Mem) (b : ℕ) : Header := ⟨load m 8 b, load m 8 (b + 8), load m 8 (b + 16), load m 4 (b + 24)⟩

structure Machine where
  mem : Mem
  written : List (ℕ × ℕ)
  wrapped : Bool

structure Pool where
  size : ℕ
  blocks : ℕ
  deriving DecidableEq, Repr

abbrev Code := StateT Machine Option

/-! ## Arithmetic and memory access -/

/-- `size_t` (and pointer) addition. -/
def add (x y : ℕ) : Code ℕ := fun s =>
  some ((x + y) % 2 ^ 64, { s with wrapped := s.wrapped || decide (2 ^ 64 ≤ x + y) })

/-- `size_t` (and pointer) subtraction. -/
def sub (x y : ℕ) : Code ℕ := fun s =>
  some ((x + 2 ^ 64 - y) % 2 ^ 64, { s with wrapped := s.wrapped || decide (x < y) })

def write (n a v : ℕ) : Code Unit := fun s =>
  some ((), { s with mem := store s.mem n a v, written := s.written ++ [(a, n)] })

def prev (b : ℕ) : Code ℕ := fun s => some ((header s.mem b).prev, s)
def next (b : ℕ) : Code ℕ := fun s => some ((header s.mem b).next, s)
def size (b : ℕ) : Code ℕ := fun s => some ((header s.mem b).size, s)
def free (b : ℕ) : Code ℕ := fun s => some ((header s.mem b).free, s)

def setPrev (b v : ℕ) : Code Unit := write 8 b v
def setNext (b v : ℕ) : Code Unit := write 8 (b + 8) v
def setSize (b v : ℕ) : Code Unit := write 8 (b + 16) v
def setFree (b v : ℕ) : Code Unit := write 4 (b + 24) v

/-- `if (b) b->prev_ = v;` -/
def setPrevOf (b v : ℕ) : Code Unit := if b = 0 then pure () else setPrev b v

/-! ## The member functions -/

/-- `pool::pool` over the region at `origin` (after the `new char[size_]` of a null one); `none` is
`exit(-1)`. -/
def pool (size origin : ℕ) : Code (Option Pool) := do
  if (← sub size sizeofBlock) < minSize then
    return none
  setPrev origin 0
  setNext origin 0
  setFree origin 1
  setSize origin (← sub size sizeofBlock)
  return some ⟨size, origin⟩

/-- The search of `pool::allocate`: the two nested loops share the test at their head, so each turn
is one block. `none` is `return 0`, `some b` the `break`. -/
def scan : ℕ → ℕ → ℕ → Code (Option ℕ)
  | 0, _, _ => fun _ => none
  | turns + 1, n, b => do
    if (← free b) = 0 then
      if (← next b) = 0 then return none
      scan turns n (← next b)
    else if (← size b) < n then
      if (← next b) = 0 then return none
      scan turns n (← next b)
    else
      return some b

/-- The end of `pool::allocate`, with the block `b` found. -/
def take (n b : ℕ) : Code ℕ := do
  if (← sub (← size b) n) < 2 * sizeofBlock then
    setFree b 0
    add b sizeofBlock
  else
    let newBlock ← add (← add b n) sizeofBlock
    setPrevOf (← next b) newBlock
    setNext newBlock (← next b)
    setNext b newBlock
    setPrev newBlock b
    setFree b 0
    setSize newBlock (← sub (← sub (← size b) n) sizeofBlock)
    setSize b n
    setFree newBlock 1
    add b sizeofBlock

/-- `pool::allocate`. A chain of the pool has at most `size_` blocks, and the chain of a new pool one,
so `size_ + 1` turns are enough for the search. -/
def allocate (p : Pool) (n : ℕ) : Code ℕ := do
  if n > (← sub p.size sizeofBlock) then
    return 0
  match ← scan (p.size + 1) n p.blocks with
  | none => return 0
  | some b => take n b

/-- `b->prev_ && b->prev_->free_`. -/
def prevFree (b : ℕ) : Code Bool := do
  if (← prev b) = 0 then
    return false
  return decide ((← free (← prev b)) ≠ 0)

/-- `b->next_ && b->next_->free_`. -/
def nextFree (b : ℕ) : Code Bool := do
  if (← next b) = 0 then
    return false
  return decide ((← free (← next b)) ≠ 0)

def mergeBoth (b : ℕ) : Code Unit := do
  let s ← add (← add (← size b) (← size (← next b))) (2 * sizeofBlock)
  setSize (← prev b) (← add (← size (← prev b)) s)
  setNext (← prev b) (← next (← next b))
  setPrevOf (← next (← next b)) (← prev b)

def mergePrev (b : ℕ) : Code Unit := do
  let s ← add (← size b) sizeofBlock
  setSize (← prev b) (← add (← size (← prev b)) s)
  setNext (← prev b) (← next b)
  setPrevOf (← next b) (← prev b)
  setFree b 1

def mergeNext (b : ℕ) : Code Unit := do
  let s ← add (← size (← next b)) sizeofBlock
  setSize b (← add (← size b) s)
  setNext b (← next (← next b))
  setPrevOf (← next b) b
  setFree b 1

def deallocate (p : ℕ) : Code Unit := do
  if p = 0 then
    return
  let b ← sub p sizeofBlock
  if (← prevFree b) && (← nextFree b) then
    mergeBoth b
  else if ← prevFree b then
    mergePrev b
  else if ← nextFree b then
    mergeNext b
  else
    setFree b 1

end Ltm.Heap
