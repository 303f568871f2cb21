import Ltm.Pool.Chain

/-! # Symbolic runs of the pool's code

What each piece of the code of `pool.h` does to the machine, when the headers it reads hold the
values given and no sum leaves 64 bits: the value returned, the memory, and the ranges written.
The `_bind` lemmas run one operation at the head of a block of code.
-/

namespace Ltm.Heap
open ByteMemory FirstFit
set_option autoImplicit false
set_option maxHeartbeats 250000

section Operations
variable {m : Mem} {w : List (ℕ × ℕ)} {x y : ℕ} {c : Bool}

theorem bind_run {α β : Type} (d : Code α) (f : α → Code β) (s : Machine) :
    (d >>= f) s = (d s).bind fun r => f r.1 r.2 := (rfl)

theorem bind_some_run {α β : Type} (r : α × Machine) (f : α × Machine → Option β) :
    (some r).bind f = f r := (rfl)

theorem pure_run {α : Type} (a : α) (s : Machine) : (pure a : Code α) s = some (a, s) := (rfl)

theorem add_run (h : x + y < 2 ^ 64) : add x y ⟨m, w, false⟩ = some (x + y, ⟨m, w, false⟩) := by
  have h' : ¬ 2 ^ 64 ≤ x + y := by omega
  simp only [add, Nat.mod_eq_of_lt h, h', decide_false, Bool.or_false]

theorem sub_run (h : y ≤ x ∧ x < 2 ^ 64) :
    sub x y ⟨m, w, false⟩ = some (x - y, ⟨m, w, false⟩) := by
  have e : (x + 2 ^ 64 - y) % 2 ^ 64 = x - y := by omega
  have h' : ¬ x < y := by omega
  simp only [sub, e, h', decide_false, Bool.or_false]

def logOf (b : ℕ) : List (ℕ × ℕ) := if b = 0 then [] else [(b, 8)]

theorem setPrevOf_run (b v : ℕ) :
    setPrevOf b v ⟨m, w, c⟩ = some ((), ⟨putPrevOf m b v, w ++ logOf b, c⟩) := by
  unfold setPrevOf putPrevOf logOf
  split
  · simp [pure_run]
  · rfl

theorem setFree_run (b v : ℕ) :
    setFree b v ⟨m, w, c⟩ = some ((), ⟨putFree m b v, w ++ [(b + 24, 4)], c⟩) := (rfl)

variable {α : Type} (b v : ℕ) (f : ℕ → Code α) (g : Unit → Code α)

theorem add_bind (h : x + y < 2 ^ 64) :
    (add x y >>= f) ⟨m, w, false⟩ = f (x + y) ⟨m, w, false⟩ := by
  rw [bind_run, add_run h, bind_some_run]

theorem sub_bind (h : y ≤ x ∧ x < 2 ^ 64) :
    (sub x y >>= f) ⟨m, w, false⟩ = f (x - y) ⟨m, w, false⟩ := by
  rw [bind_run, sub_run h, bind_some_run]

theorem prev_bind (s : Machine) : (prev b >>= f) s = f (header s.mem b).prev s := (rfl)
theorem next_bind (s : Machine) : (next b >>= f) s = f (header s.mem b).next s := (rfl)
theorem size_bind (s : Machine) : (size b >>= f) s = f (header s.mem b).size s := (rfl)
theorem free_bind (s : Machine) : (free b >>= f) s = f (header s.mem b).free s := (rfl)

theorem setPrev_bind :
    (setPrev b v >>= g) ⟨m, w, c⟩ = g () ⟨putPrev m b v, w ++ [(b, 8)], c⟩ := (rfl)

theorem setNext_bind :
    (setNext b v >>= g) ⟨m, w, c⟩ = g () ⟨putNext m b v, w ++ [(b + 8, 8)], c⟩ := (rfl)

theorem setSize_bind :
    (setSize b v >>= g) ⟨m, w, c⟩ = g () ⟨putSize m b v, w ++ [(b + 16, 8)], c⟩ := (rfl)

theorem setFree_bind :
    (setFree b v >>= g) ⟨m, w, c⟩ = g () ⟨putFree m b v, w ++ [(b + 24, 4)], c⟩ := (rfl)

theorem setPrevOf_bind :
    (setPrevOf b v >>= g) ⟨m, w, c⟩ = g () ⟨putPrevOf m b v, w ++ logOf b, c⟩ := by
  rw [bind_run, setPrevOf_run, bind_some_run]

end Operations

/-! ## `allocate` on the block found -/

section Take
variable {m : Mem} {w : List (ℕ × ℕ)} {n b x y s f : ℕ}

theorem take_whole (hb : header m b = ⟨x, y, s, f⟩) (hn : n ≤ s) (hr : s - n < 64)
    (hb64 : b + 32 + s < 2 ^ 64) :
    take n b ⟨m, w, false⟩ = some (b + 32, ⟨putFree m b 0, w ++ [(b + 24, 4)], false⟩) := by
  unfold take
  simp (disch := omega) only [sizeofBlock, Nat.reduceMul, ↓size_bind, hb, ↓sub_bind, if_pos hr,
    ↓setFree_bind, add_run]

/-- The memory after a split: `y` is the block after `b`, if any. -/
def splitMem (m : Mem) (b n s y : ℕ) : Mem :=
  let z := b + n + 32
  putFree (putSize (putSize (putFree (putPrev (putNext (putNext (putPrevOf m y z) z y) b z) z b)
    b 0) z (s - n - 32)) b n) z 1

def splitLog (b n y : ℕ) : List (ℕ × ℕ) :=
  let z := b + n + 32
  logOf y ++ [(z + 8, 8), (b + 8, 8), (z, 8), (b + 24, 4), (z + 16, 8), (b + 16, 8), (z + 24, 4)]

theorem take_split (hb : header m b = ⟨x, y, s, f⟩) (hr : 64 ≤ s - n)
    (hb64 : b + 32 + s ≤ 2 ^ 64) (hy : y = 0 ∨ b + 32 + s ≤ y) :
    take n b ⟨m, w, false⟩ =
      some (b + 32, ⟨splitMem m b n s y, w ++ splitLog b n y, false⟩) := by
  have hr' : ¬ s - n < 64 := by omega
  unfold take
  simp (disch := omega) only [sizeofBlock, Nat.reduceMul, ↓size_bind, hb, ↓sub_bind, if_neg hr',
    ↓add_bind, ↓next_bind, ↓setPrevOf_bind, ↓setNext_bind, ↓setPrev_bind, ↓setFree_bind,
    ↓setSize_bind, header_putPrevOf_apart, header_putNext_apart, header_putPrev_apart,
    header_putNext, header_putFree, add_run, splitMem, splitLog, List.append_assoc,
    List.cons_append, List.nil_append]

end Take

/-! ## `deallocate` -/

section Deallocate
variable {m : Mem} {w : List (ℕ × ℕ)} {b x y s f : ℕ}

def FreeAt (m : Mem) (x : ℕ) : Prop := x ≠ 0 ∧ (header m x).free ≠ 0

instance (m : Mem) (x : ℕ) : Decidable (FreeAt m x) := inferInstanceAs (Decidable (_ ∧ _))

theorem prevFree_bind {α : Type} (k : Bool → Code α) (hb : header m b = ⟨x, y, s, f⟩) :
    (prevFree b >>= k) ⟨m, w, false⟩ = k (decide (FreeAt m x)) ⟨m, w, false⟩ := by
  unfold prevFree
  rw [bind_run, prev_bind, hb]
  by_cases hx : x = 0
  · rw [if_pos hx, pure_run, bind_some_run]
    simp [FreeAt, hx]
  · rw [if_neg hx, prev_bind, hb, free_bind, pure_run, bind_some_run]
    simp [FreeAt, hx]

theorem nextFree_bind {α : Type} (k : Bool → Code α) (hb : header m b = ⟨x, y, s, f⟩) :
    (nextFree b >>= k) ⟨m, w, false⟩ = k (decide (FreeAt m y)) ⟨m, w, false⟩ := by
  unfold nextFree
  rw [bind_run, next_bind, hb]
  by_cases hy : y = 0
  · rw [if_pos hy, pure_run, bind_some_run]
    simp [FreeAt, hy]
  · rw [if_neg hy, next_bind, hb, free_bind, pure_run, bind_some_run]
    simp [FreeAt, hy]

theorem deallocate_run (hb : header m b = ⟨x, y, s, f⟩) (hb64 : b + 32 < 2 ^ 64) :
    deallocate (b + 32) ⟨m, w, false⟩ =
      (if FreeAt m x then if FreeAt m y then mergeBoth b else mergePrev b
        else if FreeAt m y then mergeNext b else setFree b 1) ⟨m, w, false⟩ := by
  have h0 : ¬ b + 32 = 0 := by omega
  unfold deallocate
  rw [if_neg h0, sub_bind _ ⟨by simp, hb64⟩, Nat.add_sub_cancel, prevFree_bind _ hb,
    nextFree_bind _ hb]
  by_cases hx : FreeAt m x <;> by_cases hy : FreeAt m y <;>
    simp [hx, hy, prevFree_bind _ hb, nextFree_bind _ hb]

variable {px sx fx qy sy fy : ℕ}

theorem mergeBoth_run (hb : header m b = ⟨x, y, s, f⟩) (hx : header m x = ⟨px, b, sx, fx⟩)
    (hy : header m y = ⟨b, qy, sy, fy⟩) (hxb : x + 32 + sx = b) (hby : b + 32 + s = y)
    (h64 : y + 32 + sy ≤ 2 ^ 64) :
    mergeBoth b ⟨m, w, false⟩ = some ((),
      ⟨putPrevOf (putNext (putSize m x (sx + (s + sy + 64))) x qy) qy x,
        w ++ [(x + 16, 8), (x + 8, 8)] ++ logOf qy, false⟩) := by
  unfold mergeBoth
  simp (disch := omega) only [sizeofBlock, Nat.reduceMul, ↓size_bind, ↓next_bind, ↓prev_bind, hb,
    hx, hy, ↓add_bind, ↓setSize_bind, ↓setNext_bind, header_putSize_apart, header_putNext_apart,
    setPrevOf_run, List.append_assoc, List.cons_append, List.nil_append]

theorem mergePrev_run (hb : header m b = ⟨x, y, s, f⟩) (hx : header m x = ⟨px, b, sx, fx⟩)
    (hxb : x + 32 + sx = b) (h64 : b + 32 + s ≤ 2 ^ 64) :
    mergePrev b ⟨m, w, false⟩ = some ((),
      ⟨putFree (putPrevOf (putNext (putSize m x (sx + (s + 32))) x y) y x) b 1,
        w ++ [(x + 16, 8), (x + 8, 8)] ++ logOf y ++ [(b + 24, 4)], false⟩) := by
  unfold mergePrev
  simp (disch := omega) only [sizeofBlock, ↓size_bind, ↓next_bind, ↓prev_bind, hb, hx, ↓add_bind,
    ↓setSize_bind, ↓setNext_bind, ↓setPrevOf_bind, header_putSize_apart, header_putNext_apart,
    setFree_run, List.append_assoc, List.cons_append, List.nil_append]

theorem mergeNext_run (hb : header m b = ⟨x, y, s, f⟩) (hy : header m y = ⟨b, qy, sy, fy⟩)
    (hby : b + 32 + s = y) (hq64 : qy < 2 ^ 64) (h64 : y + 32 + sy ≤ 2 ^ 64) :
    mergeNext b ⟨m, w, false⟩ = some ((),
      ⟨putFree (putPrevOf (putNext (putSize m b (s + (sy + 32))) b qy) qy b) b 1,
        w ++ [(b + 16, 8), (b + 8, 8)] ++ logOf qy ++ [(b + 24, 4)], false⟩) := by
  unfold mergeNext
  simp (disch := omega) only [sizeofBlock, ↓size_bind, ↓next_bind, hb, hy, ↓add_bind,
    ↓setSize_bind, ↓setNext_bind, ↓setPrevOf_bind, header_putSize, header_putSize_apart,
    header_putNext, setFree_run, List.append_assoc, List.cons_append, List.nil_append]

end Deallocate

/-! ## The ranges written are header fields -/

section InHeaders
variable {o : ℕ} {l : List Blk} {w w' : List (ℕ × ℕ)}

/-- The ranges `w` lie inside headers of the tiling `l`. -/
def InHeaders (o : ℕ) (l : List Blk) (w : List (ℕ × ℕ)) : Prop :=
  ∀ r ∈ w, ∃ u ∈ place 32 o l, u.1 ≤ r.1 ∧ r.1 + r.2 ≤ u.1 + 32

/-- The fields of a `block`, each its offset and its bytes. -/
def fields : List (ℕ × ℕ) := [(0, 8), (8, 8), (16, 8), (24, 4)]

theorem fields_bounds : ∀ f ∈ fields, f.1 + f.2 ≤ 32 ∧ 8 ∣ f.1 := by decide

/-- The ranges `w` are fields of headers of the tiling `l`. -/
def InFields (o : ℕ) (l : List Blk) (w : List (ℕ × ℕ)) : Prop :=
  ∀ r ∈ w, ∃ u ∈ place 32 o l, ∃ f ∈ fields, r = (u.1 + f.1, f.2)

theorem InFields.inHeaders (h : InFields o l w) : InHeaders o l w := by
  intro r hr
  obtain ⟨u, hu, f, hf, rfl⟩ := h r hr
  have hin := (fields_bounds f hf).1
  exact ⟨u, hu, by simp, by simp only; omega⟩

theorem inFields_nil (o : ℕ) (l : List Blk) : InFields o l [] := by
  simp [InFields]

theorem inFields_append (h : InFields o l w) (h' : InFields o l w') : InFields o l (w ++ w') :=
  fun r hr => (List.mem_append.mp hr).elim (h r) (h' r)

theorem inFields_cons {x k n : ℕ} {b : Blk} (hx : (x, b) ∈ place 32 o l) (hf : (k, n) ∈ fields)
    (h : InFields o l w) : InFields o l ((x + k, n) :: w) := by
  intro r hr
  rcases List.mem_cons.mp hr with rfl | hr
  · exact ⟨(x, b), hx, (k, n), hf, rfl⟩
  · exact h r hr

theorem inFields_logOf {x : ℕ} (h : x = 0 ∨ ∃ b, (x, b) ∈ place 32 o l) : InFields o l (logOf x) := by
  unfold logOf
  split
  · exact inFields_nil o l
  · next hx =>
    obtain ⟨b, hb⟩ := h.resolve_left hx
    exact inFields_cons (k := 0) hb (by decide) (inFields_nil o l)

end InHeaders

end Ltm.Heap
