import Mathlib.Logic.Function.Basic
import Mathlib.Algebra.Order.Ring.Nat
import Mathlib.Tactic.Ring

/-! # A byte-addressed memory with little-endian numbers

`load n a` reads the `n`-byte little-endian number that starts at address `a`, `store n a v` writes
one. A store is seen by a load of the same bytes (`load_store_self`) and by no load of other bytes
(`load_store_of_apart`); every byte outside the written range keeps its value (`store_outside`).
`put a bs` writes a byte string; the fields of a record written so are read back (`loads_put_encode`).
-/

namespace Ltm.ByteMemory
set_option autoImplicit false
set_option maxHeartbeats 250000

abbrev Mem := ℕ → UInt8

/-- The `n`-byte little-endian number at address `a`. -/
def load (m : Mem) : ℕ → ℕ → ℕ
  | 0, _ => 0
  | n + 1, a => (m a).toNat + 256 * load m n (a + 1)

def store (m : Mem) : ℕ → ℕ → ℕ → Mem
  | 0, _, _ => m
  | n + 1, a, v => store (Function.update m a (UInt8.ofNat v)) n (a + 1) (v / 256)

/-- Two byte ranges, each a start address and a length, have no byte in common. -/
def Apart (a n b k : ℕ) : Prop := a + n ≤ b ∨ b + k ≤ a

theorem store_outside (n : ℕ) (m : Mem) (a v x : ℕ) (h : x < a ∨ a + n ≤ x) :
    store m n a v x = m x := by
  induction n generalizing m a v with
  | zero => rfl
  | succ n ih =>
      rw [store, ih _ (a + 1) (v / 256) (by omega)]
      exact Function.update_of_ne (by omega) _ _

theorem load_congr (n : ℕ) (m m' : Mem) (a : ℕ) (h : ∀ x, a ≤ x → x < a + n → m x = m' x) :
    load m n a = load m' n a := by
  induction n generalizing a with
  | zero => rfl
  | succ n ih =>
      have htail : load m n (a + 1) = load m' n (a + 1) :=
        ih (a + 1) fun x h1 h2 => h x (by omega) (by omega)
      rw [load, load, h a (by omega) (by omega), htail]

theorem load_store_self (n : ℕ) (m : Mem) (a v : ℕ) : load (store m n a v) n a = v % 256 ^ n := by
  induction n generalizing m a v with
  | zero => simp [load, Nat.mod_one]
  | succ n ih =>
      have hhead : store m (n + 1) a v a = UInt8.ofNat v := by
        rw [store, store_outside n _ (a + 1) (v / 256) a (by omega), Function.update_self]
      have htail : load (store m (n + 1) a v) n (a + 1) = v / 256 % 256 ^ n :=
        ih (Function.update m a (UInt8.ofNat v)) (a + 1) (v / 256)
      rw [load, hhead, htail, pow_succ', Nat.mod_mul]
      simp

theorem load_store_of_apart {m : Mem} {n a v k b : ℕ} (h : Apart a n b k) :
    load (store m n a v) k b = load m k b :=
  load_congr k _ _ b fun x h1 h2 => store_outside n m a v x (by unfold Apart at h; omega)

theorem load_store_of_lt {m : Mem} {n a v : ℕ} (h : v < 256 ^ n) :
    load (store m n a v) n a = v := by
  rw [load_store_self, Nat.mod_eq_of_lt h]

example : load (store (fun _ => 0) 4 10 0x01020304) 4 10 = 0x01020304 := by decide

/-! ## Byte strings -/

/-- The memory with the bytes `bs` from address `a` on. -/
def put (m : Mem) : ℕ → List UInt8 → Mem
  | _, [] => m
  | a, b :: bs => put (Function.update m a b) (a + 1) bs

/-- The `n` bytes from address `a` on. -/
def bytes (m : Mem) (a n : ℕ) : List UInt8 := (List.range n).map fun j => m (a + j)

/-- The `n`-byte little-endian form of a number. -/
def bytesOf : ℕ → ℕ → List UInt8
  | 0, _ => []
  | n + 1, v => UInt8.ofNat v :: bytesOf n (v / 256)

theorem length_bytesOf (n v : ℕ) : (bytesOf n v).length = n := by
  induction n generalizing v with
  | zero => rfl
  | succ n ih => rw [bytesOf, List.length_cons, ih]

theorem put_bytesOf (m : Mem) (n a v : ℕ) : put m a (bytesOf n v) = store m n a v := by
  induction n generalizing m a v with
  | zero => rfl
  | succ n ih => rw [bytesOf, put, ih, store]

theorem put_append (m : Mem) (a : ℕ) (bs cs : List UInt8) :
    put m a (bs ++ cs) = put (put m a bs) (a + bs.length) cs := by
  induction bs generalizing m a with
  | nil => rfl
  | cons b bs ih =>
      have e : a + 1 + bs.length = a + (b :: bs).length := by
        rw [List.length_cons]
        omega
      rw [List.cons_append, put, put, ih, e]

theorem put_outside {m : Mem} {a x : ℕ} {bs : List UInt8} (h : x < a ∨ a + bs.length ≤ x) :
    put m a bs x = m x := by
  induction bs generalizing m a with
  | nil => rfl
  | cons b bs ih =>
      rw [List.length_cons] at h
      rw [put, ih (by omega)]
      exact Function.update_of_ne (by omega) _ _

theorem put_inside {m : Mem} {a j : ℕ} {bs : List UInt8} (h : j < bs.length) :
    put m a bs (a + j) = bs[j] := by
  induction bs generalizing m a j with
  | nil => exact absurd h (by simp)
  | cons b bs ih =>
      cases j with
      | zero =>
          rw [put, put_outside (by omega)]
          exact Function.update_self a b m
      | succ j =>
          have hj : j < bs.length := by simpa using h
          have e : a + (j + 1) = a + 1 + j := by omega
          rw [put, e, ih hj]
          rfl

/-- Inside the bytes written the earlier memory makes no difference. -/
theorem put_congr {m m' : Mem} {a x : ℕ} {bs : List UInt8} (h1 : a ≤ x) (h2 : x < a + bs.length) :
    put m a bs x = put m' a bs x := by
  obtain ⟨j, rfl⟩ := Nat.exists_eq_add_of_le h1
  have hj : j < bs.length := by omega
  rw [put_inside hj, put_inside hj]

theorem put_replicate {m : Mem} {n x : ℕ} {b : UInt8} (h : n ≤ x) :
    put m 0 (List.replicate n b) x = m x :=
  put_outside (Or.inr (by simpa using h))

theorem bytes_put (m : Mem) (a : ℕ) (bs : List UInt8) : bytes (put m a bs) a bs.length = bs := by
  apply List.ext_getElem
  · simp [bytes]
  · intro j h1 h2
    simp only [bytes, List.getElem_map, List.getElem_range]
    exact put_inside h2

theorem bytes_congr {m m' : Mem} {a n : ℕ} (h : ∀ x, a ≤ x → x < a + n → m x = m' x) :
    bytes m a n = bytes m' a n := by
  refine List.map_congr_left fun j hj => h (a + j) (by omega) ?_
  have := List.mem_range.mp hj
  omega

theorem load_put_append (m : Mem) (n a v : ℕ) (bs : List UInt8) :
    load (put m a (bytesOf n v ++ bs)) n a = v % 256 ^ n := by
  have htail : load (put m a (bytesOf n v ++ bs)) n a = load (put m a (bytesOf n v)) n a := by
    rw [put_append, length_bytesOf]
    exact load_congr n _ _ a fun x _ h => put_outside (Or.inl h)
  rw [htail, put_bytesOf, load_store_self]

/-! ## Records

A record is a sequence of little-endian fields, each with its width and its value. -/

def encode (fs : List (ℕ × ℕ)) : List UInt8 := fs.flatMap fun f => bytesOf f.1 f.2

/-- The numbers of the widths `ns` that stand one after the other from address `a` on. -/
def loads (m : Mem) : ℕ → List ℕ → List ℕ
  | _, [] => []
  | a, n :: ns => load m n a :: loads m (a + n) ns

theorem loads_put_encode (fs : List (ℕ × ℕ)) (m : Mem) (a : ℕ) (bs : List UInt8) :
    loads (put m a (encode fs ++ bs)) a (fs.map Prod.fst) = fs.map fun f => f.2 % 256 ^ f.1 := by
  induction fs generalizing m a with
  | nil => rfl
  | cons f fs ih =>
      have hrest : encode (f :: fs) ++ bs = bytesOf f.1 f.2 ++ (encode fs ++ bs) := by
        rw [encode, List.flatMap_cons, List.append_assoc]
        rfl
      have htail : loads (put m a (bytesOf f.1 f.2 ++ (encode fs ++ bs))) (a + f.1)
          (fs.map Prod.fst) = fs.map fun f => f.2 % 256 ^ f.1 := by
        rw [put_append, length_bytesOf]
        exact ih (put m a (bytesOf f.1 f.2)) (a + f.1)
      rw [hrest, List.map_cons, List.map_cons, loads, load_put_append, htail]

/-! ## Bytes overwritten -/

/-- The bytes `bs` once the `j`-th has been overwritten with `v` wherever `o j = some v`. -/
def overwrite (o : ℕ → Option UInt8) (bs : List UInt8) : List UInt8 := bs.mapIdx fun j b => (o j).getD b

/-- The bytes that are not overwritten, each in its place. -/
def kept (o : ℕ → Option UInt8) (bs : List UInt8) : List (Option UInt8) :=
  bs.mapIdx fun j b => if (o j).isSome then none else some b

variable {o : ℕ → Option UInt8} {xs xs' ys ys' : List UInt8}

theorem overwrite_append : overwrite o (xs ++ ys) =
    overwrite o xs ++ overwrite (fun j => o (xs.length + j)) ys := by
  simp only [overwrite, List.mapIdx_append, Nat.add_comm]

theorem overwrite_eq_iff : overwrite o xs = overwrite o ys ↔ kept o xs = kept o ys := by
  simp only [overwrite, kept, List.ext_getElem?_iff, List.getElem?_mapIdx]
  refine forall_congr' fun j => ?_
  cases o j <;> cases xs[j]? <;> cases ys[j]? <;> simp

theorem overwrite_append_inj (h : xs.length = xs'.length) :
    overwrite o (xs ++ ys) = overwrite o (xs' ++ ys') ↔ overwrite o xs = overwrite o xs' ∧
      overwrite (fun j => o (xs.length + j)) ys = overwrite (fun j => o (xs.length + j)) ys' := by
  have hlen : (overwrite o xs).length = (overwrite o xs').length := by
    rw [overwrite, overwrite, List.length_mapIdx, List.length_mapIdx, h]
  rw [overwrite_append, overwrite_append, ← h]
  exact ⟨fun e => List.append_inj e hlen, fun e => by rw [e.1, e.2]⟩

end Ltm.ByteMemory
