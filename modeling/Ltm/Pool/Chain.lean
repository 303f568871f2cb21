import Ltm.Foundations.FirstFit
import Ltm.Pool.Code

/-! # Chains of headers in memory

`Linked m p l z`: the headers of the placed blocks `l` carry the blocks' sizes and flags, each
`next_` is the address of the following block (`z` after the last) and each `prev_` the address of
the preceding one (`p` before the first). A pool's chain is `Linked m 0 (place 32 o l) 0`, written
`Chain m o l`. The lemmas say what one field write does to a header and to a chain.
-/

namespace Ltm.Heap
open ByteMemory FirstFit
set_option autoImplicit false
set_option maxHeartbeats 250000

/-! ## Field writes -/

def putPrev (m : Mem) (b v : ℕ) : Mem := store m 8 b v
def putNext (m : Mem) (b v : ℕ) : Mem := store m 8 (b + 8) v
def putSize (m : Mem) (b v : ℕ) : Mem := store m 8 (b + 16) v
def putFree (m : Mem) (b v : ℕ) : Mem := store m 4 (b + 24) v
def putPrevOf (m : Mem) (b v : ℕ) : Mem := if b = 0 then m else putPrev m b v

theorem header_congr {m m' : Mem} {b : ℕ} (h : ∀ x, b ≤ x → x < b + 32 → m' x = m x) :
    header m' b = header m b := by
  unfold header
  rw [load_congr 8 m' m b fun x h1 h2 => h x (by omega) (by omega),
    load_congr 8 m' m (b + 8) fun x h1 h2 => h x (by omega) (by omega),
    load_congr 8 m' m (b + 16) fun x h1 h2 => h x (by omega) (by omega),
    load_congr 4 m' m (b + 24) fun x h1 h2 => h x (by omega) (by omega)]

theorem header_store_apart {m : Mem} {n a v b : ℕ} (h : a + n ≤ b ∨ b + 32 ≤ a) :
    header (store m n a v) b = header m b :=
  header_congr fun x h1 h2 => store_outside n m a v x (by omega)

section Fields
variable (m : Mem) (b v : ℕ)

theorem header_putPrev (h : v < 2 ^ 64) :
    header (putPrev m b v) b = { header m b with prev := v } := by
  unfold header putPrev
  rw [load_store_of_lt (by omega), load_store_of_apart (by unfold Apart; omega),
    load_store_of_apart (by unfold Apart; omega), load_store_of_apart (by unfold Apart; omega)]

theorem header_putNext (h : v < 2 ^ 64) :
    header (putNext m b v) b = { header m b with next := v } := by
  unfold header putNext
  rw [load_store_of_apart (by unfold Apart; omega), load_store_of_lt (by omega),
    load_store_of_apart (by unfold Apart; omega), load_store_of_apart (by unfold Apart; omega)]

theorem header_putSize (h : v < 2 ^ 64) :
    header (putSize m b v) b = { header m b with size := v } := by
  unfold header putSize
  rw [load_store_of_apart (by unfold Apart; omega), load_store_of_apart (by unfold Apart; omega),
    load_store_of_lt (by omega), load_store_of_apart (by unfold Apart; omega)]

theorem header_putFree (h : v < 2 ^ 32) :
    header (putFree m b v) b = { header m b with free := v } := by
  unfold header putFree
  rw [load_store_of_apart (by unfold Apart; omega), load_store_of_apart (by unfold Apart; omega),
    load_store_of_apart (by unfold Apart; omega), load_store_of_lt (by omega)]

variable {m b v} {x : ℕ}

theorem header_putPrev_apart (h : b + 32 ≤ x ∨ x + 32 ≤ b) :
    header (putPrev m b v) x = header m x := header_store_apart (by omega)

theorem header_putNext_apart (h : b + 32 ≤ x ∨ x + 32 ≤ b) :
    header (putNext m b v) x = header m x := header_store_apart (by omega)

theorem header_putSize_apart (h : b + 32 ≤ x ∨ x + 32 ≤ b) :
    header (putSize m b v) x = header m x := header_store_apart (by omega)

theorem header_putFree_apart (h : b + 32 ≤ x ∨ x + 32 ≤ b) :
    header (putFree m b v) x = header m x := header_store_apart (by omega)

theorem header_putPrevOf_apart (h : b = 0 ∨ b + 32 ≤ x ∨ x + 32 ≤ b) :
    header (putPrevOf m b v) x = header m x := by
  unfold putPrevOf
  split
  · rfl
  · exact header_putPrev_apart (by omega)

end Fields

/-! ## Chains -/

/-- The address a chain of placed blocks starts at; `z` when it is empty. -/
def first (l : List (ℕ × Blk)) (z : ℕ) : ℕ := (l.head?.map Prod.fst).getD z

/-- The address of the last block of a chain; `p` when it is empty. -/
def last (p : ℕ) (l : List (ℕ × Blk)) : ℕ := (l.getLast?.map Prod.fst).getD p

/-- The value of `free_`. -/
def flag (b : Blk) : ℕ := if b.free then 1 else 0

def Linked (m : Mem) : ℕ → List (ℕ × Blk) → ℕ → Prop
  | _, [], _ => True
  | p, u :: l, z => header m u.1 = ⟨p, first l z, u.2.size, flag u.2⟩ ∧ Linked m u.1 l z

/-- The chain of the pool whose blocks `l` start at address `o`. -/
def Chain (m : Mem) (o : ℕ) (l : List Blk) : Prop := Linked m 0 (place 32 o l) 0

theorem first_place_cons (a : ℕ) (b : Blk) (l : List Blk) (z : ℕ) :
    first (place 32 a (b :: l)) z = a := rfl

theorem last_append (p : ℕ) (l r : List (ℕ × Blk)) : last p (l ++ r) = last (last p l) r := by
  unfold last
  rw [List.getLast?_append]
  cases r.getLast? <;> rfl

theorem last_cons (p : ℕ) (u : ℕ × Blk) (l : List (ℕ × Blk)) : last p (u :: l) = last u.1 l := by
  rw [← List.singleton_append, last_append]
  rfl

theorem linked_append {m : Mem} {l r : List (ℕ × Blk)} {p z : ℕ} :
    Linked m p (l ++ r) z ↔ Linked m p l (first r z) ∧ Linked m (last p l) r z := by
  induction l generalizing p with
  | nil => simp [Linked, last]
  | cons u l ih =>
      have e : first (l ++ r) z = first l (first r z) := by
        cases l <;> rfl
      rw [List.cons_append, Linked, Linked, ih, last_cons, e, and_assoc]

theorem Linked.frame {m m' : Mem} {l : List (ℕ × Blk)} {p z : ℕ} (h : Linked m p l z)
    (hf : ∀ u ∈ l, header m' u.1 = header m u.1) : Linked m' p l z := by
  induction l generalizing p with
  | nil => trivial
  | cons u l ih =>
      obtain ⟨h1, h2⟩ := h
      exact ⟨(hf u List.mem_cons_self).trans h1, ih h2 fun v hv => hf v (List.mem_cons_of_mem u hv)⟩

/-- What `if (b) b->prev_ = q;` does to the chain that starts at `b`. -/
theorem Linked.putPrevOf {m : Mem} {p a q : ℕ} {l : List Blk} (h : Linked m p (place 32 a l) 0)
    (ha : 0 < a) (hq : q < 2 ^ 64) :
    Linked (putPrevOf m (first (place 32 a l) 0) q) q (place 32 a l) 0 := by
  cases l with
  | nil => trivial
  | cons b l =>
      obtain ⟨h1, h2⟩ := h
      rw [first_place_cons, Heap.putPrevOf, if_neg ha.ne']
      refine ⟨?_, h2.frame fun u hu => header_putPrev_apart ?_⟩
      · rw [header_putPrev m a q hq, h1]
      · have := (mem_place_bounds hu).1
        exact Or.inl (by omega)

theorem chain_mid {m : Mem} {o : ℕ} {pre post : List Blk} {b : Blk} :
    Chain m o (pre ++ b :: post) ↔
      Linked m 0 (place 32 o pre) (o + span 32 pre) ∧
      header m (o + span 32 pre) = ⟨last 0 (place 32 o pre),
        first (place 32 (o + span 32 pre + 32 + b.size) post) 0, b.size, flag b⟩ ∧
      Linked m (o + span 32 pre) (place 32 (o + span 32 pre + 32 + b.size) post) 0 := by
  unfold Chain
  rw [place_append, linked_append]
  rfl

section Parts
variable {m : Mem} {o : ℕ} {pre post : List Blk} {s : ℕ}

/-! ## Headers of the parts of a chain -/

theorem place_lt {a x : ℕ} {l : List Blk} {u : ℕ × Blk} (hu : u ∈ place 32 a l)
    (hx : a + span 32 l ≤ x) : u.1 + 32 ≤ x := by
  have := (mem_place_bounds hu).2
  omega

theorem le_place {a x : ℕ} {l : List Blk} {u : ℕ × Blk} (hu : u ∈ place 32 a l) (hx : x ≤ a) :
    x ≤ u.1 := hx.trans (mem_place_bounds hu).1

theorem first_place_eq (a : ℕ) (l : List Blk) : first (place 32 a l) 0 = 0 ∨
    first (place 32 a l) 0 = a ∧ a + 32 ≤ a + span 32 l := by
  cases l with
  | nil => exact Or.inl rfl
  | cons b l => exact Or.inr ⟨rfl, by simp only [span]; omega⟩

theorem Chain.putFree {b : ℕ} {fl : Bool} (fl' : Bool)
    (h : Chain m o (pre ++ ⟨s, fl⟩ :: post)) (hb : o + span 32 pre = b) :
    Chain (putFree m b (flag ⟨s, fl'⟩)) o (pre ++ ⟨s, fl'⟩ :: post) := by
  subst hb
  obtain ⟨hpre, hmid, hpost⟩ := chain_mid.mp h
  have hfl : flag ⟨s, fl'⟩ < 2 ^ 32 := by unfold flag; split <;> omega
  refine chain_mid.mpr ⟨hpre.frame fun u hu => ?_, ?_, hpost.frame fun u hu => ?_⟩
  · exact header_putFree_apart (Or.inr (place_lt hu le_rfl))
  · rw [header_putFree _ _ _ hfl, hmid]
  · exact header_putFree_apart (Or.inl (le_place hu (by simp only; omega)))

/-- A header left over inside a block is no part of the chain. -/
theorem Chain.putFree_inside {b v : ℕ} {c : Blk} (h : Chain m o (pre ++ c :: post))
    (h1 : o + span 32 pre + 32 ≤ b) (h2 : b + 32 ≤ o + span 32 pre + 32 + c.size) :
    Chain (Heap.putFree m b v) o (pre ++ c :: post) := by
  obtain ⟨hpre, hmid, hpost⟩ := chain_mid.mp h
  refine chain_mid.mpr ⟨hpre.frame fun u hu => ?_, ?_, hpost.frame fun u hu => ?_⟩
  · exact header_putFree_apart (Or.inr (place_lt hu (by omega)))
  · rw [header_putFree_apart (Or.inr h1), hmid]
  · exact header_putFree_apart (Or.inl (le_place hu (by omega)))

/-- A block that takes over the bytes up to the blocks `post`: the write of its size, of its link and
of the back link to it. -/
theorem Chain.resize {b q s' p' : ℕ} {c : Blk} (hb : o + span 32 pre = b) (ho : 0 < o)
    (hpre : Linked m 0 (place 32 o pre) b) (hprev : (header m b).prev = last 0 (place 32 o pre))
    (hfree : (header m b).free = flag c) (hs : c.size = s') (hs64 : s' < 2 ^ 64)
    (hpost : Linked m p' (place 32 (b + 32 + s') post) 0)
    (hq : first (place 32 (b + 32 + s') post) 0 = q) (hend : b + 32 + s' + span 32 post < 2 ^ 64) :
    Chain (putPrevOf (putNext (putSize m b s') b q) q b) o (pre ++ c :: post) := by
  subst hb hs
  have hq64 : q < 2 ^ 64 := by
    rcases first_place_eq (o + span 32 pre + 32 + c.size) post with e | ⟨e, -⟩ <;> omega
  have hqa : q = 0 ∨ o + span 32 pre + 32 ≤ q := by
    rcases first_place_eq (o + span 32 pre + 32 + c.size) post with e | ⟨e, -⟩ <;> omega
  refine chain_mid.mpr ⟨hpre.frame fun u hu => ?_, ?_, ?_⟩
  · have hu' := place_lt hu le_rfl
    rw [header_putPrevOf_apart (by omega), header_putNext_apart (by omega),
      header_putSize_apart (by omega)]
  · rw [header_putPrevOf_apart (by omega), header_putNext _ _ _ hq64, header_putSize _ _ _ hs64,
      hq, ← hprev, ← hfree]
  · rw [← hq]
    refine Linked.putPrevOf (p := p') (hpost.frame fun u hu => ?_) (by omega) (by omega)
    have hu' := le_place hu le_rfl
    rw [header_putNext_apart (by omega), header_putSize_apart (by omega)]

end Parts

theorem first_mem_place (o : ℕ) (pre l post : List Blk) {a : ℕ} (ha : o + span 32 (pre ++ l) = a) :
    first (place 32 a post) 0 = 0 ∨
      ∃ c, (first (place 32 a post) 0, c) ∈ place 32 o (pre ++ (l ++ post)) := by
  subst ha
  cases post with
  | nil => exact Or.inl rfl
  | cons c post =>
      rw [← List.append_assoc]
      exact Or.inr ⟨c, mem_place_mid 32 o (pre ++ l) c post⟩

end Ltm.Heap
