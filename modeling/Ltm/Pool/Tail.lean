import Ltm.Pool.Safety

/-! # A heap that grows into its last block

Where no free block but the last one is large enough for a request, `allocate` cuts it from the last one,
or returns null when that is too small as well. The tiling is then known exactly, also when blocks before
the last one are deallocated.
-/

namespace Ltm.Heap
open ByteMemory FirstFit Runs
set_option autoImplicit false
set_option maxHeartbeats 250000

/-- `k` calls `allocate(n)` in a row, with the pointers they return. -/
def allocateAll (n : UInt64) : ℕ → State → Option (State × List ℕ)
  | 0, h => some (h, [])
  | k + 1, h => (returned h n).bind fun p => (step h (.allocate n)).bind fun h' =>
    (allocateAll n k h').map fun r => (r.1, p :: r.2)

/-- No free block of the list has `n` bytes. -/
def TooSmall (n : ℕ) (l : List Blk) : Prop := ∀ b ∈ l, ¬(b.free = true ∧ n ≤ b.size)

variable {size o : ℕ} {h : State} {l pre : List Blk} {n : UInt64} {t k : ℕ}

theorem tooSmall_append_used (hp : TooSmall n.toNat pre) (c : ℕ) :
    TooSmall n.toNat (pre ++ [⟨c, false⟩]) := by
  intro b hb
  rcases List.mem_append.mp hb with hb | hb
  · exact hp b hb
  · obtain rfl := List.mem_singleton.mp hb
    simp

/-! ## Allocation -/

theorem search_tail (hp : TooSmall n.toNat pre) : search n.toNat (pre ++ [⟨t, true⟩]) =
    if n.toNat ≤ t then some (pre, ⟨t, true⟩, []) else none := by
  rw [search_append hp, search]
  by_cases hn : n.toNat ≤ t
  · rw [if_pos ⟨rfl, hn⟩, if_pos hn, Option.map_some, List.append_nil]
  · rw [if_neg fun h => hn h.2, if_neg hn]
    rfl

theorem allocate_tail (hi : Inv size o h (pre ++ [⟨t, true⟩])) (hr : Region size o)
    (hp : TooSmall n.toNat pre) (ht : n.toNat + 64 ≤ t) :
    ∃ h', step h (.allocate n) = some h' ∧ returned h n = some (o + span 32 pre + 32) ∧
      Inv size o h' (pre ++ [⟨n.toNat, false⟩] ++ [⟨t - n.toNat - 32, true⟩]) := by
  have hsearch : search n.toNat (pre ++ [⟨t, true⟩]) = some (pre, ⟨t, true⟩, []) := by
    rw [search_tail hp, if_pos (by omega)]
  have hgrant : grant 32 n.toNat (pre ++ [⟨t, true⟩]) =
      pre ++ [⟨n.toNat, false⟩] ++ [⟨t - n.toNat - 32, true⟩] := by
    have hlarge : ¬t - n.toNat < 2 * 32 := by omega
    rw [grant, hsearch]
    simp only [carve, if_neg hlarge, List.append_nil, List.append_assoc]
    rfl
  obtain ⟨h', hs, hi', -⟩ := allocate_inv hi hr n
  refine ⟨h', hs, ?_, hgrant ▸ hi'⟩
  rw [hi.returned_eq_search hr, hsearch]
  rfl

theorem returned_tail_null (hi : Inv size o h (pre ++ [⟨t, true⟩])) (hr : Region size o)
    (hp : TooSmall n.toNat pre) (ht : t < n.toNat) : returned h n = some 0 := by
  have hsearch : search n.toNat (pre ++ [⟨t, true⟩]) = none := by
    rw [search_tail hp, if_neg (by omega)]
  rw [hi.returned_eq_search hr, hsearch]
  rfl

theorem allocateAll_tail (hi : Inv size o h (pre ++ [⟨t, true⟩])) (hr : Region size o)
    (hp : TooSmall n.toNat pre) (ht : k * (n.toNat + 32) + 32 ≤ t) :
    ∃ h', allocateAll n k h = some (h', (List.range k).map fun i =>
        o + span 32 pre + i * (n.toNat + 32) + 32) ∧
      Inv size o h' (pre ++ List.replicate k ⟨n.toNat, false⟩ ++
        [⟨t - k * (n.toNat + 32), true⟩]) := by
  induction k generalizing h pre t with
  | zero => exact ⟨h, rfl, by simpa using hi⟩
  | succ k ih =>
      rw [Nat.succ_mul] at ht
      obtain ⟨h₁, hs, hret, hi₁⟩ := allocate_tail hi hr hp (by omega)
      obtain ⟨h', hall, hi'⟩ := ih hi₁ (tooSmall_append_used hp n.toNat) (by omega)
      have htail : t - n.toNat - 32 - k * (n.toNat + 32) = t - (k + 1) * (n.toNat + 32) := by
        rw [Nat.succ_mul]
        omega
      have hblocks : pre ++ [⟨n.toNat, false⟩] ++ List.replicate k ⟨n.toNat, false⟩ =
          pre ++ List.replicate (k + 1) ⟨n.toNat, false⟩ := by
        rw [List.append_assoc, List.replicate_succ]
        rfl
      rw [htail, hblocks] at hi'
      refine ⟨h', ?_, hi'⟩
      rw [allocateAll, hret, Option.bind_some, hs, Option.bind_some, hall, Option.map_some,
        List.range_succ_eq_map, List.map_cons, List.map_map]
      congr 3
      · omega
      · refine List.map_congr_left fun i _ => ?_
        simp only [Function.comp, span_append, span, Nat.succ_mul]
        omega

theorem allocateAll_null {h' : State} {ps : List ℕ} (hi : Inv size o h (pre ++ [⟨t, true⟩]))
    (hr : Region size o) (hp : TooSmall n.toNat pre) (ht : t < n.toNat)
    (hall : allocateAll n (k + 1) h = some (h', ps)) : 0 ∈ ps := by
  rw [allocateAll, returned_tail_null hi hr hp ht, Option.bind_some] at hall
  obtain ⟨h₁, -, hall⟩ := Option.bind_eq_some_iff.mp hall
  obtain ⟨r, -, e⟩ := Option.map_eq_some_iff.mp hall
  obtain ⟨-, rfl⟩ := Prod.mk.inj e
  exact List.mem_cons_self

theorem allocateAll_add (n : UInt64) (j k : ℕ) (h : State) : allocateAll n (j + k) h =
    (allocateAll n j h).bind fun r => (allocateAll n k r.1).map fun r' => (r'.1, r.2 ++ r'.2) := by
  induction j generalizing h with
  | zero => simp [allocateAll]
  | succ j ih =>
      rw [Nat.add_right_comm, allocateAll, allocateAll]
      cases returned h n with
      | none => rfl
      | some p =>
          cases step h (.allocate n) with
          | none => rfl
          | some h₁ =>
              simp only [Option.bind_some, ih]
              cases allocateAll n j h₁ with
              | none => rfl
              | some r =>
                  simp only [Option.bind_some, Option.map_some, Option.map_map]
                  rfl

/-! ## Deallocation -/

variable {q rest post : List Blk} {c : ℕ}

/-- The freed block joins with its neighbours only up to the next used block. -/
theorem deallocate_before_used (hi : Inv size o h (pre ++ ⟨k, false⟩ :: (q ++ ⟨c, false⟩ :: rest)))
    (hr : Region size o) : ∃ h', step h (.deallocate (o + span 32 pre + 32)) = some h' ∧
      Inv size o h' (coalesce 32 (pre ++ ⟨k, true⟩ :: q) ++ ⟨c, false⟩ :: rest) := by
  have hrest : Separated rest := by
    have hsep := hi.separated
    rw [← List.cons_append, ← List.append_assoc] at hsep
    exact (List.isChain_append.mp hsep).2.1.tail
  have hco : coalesce 32 (pre ++ ⟨k, true⟩ :: (q ++ ⟨c, false⟩ :: rest)) =
      coalesce 32 (pre ++ ⟨k, true⟩ :: q) ++ ⟨c, false⟩ :: rest := by
    rw [← List.cons_append, ← List.append_assoc, coalesce_append_used, coalesce_eq_self hrest]
  obtain ⟨h', hs, hi', -⟩ := deallocate_used hi hr
  exact ⟨h', hs, hco ▸ hi'⟩

theorem mem_place_concat_free {x m a : ℕ} {r : List Blk} :
    (x, ⟨m, false⟩) ∈ place 32 a (r ++ [⟨t, true⟩]) ↔ (x, ⟨m, false⟩) ∈ place 32 a r := by
  rw [place_append, List.mem_append]
  refine or_iff_left fun hx => ?_
  simp [place] at hx

/-- The freed block may join with the last one. -/
theorem deallocate_before_tail (hi : Inv size o h (pre ++ ⟨k, false⟩ :: (post ++ [⟨t, true⟩])))
    (hr : Region size o) : ∃ h' r t', step h (.deallocate (o + span 32 pre + 32)) = some h' ∧
      Inv size o h' (r ++ [⟨t', true⟩]) ∧ t ≤ t' ∧ ∀ x m, (x, ⟨m, false⟩) ∈ place 32 o r ↔
        (x, ⟨m, false⟩) ∈ place 32 o (pre ++ ⟨k, false⟩ :: post) ∧ x ≠ o + span 32 pre := by
  obtain ⟨h', hs, hi', -⟩ := deallocate_used hi hr
  have hcons : pre ++ ⟨k, true⟩ :: (post ++ [⟨t, true⟩]) = pre ++ ⟨k, true⟩ :: post ++ [⟨t, true⟩] := by
    simp
  obtain ⟨r, t', hco, ht⟩ := coalesce_concat_free (h := 32) (pre ++ ⟨k, true⟩ :: post) t
  rw [hcons, hco] at hi'
  refine ⟨h', r, t', hs, hi', ht, fun x m => ?_⟩
  rw [← mem_place_concat_free (t := t'), ← hco, mem_place_coalesce, mem_place_concat_free,
    mem_place_release (by omega)]

end Ltm.Heap
