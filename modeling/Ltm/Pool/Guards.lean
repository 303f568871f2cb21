import Ltm.Pool.Gaps

/-! # The size tests of a pool

`pool::pool` and `allocate` subtract the size of a header from the size of the pool before they compare.
For a region too small for a header the difference wraps, and the constructor takes it for a large one
(`guarded_iff`).
-/

namespace Ltm.Heap
open ByteMemory FirstFit
set_option autoImplicit false
set_option maxHeartbeats 250000

/-- The size tests of a new pool of `size` bytes, wherever its region is, are those of the integers: the
constructor rejects a pool without room for `min_size` bytes behind a header, the first `allocate` a
request for more than there is, and what it grants lies in the region with its header. -/
structure Guarded (size : ℕ) : Prop where
  rejects : ∀ o m, Region size o → (build size o m = none ↔ (size : Int) - sizeofBlock < minSize)
  first : ∀ o m h, Region size o → build size o m = some h → ∀ n : UInt64,
    ∃ p, returned h n = some p ∧ (p = 0 ↔ (size : Int) - sizeofBlock < n.toNat) ∧
      (p ≠ 0 → o + sizeofBlock ≤ p ∧ p + n.toNat ≤ o + size)

variable {size o : ℕ} {h : State} {n : UInt64}

theorem build_eq_none (hs : sizeofBlock ≤ size) (hlt : size < sizeofBlock + minSize)
    (hr : Region size o) (m : Mem) : build size o m = none := by
  have hfits := hr.fits
  simp only [sizeofBlock, minSize] at hs hlt
  have hmin : size - 32 < 15 := by omega
  unfold build pool
  rw [sub_bind _ (by simp only [sizeofBlock]; omega), if_pos hmin]
  rfl

/-- The first allocation of a pool. -/
theorem returned_new (hi : Inv size o h [⟨size - 32, true⟩]) (hr : Region size o) :
    returned h n = some (if n.toNat ≤ size - 32 then o + 32 else 0) := by
  rw [hi.returned_eq_search hr, search]
  by_cases hn : n.toNat ≤ size - 32
  · rw [if_pos ⟨rfl, hn⟩, if_pos hn]
    rfl
  · rw [if_neg fun hb => hn hb.2, if_neg hn]
    rfl

theorem guarded_of_le (hs : sizeofBlock ≤ size) : Guarded size := by
  simp only [sizeofBlock] at hs
  refine ⟨fun o m hr => ?_, fun o m h hr hb n => ?_⟩
  · simp only [sizeofBlock, minSize]
    by_cases hlt : size < 47
    · exact iff_of_true (build_eq_none hs hlt hr m) (by omega)
    · obtain ⟨h, hb, -⟩ := build_inv hr (by omega) m
      rw [hb]
      exact iff_of_false (by simp) (by omega)
  · have hle : 32 + 15 ≤ size := by
      by_contra hlt
      rw [build_eq_none hs (by simp only [sizeofBlock, minSize]; omega) hr m] at hb
      exact absurd hb (by simp)
    obtain ⟨h', hb', hi⟩ := build_inv hr hle m
    obtain rfl := Option.some.inj (hb'.symm.trans hb)
    have hpos := hr.pos
    refine ⟨_, returned_new hi hr, ?_⟩
    simp only [sizeofBlock]
    by_cases hn : n.toNat ≤ size - 32
    · rw [if_pos hn]
      exact ⟨iff_of_false (by omega) (by omega), fun _ => by omega⟩
    · rw [if_neg hn]
      exact ⟨iff_of_true rfl (by omega), fun h0 => absurd rfl h0⟩

/-- In a region of fewer bytes than a header, at address 64, the first allocation is granted. -/
theorem returned_small : ∀ size < sizeofBlock,
    ((build size 64 fun _ => 0).bind fun h => returned h 0) = some 96 := by
  decide +kernel

theorem not_guarded_of_lt (hlt : size < sizeofBlock) : ¬Guarded size := by
  intro hg
  obtain ⟨h, hb, hret⟩ := Option.bind_eq_some_iff.mp (returned_small size hlt)
  simp only [sizeofBlock] at hlt
  obtain ⟨p, hp, -, hin⟩ := hg.first 64 _ h ⟨by omega, by omega⟩ hb 0
  obtain rfl := Option.some.inj (hret.symm.trans hp)
  have hend := (hin (by omega)).2
  simp at hend
  omega

/-- The size tests do not wrap exactly if the region has room for a header. -/
theorem guarded_iff (size : UInt64) : Guarded size.toNat ↔ sizeofBlock ≤ size.toNat :=
  ⟨fun hg => le_of_not_gt fun hlt => not_guarded_of_lt hlt hg, guarded_of_le⟩

/-- A region of 16 bytes. -/
theorem no_guarded : ¬Guarded 16 := not_guarded_of_lt (by decide)

end Ltm.Heap
