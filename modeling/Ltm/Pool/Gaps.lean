import Ltm.Foundations.Gaps
import Ltm.Pool.Canonical

/-! # When `allocate` returns null

`deallocate` leaves no two free blocks side by side, so the free blocks of a reachable chain are the
gaps between the live allocations. `allocate` returns null exactly if no gap has room for the request
with its header, and takes the lowest that has (`allocate_complete`).
-/

namespace Ltm.Heap
open ByteMemory FirstFit Runs
set_option autoImplicit false
set_option maxHeartbeats 250000

/-- The byte at `x` is in the header or the granted range of a live allocation. -/
def State.Covered (h : State) (x : ℕ) : Prop :=
  ∃ a ∈ h.live, a.ptr - sizeofBlock ≤ x ∧ x < a.ptr + a.size

/-- `[lo, hi)` is a maximal stretch of the pool's region that no live allocation covers. -/
def State.Gap (h : State) (lo hi : ℕ) : Prop :=
  FirstFit.Gap h.Covered h.pool.blocks (h.pool.blocks + h.pool.size) lo hi

variable {size o : ℕ} {h h' : State} {l : List Blk} {n : UInt64}

theorem Inv.covered_iff (hi : Inv size o h l) (x : ℕ) : h.Covered x ↔ Used 32 o l x := by
  constructor
  · rintro ⟨a, ha, h1, h2⟩
    obtain ⟨y, hy, hb⟩ := hi.used a ha
    rw [hy] at h1 h2
    exact ⟨_, hb, rfl, by simpa using h1, h2⟩
  · rintro ⟨⟨y, k, f⟩, hb, hf, h1, h2⟩
    obtain rfl : f = false := hf
    obtain ⟨a, ha, hy⟩ := hi.live y k hb
    have hk : a.size = k := by
      obtain ⟨y', hy', hb'⟩ := hi.used a ha
      obtain rfl : y' = y := by omega
      exact congrArg Blk.size (Prod.mk.inj (place_inj (by omega) hb' hb rfl)).2
    refine ⟨a, ha, ?_, ?_⟩
    · show a.ptr - 32 ≤ x
      simp only at h1
      omega
    · simp only at h2
      omega

theorem Inv.gap_iff (hi : Inv size o h l) {lo hi' : ℕ} :
    h.Gap lo hi' ↔ FirstFit.Gap (Used 32 o l) o (o + FirstFit.span 32 l) lo hi' := by
  rw [State.Gap, hi.pool, hi.span]
  exact gap_congr hi.covered_iff

/-- A request that fails leaves the memory alone. -/
theorem Inv.null_mem (hi : Inv size o h l) (hr : Region size o) (hs : search n.toNat l = none) :
    ∃ h', step h (.allocate n) = some h' ∧ h'.mem = h.mem ∧ h'.pool = h.pool := by
  have hfits := hr.fits
  rw [← hi.span] at hfits
  have hrun := allocate_run (w := []) (n := n.toNat) hi.chain hr.pos hi.ne_nil hfits
  have hpool : h.pool = ⟨FirstFit.span 32 l, o⟩ := by rw [hi.pool, hi.span]
  rw [hs] at hrun
  rw [← hi.wrapped, ← hpool] at hrun
  exact ⟨_, step_allocate hrun, rfl, rfl⟩

/-- What `allocate` returns, and what it leaves when it returns null. -/
structure Complete (h : State) (n : UInt64) (p : ℕ) : Prop where
  null : p = 0 ↔ ∀ lo hi, h.Gap lo hi → hi - lo < n.toNat + sizeofBlock
  lowest : p ≠ 0 → ∃ lo hi, p = lo + sizeofBlock ∧ h.Gap lo hi ∧ n.toNat + sizeofBlock ≤ hi - lo ∧
    ∀ lo' hi', h.Gap lo' hi' → n.toNat + sizeofBlock ≤ hi' - lo' → lo ≤ lo'
  unchanged : p = 0 → ∃ h', step h (.allocate n) = some h' ∧ h'.headers = h.headers

theorem Inv.complete (hi : Inv size o h l) (hr : Region size o) (n : UInt64) :
    ∃ p, returned h n = some p ∧ Complete h n p := by
  have hret := hi.returned_eq_search hr (n := n)
  have hnone := search_eq_none_iff_gap (n := n.toNat) (a := o) (show 0 < 32 by decide) hi.separated
  cases hs : search n.toNat l with
  | none =>
      rw [hs] at hret
      refine ⟨0, hret, ?_, fun h0 => absurd rfl h0, fun _ => ?_⟩
      · exact iff_of_true rfl fun lo hi' hg => hnone.mp hs lo hi' (hi.gap_iff.mp hg)
      · obtain ⟨h', hstep, hmem, hpool⟩ := hi.null_mem hr hs
        refine ⟨h', hstep, ?_⟩
        unfold State.headers State.chain
        rw [hmem, hpool]
  | some r =>
      obtain ⟨pre, b, post⟩ := r
      rw [hs] at hret
      obtain ⟨hi', hg, hroom, hmin⟩ := search_lowest (a := o) (show 0 < 32 by decide) hi.separated hs
      have hp : o + FirstFit.span 32 pre + 32 ≠ 0 := by omega
      refine ⟨_, hret, iff_of_false hp fun hno => ?_, fun _ => ?_, fun h0 => absurd h0 hp⟩
      · have hlt : hi' - (o + FirstFit.span 32 pre) < n.toNat + 32 := hno _ _ (hi.gap_iff.mpr hg)
        omega
      · exact ⟨_, hi', rfl, hi.gap_iff.mpr hg, hroom, fun lo' hi'' hg' => hmin lo' hi'' (hi.gap_iff.mp hg')⟩

/-- After every history of a pool, for every request: the search ends, and fails only if no gap has room;
else it takes the lowest that has. -/
theorem allocate_complete (hr : Region size o) (hs : sizeofBlock + 15 ≤ size) (m : Mem) :
    ∃ h₀, build size o m = some h₀ ∧ ∀ ops h, run step h₀ ops = some h →
      ∀ n, ∃ p, returned h n = some p ∧ Complete h n p := by
  obtain ⟨h₀, hb, hi₀⟩ := build_inv hr hs m
  refine ⟨h₀, hb, fun ops h hrun n => ?_⟩
  obtain ⟨l, hi⟩ := inv_run hr ⟨_, hi₀⟩ hrun
  exact hi.complete hr n

/-- A heap of `LTM_HEAP` bytes with a gap of 42 bytes in front of a live allocation: a request for ten
bytes gets it. -/
theorem allocate_complete_ltmHeap : ∃ h₀ h, build 500000 0x40a10000 (fun _ => 0) = some h₀ ∧
    run step h₀ [.allocate 10, .allocate 1136, .deallocate 0x40a10020] = some h ∧
    returned h 10 = some 0x40a10020 ∧ Complete h 10 0x40a10020 := by
  obtain ⟨h₀, hb, hall⟩ := allocate_complete (⟨by decide, by decide⟩ : Region 500000 0x40a10000)
    (by decide) (fun _ => 0)
  have hrun : ((build 500000 0x40a10000 (fun _ => 0)).bind fun h =>
      run step h [.allocate 10, .allocate 1136, .deallocate 0x40a10020]).map
        (fun h => returned h 10) = some (some 0x40a10020) := by decide +kernel
  obtain ⟨h, hh, hret⟩ := Option.map_eq_some_iff.mp hrun
  rw [hb, Option.bind_some] at hh
  obtain ⟨p, hp, hc⟩ := hall _ h hh 10
  obtain rfl := Option.some.inj (hret.symm.trans hp)
  exact ⟨h₀, h, hb, hh, hret, hc⟩

end Ltm.Heap
