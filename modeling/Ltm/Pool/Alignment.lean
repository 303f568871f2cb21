import Ltm.Pool.Gaps

/-! # Where the headers and the pointers of a pool are

For a divisor `d` of 8, as long as the sizes asked for are multiples of `d` every header of the chain,
every field that the code writes and every pointer that it returns is, modulo `d`, where the pool's
region starts (`gridInv_step`, `GridInv.onGrid`): the alignment of the whole heap is that of its first
byte.
-/

namespace Ltm.Heap
open ByteMemory FirstFit Runs
set_option autoImplicit false
set_option maxHeartbeats 250000

/-- The bytes asked for are a multiple of `d`. -/
def Op.Multiple (d : ℕ) : Op → Prop
  | .allocate n => d ∣ n.toNat
  | _ => True

/-- In the state `h` all that the code has put into the region is, modulo `d`, where the region starts. -/
structure State.OnGrid (d : ℕ) (h : State) : Prop where
  headers : ∀ b ∈ h.chain, b ≡ h.pool.blocks [MOD d]
  written : ∀ r ∈ h.written, r.1 ≡ h.pool.blocks [MOD d]
  returned : ∀ n p, returned h n = some p → p ≠ 0 → p ≡ h.pool.blocks [MOD d]

variable {size o d x : ℕ} {h h' : State} {l : List Blk} {w : List (ℕ × ℕ)} {op : Op}

theorem modEq_field (hd : d ∣ 8) {f : ℕ × ℕ} (hf : f ∈ fields) : x + f.1 ≡ x [MOD d] := by
  have hzero : f.1 ≡ 0 [MOD d] := Nat.modEq_zero_iff_dvd.mpr (hd.trans (fields_bounds f hf).2)
  exact hzero.add_left x

theorem InFields.modEq (hw : InFields o l w) (hd : d ∣ 8) (hg : FirstFit.OnGrid d 32 o l) :
    ∀ r ∈ w, r.1 ≡ o [MOD d] := by
  intro r hr
  obtain ⟨u, hu, f, hf, rfl⟩ := hw r hr
  exact (modEq_field hd hf).trans (hg u hu)

/-- The part of `State.OnGrid` that the tiling decides. -/
theorem Inv.onGrid (hi : Inv size o h l) (hr : Region size o) (hd : d ∣ 8)
    (hg : FirstFit.OnGrid d 32 o l) (hw : ∀ r ∈ h.written, r.1 ≡ o [MOD d]) : h.OnGrid d := by
  have hpool := hi.pool
  refine ⟨fun b hb => ?_, fun r hr => ?_, fun n p hp h0 => ?_⟩
  · rw [chain_eq hi hr] at hb
    obtain ⟨u, hu, rfl⟩ := List.mem_map.mp hb
    rw [hpool]
    exact hg u hu
  · rw [hpool]
    exact hw r hr
  · rw [hi.returned_eq_search hr] at hp
    have hp' := Option.some.inj hp
    cases hs : search n.toNat l with
    | none =>
        rw [hs] at hp'
        exact absurd hp'.symm h0
    | some r =>
        obtain ⟨pre, b, post⟩ := r
        obtain ⟨rfl, -, -⟩ := search_eq_some hs
        rw [hs] at hp'
        obtain rfl : o + FirstFit.span 32 pre + 32 = p := hp'
        have hzero : 32 ≡ 0 [MOD d] := Nat.modEq_zero_iff_dvd.mpr (hd.trans (by decide))
        rw [hpool]
        exact (hg _ (mem_place_mid 32 o pre b post)).add hzero

/-- The invariant of the histories whose sizes are multiples of `d`. -/
def GridInv (size o d : ℕ) (h : State) : Prop :=
  (∃ l, Inv size o h l ∧ FirstFit.OnGrid d 32 o l) ∧ ∀ r ∈ h.written, r.1 ≡ o [MOD d]

theorem gridInv_step (hr : Region size o) (hd : d ∣ 8) (hi : GridInv size o d h)
    (hop : op.Multiple d) (hs : step h op = some h') : GridInv size o d h' := by
  obtain ⟨⟨l, hi, hg⟩, -⟩ := hi
  have hok := allowed_of_step hs
  cases op with
  | allocate n =>
      obtain ⟨t, ht, hi', hw, -⟩ := allocate_inv hi hr n
      obtain rfl := Option.some.inj (ht.symm.trans hs)
      have hg' := hg.grant (hd.trans (by decide)) hop
      exact ⟨⟨_, hi', hg'⟩, hw.modEq hd hg'⟩
  | deallocate p =>
      obtain ⟨t, l', ht, hi', hw, hmem⟩ := deallocate_inv hi hr hok
      obtain rfl := Option.some.inj (ht.symm.trans hs)
      exact ⟨⟨l', hi', hg.of_mem hmem⟩, hw.modEq hd hg⟩
  | store p k v =>
      obtain rfl := Option.some.inj ((step_store hok).symm.trans hs)
      exact ⟨⟨l, store_inv hi hok, hg⟩, by simp⟩

theorem GridInv.onGrid (hr : Region size o) (hd : d ∣ 8) (hi : GridInv size o d h) : h.OnGrid d := by
  obtain ⟨⟨l, hi, hg⟩, hw⟩ := hi
  exact hi.onGrid hr hd hg hw

end Ltm.Heap
