import Mathlib.Data.Nat.ModEq
import Ltm.Foundations.FirstFit

/-! # Alignment of a tiling

Granting a request puts at most one new header into a tiling, behind the bytes granted, and coalescing
puts none. So where the header size and every request are multiples of `d`, all headers keep the residue
modulo `d` of the address the region starts at (`OnGrid.grant`, `OnGrid.of_mem`).
-/

namespace Ltm.FirstFit
set_option autoImplicit false
set_option maxHeartbeats 250000

/-- The headers of the tiling are where the region's start is, modulo `d`. -/
def OnGrid (d h a : ℕ) (l : List Blk) : Prop := ∀ u ∈ place h a l, u.1 ≡ a [MOD d]

variable {d h a n k x : ℕ} {l pre post : List Blk} {b : Blk} {f g : Bool} {u : ℕ × Blk}

theorem onGrid_singleton (d h a : ℕ) (b : Blk) : OnGrid d h a [b] := by
  intro u hu
  obtain rfl : u = (a, b) := by simpa [place] using hu
  exact Nat.ModEq.refl a

/-! ## Granting -/

/-- The headers after a grant: the old ones, and perhaps one behind a header and `n` bytes. -/
theorem mem_place_grant (hu : u ∈ place h a (grant h n l)) :
    ∃ v ∈ place h a l, u.1 = v.1 ∨ u.1 = v.1 + h + n := by
  unfold grant at hu
  cases hs : search n l with
  | none =>
      rw [hs] at hu
      exact ⟨u, hu, Or.inl rfl⟩
  | some r =>
      obtain ⟨pre, b, post⟩ := r
      obtain ⟨rfl, -, hn⟩ := search_eq_some hs
      have hmid := mem_place_mid h a pre b post
      have hend : a + span h (pre ++ carve h n b) = a + span h pre + h + b.size := by
        rw [span_append, span_carve hn]
        omega
      simp only [hs, place_append, hend, List.mem_append] at hu
      rcases hu with (hpre | hcarve) | hpost
      · exact ⟨u, by rw [place_append]; exact List.mem_append_left _ hpre, Or.inl rfl⟩
      · refine ⟨_, hmid, ?_⟩
        unfold carve at hcarve
        split at hcarve
        · exact Or.inl (by simp [place] at hcarve; rw [hcarve])
        · simp only [place, List.mem_cons, List.not_mem_nil, or_false] at hcarve
          rcases hcarve with rfl | rfl
          · exact Or.inl rfl
          · exact Or.inr rfl
      · refine ⟨u, ?_, Or.inl rfl⟩
        rw [place_append]
        exact List.mem_append_right _ (List.mem_cons_of_mem _ hpost)

theorem OnGrid.grant (hl : OnGrid d h a l) (hh : d ∣ h) (hn : d ∣ n) : OnGrid d h a (grant h n l) := by
  intro u hu
  obtain ⟨v, hv, e | e⟩ := mem_place_grant hu
  · rw [e]
    exact hl v hv
  · have hzero : h + n ≡ 0 [MOD d] := Nat.modEq_zero_iff_dvd.mpr (Nat.dvd_add hh hn)
    rw [e, add_assoc]
    exact (hl v hv).add hzero

/-! ## Coalescing -/

theorem mem_place_join_addr (hu : u ∈ place h a (join h b l)) : ∃ c, (u.1, c) ∈ place h a (b :: l) := by
  cases l with
  | nil => exact ⟨u.2, hu⟩
  | cons c l =>
      rw [join_cons] at hu
      split at hu
      · rcases List.mem_cons.mp hu with rfl | hu
        · exact ⟨b, List.mem_cons_self⟩
        · have e : a + h + (b.size + h + c.size) = a + h + b.size + h + c.size := by ring
          refine ⟨u.2, List.mem_cons_of_mem _ (List.mem_cons_of_mem _ ?_)⟩
          rw [← e]
          exact hu
      · exact ⟨u.2, hu⟩

theorem mem_place_coalesce_addr (hu : u ∈ place h a (coalesce h l)) : ∃ c, (u.1, c) ∈ place h a l := by
  induction l generalizing a u with
  | nil => exact ⟨u.2, hu⟩
  | cons b l ih =>
      obtain ⟨c, hc⟩ := mem_place_join_addr hu
      rcases List.mem_cons.mp hc with e | hc
      · rw [(Prod.mk.inj e).1]
        exact ⟨b, List.mem_cons_self⟩
      · obtain ⟨c', hc'⟩ := ih hc
        exact ⟨c', List.mem_cons_of_mem _ hc'⟩

/-- Freeing a block moves no header. -/
theorem mem_place_free (hx : (x, b) ∈ place h a (pre ++ ⟨k, f⟩ :: post)) :
    ∃ c, (x, c) ∈ place h a (pre ++ ⟨k, g⟩ :: post) := by
  rw [place_append] at hx ⊢
  rcases List.mem_append.mp hx with hx | hx
  · exact ⟨b, List.mem_append_left _ hx⟩
  · rcases List.mem_cons.mp hx with e | hx
    · obtain ⟨rfl, -⟩ := Prod.mk.inj e
      exact ⟨⟨k, g⟩, List.mem_append_right _ List.mem_cons_self⟩
    · exact ⟨b, List.mem_append_right _ (List.mem_cons_of_mem _ hx)⟩

/-- The headers after a release are old ones. -/
theorem mem_place_release_addr (hu : u ∈ place h a (coalesce h (pre ++ ⟨k, f⟩ :: post))) :
    ∃ c, (u.1, c) ∈ place h a (pre ++ ⟨k, g⟩ :: post) := by
  obtain ⟨c, hc⟩ := mem_place_coalesce_addr hu
  exact mem_place_free hc

theorem OnGrid.of_mem {l' : List Blk} (hl : OnGrid d h a l)
    (hmem : ∀ u ∈ place h a l', ∃ c, (u.1, c) ∈ place h a l) : OnGrid d h a l' := by
  intro u hu
  obtain ⟨c, hc⟩ := hmem u hu
  exact hl (u.1, c) hc

end Ltm.FirstFit
