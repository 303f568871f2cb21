import Ltm.Foundations.FirstFit

/-! # The gaps of a region

A gap of `[a, z)` is a maximal stretch of it that nothing covers. Two gaps are equal or apart
(`Gap.eq_of_mem`). In a separated tiling the gaps between the used blocks are the free blocks, headers
included (`gap_iff`), so first fit finds a block exactly if some gap has room for one
(`search_eq_none_iff_gap`), and then in the lowest such gap (`search_lowest`).
-/

namespace Ltm.FirstFit
set_option autoImplicit false
set_option maxHeartbeats 250000

structure Gap (covered : ℕ → Prop) (a z lo hi : ℕ) : Prop where
  lt : lo < hi
  inside : a ≤ lo ∧ hi ≤ z
  clear : ∀ x, lo ≤ x → x < hi → ¬covered x
  left : lo = a ∨ covered (lo - 1)
  right : hi = z ∨ covered hi

section Gap
variable {covered covered' : ℕ → Prop} {a z lo hi lo' hi' x : ℕ}

theorem gap_congr (h : ∀ x, covered x ↔ covered' x) :
    Gap covered a z lo hi ↔ Gap covered' a z lo hi := by
  obtain rfl : covered = covered' := funext fun x => propext (h x)
  exact Iff.rfl

theorem Gap.lo_le (hg : Gap covered a z lo hi) (hg' : Gap covered a z lo' hi') (hx : lo' ≤ x)
    (hx' : x < hi) : lo' ≤ lo := by
  by_contra hlt
  rcases hg'.left with rfl | hcov
  · exact hlt hg.inside.1
  · exact hg.clear (lo' - 1) (by omega) (by omega) hcov

theorem Gap.le_hi (hg : Gap covered a z lo hi) (hg' : Gap covered a z lo' hi') (hx : lo ≤ x)
    (hx' : x < hi') : hi ≤ hi' := by
  by_contra hlt
  rcases hg'.right with rfl | hcov
  · exact hlt hg.inside.2
  · exact hg.clear hi' (by omega) (by omega) hcov

theorem Gap.eq_of_mem (hg : Gap covered a z lo hi) (hg' : Gap covered a z lo' hi')
    (hx : lo ≤ x ∧ x < hi) (hx' : lo' ≤ x ∧ x < hi') : lo = lo' ∧ hi = hi' :=
  ⟨le_antisymm (hg'.lo_le hg hx.1 hx'.2) (hg.lo_le hg' hx'.1 hx.2),
    le_antisymm (hg.le_hi hg' hx.1 hx'.2) (hg'.le_hi hg hx'.1 hx.2)⟩

end Gap

/-! ## Free blocks are gaps -/

/-- The positions that the used blocks cover, with their headers. -/
def Used (h a : ℕ) (l : List Blk) (x : ℕ) : Prop :=
  ∃ u ∈ place h a l, u.2.free = false ∧ u.1 ≤ x ∧ x < u.1 + h + u.2.size

section Tiling
variable {h a n : ℕ} {l pre post : List Blk} {b : Blk}

theorem exists_block {x : ℕ} (hx : a ≤ x) (hx' : x < a + span h l) :
    ∃ u ∈ place h a l, u.1 ≤ x ∧ x < u.1 + h + u.2.size := by
  induction l generalizing a with
  | nil => exact absurd hx' (by simp only [span]; omega)
  | cons b l ih =>
      by_cases hb : x < a + h + b.size
      · exact ⟨(a, b), List.mem_cons_self, hx, hb⟩
      · rw [span] at hx'
        obtain ⟨u, hu, hux⟩ := ih (a := a + h + b.size) (by omega) (by omega)
        exact ⟨u, List.mem_cons_of_mem _ hu, hux⟩

theorem exists_mem_place (hb : b ∈ l) : ∃ x, (x, b) ∈ place h a l := by
  obtain ⟨pre, post, rfl⟩ := List.append_of_mem hb
  exact ⟨_, mem_place_mid h a pre b post⟩

theorem mem_of_mem_place {x : ℕ} (hx : (x, b) ∈ place h a l) : b ∈ l := by
  obtain ⟨pre, post, rfl, -⟩ := mem_place_split hx
  simp

/-- Before a free block of a separated tiling stands a used one, or nothing. -/
theorem used_before (hh : 0 < h) (hs : Separated (pre ++ b :: post)) (hb : b.free = true) :
    a + span h pre = a ∨ Used h a (pre ++ b :: post) (a + span h pre - 1) := by
  rcases List.eq_nil_or_concat pre with rfl | ⟨r, c, e⟩
  · exact Or.inl rfl
  · rw [List.concat_eq_append] at e
    subst e
    have hc : c.free = false := by
      have hcb : ¬(c.free = true ∧ b.free = true) :=
        (List.isChain_append.mp hs).2.2 c (by simp) b (by simp)
      simpa [hb] using hcb
    have hmem : (a + span h r, c) ∈ place h a (r ++ [c] ++ b :: post) := by
      rw [List.append_assoc]
      exact mem_place_mid h a r c (b :: post)
    refine Or.inr ⟨(a + span h r, c), hmem, hc, ?_, ?_⟩
    · simp only [span_append, span]
      omega
    · simp only [span_append, span]
      omega

theorem used_behind (hh : 0 < h) (hs : Separated (pre ++ b :: post)) (hb : b.free = true) :
    a + span h pre + h + b.size = a + span h (pre ++ b :: post) ∨
      Used h a (pre ++ b :: post) (a + span h pre + h + b.size) := by
  cases post with
  | nil =>
      refine Or.inl ?_
      simp only [span_append, span]
      omega
  | cons c post =>
      have hc : c.free = false := by
        have hbc := (List.isChain_cons_cons.mp (List.isChain_append.mp hs).2.1).1
        simpa [hb] using hbc
      have hmem := mem_place_mid h a (pre ++ [b]) c post
      rw [List.append_assoc, span_append] at hmem
      refine Or.inr ⟨_, hmem, hc, ?_, ?_⟩
      · simp only [span]
        omega
      · simp only [span]
        omega

theorem gap_of_free {x : ℕ} (hh : 0 < h) (hs : Separated l) (hx : (x, b) ∈ place h a l)
    (hb : b.free = true) : Gap (Used h a l) a (a + span h l) x (x + h + b.size) := by
  obtain ⟨h1, h2⟩ := mem_place_bounds hx
  have hclear : ∀ y, x ≤ y → y < x + h + b.size → ¬Used h a l y := by
    rintro y hy hy' ⟨u, hu, hused, h3, h4⟩
    rcases place_apart hu hx with rfl | h5 | h5
    · rw [hb] at hused
      exact absurd hused (by simp)
    · simp only at h5
      omega
    · simp only at h5
      omega
  obtain ⟨pre, post, rfl, rfl⟩ := mem_place_split hx
  exact ⟨by omega, ⟨h1, h2⟩, hclear, used_before hh hs hb, used_behind hh hs hb⟩

/-- The gaps of a separated tiling are its free blocks. -/
theorem gap_iff (hh : 0 < h) (hs : Separated l) {lo hi : ℕ} :
    Gap (Used h a l) a (a + span h l) lo hi ↔
      ∃ b, (lo, b) ∈ place h a l ∧ b.free = true ∧ hi = lo + h + b.size := by
  constructor
  · intro hg
    have hlt := hg.lt
    have hin := hg.inside
    obtain ⟨⟨x, b⟩, hx, h1, h2⟩ := exists_block hin.1 (show lo < a + span h l by omega)
    have hb : b.free = true := by
      by_contra hused
      exact hg.clear lo le_rfl hlt ⟨_, hx, by simpa using hused, h1, h2⟩
    obtain ⟨rfl, rfl⟩ := hg.eq_of_mem (gap_of_free hh hs hx hb) ⟨le_rfl, hlt⟩ ⟨h1, h2⟩
    exact ⟨b, hx, hb, rfl⟩
  · rintro ⟨b, hx, hb, rfl⟩
    exact gap_of_free hh hs hx hb

/-! ## What first fit finds -/

theorem search_eq_none_iff : search n l = none ↔ ∀ b ∈ l, ¬(b.free = true ∧ n ≤ b.size) := by
  induction l with
  | nil => simp [search]
  | cons b l ih =>
      rw [search, List.forall_mem_cons, ← ih]
      by_cases hb : b.free = true ∧ n ≤ b.size
      · rw [if_pos hb]
        exact iff_of_false (by simp) fun h => h.1 hb
      · rw [if_neg hb, Option.map_eq_none_iff]
        exact (and_iff_right hb).symm

/-- What the search passes over before the block that it finds. -/
theorem search_passed (hs : search n l = some (pre, b, post)) :
    ∀ c ∈ pre, ¬(c.free = true ∧ n ≤ c.size) := by
  induction l generalizing pre with
  | nil => simp [search] at hs
  | cons d l ih =>
      unfold search at hs
      split at hs
      · obtain ⟨rfl, -, -⟩ : [] = pre ∧ d = b ∧ l = post := by simpa using hs
        simp
      · next hd =>
        obtain ⟨⟨pre', b', post'⟩, hs', e⟩ := Option.map_eq_some_iff.mp hs
        obtain ⟨rfl, rfl, rfl⟩ : d :: pre' = pre ∧ b' = b ∧ post' = post := by simpa using e
        exact List.forall_mem_cons.mpr ⟨hd, ih hs'⟩

theorem search_eq_none_iff_gap (hh : 0 < h) (hs : Separated l) : search n l = none ↔
    ∀ lo hi, Gap (Used h a l) a (a + span h l) lo hi → hi - lo < n + h := by
  rw [search_eq_none_iff]
  constructor
  · intro hno lo hi hg
    obtain ⟨b, hx, hb, rfl⟩ := (gap_iff hh hs).mp hg
    by_contra hlt
    exact hno b (mem_of_mem_place hx) ⟨hb, by omega⟩
  · rintro hno b hb ⟨hfree, hn⟩
    obtain ⟨x, hx⟩ := exists_mem_place (h := h) (a := a) hb
    have hlt := hno _ _ (gap_of_free hh hs hx hfree)
    omega

theorem search_lowest (hh : 0 < h) (hs : Separated l) (hf : search n l = some (pre, b, post)) :
    ∃ hi, Gap (Used h a l) a (a + span h l) (a + span h pre) hi ∧ n + h ≤ hi - (a + span h pre) ∧
      ∀ lo' hi', Gap (Used h a l) a (a + span h l) lo' hi' → n + h ≤ hi' - lo' →
        a + span h pre ≤ lo' := by
  have hpassed := search_passed hf
  obtain ⟨rfl, hb, hn⟩ := search_eq_some hf
  refine ⟨_, gap_of_free hh hs (mem_place_mid h a pre b post) hb, by omega, fun lo' hi' hg hroom => ?_⟩
  obtain ⟨c, hx, hc, rfl⟩ := (gap_iff hh hs).mp hg
  rw [place_append, List.mem_append] at hx
  rcases hx with hx | hx
  · exact absurd ⟨hc, by omega⟩ (hpassed c (mem_of_mem_place hx))
  · exact (mem_place_bounds hx).1

end Tiling

end Ltm.FirstFit
