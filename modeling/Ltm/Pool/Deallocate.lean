import Ltm.Pool.Run

/-! # `pool::deallocate` frees a block and coalesces

On a used block of the chain, whichever of the four merge cases of the code runs, the chain
afterwards is that of the coalesced tiling. Nothing wraps, and every range written is a
field of a header of the chain before the call.
-/

namespace Ltm.Heap
open ByteMemory FirstFit
set_option autoImplicit false
set_option maxHeartbeats 250000

variable {m : Mem} {o : ℕ} {pre post : List Blk} {s : ℕ}

theorem not_freeAt_last {z : ℕ} (h : Linked m 0 (place 32 o pre) z) (hu : LastUsed pre) :
    ¬FreeAt m (last 0 (place 32 o pre)) := by
  rcases List.eq_nil_or_concat pre with rfl | ⟨pre', f, rfl⟩
  · exact fun hf => hf.1 rfl
  · have hf : f.free = false := hu f (by simp)
    rw [List.concat_eq_append, place_append] at h ⊢
    obtain ⟨hh, -⟩ := (linked_append.mp h).2
    rw [last_append]
    intro hfree
    apply hfree.2
    change (header m (o + span 32 pre')).free = 0
    rw [hh]
    simp [flag, hf]

theorem not_freeAt_first {p a : ℕ} (h : Linked m p (place 32 a post) 0) (hu : HeadUsed post) :
    ¬FreeAt m (first (place 32 a post) 0) := by
  cases post with
  | nil => exact fun hf => hf.1 rfl
  | cons c post =>
      have hc : c.free = false := hu c rfl
      intro hfree
      apply hfree.2
      rw [first_place_cons, h.1]
      simp [flag, hc]

/-- What `Chain.resize` writes. -/
theorem inFields_resize {l : List Blk} {x q : ℕ} {b : Blk} (hx : (x, b) ∈ place 32 o l)
    (hq : q = 0 ∨ ∃ c, (q, c) ∈ place 32 o l) :
    InFields o l ([(x + 16, 8), (x + 8, 8)] ++ logOf q) := by
  have hsizes : InFields o l [(x + 16, 8), (x + 8, 8)] :=
    inFields_cons hx (by decide) (inFields_cons hx (by decide) (inFields_nil o l))
  exact inFields_append hsizes (inFields_logOf hq)

section Deallocate
variable {w : List (ℕ × ℕ)} {k n : ℕ}

theorem deallocate_neither (hC : Chain m o (pre ++ ⟨s, false⟩ :: post)) (hpre : LastUsed pre)
    (hpost : HeadUsed post) (h64 : o + span 32 pre + 32 < 2 ^ 64) :
    ∃ m' w', deallocate (o + span 32 pre + 32) ⟨m, w, false⟩ = some ((), ⟨m', w ++ w', false⟩) ∧
      Chain m' o (pre ++ ⟨s, true⟩ :: post) ∧
      InFields o (pre ++ ⟨s, false⟩ :: post) w' := by
  obtain ⟨h1, h2, h3⟩ := chain_mid.mp hC
  refine ⟨_, [(o + span 32 pre + 24, 4)], ?_, hC.putFree true rfl,
    inFields_cons (mem_place_mid 32 o pre _ post) (by decide) (inFields_nil o _)⟩
  rw [deallocate_run h2 h64, if_neg (not_freeAt_last h1 hpre), if_neg (not_freeAt_first h3 hpost),
    setFree_run]
  rfl

theorem deallocate_next (hC : Chain m o (pre ++ ⟨s, false⟩ :: ⟨n, true⟩ :: post)) (ho : 0 < o)
    (hpre : LastUsed pre)
    (h64 : o + span 32 (pre ++ ⟨s, false⟩ :: ⟨n, true⟩ :: post) < 2 ^ 64) :
    ∃ m' w', deallocate (o + span 32 pre + 32) ⟨m, w, false⟩ = some ((), ⟨m', w ++ w', false⟩) ∧
      Chain m' o (pre ++ ⟨s + 32 + n, true⟩ :: post) ∧
      InFields o (pre ++ ⟨s, false⟩ :: ⟨n, true⟩ :: post) w' := by
  obtain ⟨h1, h2, h3, h4⟩ := chain_mid.mp hC
  simp only [span_append, span] at h64
  set b := o + span 32 pre with hb
  set y := b + 32 + s with hy
  set q := first (place 32 (y + 32 + n) post) 0 with hq
  have hh2 : header m b = ⟨last 0 (place 32 o pre), y, s, 0⟩ := h2
  have hh3 : header m y = ⟨b, q, n, 1⟩ := h3
  have hq64 : q < 2 ^ 64 := by
    rcases first_place_eq (y + 32 + n) post with e | ⟨e, -⟩ <;> omega
  have hyfree : FreeAt m y := ⟨by omega, by simp [hh3]⟩
  have e : b + 32 + (s + (n + 32)) = y + 32 + n := by omega
  have hchain : Chain (putPrevOf (putNext (putSize m b (s + (n + 32))) b q) q b) o
      (pre ++ ⟨s + (n + 32), false⟩ :: post) :=
    Chain.resize hb.symm ho h1 (by rw [h2]) (by rw [h2]; rfl) rfl (by omega) (by rw [e]; exact h4)
      (by rw [e]) (by omega)
  have hsize : s + 32 + n = s + (n + 32) := by omega
  refine ⟨putFree (putPrevOf (putNext (putSize m b (s + (n + 32))) b q) q b) b 1,
    [(b + 16, 8), (b + 8, 8)] ++ logOf q ++ [(b + 24, 4)], ?_, ?_, ?_⟩
  · rw [deallocate_run hh2 (by omega), if_neg (not_freeAt_last h1 hpre), if_pos hyfree,
      mergeNext_run hh2 hh3 rfl hq64 (by omega)]
    simp only [List.append_assoc]
  · rw [hsize]
    exact hchain.putFree true hb.symm
  · have hmem : (b, ⟨s, false⟩) ∈ place 32 o (pre ++ ⟨s, false⟩ :: ⟨n, true⟩ :: post) :=
      mem_place_mid 32 o pre _ _
    have hlog := first_mem_place o pre [⟨s, false⟩, ⟨n, true⟩] post (a := y + 32 + n)
      (by simp only [span_append, span]; omega)
    exact inFields_append (inFields_resize hmem hlog)
      (inFields_cons hmem (by decide) (inFields_nil o _))

theorem deallocate_prev (hC : Chain m o (pre ++ ⟨k, true⟩ :: ⟨s, false⟩ :: post)) (ho : 0 < o)
    (hpost : HeadUsed post)
    (h64 : o + span 32 (pre ++ ⟨k, true⟩ :: ⟨s, false⟩ :: post) < 2 ^ 64) :
    ∃ m' w', deallocate (o + span 32 pre + 32 + k + 32) ⟨m, w, false⟩ =
        some ((), ⟨m', w ++ w', false⟩) ∧
      Chain m' o (pre ++ ⟨k + 32 + s, true⟩ :: post) ∧
      InFields o (pre ++ ⟨k, true⟩ :: ⟨s, false⟩ :: post) w' := by
  obtain ⟨h1, h2, h3, h4⟩ := chain_mid.mp hC
  simp only [span_append, span] at h64
  set x := o + span 32 pre with hx
  set b := x + 32 + k with hb
  set y := first (place 32 (b + 32 + s) post) 0 with hy
  have hh2 : header m x = ⟨last 0 (place 32 o pre), b, k, 1⟩ := h2
  have hh3 : header m b = ⟨x, y, s, 0⟩ := h3
  have hxfree : FreeAt m x := ⟨by omega, by simp [hh2]⟩
  have e : x + 32 + (k + (s + 32)) = b + 32 + s := by omega
  have hchain : Chain (putPrevOf (putNext (putSize m x (k + (s + 32))) x y) y x) o
      (pre ++ ⟨k + (s + 32), true⟩ :: post) :=
    Chain.resize hx.symm ho h1 (by rw [h2]) (by rw [h2]; rfl) rfl (by omega) (by rw [e]; exact h4)
      (by rw [e]) (by omega)
  have hsize : k + 32 + s = k + (s + 32) := by omega
  refine ⟨putFree (putPrevOf (putNext (putSize m x (k + (s + 32))) x y) y x) b 1,
    [(x + 16, 8), (x + 8, 8)] ++ logOf y ++ [(b + 24, 4)], ?_, ?_, ?_⟩
  · rw [deallocate_run hh3 (by omega), if_pos hxfree, if_neg (not_freeAt_first h4 hpost),
      mergePrev_run hh3 hh2 rfl (by omega)]
    simp only [List.append_assoc]
  · rw [hsize]
    exact hchain.putFree_inside (by omega) (by simp only; omega)
  · have hmem : (x, ⟨k, true⟩) ∈ place 32 o (pre ++ ⟨k, true⟩ :: ⟨s, false⟩ :: post) :=
      mem_place_mid 32 o pre _ _
    have hmem' : (b, ⟨s, false⟩) ∈ place 32 o (pre ++ ⟨k, true⟩ :: ⟨s, false⟩ :: post) := by
      rw [place_append]
      exact List.mem_append_right _ (List.mem_cons_of_mem _ List.mem_cons_self)
    have hlog := first_mem_place o pre [⟨k, true⟩, ⟨s, false⟩] post (a := b + 32 + s)
      (by simp only [span_append, span]; omega)
    exact inFields_append (inFields_resize hmem hlog)
      (inFields_cons hmem' (by decide) (inFields_nil o _))

theorem deallocate_both (hC : Chain m o (pre ++ ⟨k, true⟩ :: ⟨s, false⟩ :: ⟨n, true⟩ :: post))
    (ho : 0 < o)
    (h64 : o + span 32 (pre ++ ⟨k, true⟩ :: ⟨s, false⟩ :: ⟨n, true⟩ :: post) < 2 ^ 64) :
    ∃ m' w', deallocate (o + span 32 pre + 32 + k + 32) ⟨m, w, false⟩ =
        some ((), ⟨m', w ++ w', false⟩) ∧
      Chain m' o (pre ++ ⟨k + 32 + (s + 32 + n), true⟩ :: post) ∧
      InFields o (pre ++ ⟨k, true⟩ :: ⟨s, false⟩ :: ⟨n, true⟩ :: post) w' := by
  obtain ⟨h1, h2, h3, h4, h5⟩ := chain_mid.mp hC
  simp only [span_append, span] at h64
  set x := o + span 32 pre with hx
  set b := x + 32 + k with hb
  set y := b + 32 + s with hy
  set q := first (place 32 (y + 32 + n) post) 0 with hq
  have hh2 : header m x = ⟨last 0 (place 32 o pre), b, k, 1⟩ := h2
  have hh3 : header m b = ⟨x, y, s, 0⟩ := h3
  have hh4 : header m y = ⟨b, q, n, 1⟩ := h4
  have hxfree : FreeAt m x := ⟨by omega, by simp [hh2]⟩
  have hyfree : FreeAt m y := ⟨by omega, by simp [hh4]⟩
  have e : x + 32 + (k + (s + n + 64)) = y + 32 + n := by omega
  have hchain : Chain (putPrevOf (putNext (putSize m x (k + (s + n + 64))) x q) q x) o
      (pre ++ ⟨k + (s + n + 64), true⟩ :: post) :=
    Chain.resize hx.symm ho h1 (by rw [h2]) (by rw [h2]; rfl) rfl (by omega) (by rw [e]; exact h5)
      (by rw [e]) (by omega)
  have hsize : k + 32 + (s + 32 + n) = k + (s + n + 64) := by omega
  refine ⟨putPrevOf (putNext (putSize m x (k + (s + n + 64))) x q) q x,
    [(x + 16, 8), (x + 8, 8)] ++ logOf q, ?_, ?_, ?_⟩
  · rw [deallocate_run hh3 (by omega), if_pos hxfree, if_pos hyfree,
      mergeBoth_run hh3 hh2 hh4 rfl rfl (by omega)]
    simp only [List.append_assoc]
  · rw [hsize]
    exact hchain
  · have hmem : (x, ⟨k, true⟩) ∈
        place 32 o (pre ++ ⟨k, true⟩ :: ⟨s, false⟩ :: ⟨n, true⟩ :: post) :=
      mem_place_mid 32 o pre _ _
    have hlog := first_mem_place o pre [⟨k, true⟩, ⟨s, false⟩, ⟨n, true⟩] post (a := y + 32 + n)
      (by simp only [span_append, span]; omega)
    exact inFields_resize hmem hlog

/-- `deallocate` of a used block frees it and coalesces. -/
theorem deallocate_spec (hC : Chain m o (pre ++ ⟨s, false⟩ :: post)) (ho : 0 < o)
    (hsep : Separated (pre ++ ⟨s, false⟩ :: post))
    (h64 : o + span 32 (pre ++ ⟨s, false⟩ :: post) < 2 ^ 64) :
    ∃ m' w', deallocate (o + span 32 pre + 32) ⟨m, w, false⟩ = some ((), ⟨m', w ++ w', false⟩) ∧
      Chain m' o (coalesce 32 (pre ++ ⟨s, true⟩ :: post)) ∧
      InFields o (pre ++ ⟨s, false⟩ :: post) w' := by
  rcases lastUsed_or pre with hpre | ⟨pre, k, rfl⟩
  · rw [coalesce_mid hsep hpre]
    rcases headUsed_or post with hpost | ⟨n, post, rfl⟩
    · rw [join_headUsed hpost]
      simp only [span_append, span] at h64
      exact deallocate_neither hC hpre hpost (by omega)
    · exact deallocate_next hC ho hpre h64
  · simp only [List.append_assoc, List.singleton_append] at hC hsep h64 ⊢
    have haddr : o + span 32 (pre ++ [⟨k, true⟩]) + 32 = o + span 32 pre + 32 + k + 32 := by
      simp only [span_append, span]; omega
    rw [haddr, coalesce_after_free hsep]
    rcases headUsed_or post with hpost | ⟨n, post, rfl⟩
    · rw [join_headUsed hpost]
      exact deallocate_prev hC ho hpost h64
    · exact deallocate_both hC ho h64

end Deallocate

end Ltm.Heap
