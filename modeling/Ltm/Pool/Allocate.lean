import Ltm.Pool.Run

/-! # `pool::allocate` is first fit

On a memory that carries the chain of the tiling `l`, the search of the code finds the block that
`search n l` finds; `allocate` returns null and leaves the machine alone when there is none, else it
carves that block. Nothing wraps, and every range written is a field of a header of the chain after
the call.
-/

namespace Ltm.Heap
open ByteMemory FirstFit
set_option autoImplicit false
set_option maxHeartbeats 250000

variable {m : Mem} {o : ℕ} {pre post : List Blk} {s : ℕ}

theorem search_cons (n : ℕ) (b : Blk) (l : List Blk) : search n (b :: l) =
    if b.free = true ∧ n ≤ b.size then some ([], b, l)
    else (search n l).map fun r => (b :: r.1, r.2.1, r.2.2) := rfl

theorem flag_eq_zero (b : Blk) : flag b = 0 ↔ b.free = false := by
  unfold flag
  cases b.free <;> simp

theorem scan_pass {turns n a : ℕ} {p q k : ℕ} {b : Blk} {w : List (ℕ × ℕ)}
    (hh : header m a = ⟨p, q, k, flag b⟩) (hk : b.size = k) (hb : ¬(b.free = true ∧ n ≤ b.size)) :
    scan (turns + 1) n a ⟨m, w, false⟩ =
      if q = 0 then some (none, ⟨m, w, false⟩) else scan turns n q ⟨m, w, false⟩ := by
  rw [scan, free_bind, hh]
  by_cases hf : flag b = 0
  · rw [if_pos hf, next_bind, hh]
    by_cases hq : q = 0
    · rw [if_pos hq, if_pos hq, pure_run]
    · rw [if_neg hq, if_neg hq, next_bind, hh]
  · have hk' : k < n := by
      have : b.free = true := by simpa [flag_eq_zero] using hf
      rw [← hk]
      simpa [this] using hb
    rw [if_neg hf, size_bind, hh, if_pos hk', next_bind, hh]
    by_cases hq : q = 0
    · rw [if_pos hq, if_pos hq, pure_run]
    · rw [if_neg hq, if_neg hq, next_bind, hh]

theorem scan_stop {turns n a : ℕ} {p q : ℕ} {b : Blk} {w : List (ℕ × ℕ)}
    (hh : header m a = ⟨p, q, b.size, flag b⟩) (hb : b.free = true ∧ n ≤ b.size) :
    scan (turns + 1) n a ⟨m, w, false⟩ = some (some a, ⟨m, w, false⟩) := by
  have hf : ¬ flag b = 0 := by simp [flag_eq_zero, hb.1]
  rw [scan, free_bind, hh, if_neg hf, size_bind, hh, if_neg (Nat.not_lt.mpr hb.2), pure_run]

/-- The search of the code walks the chain as `search` walks the tiling. -/
theorem scan_run {n : ℕ} {w : List (ℕ × ℕ)} {l : List Blk} {p a turns : ℕ} (hne : l ≠ [])
    (hC : Linked m p (place 32 a l) 0) (ha : 0 < a) (ht : l.length ≤ turns) :
    scan turns n a ⟨m, w, false⟩ =
      some ((search n l).map fun r => a + span 32 r.1, ⟨m, w, false⟩) := by
  induction l generalizing p a turns with
  | nil => exact absurd rfl hne
  | cons b l ih =>
      obtain ⟨turns, rfl⟩ : ∃ t, turns = t + 1 := Nat.exists_eq_add_one.mpr (by simp at ht; omega)
      obtain ⟨hh, hl⟩ := hC
      rw [search_cons]
      by_cases hb : b.free = true ∧ n ≤ b.size
      · rw [if_pos hb, scan_stop hh hb]
        simp [span]
      · rw [if_neg hb, scan_pass hh rfl hb]
        cases l with
        | nil => rfl
        | cons c l =>
            have hne : a + 32 + b.size ≠ 0 := by omega
            have hlen : (c :: l).length ≤ turns := by simpa using ht
            rw [first_place_cons, if_neg hne, ih (List.cons_ne_nil c l) hl (by omega) hlen,
              Option.map_map]
            have e : ∀ r : List Blk × Blk × List Blk, a + 32 + b.size + span 32 r.1 =
                a + span 32 (b :: r.1) := fun r => by simp only [span]; omega
            simp only [e]
            rfl

section Allocate
variable {w : List (ℕ × ℕ)} {n : ℕ}

theorem take_whole_spec (hC : Chain m o (pre ++ ⟨s, true⟩ :: post)) (hn : n ≤ s)
    (hr : s - n < 64) (h64 : o + span 32 (pre ++ ⟨s, true⟩ :: post) < 2 ^ 64) :
    ∃ m' w', take n (o + span 32 pre) ⟨m, w, false⟩ =
        some (o + span 32 pre + 32, ⟨m', w ++ w', false⟩) ∧
      Chain m' o (pre ++ ⟨s, false⟩ :: post) ∧ InFields o (pre ++ ⟨s, false⟩ :: post) w' := by
  obtain ⟨-, h2, -⟩ := chain_mid.mp hC
  simp only [span_append, span] at h64
  refine ⟨_, [(o + span 32 pre + 24, 4)], take_whole h2 hn hr (by simp only; omega), hC.putFree false rfl, ?_⟩
  exact inFields_cons (mem_place_mid 32 o pre _ post) (by decide) (inFields_nil o _)

theorem header_splitMem_apart {b y x : ℕ} (h1 : x + 32 ≤ b ∨ b + n + 64 ≤ x)
    (h2 : y = 0 ∨ y + 32 ≤ x ∨ x + 32 ≤ y) :
    header (splitMem m b n s y) x = header m x := by
  simp (disch := omega) only [splitMem, header_putFree_apart, header_putSize_apart,
    header_putPrev_apart, header_putNext_apart, header_putPrevOf_apart]

theorem take_split_spec (hC : Chain m o (pre ++ ⟨s, true⟩ :: post)) (ho : 0 < o)
    (hr : 64 ≤ s - n) (h64 : o + span 32 (pre ++ ⟨s, true⟩ :: post) < 2 ^ 64) :
    ∃ m' w', take n (o + span 32 pre) ⟨m, w, false⟩ =
        some (o + span 32 pre + 32, ⟨m', w ++ w', false⟩) ∧
      Chain m' o (pre ++ ⟨n, false⟩ :: ⟨s - n - 32, true⟩ :: post) ∧
      InFields o (pre ++ ⟨n, false⟩ :: ⟨s - n - 32, true⟩ :: post) w' := by
  obtain ⟨h1, h2, h3⟩ := chain_mid.mp hC
  simp only [span_append, span] at h64
  set b := o + span 32 pre with hb
  set a := b + 32 + s with ha
  set y := first (place 32 a post) 0 with hy
  set z := b + n + 32 with hz
  have hh2 : header m b = ⟨last 0 (place 32 o pre), y, s, 1⟩ := h2
  have hya : y = 0 ∨ y = a := (first_place_eq a post).imp id And.left
  have hyb : y = 0 ∨ a ≤ y := by omega
  -- the two headers the split rewrites
  have hhb : header (splitMem m b n s y) b = ⟨last 0 (place 32 o pre), z, n, 0⟩ := by
    simp (disch := omega) only [splitMem, ← hz, header_putFree_apart, header_putSize,
      header_putSize_apart, header_putFree, header_putPrev_apart, header_putNext,
      header_putNext_apart, header_putPrevOf_apart, hh2]
  have hhz : header (splitMem m b n s y) z = ⟨b, y, s - n - 32, 1⟩ := by
    simp (disch := omega) only [splitMem, ← hz, header_putFree, header_putSize_apart,
      header_putSize, header_putFree_apart, header_putPrev, header_putNext_apart, header_putNext]
  have hpost : Linked (splitMem m b n s y) z (place 32 a post) 0 := by
    have hq : Linked (putPrevOf m y z) z (place 32 a post) 0 := h3.putPrevOf (by omega) (by omega)
    refine hq.frame fun u hu => ?_
    have hu' := le_place hu le_rfl
    simp (disch := omega) only [splitMem, ← hz, header_putFree_apart, header_putSize_apart,
      header_putPrev_apart, header_putNext_apart]
  have e : z + 32 + (s - n - 32) = a := by omega
  have ez : b + 32 + n = z := by omega
  refine ⟨splitMem m b n s y, splitLog b n y, take_split hh2 hr (by omega) hyb, ?_, ?_⟩
  · refine chain_mid.mpr ⟨h1.frame fun u hu => ?_, ?_, ?_⟩
    · have hu' := place_lt hu le_rfl
      exact header_splitMem_apart (Or.inl hu') (by omega)
    · rw [hhb]
      simp only [← hb, first_place_cons, ez]
      rfl
    · simp only [← hb, ez, place, e]
      exact ⟨hhz, hpost⟩
  · have hmb : (b, ⟨n, false⟩) ∈
        place 32 o (pre ++ ⟨n, false⟩ :: ⟨s - n - 32, true⟩ :: post) := mem_place_mid 32 o pre _ _
    have hmz : (z, ⟨s - n - 32, true⟩) ∈
        place 32 o (pre ++ ⟨n, false⟩ :: ⟨s - n - 32, true⟩ :: post) := by
      rw [place_append, ← hb, place, ez]
      exact List.mem_append_right _ (List.mem_cons_of_mem _ List.mem_cons_self)
    have hlog := first_mem_place o pre [⟨n, false⟩, ⟨s - n - 32, true⟩] post (a := a)
      (by simp only [span_append, span]; omega)
    refine inFields_append (inFields_logOf hlog) ?_
    rw [← hz]
    exact inFields_cons hmz (by decide) (inFields_cons hmb (by decide)
      (inFields_cons (k := 0) hmz (by decide) (inFields_cons hmb (by decide)
      (inFields_cons hmz (by decide) (inFields_cons hmb (by decide)
      (inFields_cons hmz (by decide) (inFields_nil o _)))))))

theorem take_spec {b : Blk} (hC : Chain m o (pre ++ b :: post)) (ho : 0 < o) (hb : b.free = true)
    (hn : n ≤ b.size) (h64 : o + span 32 (pre ++ b :: post) < 2 ^ 64) :
    ∃ m' w', take n (o + span 32 pre) ⟨m, w, false⟩ =
        some (o + span 32 pre + 32, ⟨m', w ++ w', false⟩) ∧
      Chain m' o (pre ++ carve 32 n b ++ post) ∧ InFields o (pre ++ carve 32 n b ++ post) w' := by
  obtain ⟨k, f⟩ := b
  obtain rfl : f = true := hb
  unfold carve
  split
  · next hr => simpa using take_whole_spec hC hn hr h64
  · next hr => simpa using take_split_spec hC ho (by simp only at hr; omega) h64

theorem size_le_span {l : List Blk} {b : Blk} (hb : b ∈ l) : b.size + 32 ≤ span 32 l := by
  obtain ⟨pre, post, rfl⟩ := List.append_of_mem hb
  simp only [span_append, span]
  omega

theorem length_le_span (l : List Blk) : l.length ≤ span 32 l := by
  induction l with
  | nil => simp
  | cons b l ih => simp only [List.length_cons, span]; omega

variable {l : List Blk}

/-- The early test of `allocate` turns away only requests that no block can meet. -/
theorem search_eq_none_of_lt (h : span 32 l < n + 32) : search n l = none := by
  cases hs : search n l with
  | none => rfl
  | some r =>
      obtain ⟨pre, b, post⟩ := r
      obtain ⟨rfl, -, hn⟩ := search_eq_some hs
      have hb : b ∈ pre ++ b :: post := by simp
      have := size_le_span hb
      omega

theorem allocate_run (hC : Chain m o l) (ho : 0 < o) (hl : l ≠ []) (h64 : o + span 32 l < 2 ^ 64) :
    allocate ⟨span 32 l, o⟩ n ⟨m, w, false⟩ = match search n l with
      | none => some (0, ⟨m, w, false⟩)
      | some r => take n (o + span 32 r.1) ⟨m, w, false⟩ := by
  obtain ⟨b, hb⟩ := List.exists_mem_of_ne_nil l hl
  have h32 := size_le_span hb
  unfold allocate
  rw [sub_bind _ (by simp only [sizeofBlock]; omega)]
  by_cases hn : n > span 32 l - 32
  · rw [if_pos hn, search_eq_none_of_lt (by omega), pure_run]
  · rw [if_neg hn, bind_run, scan_run hl hC ho (Nat.le_succ_of_le (length_le_span l)),
      bind_some_run]
    cases search n l with
    | none => rfl
    | some r => rfl

end Allocate

end Ltm.Heap
