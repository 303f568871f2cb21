import Mathlib.Data.List.Chain
import Mathlib.Tactic.Ring
import Mathlib.Algebra.Order.Ring.Nat

/-! # First-fit allocation over a tiling, with coalescing

A region is tiled by blocks, each a header of `h` bytes followed by `size` bytes, used or free. The
tiling is the list of its blocks from the lowest address up; `place h a l` gives each block its
address when the region starts at `a`.

* `search n l` is the first free block of at least `n` bytes, `carve h n b` what becomes of it: the
  whole block when less than two headers would be left over, else `n` bytes and a free rest.
* `coalesce h l` joins every run of free blocks into one.

Both keep the number of bytes covered (`span`); `coalesce` moves no used block, and `carve` adds
exactly one. `Separated` (no two neighbours are both free) holds of every coalesced tiling and is
kept by carving. A separated tiling is determined by its bytes and its used blocks
(`eq_of_used_iff`).
-/

namespace Ltm.FirstFit
set_option autoImplicit false
set_option maxHeartbeats 250000

/-- A block of the tiling: the bytes after its header, and whether they are free. -/
structure Blk where
  size : ℕ
  free : Bool
  deriving DecidableEq, Repr

def span (h : ℕ) : List Blk → ℕ
  | [] => 0
  | b :: l => h + b.size + span h l

/-- The blocks of a tiling that starts at address `a`, each with its header's address. -/
def place (h : ℕ) : ℕ → List Blk → List (ℕ × Blk)
  | _, [] => []
  | a, b :: l => (a, b) :: place h (a + h + b.size) l

def Separated (l : List Blk) : Prop := l.IsChain fun b c => ¬(b.free = true ∧ c.free = true)

/-- The first free block of at least `n` bytes, between the blocks before and after it. -/
def search (n : ℕ) : List Blk → Option (List Blk × Blk × List Blk)
  | [] => none
  | b :: l =>
    if b.free = true ∧ n ≤ b.size then some ([], b, l)
    else (search n l).map fun r => (b :: r.1, r.2.1, r.2.2)

/-- The blocks a free block `b` becomes when `n` of its bytes are granted. -/
def carve (h n : ℕ) (b : Blk) : List Blk :=
  if b.size - n < 2 * h then [⟨b.size, false⟩] else [⟨n, false⟩, ⟨b.size - n - h, true⟩]

def granted (h n : ℕ) (b : Blk) : ℕ := if b.size - n < 2 * h then b.size else n

/-- The tiling after a request for `n` bytes. -/
def grant (h n : ℕ) (l : List Blk) : List Blk :=
  match search n l with
  | none => l
  | some r => r.1 ++ carve h n r.2.1 ++ r.2.2

def join (h : ℕ) (b : Blk) : List Blk → List Blk
  | [] => [b]
  | c :: l => if b.free = true ∧ c.free = true then ⟨b.size + h + c.size, true⟩ :: l else b :: c :: l

def coalesce (h : ℕ) : List Blk → List Blk
  | [] => []
  | b :: l => join h b (coalesce h l)

/-! ## The bytes covered -/

theorem span_append (h : ℕ) (l r : List Blk) : span h (l ++ r) = span h l + span h r := by
  induction l with
  | nil => simp [span]
  | cons b l ih => simp only [List.cons_append, span, ih]; omega

theorem span_replicate (h n : ℕ) (b : Blk) : span h (List.replicate n b) = n * (h + b.size) := by
  induction n with
  | zero => simp [span]
  | succ n ih =>
      rw [List.replicate_succ, span, ih, Nat.succ_mul]
      omega

theorem join_cons (h : ℕ) (b c : Blk) (l : List Blk) : join h b (c :: l) =
    if b.free = true ∧ c.free = true then ⟨b.size + h + c.size, true⟩ :: l else b :: c :: l := rfl

theorem span_join (h : ℕ) (b : Blk) (l : List Blk) : span h (join h b l) = span h (b :: l) := by
  cases l with
  | nil => rfl
  | cons c l =>
      rw [join_cons]
      split
      · simp only [span]; ring
      · rfl

theorem span_coalesce (h : ℕ) (l : List Blk) : span h (coalesce h l) = span h l := by
  induction l with
  | nil => rfl
  | cons b l ih => rw [coalesce, span_join, span, ih, span]

theorem span_carve {h n : ℕ} {b : Blk} (hn : n ≤ b.size) : span h (carve h n b) = h + b.size := by
  unfold carve
  split
  · simp [span]
  · simp only [span]; omega

/-! ## Where the blocks are -/

theorem place_append (h a : ℕ) (l r : List Blk) :
    place h a (l ++ r) = place h a l ++ place h (a + span h l) r := by
  induction l generalizing a with
  | nil => simp [place, span]
  | cons b l ih =>
      have e : a + h + b.size + span h l = a + (h + b.size + span h l) := by ring
      rw [List.cons_append, place, place, ih, span, e, List.cons_append]

theorem mem_place_bounds {h : ℕ} {l : List Blk} {a : ℕ} {u : ℕ × Blk} (hu : u ∈ place h a l) :
    a ≤ u.1 ∧ u.1 + h + u.2.size ≤ a + span h l := by
  induction l generalizing a with
  | nil => simp [place] at hu
  | cons b l ih =>
      rcases List.mem_cons.mp hu with rfl | hu
      · simp only [span]; omega
      · have hl := ih hu
        simp only [span]; omega

theorem place_pairwise (h : ℕ) (l : List Blk) (a : ℕ) :
    (place h a l).Pairwise fun u v => u.1 + h + u.2.size ≤ v.1 := by
  induction l generalizing a with
  | nil => exact List.Pairwise.nil
  | cons b l ih =>
      exact List.Pairwise.cons (fun _ hv => (mem_place_bounds hv).1) (ih (a + h + b.size))

theorem place_apart {h a : ℕ} {l : List Blk} {u v : ℕ × Blk} (hu : u ∈ place h a l)
    (hv : v ∈ place h a l) : u = v ∨ u.1 + h + u.2.size ≤ v.1 ∨ v.1 + h + v.2.size ≤ u.1 := by
  by_cases e : u = v
  · exact Or.inl e
  · let R : ℕ × Blk → ℕ × Blk → Prop := fun u v =>
      u.1 + h + u.2.size ≤ v.1 ∨ v.1 + h + v.2.size ≤ u.1
    have : Std.Symm R := ⟨fun _ _ => Or.symm⟩
    have hp : (place h a l).Pairwise R := (place_pairwise h l a).imp Or.inl
    exact Or.inr (hp.forall hu hv e)

/-- The block with a given header address is unique, as headers have at least one byte. -/
theorem place_inj {h a : ℕ} {l : List Blk} (hh : 0 < h) {u v : ℕ × Blk} (hu : u ∈ place h a l)
    (hv : v ∈ place h a l) (e : u.1 = v.1) : u = v := by
  rcases place_apart hu hv with h' | h' | h'
  · exact h'
  · omega
  · omega

/-- A header lies apart from the bytes of every used or free block. -/
theorem header_apart {h a : ℕ} {l : List Blk} {u v : ℕ × Blk} (hu : u ∈ place h a l)
    (hv : v ∈ place h a l) : u.1 + h ≤ v.1 + h ∨ v.1 + h + v.2.size ≤ u.1 := by
  rcases place_apart hu hv with rfl | h' | h'
  · exact Or.inl le_rfl
  · exact Or.inl (by omega)
  · exact Or.inr h'

theorem mem_place_split {h : ℕ} {l : List Blk} {a x : ℕ} {b : Blk} (hx : (x, b) ∈ place h a l) :
    ∃ pre post, l = pre ++ b :: post ∧ x = a + span h pre := by
  induction l generalizing a with
  | nil => simp [place] at hx
  | cons c l ih =>
      rcases List.mem_cons.mp hx with e | hx
      · obtain ⟨rfl, rfl⟩ := Prod.mk.inj e
        exact ⟨[], l, rfl, rfl⟩
      · obtain ⟨pre, post, rfl, rfl⟩ := ih hx
        exact ⟨c :: pre, post, rfl, by simp only [span]; ring⟩

theorem mem_place_mid (h a : ℕ) (pre : List Blk) (b : Blk) (post : List Blk) :
    (a + span h pre, b) ∈ place h a (pre ++ b :: post) := by
  rw [place_append]
  simp [place]

theorem mem_place_replicate {h n i : ℕ} (a : ℕ) (b : Blk) (hi : i < n) :
    (a + i * (h + b.size), b) ∈ place h a (List.replicate n b) := by
  have hsplit : List.replicate n b = List.replicate i b ++ b :: List.replicate (n - i - 1) b := by
    rw [← List.replicate_succ, List.replicate_append_replicate]
    congr 1
    omega
  rw [hsplit, ← span_replicate]
  exact mem_place_mid h a (List.replicate i b) b (List.replicate (n - i - 1) b)

theorem mem_place_release {h a x m n : ℕ} {pre post : List Blk} (hh : 0 < h) :
    (x, ⟨m, false⟩) ∈ place h a (pre ++ ⟨n, true⟩ :: post) ↔
      (x, ⟨m, false⟩) ∈ place h a (pre ++ ⟨n, false⟩ :: post) ∧ x ≠ a + span h pre := by
  have hpost : (x, (⟨m, false⟩ : Blk)) ∈ place h (a + span h pre + h + n) post →
      x ≠ a + span h pre := fun hx => by have := (mem_place_bounds hx).1; omega
  have hpre : (x, (⟨m, false⟩ : Blk)) ∈ place h a pre → x ≠ a + span h pre := fun hx => by
    have := (mem_place_bounds hx).2; omega
  rw [place_append, place_append, List.mem_append, List.mem_append, place, place, List.mem_cons,
    List.mem_cons]
  simp only [Prod.mk.injEq, Blk.mk.injEq, Bool.false_eq_true, and_false, false_or]
  tauto

/-! ## Coalescing -/

theorem head_join (h : ℕ) (b : Blk) (l : List Blk) :
    ∃ s r, join h b l = ⟨s, b.free⟩ :: r := by
  cases l with
  | nil => exact ⟨b.size, [], rfl⟩
  | cons c l =>
      rw [join_cons]
      split
      · next hbc => exact ⟨_, l, by rw [hbc.1]⟩
      · exact ⟨b.size, c :: l, rfl⟩

theorem Separated.join {h : ℕ} {l : List Blk} (hl : Separated l) (b : Blk) :
    Separated (join h b l) := by
  cases l with
  | nil => exact List.isChain_singleton _
  | cons c l =>
      rw [join_cons]
      split
      · next hbc =>
        cases l with
        | nil => exact List.isChain_singleton _
        | cons d l =>
            obtain ⟨hcd, hl'⟩ := List.isChain_cons_cons.mp hl
            exact List.isChain_cons_cons.mpr ⟨fun e => hcd ⟨hbc.2, e.2⟩, hl'⟩
      · next hbc => exact List.isChain_cons_cons.mpr ⟨hbc, hl⟩

theorem separated_coalesce (h : ℕ) (l : List Blk) : Separated (coalesce h l) := by
  induction l with
  | nil => exact List.isChain_nil
  | cons b l ih => exact ih.join b

theorem mem_place_join {h a x m : ℕ} {b : Blk} {l : List Blk} :
    (x, ⟨m, false⟩) ∈ place h a (join h b l) ↔ (x, ⟨m, false⟩) ∈ place h a (b :: l) := by
  cases l with
  | nil => rfl
  | cons c l =>
      rw [join_cons]
      split
      · next hbc =>
        obtain ⟨sb, fb⟩ := b
        obtain ⟨sc, fc⟩ := c
        obtain ⟨rfl, rfl⟩ := hbc
        have e : a + h + (sb + h + sc) = a + h + sb + h + sc := by ring
        simp [place, e]
      · rfl

theorem mem_place_coalesce {h x m : ℕ} {l : List Blk} {a : ℕ} :
    (x, ⟨m, false⟩) ∈ place h a (coalesce h l) ↔ (x, ⟨m, false⟩) ∈ place h a l := by
  induction l generalizing a with
  | nil => exact Iff.rfl
  | cons b l ih => rw [coalesce, mem_place_join, place, place, List.mem_cons, List.mem_cons, ih]

theorem coalesce_eq_self {h : ℕ} {l : List Blk} (hl : Separated l) : coalesce h l = l := by
  induction l with
  | nil => rfl
  | cons b l ih =>
      rw [coalesce, ih hl.tail]
      cases l with
      | nil => rfl
      | cons c l =>
          have hbc : ¬(b.free = true ∧ c.free = true) := (List.isChain_cons_cons.mp hl).1
          rw [join, if_neg hbc]

/-- Joining starts at the first block whose predecessor is not free together with it. -/
theorem coalesce_append {h : ℕ} (x : Blk) (l : List Blk) {pre : List Blk}
    (hp : Separated (pre ++ [x])) : coalesce h (pre ++ x :: l) = pre ++ coalesce h (x :: l) := by
  induction pre with
  | nil => rfl
  | cons b pre ih =>
      rw [List.cons_append, coalesce, ih hp.tail, List.cons_append]
      cases pre with
      | nil =>
          obtain ⟨s, r, e⟩ := head_join h x (coalesce h l)
          have hbx : ¬(b.free = true ∧ x.free = true) := (List.isChain_cons_cons.mp hp).1
          rw [List.nil_append, coalesce, e, join, if_neg hbx]
      | cons c pre =>
          have hbc : ¬(b.free = true ∧ c.free = true) := (List.isChain_cons_cons.mp hp).1
          rw [List.cons_append, join, if_neg hbc]

def LastUsed (l : List Blk) : Prop := ∀ c ∈ l.getLast?, c.free = false

def HeadUsed (l : List Blk) : Prop := ∀ c ∈ l.head?, c.free = false

theorem lastUsed_or (l : List Blk) : LastUsed l ∨ ∃ r n, l = r ++ [⟨n, true⟩] := by
  rcases List.eq_nil_or_concat l with rfl | ⟨r, ⟨n, f⟩, rfl⟩
  · exact Or.inl (by simp [LastUsed])
  · cases f with
    | false => exact Or.inl (by simp [LastUsed])
    | true => exact Or.inr ⟨r, n, by simp⟩

theorem headUsed_or (l : List Blk) : HeadUsed l ∨ ∃ n r, l = ⟨n, true⟩ :: r := by
  cases l with
  | nil => exact Or.inl (by simp [HeadUsed])
  | cons c r =>
      obtain ⟨n, f⟩ := c
      cases f with
      | false => exact Or.inl (by simp [HeadUsed])
      | true => exact Or.inr ⟨n, r, rfl⟩

theorem join_headUsed {h n : ℕ} {l : List Blk} (hl : HeadUsed l) :
    join h ⟨n, true⟩ l = ⟨n, true⟩ :: l := by
  cases l with
  | nil => rfl
  | cons c l =>
      have hc : c.free = false := hl c rfl
      rw [join_cons, if_neg (by simp [hc])]

theorem coalesce_mid {h n : ℕ} {pre post : List Blk} {b : Blk}
    (hl : Separated (pre ++ b :: post)) (hpre : LastUsed pre) :
    coalesce h (pre ++ ⟨n, true⟩ :: post) = pre ++ join h ⟨n, true⟩ post := by
  obtain ⟨h1, h2, -⟩ := List.isChain_append.mp hl
  have hpost : Separated post := h2.tail
  have hx : Separated (pre ++ [⟨n, true⟩]) :=
    List.isChain_append.mpr ⟨h1, List.isChain_singleton _, fun c hc => by simp [hpre c hc]⟩
  rw [coalesce_append _ _ hx, coalesce, coalesce_eq_self hpost]

theorem coalesce_after_free {h n k : ℕ} {pre post : List Blk} {b : Blk}
    (hl : Separated (pre ++ ⟨k, true⟩ :: b :: post)) :
    coalesce h (pre ++ ⟨k, true⟩ :: ⟨n, true⟩ :: post) =
      pre ++ join h ⟨k, true⟩ (join h ⟨n, true⟩ post) := by
  have e : pre ++ ⟨k, true⟩ :: b :: post = pre ++ [⟨k, true⟩] ++ b :: post := by simp
  obtain ⟨h1, h2, -⟩ := List.isChain_append.mp (e ▸ hl)
  have hpost : Separated post := h2.tail
  rw [coalesce_append _ _ h1, coalesce, coalesce, coalesce_eq_self hpost]

/-- Nothing is joined across a used block. -/
theorem coalesce_append_used {h : ℕ} (l r : List Blk) (k : ℕ) :
    coalesce h (l ++ ⟨k, false⟩ :: r) = coalesce h l ++ ⟨k, false⟩ :: coalesce h r := by
  have hused : ∀ (b : Blk) (m : List Blk),
      join h b (m ++ ⟨k, false⟩ :: coalesce h r) = join h b m ++ ⟨k, false⟩ :: coalesce h r := by
    intro b m
    cases m with
    | nil => rw [List.nil_append, join_cons, if_neg (by simp)]; rfl
    | cons c m =>
        rw [List.cons_append, join_cons, join_cons]
        split <;> rfl
  induction l with
  | nil =>
      show join h ⟨k, false⟩ (coalesce h r) = ⟨k, false⟩ :: coalesce h r
      cases coalesce h r with
      | nil => rfl
      | cons c m => rw [join_cons, if_neg (by simp)]
  | cons b l ih => rw [List.cons_append, coalesce, ih, hused, coalesce]

/-- A free block at the end grows by what is joined to it. -/
theorem coalesce_concat_free {h : ℕ} (l : List Blk) (t : ℕ) :
    ∃ r k, coalesce h (l ++ [⟨t, true⟩]) = r ++ [⟨k, true⟩] ∧ t ≤ k := by
  induction l with
  | nil => exact ⟨[], t, rfl, le_rfl⟩
  | cons b l ih =>
      obtain ⟨r, k, e, hk⟩ := ih
      rw [List.cons_append, coalesce, e]
      cases r with
      | nil =>
          rw [List.nil_append, join_cons]
          split
          · exact ⟨[], b.size + h + k, rfl, by omega⟩
          · exact ⟨[b], k, rfl, hk⟩
      | cons c r =>
          rw [List.cons_append, join_cons]
          split
          · exact ⟨⟨b.size + h + c.size, true⟩ :: r, k, rfl, hk⟩
          · exact ⟨b :: c :: r, k, rfl, hk⟩

/-! ## Allocation -/

/-- The search passes over blocks that are used or too small. -/
theorem search_append {n : ℕ} {pre l : List Blk}
    (hp : ∀ b ∈ pre, ¬(b.free = true ∧ n ≤ b.size)) :
    search n (pre ++ l) = (search n l).map fun r => (pre ++ r.1, r.2) := by
  induction pre with
  | nil => simp
  | cons b pre ih =>
      rw [List.cons_append, search, if_neg (hp b List.mem_cons_self),
        ih fun c hc => hp c (List.mem_cons_of_mem b hc), Option.map_map]
      rfl

theorem search_eq_some {n : ℕ} {l pre post : List Blk} {b : Blk}
    (hs : search n l = some (pre, b, post)) : l = pre ++ b :: post ∧ b.free = true ∧ n ≤ b.size := by
  induction l generalizing pre with
  | nil => simp [search] at hs
  | cons c l ih =>
      unfold search at hs
      split at hs
      · next hc =>
        obtain ⟨rfl, rfl, rfl⟩ : [] = pre ∧ c = b ∧ l = post := by simpa using hs
        exact ⟨rfl, hc⟩
      · obtain ⟨⟨pre', b', post'⟩, hs', e⟩ := Option.map_eq_some_iff.mp hs
        obtain ⟨rfl, rfl, rfl⟩ : c :: pre' = pre ∧ b' = b ∧ post' = post := by simpa using e
        obtain ⟨rfl, hb⟩ := ih hs'
        exact ⟨rfl, hb⟩

theorem granted_bounds {h n : ℕ} {b : Blk} (hh : 0 < h) (hn : n ≤ b.size) :
    n ≤ granted h n b ∧ granted h n b < n + 2 * h := by
  unfold granted
  split <;> omega

theorem carve_eq_cons (h n : ℕ) (b : Blk) :
    ∃ r, carve h n b = ⟨granted h n b, false⟩ :: r ∧ ∀ c ∈ r, c.free = true := by
  unfold carve granted
  split
  · exact ⟨[], rfl, by simp⟩
  · exact ⟨[⟨b.size - n - h, true⟩], rfl, by simp⟩

theorem mem_place_carve {h n a x m : ℕ} {pre post : List Blk} {b : Blk} (hb : b.free = true)
    (hn : n ≤ b.size) :
    (x, ⟨m, false⟩) ∈ place h a (pre ++ carve h n b ++ post) ↔
      (x, ⟨m, false⟩) ∈ place h a (pre ++ b :: post) ∨
        x = a + span h pre ∧ m = granted h n b := by
  have hs : a + span h (pre ++ carve h n b) = a + span h pre + h + b.size := by
    rw [span_append, span_carve hn]; ring
  have hc : (x, (⟨m, false⟩ : Blk)) ∈ place h (a + span h pre) (carve h n b) ↔
      x = a + span h pre ∧ m = granted h n b := by
    unfold carve granted
    split <;> simp [place]
  have hne : (x, (⟨m, false⟩ : Blk)) ≠ (a + span h pre, b) := fun e => by
    simp [← (Prod.mk.inj e).2] at hb
  rw [place_append, place_append, place_append, hs, List.mem_append, List.mem_append,
    List.mem_append, hc, place, List.mem_cons]
  tauto

theorem Separated.carve {h n : ℕ} {pre post : List Blk} {b : Blk}
    (hl : Separated (pre ++ b :: post)) (hb : b.free = true) :
    Separated (pre ++ carve h n b ++ post) := by
  obtain ⟨hpre, hpost, hx⟩ := List.isChain_append.mp hl
  have hused : ∀ c ∈ post.head?, c.free = false := by
    intro c hc
    cases post with
    | nil => simp at hc
    | cons d post =>
        obtain rfl : d = c := by simpa using hc
        have hbd := (List.isChain_cons_cons.mp hpost).1
        simpa [hb] using hbd
  have hpost' : post.IsChain fun b c => ¬(b.free = true ∧ c.free = true) := hpost.tail
  unfold FirstFit.carve
  split
  all_goals
    rw [List.append_assoc]
    refine List.isChain_append.mpr ⟨hpre, ?_, ?_⟩
  · refine List.isChain_cons.mpr ⟨?_, hpost'⟩
    simp
  · simp
  · refine List.isChain_cons_cons.mpr ⟨by simp, List.isChain_cons.mpr ⟨?_, hpost'⟩⟩
    intro c hc
    simp [hused c hc]
  · simp

/-! ## The used blocks determine a separated tiling -/

theorem mem_place_cons_of_ne {h a x : ℕ} {b c : Blk} {l : List Blk} (hx : x ≠ a) :
    (x, c) ∈ place h a (b :: l) ↔ (x, c) ∈ place h (a + h + b.size) l := by
  rw [place, List.mem_cons]
  exact or_iff_right fun e => hx (Prod.mk.inj e).1

theorem mem_place_tail {h a x : ℕ} (hh : 0 < h) {b c : Blk} {l : List Blk} :
    (x, c) ∈ place h (a + h + b.size) l ↔ (x, c) ∈ place h a (b :: l) ∧ x ≠ a := by
  constructor
  · intro hx
    have hle : a + h + b.size ≤ x := (mem_place_bounds hx).1
    have hne : x ≠ a := by omega
    exact ⟨(mem_place_cons_of_ne hne).mpr hx, hne⟩
  · rintro ⟨hx, hne⟩
    exact (mem_place_cons_of_ne hne).mp hx

theorem span_eq_zero {h : ℕ} (hh : 0 < h) {l : List Blk} (hl : span h l = 0) : l = [] := by
  cases l with
  | nil => rfl
  | cons b l =>
      rw [span] at hl
      omega

section Determined
variable {h a : ℕ} {l r : List Blk}

/-- Two free first blocks: the used block right behind the shorter one would lie inside the longer. -/
theorem head_size_le {n k : ℕ} (hr : Separated (⟨k, true⟩ :: r))
    (hspan : span h (⟨n, true⟩ :: l) = span h (⟨k, true⟩ :: r))
    (hused : ∀ x m, (x, ⟨m, false⟩) ∈ place h a (⟨k, true⟩ :: r) →
      (x, ⟨m, false⟩) ∈ place h a (⟨n, true⟩ :: l)) : n ≤ k := by
  by_contra hlt
  cases r with
  | nil =>
      simp only [span] at hspan
      omega
  | cons d r =>
      obtain ⟨s, f⟩ := d
      have hf : f = false := by
        have hsep := (List.isChain_cons_cons.mp hr).1
        simpa using hsep
      subst hf
      have hd : (a + h + k, (⟨s, false⟩ : Blk)) ∈ place h a (⟨k, true⟩ :: ⟨s, false⟩ :: r) := by
        simp [place]
      rcases List.mem_cons.mp (hused _ _ hd) with e | hd'
      · have := congrArg Blk.free (Prod.mk.inj e).2
        simp at this
      · have hle : a + h + n ≤ a + h + k := (mem_place_bounds hd').1
        omega

theorem head_eq (hh : 0 < h) {b c : Blk} (hl : Separated (b :: l)) (hr : Separated (c :: r))
    (hspan : span h (b :: l) = span h (c :: r))
    (hused : ∀ x m, (x, ⟨m, false⟩) ∈ place h a (b :: l) ↔ (x, ⟨m, false⟩) ∈ place h a (c :: r)) :
    b = c := by
  obtain ⟨n, f⟩ := b
  obtain ⟨k, g⟩ := c
  cases f with
  | false =>
      have hb := (hused a n).mp List.mem_cons_self
      exact (Prod.mk.inj (place_inj hh hb List.mem_cons_self rfl)).2
  | true =>
      cases g with
      | false =>
          have hc := (hused a k).mpr List.mem_cons_self
          exact (Prod.mk.inj (place_inj hh hc List.mem_cons_self rfl)).2.symm
      | true =>
          have h1 : n ≤ k := head_size_le hr hspan fun x m => (hused x m).mpr
          have h2 : k ≤ n := head_size_le hl hspan.symm fun x m => (hused x m).mp
          rw [le_antisymm h1 h2]

end Determined

/-- Two separated tilings of the same bytes with the same used blocks are the same. -/
theorem eq_of_used_iff {h : ℕ} (hh : 0 < h) {l r : List Blk} {a : ℕ} (hl : Separated l)
    (hr : Separated r) (hspan : span h l = span h r)
    (hused : ∀ x m, (x, ⟨m, false⟩) ∈ place h a l ↔ (x, ⟨m, false⟩) ∈ place h a r) : l = r := by
  induction l generalizing a r with
  | nil => exact (span_eq_zero hh hspan.symm).symm
  | cons b l ih =>
      cases r with
      | nil => exact span_eq_zero hh hspan
      | cons c r =>
          obtain rfl := head_eq hh hl hr hspan hused
          have hspan' : span h l = span h r := by
            rw [span, span] at hspan
            omega
          have htail : l = r := ih (a := a + h + b.size) hl.tail hr.tail hspan' fun x m => by
            rw [mem_place_tail hh, mem_place_tail hh, hused]
          rw [htail]

end Ltm.FirstFit
