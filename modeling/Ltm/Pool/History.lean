import Ltm.Foundations.Runs
import Ltm.Foundations.Alignment
import Ltm.Pool.Allocate
import Ltm.Pool.Deallocate
import Ltm.Pool.Written

/-! # Histories of the heap

A heap is built by `pool::pool` over a region, and then used by any sequence of `allocate(n)`,
`deallocate(p)` with `p` null or live, and writes of the owners into their own ranges. `Inv` says
that the memory carries the chain of a separated tiling of the region in which the live allocations
are exactly the used blocks; every step keeps it (`inv_step`), so every history does (`inv_run`).
-/

namespace Ltm.Heap
open ByteMemory FirstFit Runs
set_option autoImplicit false
set_option maxHeartbeats 250000

/-- An allocation not yet deallocated: the pointer, the bytes asked for, and the `size_` that its
header held when `allocate` returned. -/
structure Live where
  ptr : ℕ
  asked : ℕ
  size : ℕ
  deriving DecidableEq, Repr

structure State where
  pool : Pool
  mem : Mem
  /-- the ranges that the last operation's code wrote -/
  written : List (ℕ × ℕ)
  /-- some `size_t` operation of the history has wrapped -/
  wrapped : Bool
  live : List Live

inductive Op
  | allocate (n : UInt64)
  | deallocate (p : ℕ)
  | store (p k : ℕ) (v : UInt8)

def build (size o : ℕ) (m : Mem) : Option State :=
  (pool size o ⟨m, [], false⟩).bind fun r =>
    r.1.map fun p => ⟨p, r.2.mem, [], r.2.wrapped, []⟩

def Allowed (h : State) : Op → Prop
  | .allocate _ => True
  | .deallocate p => p = 0 ∨ ∃ a ∈ h.live, a.ptr = p
  | .store p k _ => ∃ a ∈ h.live, a.ptr = p ∧ k < a.size

instance (h : State) : ∀ op, Decidable (Allowed h op)
  | .allocate _ => .isTrue trivial
  | .deallocate _ => inferInstanceAs (Decidable (_ ∨ _))
  | .store _ _ _ => inferInstanceAs (Decidable (∃ a ∈ _, _))

def step (h : State) (op : Op) : Option State :=
  if Allowed h op then
    match op with
    | .allocate n => (Heap.allocate h.pool n.toNat ⟨h.mem, [], h.wrapped⟩).map fun r =>
        ⟨h.pool, r.2.mem, r.2.written, r.2.wrapped,
          if r.1 = 0 then h.live else ⟨r.1, n.toNat, (header r.2.mem (r.1 - 32)).size⟩ :: h.live⟩
    | .deallocate p => (Heap.deallocate p ⟨h.mem, [], h.wrapped⟩).map fun r =>
        ⟨h.pool, r.2.mem, r.2.written, r.2.wrapped, h.live.filter fun a => a.ptr ≠ p⟩
    | .store p k v => some { h with mem := Function.update h.mem (p + k) v, written := [] }
  else none

/-- The invariant: `l` is the tiling whose chain the memory carries. -/
structure Inv (size o : ℕ) (h : State) (l : List Blk) : Prop where
  pool : h.pool = ⟨size, o⟩
  wrapped : h.wrapped = false
  chain : Chain h.mem o l
  separated : Separated l
  span : span 32 l = size
  ne_nil : l ≠ []
  used : ∀ a ∈ h.live, ∃ x, a.ptr = x + 32 ∧ (x, ⟨a.size, false⟩) ∈ place 32 o l
  live : ∀ x k, (x, ⟨k, false⟩) ∈ place 32 o l → ∃ a ∈ h.live, a.ptr = x + 32
  fits : ∀ a ∈ h.live, a.asked ≤ a.size ∧ a.size < a.asked + 64
  distinct : h.live.Pairwise fun a b => a.ptr ≠ b.ptr

/-- The region of a pool: not at the null address, ending inside the address space. -/
structure Region (size o : ℕ) : Prop where
  pos : 0 < o
  fits : o + size < 2 ^ 64

theorem chain_header {m : Mem} {o x : ℕ} {b : Blk} {l : List Blk} (hC : Chain m o l)
    (hx : (x, b) ∈ place 32 o l) : (header m x).size = b.size ∧ (header m x).free = flag b := by
  obtain ⟨pre, post, rfl, rfl⟩ := mem_place_split hx
  rw [(chain_mid.mp hC).2.1]
  exact ⟨rfl, rfl⟩

variable {size o : ℕ} {h h' : State} {l : List Blk}

/-! ## Construction -/

theorem pool_run (hr : Region size o) (hs : 32 + 15 ≤ size) (m : Mem) :
    pool size o ⟨m, [], false⟩ = some (some ⟨size, o⟩,
      ⟨putSize (putFree (putNext (putPrev m o 0) o 0) o 1) o (size - 32),
        [(o, 8), (o + 8, 8), (o + 24, 4), (o + 16, 8)], false⟩) := by
  have hfits := hr.fits
  have hmin : ¬ size - 32 < 15 := by omega
  unfold pool
  simp (disch := omega) only [sizeofBlock, minSize, ↓sub_bind, if_neg hmin, ↓setPrev_bind,
    ↓setNext_bind, ↓setFree_bind, ↓setSize_bind, pure_run, List.nil_append, List.cons_append]

theorem build_eq {m : Mem} {p : Pool} {s : Machine}
    (h : pool size o ⟨m, [], false⟩ = some (some p, s)) :
    build size o m = some ⟨p, s.mem, [], s.wrapped, []⟩ := by
  unfold build
  rw [h]
  rfl

theorem header_build (hr : Region size o) (m : Mem) :
    header (putSize (putFree (putNext (putPrev m o 0) o 0) o 1) o (size - 32)) o =
      ⟨0, 0, size - 32, 1⟩ := by
  have hfits := hr.fits
  simp (disch := omega) only [header_putSize, header_putFree, header_putNext, header_putPrev]

theorem chain_singleton {m : Mem} {b : Blk} (hh : header m o = ⟨0, 0, b.size, flag b⟩) :
    Chain m o [b] := ⟨hh, trivial⟩

theorem new_inv {m : Mem} (hs : 32 + 15 ≤ size) (hh : header m o = ⟨0, 0, size - 32, 1⟩) :
    Inv size o ⟨⟨size, o⟩, m, [], false, []⟩ [⟨size - 32, true⟩] :=
  { pool := rfl
    wrapped := rfl
    chain := chain_singleton hh
    separated := List.isChain_singleton _
    span := by simp only [FirstFit.span]; omega
    ne_nil := by simp
    used := by simp
    live := by simp [place]
    fits := by simp
    distinct := List.Pairwise.nil }

theorem build_inv (hr : Region size o) (hs : 32 + 15 ≤ size) (m : Mem) :
    ∃ h, build size o m = some h ∧ Inv size o h [⟨size - 32, true⟩] :=
  ⟨_, build_eq (pool_run hr hs m), new_inv hs (header_build hr m)⟩

/-! ## The steps -/

theorem step_allocate {n : UInt64} {p : ℕ} {s : Machine}
    (h1 : allocate h.pool n.toNat ⟨h.mem, [], h.wrapped⟩ = some (p, s)) :
    step h (.allocate n) = some ⟨h.pool, s.mem, s.written, s.wrapped,
      if p = 0 then h.live else ⟨p, n.toNat, (header s.mem (p - 32)).size⟩ :: h.live⟩ := by
  have hok : Allowed h (.allocate n) := trivial
  unfold step
  rw [if_pos hok]
  dsimp only
  rw [h1]
  rfl

theorem step_deallocate {p : ℕ} {s : Machine} (hok : Allowed h (.deallocate p))
    (h1 : deallocate p ⟨h.mem, [], h.wrapped⟩ = some ((), s)) :
    step h (.deallocate p) = some ⟨h.pool, s.mem, s.written, s.wrapped,
      h.live.filter fun a => a.ptr ≠ p⟩ := by
  unfold step
  rw [if_pos hok]
  dsimp only
  rw [h1]
  rfl

/-- `allocate` adds at most one live range, and never one that meets an older one. -/
theorem allocate_inv (hi : Inv size o h l) (hr : Region size o) (n : UInt64) :
    ∃ h', step h (.allocate n) = some h' ∧ Inv size o h' (grant 32 n.toNat l) ∧
      InFields o (grant 32 n.toNat l) h'.written ∧ (∀ a ∈ h.live, a ∈ h'.live) := by
  obtain ⟨P, m, w, c, L⟩ := h
  obtain ⟨rfl, rfl, hC, hsep, rfl, hne, hused, hlive, hfits, hdist⟩ := hi
  have hrun := allocate_run (w := []) (n := n.toNat) hC hr.pos hne hr.fits
  cases hs : search n.toNat l with
  | none =>
      rw [hs] at hrun
      rw [grant, hs]
      exact ⟨_, step_allocate hrun, ⟨rfl, rfl, hC, hsep, rfl, hne, hused, hlive, hfits, hdist⟩,
        inFields_nil o l, fun a ha => ha⟩
  | some r =>
      obtain ⟨pre, b, post⟩ := r
      obtain ⟨rfl, hfree, hn⟩ := search_eq_some hs
      obtain ⟨m', w', htake, hC', hw⟩ := take_spec (w := []) hC hr.pos hfree hn hr.fits
      have hmem {x k : ℕ} : (x, ⟨k, false⟩) ∈ place 32 o (pre ++ carve 32 n.toNat b ++ post) ↔
          (x, ⟨k, false⟩) ∈ place 32 o (pre ++ b :: post) ∨
            x = o + span 32 pre ∧ k = granted 32 n.toNat b := mem_place_carve hfree hn
      have hnew := hmem.mpr (Or.inr ⟨rfl, rfl⟩)
      have hsize := (chain_header hC' hnew).1
      have hp : o + span 32 pre + 32 ≠ 0 := by omega
      rw [hs] at hrun
      rw [grant, hs]
      refine ⟨_, step_allocate (hrun.trans htake), ?_, hw, ?_⟩
      · simp only [if_neg hp, Nat.add_sub_cancel, hsize]
        exact
          { pool := rfl
            wrapped := rfl
            chain := hC'
            separated := hsep.carve hfree
            span := by simp only [span_append, span_carve hn, span]; omega
            ne_nil := by
              obtain ⟨r, e, -⟩ := carve_eq_cons 32 n.toNat b
              simp [e]
            used := by
              intro a ha
              rcases List.mem_cons.mp ha with rfl | ha
              · exact ⟨o + span 32 pre, rfl, hnew⟩
              · obtain ⟨x, hx, hb⟩ := hused a ha
                exact ⟨x, hx, hmem.mpr (Or.inl hb)⟩
            live := by
              intro x k hx
              rcases hmem.mp hx with hx | ⟨rfl, -⟩
              · obtain ⟨a, ha, e⟩ := hlive x k hx
                exact ⟨a, List.mem_cons_of_mem _ ha, e⟩
              · exact ⟨_, List.mem_cons_self, rfl⟩
            fits := by
              intro a ha
              rcases List.mem_cons.mp ha with rfl | ha
              · exact granted_bounds (by omega) hn
              · exact hfits a ha
            distinct := by
              refine List.Pairwise.cons (fun a ha e => ?_) hdist
              obtain ⟨x, hx, hb⟩ := hused a ha
              have hbx : (x, (⟨a.size, false⟩ : Blk)) = (o + span 32 pre, b) :=
                place_inj (by omega) hb (mem_place_mid 32 o pre b post) (by simp only at e ⊢; omega)
              simp [← (Prod.mk.inj hbx).2] at hfree }
      · simp only [if_neg hp]
        exact fun a ha => List.mem_cons_of_mem _ ha

/-- `deallocate` of a used block takes its own range away and no other. -/
theorem deallocate_used {pre post : List Blk} {k : ℕ}
    (hi : Inv size o h (pre ++ ⟨k, false⟩ :: post)) (hr : Region size o) :
    ∃ h', step h (.deallocate (o + span 32 pre + 32)) = some h' ∧
      Inv size o h' (coalesce 32 (pre ++ ⟨k, true⟩ :: post)) ∧
      InFields o (pre ++ ⟨k, false⟩ :: post) h'.written := by
  obtain ⟨P, m, w, c, L⟩ := h
  obtain ⟨rfl, rfl, hC, hsep, rfl, hne, hused, hlive, hfits, hdist⟩ := hi
  have hsub : ∀ a ∈ L.filter fun a => a.ptr ≠ o + span 32 pre + 32,
      a ∈ L ∧ a.ptr ≠ o + span 32 pre + 32 := fun a ha => by simpa using ha
  obtain ⟨a, ha, hptr⟩ := hlive _ _ (mem_place_mid 32 o pre ⟨k, false⟩ post)
  obtain ⟨m', w', hrun, hC', hw⟩ := deallocate_spec (w := []) hC hr.pos hsep hr.fits
  have hmem {x n : ℕ} : (x, ⟨n, false⟩) ∈ place 32 o (coalesce 32 (pre ++ ⟨k, true⟩ :: post)) ↔
      (x, ⟨n, false⟩) ∈ place 32 o (pre ++ ⟨k, false⟩ :: post) ∧ x ≠ o + span 32 pre :=
    mem_place_coalesce.trans (mem_place_release (by omega))
  refine ⟨_, step_deallocate (Or.inr ⟨a, ha, hptr⟩) hrun, ?_, hw⟩
  exact
    { pool := rfl
      wrapped := rfl
      chain := hC'
      separated := separated_coalesce 32 _
      span := by simp only [span_coalesce, span_append, span]
      ne_nil := by
        intro e
        have hspan := span_coalesce 32 (pre ++ ⟨k, true⟩ :: post)
        rw [e] at hspan
        simp only [span_append, span] at hspan
        omega
      used := by
        intro c hc
        obtain ⟨hcL, hne⟩ := hsub c hc
        obtain ⟨y, hy, hby⟩ := hused c hcL
        exact ⟨y, hy, hmem.mpr ⟨hby, by omega⟩⟩
      live := by
        intro y n hy
        obtain ⟨hy1, hy2⟩ := hmem.mp hy
        obtain ⟨c, hc, e⟩ := hlive y n hy1
        exact ⟨c, List.mem_filter.mpr ⟨hc, by simp; omega⟩, e⟩
      fits := fun c hc => hfits c (hsub c hc).1
      distinct := hdist.filter _ }

theorem deallocate_null (hi : Inv size o h l) :
    ∃ h', step h (.deallocate 0) = some h' ∧ Inv size o h' l ∧ h'.written = [] := by
  obtain ⟨P, m, w, c, L⟩ := h
  obtain ⟨rfl, rfl, hC, hsep, rfl, hne, hused, hlive, hfits, hdist⟩ := hi
  have hrun : deallocate 0 ⟨m, [], false⟩ = some ((), ⟨m, [], false⟩) := by
    unfold deallocate
    rw [if_pos rfl, pure_run]
  have hall : (L.filter fun a => a.ptr ≠ 0) = L := List.filter_eq_self.mpr fun a ha => by
    obtain ⟨x, hx, -⟩ := hused a ha
    simp [hx]
  refine ⟨_, step_deallocate (Or.inl rfl) hrun, ?_, rfl⟩
  simp only [hall]
  exact ⟨rfl, rfl, hC, hsep, rfl, hne, hused, hlive, hfits, hdist⟩

theorem deallocate_inv (hi : Inv size o h l) (hr : Region size o) {p : ℕ}
    (hok : Allowed h (.deallocate p)) :
    ∃ h' l', step h (.deallocate p) = some h' ∧ Inv size o h' l' ∧ InFields o l h'.written ∧
      ∀ u ∈ place 32 o l', ∃ c, (u.1, c) ∈ place 32 o l := by
  rcases hok with rfl | ⟨a, ha, rfl⟩
  · obtain ⟨h', hs, hi', hw⟩ := deallocate_null hi
    exact ⟨h', l, hs, hi', hw ▸ inFields_nil o l, fun u hu => ⟨u.2, hu⟩⟩
  · obtain ⟨x, hx, hb⟩ := hi.used a ha
    obtain ⟨pre, post, rfl, rfl⟩ := mem_place_split hb
    obtain ⟨h', hs, hi', hw⟩ := deallocate_used hi hr
    exact ⟨h', _, hx ▸ hs, hi', hw, fun u hu => mem_place_release_addr hu⟩

theorem used_apart {a : Live} {u : ℕ × Blk} (hi : Inv size o h l) (ha : a ∈ h.live)
    (hu : u ∈ place 32 o l) : Apart u.1 32 a.ptr a.size := by
  obtain ⟨x, hx, hb⟩ := hi.used a ha
  have := header_apart hu hb
  simp only [Apart] at this ⊢
  omega

theorem written_apart {a : Live} (hi : Inv size o h l) (ha : a ∈ h.live) {w : List (ℕ × ℕ)}
    (hw : InHeaders o l w) : ∀ r ∈ w, Apart r.1 r.2 a.ptr a.size := by
  intro r hr
  obtain ⟨u, hu, h1, h2⟩ := hw r hr
  have := used_apart hi ha hu
  unfold Apart at this ⊢
  omega

theorem live_apart {a c : Live} (hi : Inv size o h l) (ha : a ∈ h.live) (hc : c ∈ h.live)
    (hne : a.ptr ≠ c.ptr) : Apart a.ptr a.size c.ptr c.size := by
  obtain ⟨x, hx, hbx⟩ := hi.used a ha
  obtain ⟨y, hy, hby⟩ := hi.used c hc
  rcases place_apart hbx hby with e | e
  · have := (Prod.mk.inj e).1
    omega
  · simp only [Apart] at e ⊢
    omega

theorem store_inv (hi : Inv size o h l) {p k : ℕ} {v : UInt8} (hok : Allowed h (.store p k v)) :
    Inv size o { h with mem := Function.update h.mem (p + k) v, written := [] } l := by
  obtain ⟨a, ha, rfl, hk⟩ := hok
  have hframe : ∀ u ∈ place 32 o l,
      header (Function.update h.mem (a.ptr + k) v) u.1 = header h.mem u.1 := fun u hu => by
    refine header_congr fun x h1 h2 => Function.update_of_ne ?_ _ _
    have := used_apart hi ha hu
    unfold Apart at this
    omega
  exact { hi with chain := hi.chain.frame hframe }

theorem step_store {p k : ℕ} {v : UInt8} (hok : Allowed h (.store p k v)) :
    step h (.store p k v) =
      some { h with mem := Function.update h.mem (p + k) v, written := [] } := by
  unfold step
  rw [if_pos hok]

theorem allowed_of_step {op : Op} (hs : step h op = some h') : Allowed h op := by
  by_cases hok : Allowed h op
  · exact hok
  · unfold step at hs
    rw [if_neg hok] at hs
    exact absurd hs (by simp)

/-- Every operation that a user may ask for succeeds. -/
theorem step_total (hi : Inv size o h l) (hr : Region size o) {op : Op} (hok : Allowed h op) :
    ∃ h' l', step h op = some h' ∧ Inv size o h' l' := by
  cases op with
  | allocate n =>
      obtain ⟨h', hs, hi', -⟩ := allocate_inv hi hr n
      exact ⟨h', _, hs, hi'⟩
  | deallocate p =>
      obtain ⟨h', l', hs, hi', -, -⟩ := deallocate_inv hi hr hok
      exact ⟨h', l', hs, hi'⟩
  | store p k v => exact ⟨_, l, step_store hok, store_inv hi hok⟩

theorem inv_step (hr : Region size o) (h : State) (op : Op) (h' : State)
    (hi : ∃ l, Inv size o h l) (hs : step h op = some h') : ∃ l, Inv size o h' l := by
  obtain ⟨l, hi⟩ := hi
  obtain ⟨t, l', ht, hi'⟩ := step_total hi hr (allowed_of_step hs)
  obtain rfl := Option.some.inj (ht.symm.trans hs)
  exact ⟨l', hi'⟩

theorem inv_run (hr : Region size o) {ops : List Op} (hi : ∃ l, Inv size o h l)
    (hrun : run step h ops = some h') : ∃ l, Inv size o h' l :=
  run_invariant (fun h => ∃ l, Inv size o h l) (fun _ _ _ => True)
    (fun s op s' hi _ hs => inv_step hr s op s' hi hs) hi
    (Along.of_true (fun _ _ _ _ => trivial) ops h) hrun

end Ltm.Heap
