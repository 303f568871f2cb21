import Ltm.Pool.Safety

/-! # The chain depends only on what is live

A state of the heap carries the chain of a separated tiling whose used blocks are the live
allocations, and such a tiling is unique. So two histories that leave the same blocks live leave the
same headers in memory (`Inv.headers_eq`), in whatever order the blocks came and went.
-/

namespace Ltm.Heap
open ByteMemory FirstFit Runs
set_option autoImplicit false
set_option maxHeartbeats 250000

/-- The chain as it stands in memory: each header's address with its four fields. -/
def State.headers (h : State) : List (ℕ × Header) := h.chain.map fun b => (b, header h.mem b)

/-- The live blocks: each pointer with the `size_` of its block. -/
def State.liveBlocks (h : State) : List (ℕ × ℕ) :=
  h.live.map fun a => (a.ptr, (header h.mem (a.ptr - sizeofBlock)).size)

def SameLive (h h' : State) : Prop := ∀ u, u ∈ h.liveBlocks ↔ u ∈ h'.liveBlocks

variable {size o : ℕ} {h h' : State} {l l' : List Blk}

theorem header_eq_of_chain {m m' : Mem} {x : ℕ} {b : Blk} (hC : Chain m o l) (hC' : Chain m' o l)
    (hx : (x, b) ∈ place 32 o l) : header m x = header m' x := by
  obtain ⟨pre, post, rfl, rfl⟩ := mem_place_split hx
  rw [(chain_mid.mp hC).2.1, (chain_mid.mp hC').2.1]

theorem Inv.live_size (hi : Inv size o h l) {a : Live} (ha : a ∈ h.live) :
    (header h.mem (a.ptr - sizeofBlock)).size = a.size := by
  obtain ⟨x, hx, hb⟩ := hi.used a ha
  rw [hx, Nat.add_sub_cancel, (chain_header hi.chain hb).1]

theorem Inv.liveBlocks_eq (hi : Inv size o h l) :
    h.liveBlocks = h.live.map fun a => (a.ptr, a.size) :=
  List.map_congr_left fun a ha => by rw [hi.live_size ha]

theorem Inv.mem_place_iff (hi : Inv size o h l) {x k : ℕ} :
    (x, ⟨k, false⟩) ∈ place 32 o l ↔ (x + 32, k) ∈ h.liveBlocks := by
  rw [hi.liveBlocks_eq, List.mem_map]
  constructor
  · intro hx
    obtain ⟨a, ha, e⟩ := hi.live x k hx
    obtain ⟨y, hy, hb⟩ := hi.used a ha
    obtain rfl : y = x := by omega
    have hk : a.size = k :=
      congrArg Blk.size (Prod.mk.inj (place_inj (by omega) hb hx rfl)).2
    exact ⟨a, ha, Prod.ext e hk⟩
  · rintro ⟨a, ha, e⟩
    obtain ⟨y, hy, hb⟩ := hi.used a ha
    obtain ⟨e1, e2⟩ := Prod.mk.inj e
    obtain rfl : y = x := by omega
    exact e2 ▸ hb

theorem Inv.tiling_eq (hi : Inv size o h l) (hi' : Inv size o h' l') (hl : SameLive h h') :
    l = l' := by
  have hused : ∀ x k, (x, ⟨k, false⟩) ∈ place 32 o l ↔ (x, ⟨k, false⟩) ∈ place 32 o l' := by
    intro x k
    rw [hi.mem_place_iff, hi'.mem_place_iff]
    exact hl (x + 32, k)
  have hspan : FirstFit.span 32 l = FirstFit.span 32 l' := hi.span.trans hi'.span.symm
  exact eq_of_used_iff (by omega) hi.separated hi'.separated hspan hused

theorem Inv.headers_eq (hi : Inv size o h l) (hi' : Inv size o h' l') (hr : Region size o)
    (hl : SameLive h h') : h.headers = h'.headers := by
  obtain rfl := hi.tiling_eq hi' hl
  unfold State.headers
  rw [chain_eq hi hr, chain_eq hi' hr]
  refine List.map_congr_left fun b hb => ?_
  obtain ⟨u, hu, rfl⟩ := List.mem_map.mp hb
  rw [header_eq_of_chain hi.chain hi'.chain hu]

theorem sameLive_of_perm (hi : Inv size o h l) (hi' : Inv size o h' l')
    (hl : h.live.Perm h'.live) : SameLive h h' := fun u => by
  rw [hi.liveBlocks_eq, hi'.liveBlocks_eq]
  exact (hl.map _).mem_iff

/-! ## Deallocating several blocks -/

theorem live_of_deallocate {p : ℕ} (hs : step h (.deallocate p) = some h') :
    h'.live = h.live.filter fun a => a.ptr ≠ p := by
  have hok := allowed_of_step hs
  unfold step at hs
  rw [if_pos hok] at hs
  obtain ⟨r, hr, rfl⟩ := Option.map_eq_some_iff.mp hs
  rfl

/-- A list of distinct live pointers can be deallocated in the order it is in. -/
theorem run_deallocate (hr : Region size o) {ps : List ℕ} (hi : ∃ l, Inv size o h l)
    (hd : ps.Nodup) (hp : ∀ p ∈ ps, ∃ a ∈ h.live, a.ptr = p) :
    ∃ t l, run step h (ps.map .deallocate) = some t ∧ Inv size o t l ∧
      t.live = h.live.filter fun a => a.ptr ∉ ps := by
  induction ps generalizing h with
  | nil =>
      obtain ⟨l, hi⟩ := hi
      exact ⟨h, l, rfl, hi, by simp⟩
  | cons p ps ih =>
      obtain ⟨l, hi⟩ := hi
      obtain ⟨hnotin, hd'⟩ := List.nodup_cons.mp hd
      have hok : Allowed h (.deallocate p) := Or.inr (hp p List.mem_cons_self)
      obtain ⟨s, ls, hs, his⟩ := step_total hi hr hok
      have hlive := live_of_deallocate hs
      have hp' : ∀ q ∈ ps, ∃ a ∈ s.live, a.ptr = q := by
        intro q hq
        obtain ⟨a, ha, rfl⟩ := hp q (List.mem_cons_of_mem p hq)
        have hne : a.ptr ≠ p := fun e => hnotin (e ▸ hq)
        exact ⟨a, by rw [hlive]; exact List.mem_filter.mpr ⟨ha, by simpa using hne⟩, rfl⟩
      obtain ⟨t, lt, ht, hit, htlive⟩ := ih ⟨ls, his⟩ hd' hp'
      refine ⟨t, lt, ?_, hit, ?_⟩
      · rw [List.map_cons, run_cons, hs, Option.bind_some, ht]
      · rw [htlive, hlive, List.filter_filter]
        refine List.filter_congr fun a _ => ?_
        rw [decide_not, decide_not, Bool.and_comm]
        simp

theorem deallocate_perm (hr : Region size o) (hi : Inv size o h l) {ps qs : List ℕ}
    (hd : ps.Nodup) (hp : ∀ p ∈ ps, ∃ a ∈ h.live, a.ptr = p) (hq : qs.Perm ps) :
    ∃ t u, run step h (ps.map .deallocate) = some t ∧ run step h (qs.map .deallocate) = some u ∧
      t.headers = u.headers := by
  have hp' : ∀ q ∈ qs, ∃ a ∈ h.live, a.ptr = q := fun q hmem => hp q (hq.mem_iff.mp hmem)
  obtain ⟨t, lt, ht, hit, htlive⟩ := run_deallocate hr ⟨l, hi⟩ hd hp
  obtain ⟨u, lu, hu, hiu, hulive⟩ := run_deallocate hr ⟨l, hi⟩ (hq.nodup_iff.mpr hd) hp'
  have hsame : t.live = u.live := by
    rw [htlive, hulive]
    exact List.filter_congr fun a _ => by simp [hq.mem_iff]
  exact ⟨t, u, ht, hu,
    hit.headers_eq hiu hr (sameLive_of_perm hit hiu (hsame ▸ List.Perm.refl _))⟩

theorem ptr_ne_zero (hi : Inv size o h l) {a : Live} (ha : a ∈ h.live) : a.ptr ≠ 0 := by
  obtain ⟨x, hx, -⟩ := hi.used a ha
  omega

/-- After an `allocate`, its result can be deallocated, and what is then live is what was live. -/
theorem allocate_live (hr : Region size o) (hi : Inv size o h l) {n : UInt64} {p : ℕ}
    (hp : returned h n = some p) :
    ∃ s ls, step h (.allocate n) = some s ∧ Inv size o s ls ∧ Allowed s (.deallocate p) ∧
      s.live.filter (fun a => a.ptr ≠ p) = h.live := by
  obtain ⟨s, hs, his, -⟩ := allocate_inv hi hr n
  by_cases h0 : p = 0
  · subst h0
    obtain ⟨⟨p, c⟩, hrun, rfl⟩ := Option.map_eq_some_iff.mp hp
    have hlive : s.live = h.live := by
      rw [← Option.some.inj ((step_allocate hrun).symm.trans hs)]
      simp
    refine ⟨s, _, hs, his, Or.inl rfl, ?_⟩
    rw [hlive]
    exact List.filter_eq_self.mpr fun a ha => by simpa using ptr_ne_zero hi ha
  · obtain ⟨t, k, ht, hlive⟩ := live_of_returned hp h0
    obtain rfl := Option.some.inj (hs.symm.trans ht)
    have hdist := his.distinct
    rw [hlive] at hdist
    have hne : ∀ a ∈ h.live, a.ptr ≠ p := fun a ha => ((List.pairwise_cons.mp hdist).1 a ha).symm
    refine ⟨s, _, hs, his, Or.inr ⟨⟨p, n.toNat, k⟩, by simp [hlive], rfl⟩, ?_⟩
    rw [hlive, List.filter_cons_of_neg (by simp)]
    exact List.filter_eq_self.mpr fun a ha => by simpa using hne a ha

theorem allocate_deallocate (hr : Region size o) (hi : Inv size o h l) {n : UInt64} {p : ℕ}
    (hp : returned h n = some p) :
    ∃ t, run step h [.allocate n, .deallocate p] = some t ∧ t.headers = h.headers := by
  obtain ⟨s, ls, hs, his, hok, hlive⟩ := allocate_live hr hi hp
  obtain ⟨t, lt, ht, hit⟩ := step_total his hr hok
  have hsame : t.live = h.live := (live_of_deallocate ht).trans hlive
  refine ⟨t, ?_, hit.headers_eq hi hr (sameLive_of_perm hit hi (hsame ▸ List.Perm.refl _))⟩
  rw [run_cons, hs, Option.bind_some, run_cons, ht]
  rfl

theorem deallocate_all (hr : Region size o) (hs : 32 + 15 ≤ size) (hi : Inv size o h l)
    {ps : List ℕ} (hp : ps.Perm (h.live.map Live.ptr)) :
    ∃ t, run step h (ps.map .deallocate) = some t ∧ t.live = [] ∧
      t.headers = [(o, ⟨0, 0, size - sizeofBlock, 1⟩)] := by
  have hd : ps.Nodup := hp.nodup_iff.mpr (List.pairwise_map.mpr hi.distinct)
  have hmem : ∀ p ∈ ps, ∃ a ∈ h.live, a.ptr = p := fun p hpm =>
    List.mem_map.mp (hp.mem_iff.mp hpm)
  obtain ⟨t, lt, ht, hit, hlive⟩ := run_deallocate hr ⟨l, hi⟩ hd hmem
  have hnil : t.live = [] := by
    rw [hlive, List.filter_eq_nil_iff]
    intro a ha
    have hin : a.ptr ∈ ps := hp.mem_iff.mpr (List.mem_map_of_mem ha)
    simpa using hin
  refine ⟨t, ht, hnil, ?_⟩
  -- the pool as `pool::pool` builds it has nothing live either
  have hfree := header_build hr t.mem
  have hnew := new_inv hs hfree
  have hsame := sameLive_of_perm hit hnew (hnil ▸ List.Perm.refl _)
  rw [hit.headers_eq hnew hr hsame, State.headers, chain_eq hnew hr]
  simp only [place, List.map_cons, List.map_nil, hfree]

/-- Two histories of a pool that leave the same blocks live leave the same chain. So distinct live
blocks may be deallocated in any order, an allocation undone at once leaves no trace, and the pool
is one free block again when nothing is live. -/
theorem headers_of_live (hr : Region size o) (hs : sizeofBlock + 15 ≤ size) (m : Mem) :
    ∃ h₀, build size o m = some h₀ ∧ ∀ ops h, run step h₀ ops = some h →
      (∀ ops' h', run step h₀ ops' = some h' → SameLive h h' → h.headers = h'.headers) ∧
      (∀ ps qs : List ℕ, ps.Nodup → (∀ p ∈ ps, ∃ a ∈ h.live, a.ptr = p) → qs.Perm ps →
        ∃ t u, run step h (ps.map .deallocate) = some t ∧
          run step h (qs.map .deallocate) = some u ∧ t.headers = u.headers) ∧
      (∀ n p, returned h n = some p → ∃ t, run step h [.allocate n, .deallocate p] = some t ∧
        t.headers = h.headers) ∧
      (∀ ps : List ℕ, ps.Perm (h.live.map Live.ptr) →
        ∃ t, run step h (ps.map .deallocate) = some t ∧ t.live = [] ∧
          t.headers = [(o, ⟨0, 0, size - sizeofBlock, 1⟩)]) := by
  obtain ⟨h₀, hb, hi₀⟩ := build_inv hr hs m
  refine ⟨h₀, hb, fun ops h hrun => ?_⟩
  obtain ⟨l, hi⟩ := inv_run hr ⟨_, hi₀⟩ hrun
  refine ⟨fun ops' h' hrun' hsame => ?_, fun ps qs => deallocate_perm hr hi,
    fun n p => allocate_deallocate hr hi, fun ps => deallocate_all hr hs hi⟩
  obtain ⟨l', hi'⟩ := inv_run hr ⟨_, hi₀⟩ hrun'
  exact hi.headers_eq hi' hr hsame

/-- A heap of `LTM_HEAP` bytes: a block allocated and freed between two others leaves no trace, even
where the other history also frees and reuses the first. -/
theorem headers_of_live_ltmHeap : ∃ h₀ h h', build 500000 0x40a10000 (fun _ => 0) = some h₀ ∧
    run step h₀ [.allocate 10, .allocate 1136, .allocate 24, .deallocate 0x40a1004a] = some h ∧
    run step h₀ [.allocate 10, .allocate 1136, .deallocate 0x40a10020, .allocate 10,
      .deallocate 0x40a1004a, .allocate 1136, .allocate 24, .deallocate 0x40a1004a] = some h' ∧
    h.liveBlocks = [(0x40a104da, 24), (0x40a10020, 10)] ∧ h.headers = h'.headers := by
  obtain ⟨h₀, hb, hall⟩ := headers_of_live (⟨by decide, by decide⟩ : Region 500000 0x40a10000)
    (by decide) (fun _ => 0)
  have hrun : ((build 500000 0x40a10000 (fun _ => 0)).bind fun h =>
      run step h [.allocate 10, .allocate 1136, .allocate 24, .deallocate 0x40a1004a]).map
        State.liveBlocks = some [(0x40a104da, 24), (0x40a10020, 10)] := by decide +kernel
  have hrun' : ((build 500000 0x40a10000 (fun _ => 0)).bind fun h =>
      run step h [.allocate 10, .allocate 1136, .deallocate 0x40a10020, .allocate 10,
        .deallocate 0x40a1004a, .allocate 1136, .allocate 24, .deallocate 0x40a1004a]).map
        State.liveBlocks = some [(0x40a104da, 24), (0x40a10020, 10)] := by decide +kernel
  obtain ⟨h, hh, hlive⟩ := Option.map_eq_some_iff.mp hrun
  obtain ⟨h', hh', hlive'⟩ := Option.map_eq_some_iff.mp hrun'
  rw [hb, Option.bind_some] at hh hh'
  refine ⟨h₀, h, h', hb, hh, hh', hlive, (hall _ h hh).1 _ h' hh' fun u => ?_⟩
  rw [hlive, hlive']

end Ltm.Heap
