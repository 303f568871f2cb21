import Ltm.Pool.History

/-! # What the heap guarantees

Over every history of a pool: the chain read from memory is well formed and no size arithmetic wraps
(`chain_wellFormed`); every live allocation owns its range alone, and no operation but its own
deallocation takes the range away or writes into it (`live_undisturbed`).
-/

namespace Ltm.Heap
open ByteMemory FirstFit Runs
set_option autoImplicit false
set_option maxHeartbeats 250000

/-- The addresses of the headers, read along `next_`. -/
def walk (m : Mem) : ℕ → ℕ → List ℕ
  | 0, _ => []
  | turns + 1, b => if b = 0 then [] else b :: walk m turns (header m b).next

def State.chain (h : State) : List ℕ := walk h.mem h.pool.size h.pool.blocks

/-- The chain of a state is a doubly linked list that tiles the region, without free neighbours. -/
structure WellFormed (h : State) : Prop where
  head : h.chain.head? = some h.pool.blocks
  first : (header h.mem h.pool.blocks).prev = 0
  last : ∀ b ∈ h.chain.getLast?, (header h.mem b).next = 0
  links : h.chain.IsChain fun b c => (header h.mem b).next = c ∧ (header h.mem c).prev = b
  tiles : h.chain.IsChain fun b c => c = b + sizeofBlock + (header h.mem b).size
  total : (h.chain.map fun b => (header h.mem b).size + sizeofBlock).sum = h.pool.size
  coalesced : h.chain.IsChain fun b c => ¬((header h.mem b).free ≠ 0 ∧ (header h.mem c).free ≠ 0)

/-! ## The chain in memory is the tiling -/

section Walk
variable {m : Mem}

theorem walk_linked {l : List Blk} {p a turns : ℕ} (hC : Linked m p (place 32 a l) 0) (ha : 0 < a)
    (ht : l.length ≤ turns) :
    walk m turns (Heap.first (place 32 a l) 0) = (place 32 a l).map Prod.fst := by
  induction l generalizing p a turns with
  | nil => cases turns <;> rfl
  | cons b l ih =>
      cases turns with
      | zero => exact absurd ht (by simp)
      | succ turns =>
          obtain ⟨hh, hl⟩ := hC
          have hlen : l.length ≤ turns := by simpa using ht
          rw [first_place_cons, walk, if_neg ha.ne', hh, ih hl (by omega) hlen]
          rfl

theorem links_linked {l : List (ℕ × Blk)} {p : ℕ} (hC : Linked m p l 0) :
    (l.map Prod.fst).IsChain fun b c => (header m b).next = c ∧ (header m c).prev = b := by
  induction l generalizing p with
  | nil => exact List.isChain_nil
  | cons u l ih =>
      obtain ⟨hu, hl⟩ := hC
      cases l with
      | nil => exact List.isChain_singleton _
      | cons v l =>
          refine List.isChain_cons_cons.mpr ⟨⟨?_, ?_⟩, ih hl⟩
          · rw [hu]
            rfl
          · rw [hl.1]

theorem last_linked {l : List (ℕ × Blk)} {p : ℕ} (hC : Linked m p l 0) :
    ∀ b ∈ (l.map Prod.fst).getLast?, (header m b).next = 0 := by
  induction l generalizing p with
  | nil => simp
  | cons u l ih =>
      obtain ⟨hu, hl⟩ := hC
      cases l with
      | nil =>
          intro b hb
          obtain rfl : u.1 = b := by simpa using hb
          rw [hu]
          rfl
      | cons v l => simpa using ih hl

theorem tiles_linked {l : List Blk} {p a : ℕ} (hC : Linked m p (place 32 a l) 0) :
    ((place 32 a l).map Prod.fst).IsChain fun b c => c = b + sizeofBlock + (header m b).size := by
  induction l generalizing p a with
  | nil => exact List.isChain_nil
  | cons b l ih =>
      obtain ⟨hb, hl⟩ := hC
      cases l with
      | nil => exact List.isChain_singleton _
      | cons c l =>
          refine List.isChain_cons_cons.mpr ⟨?_, ih hl⟩
          rw [hb]

theorem coalesced_linked {l : List Blk} {p a : ℕ} (hC : Linked m p (place 32 a l) 0)
    (hs : Separated l) : ((place 32 a l).map Prod.fst).IsChain
      fun b c => ¬((header m b).free ≠ 0 ∧ (header m c).free ≠ 0) := by
  induction l generalizing p a with
  | nil => exact List.isChain_nil
  | cons b l ih =>
      obtain ⟨hb, hl⟩ := hC
      cases l with
      | nil => exact List.isChain_singleton _
      | cons c l =>
          obtain ⟨hbc, hs'⟩ := List.isChain_cons_cons.mp hs
          refine List.isChain_cons_cons.mpr ⟨?_, ih hl hs'⟩
          rw [hb, hl.1]
          intro hf
          apply hbc
          simpa [flag_eq_zero] using hf

theorem total_linked {l : List Blk} {p a : ℕ} (hC : Linked m p (place 32 a l) 0) :
    (((place 32 a l).map Prod.fst).map fun b => (header m b).size + sizeofBlock).sum = span 32 l := by
  induction l generalizing p a with
  | nil => rfl
  | cons b l ih =>
      obtain ⟨hb, hl⟩ := hC
      rw [place, List.map_cons, List.map_cons, List.sum_cons, ih hl, hb, span]
      show b.size + 32 + span 32 l = 32 + b.size + span 32 l
      omega

end Walk

variable {size o : ℕ} {h : State} {l : List Blk}

theorem chain_eq (hi : Inv size o h l) (hr : Region size o) :
    h.chain = (place 32 o l).map Prod.fst := by
  have hne := hi.ne_nil
  have hlen : l.length ≤ size := hi.span ▸ length_le_span l
  have hwalk := walk_linked hi.chain hr.pos hlen
  cases l with
  | nil => exact absurd rfl hne
  | cons b l =>
      rw [first_place_cons] at hwalk
      unfold State.chain
      rw [hi.pool]
      exact hwalk

theorem Inv.wellFormed (hi : Inv size o h l) (hr : Region size o) : WellFormed h := by
  have hchain := chain_eq hi hr
  have hC : Linked h.mem 0 (place 32 o l) 0 := hi.chain
  have hpool := hi.pool
  have hne := hi.ne_nil
  obtain ⟨b, r, rfl⟩ := List.exists_cons_of_ne_nil hne
  exact
    { head := by rw [hchain, hpool]; rfl
      first := by rw [hpool, hC.1]
      last := by rw [hchain]; exact last_linked hC
      links := by rw [hchain]; exact links_linked hC
      tiles := by rw [hchain]; exact tiles_linked hC
      total := by rw [hchain, hpool, total_linked hC, hi.span]
      coalesced := by rw [hchain]; exact coalesced_linked hC hi.separated }

/-- Every history of a pool keeps its chain well formed, wraps no size, and can be continued by every
operation that a user may ask for. -/
theorem chain_wellFormed (hr : Region size o) (hs : sizeofBlock + 15 ≤ size) (m : Mem) :
    ∃ h₀, build size o m = some h₀ ∧ ∀ ops h, run step h₀ ops = some h →
      WellFormed h ∧ h.wrapped = false ∧ ∀ op, Allowed h op → ∃ h', step h op = some h' := by
  obtain ⟨h₀, hb, hi₀⟩ := build_inv hr hs m
  refine ⟨h₀, hb, fun ops h hrun => ?_⟩
  obtain ⟨l, hi⟩ := inv_run hr ⟨_, hi₀⟩ hrun
  refine ⟨hi.wellFormed hr, hi.wrapped, fun op hok => ?_⟩
  obtain ⟨h', l', hs', -⟩ := step_total hi hr hok
  exact ⟨h', hs'⟩

/-- A heap of `LTM_HEAP` bytes, as `CreaMemoriaKERNEL` builds it: two allocations, and the first of
them deallocated. -/
theorem chain_wellFormed_ltmHeap : ∃ h₀ h, build 500000 0x40a10000 (fun _ => 0) = some h₀ ∧
    run step h₀ [.allocate 10, .allocate 100, .deallocate 0x40a10020] = some h ∧
    h.live = [⟨0x40a1004a, 100, 100⟩] ∧ WellFormed h ∧ h.wrapped = false := by
  obtain ⟨h₀, hb, hall⟩ := chain_wellFormed (⟨by decide, by decide⟩ : Region 500000 0x40a10000)
    (by decide) (fun _ => 0)
  have hrun : ((build 500000 0x40a10000 (fun _ => 0)).bind fun h =>
      run step h [.allocate 10, .allocate 100, .deallocate 0x40a10020]).map State.live =
        some [⟨0x40a1004a, 100, 100⟩] := by decide +kernel
  obtain ⟨h, hh, hlive⟩ := Option.map_eq_some_iff.mp hrun
  rw [hb, Option.bind_some] at hh
  obtain ⟨hwf, hwrap, -⟩ := hall _ h hh
  exact ⟨h₀, h, hb, hh, hlive, hwf, hwrap⟩

/-! ## Live allocations -/

/-- What a live allocation owns: enough bytes, few more than asked for, inside the region, and apart
from every header of the chain. -/
structure Owned (h : State) (a : Live) : Prop where
  asked : a.asked ≤ a.size ∧ a.size < a.asked + 2 * sizeofBlock
  inside : h.pool.blocks ≤ a.ptr ∧ a.ptr + a.size ≤ h.pool.blocks + h.pool.size
  headers : ∀ b ∈ h.chain, Apart b sizeofBlock a.ptr a.size

/-- A step leaves the live allocations alone that it does not deallocate: each stays live, the code
writes none of its bytes, and only a write of its owner changes them. -/
def Undisturbed (h : State) (op : Op) (h' : State) : Prop :=
  ∀ a ∈ h.live, op ≠ .deallocate a.ptr → a ∈ h'.live ∧
    (∀ r ∈ h'.written, Apart r.1 r.2 a.ptr a.size) ∧
    ((∀ k v, op ≠ .store a.ptr k v) → ∀ k < a.size, h'.mem (a.ptr + k) = h.mem (a.ptr + k))

def returned (h : State) (n : UInt64) : Option ℕ :=
  (allocate h.pool n.toNat ⟨h.mem, [], h.wrapped⟩).map Prod.fst

variable {h' : State}

theorem Inv.owned (hi : Inv size o h l) (hr : Region size o) {a : Live} (ha : a ∈ h.live) :
    Owned h a := by
  obtain ⟨x, hx, hb⟩ := hi.used a ha
  obtain ⟨h1, h2⟩ := mem_place_bounds hb
  have hspan := hi.span
  refine ⟨hi.fits a ha, ?_, ?_⟩
  · rw [hi.pool, hx]
    simp only at h1 h2 ⊢
    omega
  · rw [chain_eq hi hr]
    intro b hb'
    obtain ⟨u, hu, rfl⟩ := List.mem_map.mp hb'
    exact used_apart hi ha hu

theorem Inv.live_pairwise (hi : Inv size o h l) :
    h.live.Pairwise fun a c => Apart a.ptr a.size c.ptr c.size :=
  hi.distinct.imp_of_mem fun ha hc hne => live_apart hi ha hc hne

theorem not_inRanges {w : List (ℕ × ℕ)} {p n k : ℕ} (hw : ∀ r ∈ w, Apart r.1 r.2 p n)
    (hk : k < n) : ¬InRanges w (p + k) := by
  rintro ⟨r, hr, h1, h2⟩
  have := hw r hr
  unfold Apart at this
  omega

theorem allocate_mem {n : UInt64} (hs : step h (.allocate n) = some h') {x : ℕ}
    (hx : ¬InRanges h'.written x) : h'.mem x = h.mem x := by
  unfold step at hs
  rw [if_pos (allowed_of_step hs)] at hs
  obtain ⟨r, hr, rfl⟩ := Option.map_eq_some_iff.mp hs
  obtain ⟨w, hw, hmem⟩ := logged_allocate n.toNat h.pool _ _ hr
  exact hmem x (by rw [← List.nil_append w, ← hw]; exact hx)

theorem deallocate_mem {p : ℕ} (hs : step h (.deallocate p) = some h') {x : ℕ}
    (hx : ¬InRanges h'.written x) : h'.mem x = h.mem x := by
  have hok := allowed_of_step hs
  unfold step at hs
  rw [if_pos hok] at hs
  obtain ⟨r, hr, rfl⟩ := Option.map_eq_some_iff.mp hs
  obtain ⟨w, hw, hmem⟩ := logged_deallocate p _ _ hr
  exact hmem x (by rw [← List.nil_append w, ← hw]; exact hx)

theorem mem_live_of_deallocate {p : ℕ} (hs : step h (.deallocate p) = some h') {a : Live}
    (ha : a ∈ h.live) (hne : a.ptr ≠ p) : a ∈ h'.live := by
  have hok := allowed_of_step hs
  unfold step at hs
  rw [if_pos hok] at hs
  obtain ⟨r, hr, rfl⟩ := Option.map_eq_some_iff.mp hs
  exact List.mem_filter.mpr ⟨ha, by simpa using hne⟩

theorem Inv.undisturbed (hi : Inv size o h l) (hr : Region size o) {op : Op}
    (hs : step h op = some h') : Undisturbed h op h' := by
  intro a ha hop
  cases op with
  | allocate n =>
      obtain ⟨t, ht, hi', hw, hlive⟩ := allocate_inv hi hr n
      obtain rfl := Option.some.inj (ht.symm.trans hs)
      have hapart := written_apart hi' (hlive a ha) hw.inHeaders
      exact ⟨hlive a ha, hapart, fun _ k hk => allocate_mem hs (not_inRanges hapart hk)⟩
  | deallocate p =>
      obtain ⟨t, l', ht, -, hw, -⟩ := deallocate_inv hi hr (allowed_of_step hs)
      obtain rfl := Option.some.inj (ht.symm.trans hs)
      have hapart := written_apart hi ha hw.inHeaders
      have hne : a.ptr ≠ p := fun e => hop (by rw [e])
      exact ⟨mem_live_of_deallocate hs ha hne, hapart,
        fun _ k hk => deallocate_mem hs (not_inRanges hapart hk)⟩
  | store p k v =>
      have hok := allowed_of_step hs
      obtain rfl := Option.some.inj ((step_store hok).symm.trans hs)
      obtain ⟨c, hc, rfl, hk⟩ := hok
      refine ⟨ha, by simp, fun hown i hi' => Function.update_of_ne ?_ _ _⟩
      by_cases e : a.ptr = c.ptr
      · exact absurd (by rw [e]) (hown k v)
      · have := live_apart hi ha hc e
        unfold Apart at this
        omega

theorem live_of_returned {n : UInt64} {p : ℕ}
    (hp : returned h n = some p) (h0 : p ≠ 0) :
    ∃ h' k, step h (.allocate n) = some h' ∧ h'.live = ⟨p, n.toNat, k⟩ :: h.live := by
  obtain ⟨⟨p', s⟩, hrun, rfl⟩ := Option.map_eq_some_iff.mp hp
  exact ⟨_, _, step_allocate hrun, if_neg h0⟩

/-- Over every history of a pool, every pointer returned owns a range of its own, and keeps it
undisturbed until it is deallocated. -/
theorem live_undisturbed (hr : Region size o) (hs : sizeofBlock + 15 ≤ size) (m : Mem) :
    ∃ h₀, build size o m = some h₀ ∧ ∀ ops h, run step h₀ ops = some h →
      (∀ a ∈ h.live, Owned h a) ∧
      (h.live.Pairwise fun a c => Apart a.ptr a.size c.ptr c.size) ∧
      (∀ n p, returned h n = some p → p ≠ 0 →
        ∃ h' k, step h (.allocate n) = some h' ∧ h'.live = ⟨p, n.toNat, k⟩ :: h.live) ∧
      ∀ later, Along step Undisturbed h later := by
  obtain ⟨h₀, hb, hi₀⟩ := build_inv hr hs m
  refine ⟨h₀, hb, fun ops h hrun => ?_⟩
  obtain ⟨l, hi⟩ := inv_run hr ⟨_, hi₀⟩ hrun
  refine ⟨fun a ha => hi.owned hr ha, hi.live_pairwise, fun n p hp h0 => live_of_returned hp h0,
    fun later => ?_⟩
  exact along_of_invariant (fun h => ∃ l, Inv size o h l) (fun _ _ _ => True)
    (fun s op s' hi _ hs => inv_step hr s op s' hi hs)
    (fun s op s' ⟨l, hi⟩ _ hs => hi.undisturbed hr hs) ⟨l, hi⟩
    (Along.of_true (fun _ _ _ _ => trivial) later h)

/-- Two allocations from a heap of `LTM_HEAP` bytes, the second of no bytes at all. -/
theorem live_undisturbed_ltmHeap : ∃ h₀ h, build 500000 0x40a10000 (fun _ => 0) = some h₀ ∧
    run step h₀ [.allocate 10, .allocate 0] = some h ∧
    h.live = [⟨0x40a1004a, 0, 0⟩, ⟨0x40a10020, 10, 10⟩] ∧ (∀ a ∈ h.live, Owned h a) ∧
    Along step Undisturbed h [.deallocate 0x40a10020, .allocate 12] := by
  obtain ⟨h₀, hb, hall⟩ := live_undisturbed (⟨by decide, by decide⟩ : Region 500000 0x40a10000)
    (by decide) (fun _ => 0)
  have hrun : ((build 500000 0x40a10000 (fun _ => 0)).bind fun h =>
      run step h [.allocate 10, .allocate 0]).map State.live =
        some [⟨0x40a1004a, 0, 0⟩, ⟨0x40a10020, 10, 10⟩] := by decide +kernel
  obtain ⟨h, hh, hlive⟩ := Option.map_eq_some_iff.mp hrun
  rw [hb, Option.bind_some] at hh
  obtain ⟨howned, -, -, hlater⟩ := hall _ h hh
  exact ⟨h₀, h, hb, hh, hlive, howned, hlater _⟩

/-- The result of `allocate` is the search's. -/
theorem Inv.returned_eq_search {n : UInt64} (hi : Inv size o h l) (hr : Region size o) :
    returned h n = some (((search n.toNat l).map fun r => o + FirstFit.span 32 r.1 + 32).getD 0) := by
  have hfits := hr.fits
  rw [← hi.span] at hfits
  have hrun := allocate_run (w := []) (n := n.toNat) hi.chain hr.pos hi.ne_nil hfits
  have hpool : h.pool = ⟨FirstFit.span 32 l, o⟩ := by rw [hi.pool, hi.span]
  rw [returned, hi.wrapped, hpool, hrun]
  cases hs : search n.toNat l with
  | none => rfl
  | some r =>
      obtain ⟨pre, b, post⟩ := r
      obtain ⟨rfl, hfree, hn⟩ := search_eq_some hs
      obtain ⟨m', w', htake, -⟩ := take_spec (w := []) hi.chain hr.pos hfree hn hfits
      dsimp only
      rw [htake]
      rfl

end Ltm.Heap
