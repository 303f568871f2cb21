import Ltm.Pool.Run

/-! # The log of the written ranges is complete

Every piece of the pool's code only adds ranges to the log, and leaves every byte outside the
ranges it adds as it was.
-/

namespace Ltm.Heap
open ByteMemory
set_option autoImplicit false
set_option maxHeartbeats 250000

def InRanges (w : List (ℕ × ℕ)) (x : ℕ) : Prop := ∃ r ∈ w, r.1 ≤ x ∧ x < r.1 + r.2

/-- The code `c` changes no byte outside the ranges it logs. -/
def Logged {α : Type} (c : Code α) : Prop := ∀ s r, c s = some r →
  ∃ w, r.2.written = s.written ++ w ∧ ∀ x, ¬InRanges w x → r.2.mem x = s.mem x

variable {α β : Type}

theorem Logged.pure (a : α) : Logged (pure a : Code α) := by
  intro s r h
  obtain rfl : (a, s) = r := Option.some.inj h
  exact ⟨[], by simp, fun _ _ => rfl⟩

theorem Logged.bind {c : Code α} {f : α → Code β} (hc : Logged c) (hf : ∀ a, Logged (f a)) :
    Logged (c >>= f) := by
  intro s r h
  rw [bind_run] at h
  obtain ⟨t, ht, hr⟩ := Option.bind_eq_some_iff.mp h
  obtain ⟨w, e, hw⟩ := hc s t ht
  obtain ⟨w', e', hw'⟩ := hf t.1 t.2 r hr
  refine ⟨w ++ w', by rw [e', e, List.append_assoc], fun x hx => ?_⟩
  have hx1 : ¬InRanges w x := fun ⟨u, hu, hb⟩ => hx ⟨u, List.mem_append_left w' hu, hb⟩
  have hx2 : ¬InRanges w' x := fun ⟨u, hu, hb⟩ => hx ⟨u, List.mem_append_right w hu, hb⟩
  rw [hw' x hx2, hw x hx1]

theorem Logged.read (g : Machine → α) (k : Machine → Bool) :
    Logged fun s => some (g s, { s with wrapped := k s }) := by
  intro s r h
  obtain rfl := Option.some.inj h
  exact ⟨[], by simp, fun _ _ => rfl⟩

theorem Logged.write (n a v : ℕ) : Logged (write n a v) := by
  intro s r h
  obtain rfl := Option.some.inj h
  refine ⟨[(a, n)], rfl, fun x hx => store_outside n s.mem a v x ?_⟩
  have : ¬(a ≤ x ∧ x < a + n) := fun hb => hx ⟨(a, n), List.mem_singleton_self _, hb⟩
  omega

theorem Logged.ite {p : Prop} [Decidable p] {c d : Code α} (hc : Logged c) (hd : Logged d) :
    Logged (if p then c else d) := by
  split
  · exact hc
  · exact hd

/-! ## The code of the pool -/

variable (x y n b v : ℕ)

theorem logged_add : Logged (add x y) := Logged.read _ _
theorem logged_sub : Logged (sub x y) := Logged.read _ _
theorem logged_prev : Logged (prev b) := Logged.read _ Machine.wrapped
theorem logged_next : Logged (next b) := Logged.read _ Machine.wrapped
theorem logged_size : Logged (size b) := Logged.read _ Machine.wrapped
theorem logged_free : Logged (free b) := Logged.read _ Machine.wrapped

theorem logged_setPrevOf : Logged (setPrevOf b v) :=
  Logged.ite (Logged.pure ()) (Logged.write 8 b v)

theorem logged_scan (turns n b : ℕ) : Logged (scan turns n b) := by
  induction turns generalizing b with
  | zero =>
      intro _ _ h
      simp [scan] at h
  | succ turns ih =>
      have hnext : Logged (do
          if (← next b) = 0 then return none
          scan turns n (← next b)) :=
        (logged_next b).bind fun _ => Logged.ite (Logged.pure none)
          ((logged_next b).bind fun z => ih z)
      unfold scan
      refine (logged_free b).bind fun _ => Logged.ite hnext ?_
      exact (logged_size b).bind fun _ => Logged.ite hnext (Logged.pure (some b))

theorem logged_take : Logged (take n b) := by
  unfold take
  refine (logged_size b).bind fun s => (logged_sub s n).bind fun _ => Logged.ite ?_ ?_
  · exact (Logged.write 4 _ 0).bind fun _ => logged_add b _
  · refine (logged_add b n).bind fun u => (logged_add u _).bind fun z => ?_
    refine (logged_next b).bind fun y => (logged_setPrevOf y z).bind fun _ => ?_
    refine (logged_next b).bind fun y => (Logged.write 8 _ y).bind fun _ => ?_
    refine (Logged.write 8 _ z).bind fun _ => (Logged.write 8 z b).bind fun _ => ?_
    refine (Logged.write 4 _ 0).bind fun _ => (logged_size b).bind fun s => ?_
    refine (logged_sub s n).bind fun u => (logged_sub u _).bind fun k => ?_
    refine (Logged.write 8 _ k).bind fun _ => (Logged.write 8 _ n).bind fun _ => ?_
    exact (Logged.write 4 _ 1).bind fun _ => logged_add b _

theorem logged_allocate (p : Pool) : Logged (allocate p n) := by
  unfold allocate
  refine (logged_sub _ _).bind fun _ => Logged.ite (Logged.pure 0) ?_
  refine (logged_scan _ n p.blocks).bind fun r => ?_
  cases r with
  | none => exact Logged.pure 0
  | some b => exact logged_take n b

theorem logged_prevFree : Logged (prevFree b) :=
  (logged_prev b).bind fun _ => Logged.ite (Logged.pure false)
    ((logged_prev b).bind fun x => (logged_free x).bind fun _ => Logged.pure _)

theorem logged_nextFree : Logged (nextFree b) :=
  (logged_next b).bind fun _ => Logged.ite (Logged.pure false)
    ((logged_next b).bind fun x => (logged_free x).bind fun _ => Logged.pure _)

theorem logged_mergeBoth : Logged (mergeBoth b) := by
  unfold mergeBoth
  refine (logged_size b).bind fun s => (logged_next b).bind fun y => ?_
  refine (logged_size y).bind fun k => (logged_add s k).bind fun u => (logged_add u _).bind fun v => ?_
  refine (logged_prev b).bind fun x => (logged_prev b).bind fun x' => ?_
  refine (logged_size x').bind fun k => (logged_add k v).bind fun u => (Logged.write 8 _ u).bind fun _ => ?_
  refine (logged_prev b).bind fun x => (logged_next b).bind fun y => (logged_next y).bind fun q => ?_
  refine (Logged.write 8 _ q).bind fun _ => (logged_next b).bind fun y => ?_
  exact (logged_next y).bind fun q => (logged_prev b).bind fun x => logged_setPrevOf q x

theorem logged_mergePrev : Logged (mergePrev b) := by
  unfold mergePrev
  refine (logged_size b).bind fun s => (logged_add s _).bind fun v => ?_
  refine (logged_prev b).bind fun x => (logged_prev b).bind fun x' => ?_
  refine (logged_size x').bind fun k => (logged_add k v).bind fun u => (Logged.write 8 _ u).bind fun _ => ?_
  refine (logged_prev b).bind fun x => (logged_next b).bind fun y => (Logged.write 8 _ y).bind fun _ => ?_
  refine (logged_next b).bind fun y => (logged_prev b).bind fun x => ?_
  exact (logged_setPrevOf y x).bind fun _ => Logged.write 4 _ 1

theorem logged_mergeNext : Logged (mergeNext b) := by
  unfold mergeNext
  refine (logged_next b).bind fun y => (logged_size y).bind fun k => (logged_add k _).bind fun v => ?_
  refine (logged_size b).bind fun s => (logged_add s v).bind fun u => (Logged.write 8 _ u).bind fun _ => ?_
  refine (logged_next b).bind fun y => (logged_next y).bind fun q => (Logged.write 8 _ q).bind fun _ => ?_
  exact (logged_next b).bind fun y => (logged_setPrevOf y b).bind fun _ => Logged.write 4 _ 1

theorem logged_deallocate (p : ℕ) : Logged (deallocate p) := by
  unfold deallocate
  refine Logged.ite (Logged.pure ()) ((logged_sub p _).bind fun b => ?_)
  refine (logged_prevFree b).bind fun _ => (logged_nextFree b).bind fun _ => ?_
  refine Logged.ite (logged_mergeBoth b) ((logged_prevFree b).bind fun _ => ?_)
  refine Logged.ite (logged_mergePrev b) ((logged_nextFree b).bind fun _ => ?_)
  exact Logged.ite (logged_mergeNext b) (Logged.write 4 _ 1)

end Ltm.Heap
