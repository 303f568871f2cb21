import Mathlib.Data.List.Basic
import Mathlib.Data.List.Perm.Basic
import Mathlib.Data.List.Nodup

/-! # Messages in flight

A network that may lose and reorder messages, and neither repeats nor makes one up, is the list of the
messages in flight: a delivery or a loss erases one. Where each exchange has a key, and there is at most
one message of a key in flight (`OnePerKey`), sending, losing and answering keep it so.
-/

namespace Ltm.InFlight
set_option autoImplicit false
set_option maxHeartbeats 250000

variable {M K : Type*} (key : M → K)

def OnePerKey (net : List M) : Prop := (net.map key).Nodup

variable {key} {net : List M} {m r : M}

theorem OnePerKey.send (h : OnePerKey key net) (hr : ∀ m ∈ net, key m ≠ key r) :
    OnePerKey key (net ++ [r]) := by
  unfold OnePerKey
  rw [List.map_append, List.map_singleton]
  refine h.append (List.nodup_singleton _) ?_
  intro k hk hk'
  obtain ⟨m, hm, rfl⟩ := List.mem_map.mp hk
  exact hr m hm (List.mem_singleton.mp hk')

variable [DecidableEq M]

theorem OnePerKey.erase (h : OnePerKey key net) (hm : m ∈ net) :
    OnePerKey key (net.erase m) ∧ ∀ m' ∈ net.erase m, key m' ≠ key m := by
  have hperm : (net.map key).Perm (key m :: (net.erase m).map key) :=
    (List.perm_cons_erase hm).map key
  have hcons := hperm.nodup_iff.mp h
  obtain ⟨hnot, hrest⟩ := List.nodup_cons.mp hcons
  refine ⟨hrest, fun m' hm' e => ?_⟩
  rw [← e] at hnot
  exact hnot (List.mem_map_of_mem hm')

/-- The answer to a message takes its place. -/
theorem OnePerKey.answer (h : OnePerKey key net) (hm : m ∈ net) (hr : key r = key m) :
    OnePerKey key (net.erase m ++ [r]) := by
  obtain ⟨hrest, hne⟩ := h.erase hm
  exact hrest.send fun m' hm' => by rw [hr]; exact hne m' hm'

end Ltm.InFlight
