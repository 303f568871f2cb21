import Mathlib.Data.Multiset.Filter
import Mathlib.Data.Multiset.AddSub
import Mathlib.Data.Multiset.ZeroCons
import Mathlib.Logic.Relation
import Mathlib.Logic.Function.Basic

/-! # Rendezvous of callers and listeners

Hosts `H` with slots `I`. A caller sends a request to a host and waits; a listening slot there takes
the request and is open; the answer, with that slot or a refusal, opens or frees the slot of the caller.
The network loses and reorders messages, and neither repeats nor makes one up. Slots that are open may
send data. What the slots hold pairs callers and listeners one to one (`Agreed`), and an open slot stays
as it is.
-/

namespace Ltm.Rendezvous
open Relation
set_option autoImplicit false
set_option maxHeartbeats 250000

inductive Phase
  | idle
  | listening
  | calling
  | open
  deriving DecidableEq

/-- What a slot holds; `caller` tells who took it, and a slot that is calling knows the host of its peer
only. -/
structure Cell (H I P : Type*) where
  phase : Phase
  caller : Bool
  peer : H × I
  lport : P
  rport : P

inductive Msg (H I P : Type*)
  | request (src : H × I) (dst : H) (lport rport : P)
  | answer (dst : H × I) (src : H) (slot : Option I)
  | data (src dst : H × I) (lport rport : P)

structure State (H I P : Type*) where
  cell : H × I → Cell H I P
  net : Multiset (Msg H I P)

variable {H I P : Type*}

/-- The call that a message belongs to. -/
def Msg.key : Msg H I P → Option (H × I)
  | .request src _ _ _ => some src
  | .answer dst _ _ => some dst
  | .data _ _ _ _ => none

/-! ## What the slots and the messages say -/

/-- The slot `y` has taken the call of `x`. -/
structure Served (cell : H × I → Cell H I P) (x y : H × I) : Prop where
  phase : (cell y).phase = .open
  caller : (cell y).caller = false
  peer : (cell y).peer = x
  host : (cell x).peer.1 = y.1
  lport : (cell y).lport = (cell x).rport
  rport : (cell y).rport = (cell x).lport

/-- The slot at the end of `y` is a caller that it serves: open too, or still to learn of it. -/
structure Awaited (σ : State H I P) (y : H × I) : Prop where
  served : Served σ.cell (σ.cell y).peer y
  caller : (σ.cell (σ.cell y).peer).caller = true
  ends : (σ.cell (σ.cell y).peer).phase = .open ∧ (σ.cell (σ.cell y).peer).peer = y ∨
    (σ.cell (σ.cell y).peer).phase = .calling ∧
      ∀ m ∈ σ.net, m.key = some (σ.cell y).peer → m = .answer (σ.cell y).peer y.1 (some y.2)

def Sound (cell : H × I → Cell H I P) : Msg H I P → Prop
  | .request x b lport rport => (cell x).phase = .calling ∧ (cell x).peer.1 = b ∧
      (cell x).lport = lport ∧ (cell x).rport = rport
  | .answer x _ none => (cell x).phase = .calling
  | .answer x b (some j) => (cell x).phase = .calling ∧ Served cell x (b, j)
  | .data x y lport rport => (cell x).phase = .open ∧ (cell x).peer = y ∧
      (cell x).lport = lport ∧ (cell x).rport = rport

structure Agreed (σ : State H I P) : Prop where
  keys : (σ.net.filterMap Msg.key).Nodup
  sound : ∀ m ∈ σ.net, Sound σ.cell m
  listening : ∀ x, (σ.cell x).phase = .listening → (σ.cell x).caller = false
  calling : ∀ x, (σ.cell x).phase = .calling → (σ.cell x).caller = true
  served : ∀ x, (σ.cell x).phase = .open → (σ.cell x).caller = true →
    Served σ.cell x (σ.cell x).peer
  awaited : ∀ y, (σ.cell y).phase = .open → (σ.cell y).caller = false → Awaited σ y
  distinct : ∀ y y', (σ.cell y).phase = .open → (σ.cell y).caller = false →
    (σ.cell y').phase = .open → (σ.cell y').caller = false →
    (σ.cell y).peer = (σ.cell y').peer → y = y'

variable {σ σ' : State H I P} {x y z : H × I} {m : Msg H I P} {net : Multiset (Msg H I P)}

theorem Sound.phase_of_key (h : Sound σ.cell m) (hk : m.key = some x) :
    (σ.cell x).phase = .calling := by
  cases m with
  | request src dst lport rport =>
      obtain rfl := Option.some.inj hk
      exact h.1
  | answer dst src slot =>
      obtain rfl := Option.some.inj hk
      cases slot with
      | none => exact h
      | some j => exact h.1
  | data => exact absurd hk (by simp [Msg.key])

/-- A slot that is not calling has no request and no answer in flight. -/
theorem Agreed.key_ne (hi : Agreed σ) (hm : m ∈ σ.net) (hx : (σ.cell x).phase ≠ .calling) :
    m.key ≠ some x := fun hk => hx ((hi.sound m hm).phase_of_key hk)

/-! ## The keys of the messages in flight -/

theorem keys_of_cons (hnet : σ.net = m ::ₘ net) (h : (σ.net.filterMap Msg.key).Nodup) :
    (net.filterMap Msg.key).Nodup ∧ ∀ k, m.key = some k → ∀ m' ∈ net, m'.key ≠ some k := by
  rw [hnet] at h
  cases hm : m.key with
  | none =>
      rw [Multiset.filterMap_cons_none _ _ hm] at h
      exact ⟨h, fun k hk => absurd hk (by simp)⟩
  | some k =>
      rw [Multiset.filterMap_cons_some _ _ _ hm] at h
      obtain ⟨hnot, hrest⟩ := Multiset.nodup_cons.mp h
      refine ⟨hrest, fun k' hk' m' hm' hkey => hnot ?_⟩
      obtain rfl := Option.some.inj hk'
      exact (Multiset.mem_filterMap Msg.key _).mpr ⟨m', hm', hkey⟩

theorem keys_cons (h : (net.filterMap Msg.key).Nodup)
    (hm : ∀ k, m.key = some k → ∀ m' ∈ net, m'.key ≠ some k) :
    ((m ::ₘ net).filterMap Msg.key).Nodup := by
  cases hk : m.key with
  | none =>
      rw [Multiset.filterMap_cons_none _ _ hk]
      exact h
  | some k =>
      rw [Multiset.filterMap_cons_some _ _ _ hk]
      refine Multiset.nodup_cons.mpr ⟨fun hmem => ?_, h⟩
      obtain ⟨m', hm', hkey⟩ := (Multiset.mem_filterMap Msg.key _).mp hmem
      exact hm k hk m' hm' hkey

/-- No two open slots have the same peer. -/
theorem Agreed.peer_injective (hi : Agreed σ) (hx : (σ.cell x).phase = .open)
    (hy : (σ.cell y).phase = .open) (e : (σ.cell x).peer = (σ.cell y).peer) : x = y := by
  -- the peer of a caller is not one, and that of a listener is
  have hmixed : ∀ {x y : H × I}, (σ.cell x).phase = .open → (σ.cell x).caller = true →
      (σ.cell y).phase = .open → (σ.cell y).caller = false → (σ.cell x).peer ≠ (σ.cell y).peer := by
    intro x y hx hcx hy hcy e
    have hfalse := (hi.served x hx hcx).caller
    rw [e] at hfalse
    exact absurd ((hi.awaited y hy hcy).caller.symm.trans hfalse) (by simp)
  cases hcx : (σ.cell x).caller with
  | true =>
      cases hcy : (σ.cell y).caller with
      | true =>
          have hserved := (hi.served x hx hcx).peer
          rw [e] at hserved
          exact hserved.symm.trans (hi.served y hy hcy).peer
      | false => exact absurd e (hmixed hx hcx hy hcy)
  | false =>
      cases hcy : (σ.cell y).caller with
      | true => exact absurd e.symm (hmixed hy hcy hx hcx)
      | false => exact hi.distinct x y hx hcx hy hcy e

/-! ## Steps that leave the slots -/

theorem Awaited.peer_ne_of_phase (h : Awaited σ y) (hopen : (σ.cell x).phase ≠ .open)
    (hcalling : (σ.cell x).phase ≠ .calling) : (σ.cell y).peer ≠ x := by
  rintro rfl
  rcases h.ends with ⟨ho, -⟩ | ⟨hc, -⟩
  · exact hopen ho
  · exact hcalling hc

/-- A caller with a request or a refusal in flight is at the end of no slot. -/
theorem Agreed.peer_ne (hi : Agreed σ) (hm : m ∈ σ.net) (hk : m.key = some x)
    (hno : ∀ b j, m ≠ .answer x b (some j)) (h : Awaited σ y) : (σ.cell y).peer ≠ x := by
  rintro rfl
  rcases h.ends with ⟨hopen, -⟩ | ⟨-, hans⟩
  · exact hi.key_ne hm (by simp [hopen]) hk
  · exact hno _ _ (hans m hm hk)

theorem Agreed.withNet (hi : Agreed σ) (hkeys : (net.filterMap Msg.key).Nodup)
    (hsound : ∀ m ∈ net, Sound σ.cell m)
    (hnet : ∀ y, Awaited σ y → ∀ m ∈ net, m.key = some (σ.cell y).peer → m ∈ σ.net) :
    Agreed ⟨σ.cell, net⟩ where
  keys := hkeys
  sound := hsound
  listening := hi.listening
  calling := hi.calling
  served := hi.served
  awaited := by
    intro y hy hcaller
    have h := hi.awaited y hy hcaller
    refine ⟨h.served, h.caller, ?_⟩
    rcases h.ends with hopen | ⟨hcalling, hans⟩
    · exact Or.inl hopen
    · exact Or.inr ⟨hcalling, fun m hm hk => hans m (hnet y h m hm hk) hk⟩
  distinct := hi.distinct

theorem Agreed.refuse {b : H} {lport rport : P} (hi : Agreed σ) (hnet : σ.net = .request x b lport rport ::ₘ net) :
    Agreed ⟨σ.cell, .answer x b none ::ₘ net⟩ := by
  have hreq : Msg.request x b lport rport ∈ σ.net := hnet ▸ Multiset.mem_cons_self _ _
  have hold : ∀ m ∈ net, m ∈ σ.net := fun m hm => hnet ▸ Multiset.mem_cons_of_mem hm
  obtain ⟨hrest, hother⟩ := keys_of_cons hnet hi.keys
  refine hi.withNet (keys_cons hrest fun k hk => ?_) (fun m hm => ?_) fun y h m hm hk => ?_
  · obtain rfl := Option.some.inj hk
    exact hother x rfl
  · rcases Multiset.mem_cons.mp hm with rfl | hm
    · exact (hi.sound _ hreq).1
    · exact hi.sound m (hold m hm)
  · rcases Multiset.mem_cons.mp hm with rfl | hm
    · exact absurd (Option.some.inj hk).symm (hi.peer_ne hreq rfl (by simp) h)
    · exact hold m hm

theorem Agreed.send (hi : Agreed σ) (hx : (σ.cell x).phase = .open) :
    Agreed ⟨σ.cell, .data x (σ.cell x).peer (σ.cell x).lport (σ.cell x).rport ::ₘ σ.net⟩ := by
  refine hi.withNet (keys_cons hi.keys fun k hk => absurd hk (by simp [Msg.key])) (fun m hm => ?_)
    fun y _ m hm hk => ?_
  · rcases Multiset.mem_cons.mp hm with rfl | hm
    · exact ⟨hx, rfl, rfl, rfl⟩
    · exact hi.sound m hm
  · rcases Multiset.mem_cons.mp hm with rfl | hm
    · exact absurd hk (by simp [Msg.key])
    · exact hm

theorem Agreed.drop (hi : Agreed σ) (hnet : σ.net = m ::ₘ net) : Agreed ⟨σ.cell, net⟩ := by
  have hold : ∀ m ∈ net, m ∈ σ.net := fun m hm => hnet ▸ Multiset.mem_cons_of_mem hm
  exact hi.withNet (keys_of_cons hnet hi.keys).1 (fun m hm => hi.sound m (hold m hm))
    fun _ _ m hm _ => hold m hm

theorem agreed_of_idle (hcell : ∀ x, (σ.cell x).phase = .idle) (hnet : σ.net = 0) : Agreed σ where
  keys := by simp [hnet]
  sound := by simp [hnet]
  listening := by simp [hcell]
  calling := by simp [hcell]
  served := by simp [hcell]
  awaited := by simp [hcell]
  distinct := by simp [hcell]

/-- The slot is calling, and none of its messages is in flight. -/
def Stranded (σ : State H I P) (x : H × I) : Prop :=
  (σ.cell x).phase = .calling ∧ ∀ m ∈ σ.net, m.key ≠ some x

/-- The loss of a request or of an answer strands its call. -/
theorem Agreed.stranded (hi : Agreed σ) (hnet : σ.net = m ::ₘ net) (hk : m.key = some x) :
    Stranded ⟨σ.cell, net⟩ x :=
  ⟨(hi.sound m (hnet ▸ Multiset.mem_cons_self _ _)).phase_of_key hk,
    (keys_of_cons hnet hi.keys).2 x hk⟩

/-! ## Steps -/

variable [DecidableEq H] [DecidableEq I]

/-- The slot of a listener that has taken the request of `x`. -/
def Cell.accept (c : Cell H I P) (x : H × I) (port : P) : Cell H I P :=
  { c with phase := .open, peer := x, rport := port }

/-- The slot of a caller whose request the slot `j` has taken. -/
def Cell.confirm (c : Cell H I P) (j : I) : Cell H I P :=
  { c with phase := .open, peer := (c.peer.1, j) }

def State.put (σ : State H I P) (x : H × I) (c : Cell H I P) (net : Multiset (Msg H I P)) :
    State H I P :=
  ⟨Function.update σ.cell x c, net⟩

variable {c : Cell H I P}

inductive Step (σ : State H I P) : State H I P → Prop
  | listen {x : H × I} {c : Cell H I P} (hx : (σ.cell x).phase = .idle) (hc : c.phase = .listening)
      (hcaller : c.caller = false) : Step σ (σ.put x c σ.net)
  | call {x : H × I} {c : Cell H I P} (hx : (σ.cell x).phase = .idle) (hc : c.phase = .calling)
      (hcaller : c.caller = true) :
      Step σ (σ.put x c (.request x c.peer.1 c.lport c.rport ::ₘ σ.net))
  | accept {x y : H × I} {lport rport : P} {net : Multiset (Msg H I P)}
      (hnet : σ.net = .request x y.1 lport rport ::ₘ net) (hy : (σ.cell y).phase = .listening)
      (hport : (σ.cell y).lport = rport) :
      Step σ (σ.put y ((σ.cell y).accept x lport) (.answer x y.1 (some y.2) ::ₘ net))
  | refuse {x : H × I} {b : H} {lport rport : P} {net : Multiset (Msg H I P)}
      (hnet : σ.net = .request x b lport rport ::ₘ net) :
      Step σ ⟨σ.cell, .answer x b none ::ₘ net⟩
  | confirm {x : H × I} {b : H} {j : I} {net : Multiset (Msg H I P)}
      (hnet : σ.net = .answer x b (some j) ::ₘ net) :
      Step σ (σ.put x ((σ.cell x).confirm j) net)
  | reject {x : H × I} {b : H} {c : Cell H I P} {net : Multiset (Msg H I P)}
      (hnet : σ.net = .answer x b none ::ₘ net) (hc : c.phase = .idle) : Step σ (σ.put x c net)
  | send {x : H × I} (hx : (σ.cell x).phase = .open) :
      Step σ ⟨σ.cell, .data x (σ.cell x).peer (σ.cell x).lport (σ.cell x).rport ::ₘ σ.net⟩
  /-- a message is lost, or data arrives -/
  | drop {m : Msg H I P} {net : Multiset (Msg H I P)} (hnet : σ.net = m ::ₘ net) :
      Step σ ⟨σ.cell, net⟩

abbrev Reach (σ σ' : State H I P) : Prop := ReflTransGen Step σ σ'

theorem put_self : (σ.put z c net).cell z = c := Function.update_self _ _ _

theorem put_of_ne (h : x ≠ z) : (σ.put z c net).cell x = σ.cell x := Function.update_of_ne h _ _

/-! ## Steps that change one slot -/

section Put
variable (hz : (σ.cell z).phase ≠ .open)
include hz

theorem Served.put (h : Served σ.cell x y)
    (hx : x = z → c.peer.1 = (σ.cell z).peer.1 ∧ c.lport = (σ.cell z).lport ∧
      c.rport = (σ.cell z).rport) : Served (σ.put z c net).cell x y := by
  have hy : y ≠ z := by
    rintro rfl
    exact hz h.phase
  have hends : ((σ.put z c net).cell x).peer.1 = (σ.cell x).peer.1 ∧
      ((σ.put z c net).cell x).lport = (σ.cell x).lport ∧
      ((σ.put z c net).cell x).rport = (σ.cell x).rport := by
    by_cases e : x = z
    · subst e
      rw [put_self]
      exact hx rfl
    · rw [put_of_ne e]
      exact ⟨rfl, rfl, rfl⟩
  obtain ⟨hpeer, hlport, hrport⟩ := hends
  exact
    { phase := by rw [put_of_ne hy, h.phase]
      caller := by rw [put_of_ne hy, h.caller]
      peer := by rw [put_of_ne hy, h.peer]
      host := by rw [hpeer, h.host]
      lport := by rw [put_of_ne hy, hrport, h.lport]
      rport := by rw [put_of_ne hy, hlport, h.rport] }

theorem Sound.put (h : Sound σ.cell m) (hk : m.key ≠ some z) : Sound (σ.put z c net).cell m := by
  cases m with
  | request src dst lport rport =>
      have hne : src ≠ z := fun e => hk (congrArg some e)
      simp only [Sound] at h ⊢
      rw [put_of_ne hne]
      exact h
  | answer dst src slot =>
      have hne : dst ≠ z := fun e => hk (congrArg some e)
      cases slot with
      | none =>
          simp only [Sound] at h ⊢
          rw [put_of_ne hne]
          exact h
      | some j =>
          simp only [Sound] at h ⊢
          rw [put_of_ne hne]
          exact ⟨h.1, h.2.put hz fun e => absurd e hne⟩
  | data src dst lport rport =>
      have hne : src ≠ z := by
        rintro rfl
        exact hz h.1
      simp only [Sound] at h ⊢
      rw [put_of_ne hne]
      exact h

/-- A listener keeps its caller, if no new message is for that and the slot of the caller is left. -/
theorem Awaited.put (h : Awaited σ y) (hne : (σ.cell y).peer ≠ z)
    (hnet : ∀ m ∈ net, m.key = some (σ.cell y).peer → m ∈ σ.net) : Awaited (σ.put z c net) y := by
  have hy : (σ.put z c net).cell y = σ.cell y := by
    refine put_of_ne ?_
    rintro rfl
    exact hz h.served.phase
  have hx : (σ.put z c net).cell (σ.cell y).peer = σ.cell (σ.cell y).peer := put_of_ne hne
  refine ⟨?_, ?_, ?_⟩
  · rw [hy]
    exact h.served.put hz fun e => absurd e hne
  · rw [hy, hx]
    exact h.caller
  · rw [hy, hx]
    rcases h.ends with hopen | ⟨hcalling, hans⟩
    · exact Or.inl hopen
    · exact Or.inr ⟨hcalling, fun m hm hk => hans m (hnet m hm hk) hk⟩

theorem Agreed.put (hi : Agreed σ) (hkeys : (net.filterMap Msg.key).Nodup)
    (hsound : ∀ m ∈ net, m ∈ σ.net ∧ m.key ≠ some z ∨ Sound (σ.put z c net).cell m)
    (hlistening : c.phase = .listening → c.caller = false)
    (hcalling : c.phase = .calling → c.caller = true)
    (hserved : c.phase = .open → c.caller = true → Served (σ.put z c net).cell z c.peer)
    (hawaited : ∀ y, (σ.cell y).phase = .open → (σ.cell y).caller = false → Awaited (σ.put z c net) y)
    (hself : c.phase = .open → c.caller = false → Awaited (σ.put z c net) z ∧
      ∀ y, (σ.cell y).phase = .open → (σ.cell y).caller = false → (σ.cell y).peer ≠ c.peer) :
    Agreed (σ.put z c net) where
  keys := hkeys
  sound := by
    intro m hm
    rcases hsound m hm with ⟨hold, hk⟩ | hnew
    · exact (hi.sound m hold).put hz hk
    · exact hnew
  listening := by
    intro x hx
    by_cases e : x = z
    · subst e
      rw [put_self] at hx ⊢
      exact hlistening hx
    · rw [put_of_ne e] at hx ⊢
      exact hi.listening x hx
  calling := by
    intro x hx
    by_cases e : x = z
    · subst e
      rw [put_self] at hx ⊢
      exact hcalling hx
    · rw [put_of_ne e] at hx ⊢
      exact hi.calling x hx
  served := by
    intro x hx hcaller
    by_cases e : x = z
    · subst e
      rw [put_self] at hx hcaller ⊢
      exact hserved hx hcaller
    · rw [put_of_ne e] at hx hcaller ⊢
      exact (hi.served x hx hcaller).put hz fun e' => absurd e' e
  awaited := by
    intro y hy hcaller
    by_cases e : y = z
    · subst e
      rw [put_self] at hy hcaller
      exact (hself hy hcaller).1
    · rw [put_of_ne e] at hy hcaller
      exact hawaited y hy hcaller
  distinct := by
    intro y y' hy hcaller hy' hcaller' hpeer
    by_cases e : y = z
    · subst e
      by_cases e' : y' = y
      · exact e'.symm
      · rw [put_self] at hy hcaller hpeer
        rw [put_of_ne e'] at hy' hcaller' hpeer
        exact absurd hpeer.symm ((hself hy hcaller).2 y' hy' hcaller')
    · rw [put_of_ne e] at hy hcaller hpeer
      by_cases e' : y' = z
      · subst e'
        rw [put_self] at hy' hcaller' hpeer
        exact absurd hpeer ((hself hy' hcaller').2 y hy hcaller)
      · rw [put_of_ne e'] at hy' hcaller' hpeer
        exact hi.distinct y y' hy hcaller hy' hcaller' hpeer

end Put

/-! ## Every step -/

theorem Agreed.listen (hi : Agreed σ) (hx : (σ.cell x).phase = .idle) (hc : c.phase = .listening)
    (hcaller : c.caller = false) : Agreed (σ.put x c σ.net) := by
  have hz : (σ.cell x).phase ≠ .open := by simp [hx]
  have hno : (σ.cell x).phase ≠ .calling := by simp [hx]
  refine hi.put hz hi.keys (fun m hm => Or.inl ⟨hm, hi.key_ne hm hno⟩) (fun _ => hcaller)
    (by simp [hc]) (by simp [hc]) (fun y hy hcy => ?_) (by simp [hc])
  have h := hi.awaited y hy hcy
  exact h.put hz (h.peer_ne_of_phase hz hno) fun m hm _ => hm

theorem Agreed.call (hi : Agreed σ) (hx : (σ.cell x).phase = .idle) (hc : c.phase = .calling)
    (hcaller : c.caller = true) :
    Agreed (σ.put x c (.request x c.peer.1 c.lport c.rport ::ₘ σ.net)) := by
  have hz : (σ.cell x).phase ≠ .open := by simp [hx]
  have hno : (σ.cell x).phase ≠ .calling := by simp [hx]
  refine hi.put hz (keys_cons hi.keys fun k hk m hm => ?_) (fun m hm => ?_) (by simp [hc])
    (fun _ => hcaller) (by simp [hc]) (fun y hy hcy => ?_) (by simp [hc])
  · obtain rfl := Option.some.inj hk
    exact hi.key_ne hm hno
  · rcases Multiset.mem_cons.mp hm with rfl | hm
    · exact Or.inr (by simp [Sound, put_self, hc])
    · exact Or.inl ⟨hm, hi.key_ne hm hno⟩
  · have h := hi.awaited y hy hcy
    have hne := h.peer_ne_of_phase hz hno
    refine h.put hz hne fun m hm hk => ?_
    rcases Multiset.mem_cons.mp hm with rfl | hm
    · exact absurd (Option.some.inj hk).symm hne
    · exact hm

theorem Agreed.accept {lport rport : P} (hi : Agreed σ)
    (hnet : σ.net = .request x y.1 lport rport ::ₘ net)
    (hy : (σ.cell y).phase = .listening) (hport : (σ.cell y).lport = rport) :
    Agreed (σ.put y ((σ.cell y).accept x lport) (.answer x y.1 (some y.2) ::ₘ net)) := by
  have hz : (σ.cell y).phase ≠ .open := by simp [hy]
  have hno : (σ.cell y).phase ≠ .calling := by simp [hy]
  have hreq : Msg.request x y.1 lport rport ∈ σ.net := hnet ▸ Multiset.mem_cons_self _ _
  have hold : ∀ m ∈ net, m ∈ σ.net := fun m hm => hnet ▸ Multiset.mem_cons_of_mem hm
  obtain ⟨hcalling, hhost, hl, hr⟩ := hi.sound _ hreq
  obtain ⟨hrest, hother⟩ := keys_of_cons hnet hi.keys
  have hxy : x ≠ y := by
    rintro rfl
    exact hno hcalling
  have hpeer : ∀ w, (σ.cell w).phase = .open → (σ.cell w).caller = false → (σ.cell w).peer ≠ x :=
    fun w hw hcw => hi.peer_ne hreq rfl (by simp) (hi.awaited w hw hcw)
  have hserved : ∀ net, Served (σ.put y ((σ.cell y).accept x lport) net).cell x y := by
    intro net
    refine ⟨?_, ?_, ?_, ?_, ?_, ?_⟩
    · rw [put_self]
      rfl
    · rw [put_self]
      exact hi.listening y hy
    · rw [put_self]
      rfl
    · rw [put_of_ne hxy, hhost]
    · rw [put_self, put_of_ne hxy, hr]
      exact hport
    · rw [put_self, put_of_ne hxy, hl]
      rfl
  refine hi.put hz (keys_cons hrest fun k hk => ?_) (fun m hm => ?_) (by simp [Cell.accept])
    (by simp [Cell.accept]) (fun _ htrue => ?_) (fun w hw hcw => ?_) fun _ _ => ⟨?_, hpeer⟩
  · obtain rfl := Option.some.inj hk
    exact hother x rfl
  · rcases Multiset.mem_cons.mp hm with rfl | hm
    · refine Or.inr ⟨?_, hserved _⟩
      rw [put_of_ne hxy, hcalling]
    · exact Or.inl ⟨hold m hm, hi.key_ne (hold m hm) hno⟩
  · exact absurd ((hi.listening y hy).symm.trans htrue) (by simp)
  · have h := hi.awaited w hw hcw
    refine h.put hz (h.peer_ne_of_phase hz hno) fun m hm hk => ?_
    rcases Multiset.mem_cons.mp hm with rfl | hm
    · exact absurd (Option.some.inj hk).symm (hpeer w hw hcw)
    · exact hold m hm
  · have hself : ((σ.put y ((σ.cell y).accept x lport) (.answer x y.1 (some y.2) ::ₘ net)).cell
        y).peer = x := by
      rw [put_self]
      rfl
    refine ⟨?_, ?_, Or.inr ⟨?_, fun m hm hk => ?_⟩⟩
    · rw [hself]
      exact hserved _
    · rw [hself, put_of_ne hxy]
      exact hi.calling x hcalling
    · rw [hself, put_of_ne hxy, hcalling]
    · rw [hself] at hk ⊢
      rcases Multiset.mem_cons.mp hm with rfl | hm
      · rfl
      · exact absurd hk (hother x rfl m hm)

section Answer
variable {b : H} {j : I}

theorem Agreed.confirm (hi : Agreed σ) (hnet : σ.net = .answer x b (some j) ::ₘ net) :
    Agreed (σ.put x ((σ.cell x).confirm j) net) := by
  have hans : Msg.answer x b (some j) ∈ σ.net := hnet ▸ Multiset.mem_cons_self _ _
  have hold : ∀ m ∈ net, m ∈ σ.net := fun m hm => hnet ▸ Multiset.mem_cons_of_mem hm
  obtain ⟨hcalling, hserved⟩ := hi.sound _ hans
  obtain ⟨hrest, hother⟩ := keys_of_cons hnet hi.keys
  have hz : (σ.cell x).phase ≠ .open := by simp [hcalling]
  have htrue := hi.calling x hcalling
  have hsame : ∀ w, w = x → ((σ.cell x).confirm j).peer.1 = (σ.cell x).peer.1 ∧
      ((σ.cell x).confirm j).lport = (σ.cell x).lport ∧
      ((σ.cell x).confirm j).rport = (σ.cell x).rport := fun _ _ => ⟨rfl, rfl, rfl⟩
  refine hi.put hz hrest (fun m hm => Or.inl ⟨hold m hm, hother x rfl m hm⟩) (by simp [Cell.confirm])
    (by simp [Cell.confirm]) (fun _ _ => ?_) (fun y hy hcy => ?_) fun _ hfalse => ?_
  · have hpeer : ((σ.cell x).confirm j).peer = (b, j) := Prod.ext hserved.host rfl
    rw [hpeer]
    exact hserved.put hz (hsame x)
  · have h := hi.awaited y hy hcy
    by_cases e : (σ.cell y).peer = x
    · have hyx : y ≠ x := by
        rintro rfl
        exact hz hy
      have hself : (σ.put x ((σ.cell x).confirm j) net).cell y = σ.cell y := put_of_ne hyx
      have hsy := h.served
      rw [e] at hsy
      have hall := (h.ends.resolve_left fun ho => hz (e ▸ ho.1)).2 _ hans (congrArg some e.symm)
      injection hall with _ _ hj
      obtain rfl := Option.some.inj hj
      refine ⟨?_, ?_, Or.inl ?_⟩
      · rw [hself, e]
        exact hsy.put hz (hsame x)
      · rw [hself, e, put_self]
        exact htrue
      · rw [hself, e, put_self]
        exact ⟨rfl, Prod.ext hsy.host rfl⟩
    · exact h.put hz e fun m hm _ => hold m hm
  · exact absurd (htrue.symm.trans hfalse) (by simp)

theorem Agreed.reject (hi : Agreed σ) (hnet : σ.net = .answer x b none ::ₘ net)
    (hc : c.phase = .idle) : Agreed (σ.put x c net) := by
  have hans : Msg.answer x b none ∈ σ.net := hnet ▸ Multiset.mem_cons_self _ _
  have hold : ∀ m ∈ net, m ∈ σ.net := fun m hm => hnet ▸ Multiset.mem_cons_of_mem hm
  have hcalling := hi.sound _ hans
  obtain ⟨hrest, hother⟩ := keys_of_cons hnet hi.keys
  have hz : (σ.cell x).phase ≠ .open := by
    intro hopen
    exact absurd (hcalling.symm.trans hopen) (by simp)
  refine hi.put hz hrest (fun m hm => Or.inl ⟨hold m hm, hother x rfl m hm⟩) (by simp [hc])
    (by simp [hc]) (by simp [hc]) (fun y hy hcy => ?_) (by simp [hc])
  have h := hi.awaited y hy hcy
  exact h.put hz (hi.peer_ne hans rfl (by simp) h) fun m hm _ => hold m hm

end Answer

theorem Agreed.step (hi : Agreed σ) (h : Step σ σ') : Agreed σ' := by
  cases h with
  | listen hx hc hcaller => exact hi.listen hx hc hcaller
  | call hx hc hcaller => exact hi.call hx hc hcaller
  | accept hnet hy hport => exact hi.accept hnet hy hport
  | refuse hnet => exact hi.refuse hnet
  | confirm hnet => exact hi.confirm hnet
  | reject hnet hc => exact hi.reject hnet hc
  | send hx => exact hi.send hx
  | drop hnet => exact hi.drop hnet

theorem Agreed.reach (hi : Agreed σ) (h : Reach σ σ') : Agreed σ' := by
  induction h with
  | refl => exact hi
  | tail _ hs ih => exact ih.step hs

/-! ## What a slot goes through -/

/-- The ways from one phase of a slot to the next. -/
inductive Next : Phase → Phase → Prop
  | listen : Next .idle .listening
  | call : Next .idle .calling
  | accept : Next .listening .open
  | confirm : Next .calling .open
  | reject : Next .calling .idle

theorem next_put {q : Phase} (hq : (σ.cell z).phase = q) (hc : Next q c.phase) (x : H × I) :
    (σ.put z c net).cell x = σ.cell x ∨
      Next (σ.cell x).phase ((σ.put z c net).cell x).phase := by
  by_cases e : x = z
  · subst e
    rw [put_self, hq]
    exact Or.inr hc
  · exact Or.inl (put_of_ne e)

theorem Agreed.next (hi : Agreed σ) (h : Step σ σ') (x : H × I) :
    σ'.cell x = σ.cell x ∨ Next (σ.cell x).phase (σ'.cell x).phase := by
  cases h with
  | listen hx hc hcaller => exact next_put hx (hc ▸ .listen) x
  | call hx hc hcaller => exact next_put hx (hc ▸ .call) x
  | accept hnet hy hport => exact next_put hy .accept x
  | refuse hnet => exact Or.inl rfl
  | confirm hnet =>
      have hsound := hi.sound _ (hnet ▸ Multiset.mem_cons_self _ _)
      exact next_put hsound.1 .confirm x
  | reject hnet hc =>
      have hsound := hi.sound _ (hnet ▸ Multiset.mem_cons_self _ _)
      exact next_put hsound (hc ▸ .reject) x
  | send hx => exact Or.inl rfl
  | drop hnet => exact Or.inl rfl

theorem Agreed.keeps (hi : Agreed σ) (h : Step σ σ') (hx : (σ.cell x).phase = .open) :
    σ'.cell x = σ.cell x := by
  rcases hi.next h x with hsame | hnext
  · exact hsame
  · rw [hx] at hnext
    cases hnext

/-- An open slot stays as it is. -/
theorem Agreed.keeps_reach (hi : Agreed σ) (h : Reach σ σ') (hx : (σ.cell x).phase = .open) :
    σ'.cell x = σ.cell x := by
  induction h with
  | refl => rfl
  | tail hr hs ih => rw [(hi.reach hr).keeps hs (by rw [ih, hx]), ih]

/-! ## Steps and data -/

/-- At most one step that changes a slot, or data sent and messages lost. -/
def Advances (σ σ' : State H I P) : Prop :=
  Reach σ σ' ∧ (σ'.cell = σ.cell ∨ Step σ σ')

theorem Advances.of_step (h : Step σ σ') : Advances σ σ' := ⟨.single h, Or.inr h⟩

theorem Agreed.next_advances (hi : Agreed σ) (h : Advances σ σ') (x : H × I) :
    σ'.cell x = σ.cell x ∨ Next (σ.cell x).phase (σ'.cell x).phase := by
  rcases h.2 with hsame | hstep
  · exact Or.inl (by rw [hsame])
  · exact hi.next hstep x

/-! ## A call whose message is lost -/

theorem stranded_put (h : Stranded σ x) (hz : x ≠ z) (hnet : ∀ m ∈ net, m.key = some x → m ∈ σ.net) :
    Stranded (σ.put z c net) x ∧ (σ.put z c net).cell x = σ.cell x := by
  have hx : (σ.put z c net).cell x = σ.cell x := put_of_ne hz
  refine ⟨⟨by rw [hx]; exact h.1, fun m hm hk => h.2 m (hnet m hm hk) hk⟩, hx⟩

theorem Stranded.step (h : Stranded σ x) (hs : Step σ σ') :
    Stranded σ' x ∧ σ'.cell x = σ.cell x := by
  have hne : ∀ {y : H × I} {q : Phase}, (σ.cell y).phase = q → q ≠ .calling → x ≠ y := by
    rintro y q hy hq rfl
    exact hq (hy.symm.trans h.1)
  -- an answer takes the place of a request of the same call
  have hans : ∀ {y : H × I} {m' : Msg H I P} {net : Multiset (Msg H I P)}, σ.net = m' ::ₘ net →
      m'.key = some y → x ≠ y ∧ ∀ m ∈ net, m ∈ σ.net := by
    intro y m' net hnet hk
    refine ⟨?_, fun m hm => hnet ▸ Multiset.mem_cons_of_mem hm⟩
    rintro rfl
    exact h.2 m' (hnet ▸ Multiset.mem_cons_self _ _) hk
  cases hs with
  | listen hy hc hcaller => exact stranded_put h (hne hy (by simp)) fun m hm _ => hm
  | call hy hc hcaller =>
      have hxy := hne hy (by simp)
      refine stranded_put h hxy fun m hm hk => ?_
      rcases Multiset.mem_cons.mp hm with rfl | hm
      · exact absurd (Option.some.inj hk).symm hxy
      · exact hm
  | accept hnet hy hport =>
      obtain ⟨hxy, hold⟩ := hans hnet rfl
      refine stranded_put h (hne hy (by simp)) fun m hm hk => ?_
      rcases Multiset.mem_cons.mp hm with rfl | hm
      · exact absurd (Option.some.inj hk).symm hxy
      · exact hold m hm
  | refuse hnet =>
      obtain ⟨hxy, hold⟩ := hans hnet rfl
      refine ⟨⟨h.1, fun m hm hk => ?_⟩, rfl⟩
      rcases Multiset.mem_cons.mp hm with rfl | hm
      · exact hxy (Option.some.inj hk).symm
      · exact h.2 m (hold m hm) hk
  | confirm hnet =>
      obtain ⟨hxy, hold⟩ := hans hnet rfl
      exact stranded_put h hxy fun m hm _ => hold m hm
  | reject hnet hc =>
      obtain ⟨hxy, hold⟩ := hans hnet rfl
      exact stranded_put h hxy fun m hm _ => hold m hm
  | send hy =>
      refine ⟨⟨h.1, fun m hm hk => ?_⟩, rfl⟩
      rcases Multiset.mem_cons.mp hm with rfl | hm
      · exact absurd hk (by simp [Msg.key])
      · exact h.2 m hm hk
  | drop hnet =>
      refine ⟨⟨h.1, fun m hm hk => h.2 m ?_ hk⟩, rfl⟩
      rw [hnet]
      exact Multiset.mem_cons_of_mem hm

/-- A call that has lost its request or its answer waits for ever: nothing is sent again. -/
theorem Stranded.reach (h : Stranded σ x) (hr : Reach σ σ') :
    Stranded σ' x ∧ σ'.cell x = σ.cell x := by
  induction hr with
  | refl => exact ⟨h, rfl⟩
  | tail _ hs ih =>
      obtain ⟨hst, hcell⟩ := ih.1.step hs
      exact ⟨hst, hcell.trans ih.2⟩

end Ltm.Rendezvous
