import Ltm.Kernel.Efectos
import Ltm.Kernel.Semaforo

/-! # What a section of `t_send` does

Whatever happens in its loop, a section of `t_send` touches one cell, of which it changes only the
list `TX` and the flag `primitiva_dormida`, and gives the semaphore back before it sleeps or returns.
-/

namespace Ltm.Kernel
open Runs
set_option autoImplicit false
set_option maxHeartbeats 250000

/-- The kernel `k'` differs from `k` as after a section of `t_send` on the cell `id`. -/
structure EfectoSend (id : Int) (k k' : KernelShm) : Prop where
  otras : ∀ j, j ≠ id → k'.CXs j = k.CXs j
  celda : ∃ TX dormida, k'.CXs id = { k.CXs id with TX := TX, primitivaDormida := dormida }
  numCXs : k'.numCXs = k.numCXs
  CXsLibres : k'.CXsLibres = k.CXsLibres

theorem EfectoSend.trans {id : Int} {k k' k'' : KernelShm} (h : EfectoSend id k k')
    (h' : EfectoSend id k' k'') : EfectoSend id k k'' := by
  obtain ⟨TX, d, hc⟩ := h.celda
  obtain ⟨TX', d', hc'⟩ := h'.celda
  exact
    { otras := fun j hj => (h'.otras j hj).trans (h.otras j hj)
      celda := ⟨TX', d', by rw [hc', hc]⟩
      numCXs := h'.numCXs.trans h.numCXs
      CXsLibres := h'.CXsLibres.trans h.CXsLibres }

/-- The end of a section of `t_send` entered with the semaphore held. -/
structure FinSend (id : Int) (k : KernelShm) (t : List Accion) (r : Paso × Mundo) : Prop where
  efecto : EfectoSend id k r.2.kernel
  libre : r.2.kernel.semaforo = false
  traza : ∃ w, r.2.traza = t ++ w ∧ run Accion.semaforo true w = some false ∧ SoloCelda id w
  paso : (∃ v, r.1 = .retorna v) ∨ ∃ l, r.1 = .duerme id (.send l) ∧ l.id = id

/-- A section that ends in a wait waits on its own cell, with the variables of a `t_send`. -/
theorem FinSend.espera {id i : Int} {k : KernelShm} {t : List Accion} {r : Paso × Mundo} {l : Local}
    (h : FinSend id k t r) (hr : r.1 = .duerme i l) :
    i = id ∧ ∃ l', l = .send l' ∧ l'.id = id := by
  rcases h.paso with ⟨v, hv⟩ | ⟨l', hl, hid⟩
  · rw [hv] at hr
    exact absurd hr (by simp)
  · rw [hl] at hr
    obtain ⟨rfl, rfl⟩ := Paso.duerme.inj hr
    exact ⟨rfl, l', rfl, hid⟩

/-- What comes before the end of the section and keeps the semaphore. -/
theorem FinSend.cons {id : Int} {k k' : KernelShm} {t w : List Accion} {r : Paso × Mundo}
    (h : FinSend id k' (t ++ w) r) (hk : EfectoSend id k k')
    (hw : run Accion.semaforo true w = some true) (hs : SoloCelda id w) : FinSend id k t r := by
  obtain ⟨w', e, hw', hs'⟩ := h.traza
  refine ⟨hk.trans h.efecto, h.libre, ⟨w ++ w', by rw [e, List.append_assoc], ?_, ?_⟩, h.paso⟩
  · rw [run_append, hw]
    exact hw'
  · exact soloCelda_append.mpr ⟨hs, hs'⟩

theorem FinSend.desde {id : Int} {k k' : KernelShm} {t : List Accion} {r : Paso × Mundo}
    (h : FinSend id k' t r) (hk : EfectoSend id k k') : FinSend id k t r :=
  ⟨hk.trans h.efecto, h.libre, h.traza, h.paso⟩

theorem efecto_conCx {id : Int} {k : KernelShm} {f : Conexion → Conexion}
    (hf : ∀ c, ∃ TX d, f c = { c with TX := TX, primitivaDormida := d }) :
    EfectoSend id k (k.conCx id f) := by
  refine ⟨fun j hj => k.conCx_of_ne f hj, ?_, rfl, rfl⟩
  obtain ⟨TX, d, e⟩ := hf (k.CXs id)
  exact ⟨TX, d, by rw [KernelShm.conCx_self, e]⟩

theorem efecto_buscar (id : Int) (k : KernelShm) : EfectoSend id k (buscarBufferLibre k) :=
  ⟨fun _ _ => rfl, ⟨_, _, rfl⟩, rfl, rfl⟩

theorem efecto_splice (id : Int) (k : KernelShm) (b : BufPkt) :
    EfectoSend id k (({ k with buffersLibres := k.buffersLibres.tail }).conCx id fun c =>
      { c with TX := c.TX ++ [b] }) := by
  have h : EfectoSend id k { k with buffersLibres := k.buffersLibres.tail } :=
    ⟨fun _ _ => rfl, ⟨_, _, rfl⟩, rfl, rfl⟩
  exact h.trans (efecto_conCx fun _ => ⟨_, _, rfl⟩)

theorem efecto_semaforo (id : Int) (k : KernelShm) (s : Bool) :
    EfectoSend id k { k with semaforo := s } :=
  ⟨fun _ _ => rfl, ⟨_, _, rfl⟩, rfl, rfl⟩

theorem bucleSend_envia {n : ℕ} {l : SendLocal} {k : KernelShm} {t : List Accion}
    (h : (k.CXs l.id).TX.length < k.numBufPkts.toNat) :
    ∃ b : BufPkt, bucleSend (n + 1) l ⟨k, t⟩ = bucleSend n (l.avanza n)
      ⟨({ buscarBufferLibre k with buffersLibres := (buscarBufferLibre k).buffersLibres.tail }).conCx
          l.id fun c => { c with TX := c.TX ++ [b] },
        t ++ [.acceso l.id, .acceso l.id, .acceso l.id, .enviarTpdu l.tsapDestino.ip b.pkt]⟩ := by
  refine ⟨bufferDatos (proximoBuffer k) l (k.CXs l.id).idDestino, ?_⟩
  rw [bucleSend, leeCx_bind, leeKernel_bind, if_pos h, tomaBuffer_bind, leeCx_bind, spliceTX_bind,
    enviarTpdu_bind]
  simp only [List.append_assoc, List.cons_append, List.nil_append]
  rfl

theorem bucleSend_duerme {n : ℕ} {l : SendLocal} {k : KernelShm} {t : List Accion}
    (h : ¬(k.CXs l.id).TX.length < k.numBufPkts.toNat) :
    bucleSend (n + 1) l ⟨k, t⟩ = (.duerme l.id (.send l),
      ⟨(k.conCx l.id fun c => { c with primitivaDormida := true }).suelto,
        t ++ [.acceso l.id, .acceso l.id, .desbloquearAcceso, .barrera l.id]⟩) := by
  rw [bucleSend, leeCx_bind, leeKernel_bind, if_neg h, cambiaCx_bind, desbloquearAcceso_bind,
    esperaBarrera_bind, pure_run]
  simp only [List.append_assoc, List.cons_append, List.nil_append]
  rfl

theorem bucleSend_fin (n : ℕ) (l : SendLocal) (k : KernelShm) (t : List Accion) :
    FinSend l.id k t (bucleSend n l ⟨k, t⟩) := by
  induction n generalizing l k t with
  | zero =>
      rw [bucleSend, desbloquearAcceso_bind, pure_run]
      exact ⟨efecto_semaforo l.id k false, rfl, ⟨_, rfl, rfl, by simp [SoloCelda, Accion.celda]⟩,
        Or.inl ⟨_, rfl⟩⟩
  | succ n ih =>
      by_cases h : (k.CXs l.id).TX.length < k.numBufPkts.toNat
      · obtain ⟨b, e⟩ := bucleSend_envia (n := n) (t := t) h
        have hresto := ih (l.avanza n) (({ buscarBufferLibre k with
            buffersLibres := (buscarBufferLibre k).buffersLibres.tail }).conCx l.id fun c =>
              { c with TX := c.TX ++ [b] })
          (t ++ [.acceso l.id, .acceso l.id, .acceso l.id, .enviarTpdu l.tsapDestino.ip b.pkt])
        rw [e]
        exact FinSend.cons hresto ((efecto_buscar l.id k).trans (efecto_splice l.id _ b)) rfl
          (by simp [SoloCelda, Accion.celda])
      · rw [bucleSend_duerme h]
        refine ⟨(efecto_conCx fun _ => ⟨_, _, rfl⟩).trans (efecto_semaforo l.id _ false), rfl,
          ⟨_, rfl, rfl, by simp [SoloCelda, Accion.celda]⟩, Or.inr ⟨l, rfl, rfl⟩⟩

end Ltm.Kernel
