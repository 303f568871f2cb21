import Ltm.Kernel.Tabla

/-! # Lock discipline

The primitives keep the discipline of the semaphore on every path (`Llamada.trazas`). The daemon's
loop keeps it exactly when every packet it receives is a CC for a cell of the table or a CR with a
listener (`disciplina_semaforo`): `case ACK` and the missing cases of the `switch` leave
`bucle_principal` without `desbloquear_acceso`, and an access outside the table comes with the
semaphore held.
-/

namespace Ltm.Kernel
open Runs
set_option autoImplicit false
set_option maxHeartbeats 250000

/-! ## Traces of the processes -/

/-- The trace of one turn of the daemon's loop, from the kernel that it finds. -/
def trazaVuelta (v : KernelShm × Evento) : List Accion := (vuelta v.2 ⟨v.1, []⟩).2.traza

def trazaBucle (vs : List (KernelShm × Evento)) : List Accion := vs.flatMap trazaVuelta

/-- A turn that acquires the semaphore releases it exactly once. -/
def SueltaUnaVez (w : List Accion) : Prop :=
  w.count .desbloquearAcceso = if .bloquearAcceso ∈ w then 1 else 0

/-- The traces of the sections of a call after a step, one from each of the kernels it finds. -/
def Paso.trazas : Paso → List KernelShm → List (List Accion)
  | .duerme _ l, k :: ks =>
    let r := l.sigue ⟨k, []⟩
    r.2.traza :: r.1.trazas ks
  | _, _ => []

def Llamada.trazas (c : Llamada) : List KernelShm → List (List Accion)
  | [] => []
  | k :: ks =>
    let r := c.empieza ⟨k, []⟩
    r.2.traza :: r.1.trazas ks

/-- The trace of a section, as far as it is sure to go, keeps the discipline of the semaphore: it ends
with the semaphore free, unless it breaks off outside the table. -/
structure Respeta (w : List Accion) : Prop where
  sigue : run Accion.semaforo false (hastaFuera w) ≠ none
  acaba : hastaFuera w = w → Disciplina w

/-- The `switch` of `bucle_principal` has code for the packet, for a cell that is in the table. -/
def Evento.conCaso (k : KernelShm) : Evento → Prop
  | .paquete _ p => (p.cabecera.tipo = tipoCC ∨ p.cabecera.tipo = tipoCR) ∧ p.Dentro k
  | _ => True

/-! ## The primitives -/

variable {k k' : KernelShm} {w : List Accion}

theorem FinSend.disciplina {id : Int} {r : Paso × Mundo}
    (h : FinSend id k [.bloquearAcceso, .acceso id, .acceso id] r) : Disciplina r.2.traza := by
  obtain ⟨w, e, hw, -⟩ := h.traza
  rw [e]
  exact hw

theorem disciplina_trazaConnect (destino origen : TDireccion) :
    Disciplina (trazaConnect k destino origen) := by
  unfold trazaConnect
  split <;> rfl

theorem Empieza.disciplina {c : Llamada} {paso : Paso} (h : Empieza k c paso k' w) :
    Disciplina w := by
  cases h with
  | fuera => rfl
  | busca => rfl
  | lleno => rfl
  | repetido => rfl
  | sinConexion => rfl
  | connect e destino origen origen' => exact disciplina_trazaConnect destino origen'
  | listen => rfl
  | send e id datos longitud hest hfin => exact hfin.disciplina

theorem Sigue.disciplina {l : Local} {paso : Paso} (h : Sigue k l paso k' w) : Disciplina w := by
  cases h with
  | connect => rfl
  | listen => rfl
  | send l hfin => exact hfin.disciplina

theorem Paso.disciplina (ks : List KernelShm) (paso : Paso) : ∀ w ∈ paso.trazas ks, Disciplina w := by
  intro w hw
  induction ks generalizing paso with
  | nil => simp [Paso.trazas] at hw
  | cons k ks ih =>
      cases paso with
      | retorna v => simp [Paso.trazas] at hw
      | busca => simp [Paso.trazas] at hw
      | duerme i l =>
          rcases List.mem_cons.mp hw with rfl | hw
          · exact (sigue_paso l).disciplina
          · exact ih _ hw

theorem Llamada.disciplina (c : Llamada) (ks : List KernelShm) :
    ∀ w ∈ c.trazas ks, Disciplina w := by
  intro w hw
  cases ks with
  | nil => simp [Llamada.trazas] at hw
  | cons k ks =>
      rcases List.mem_cons.mp hw with rfl | hw
      · exact (empieza_paso c).disciplina
      · exact Paso.disciplina ks _ w hw

/-! ## The daemon -/

theorem disciplina_trazaCC (h : CabTcp) : Disciplina (trazaCC k h) := by
  unfold trazaCC
  dsimp only
  by_cases hneg : h.conexionAceptada < 0
  · rw [if_pos hneg]
    rfl
  · rw [if_neg hneg]
    split <;> rfl

theorem count_trazaCC (h : CabTcp) : (trazaCC k h).count .desbloquearAcceso = 1 := by
  unfold trazaCC
  dsimp only
  by_cases hneg : h.conexionAceptada < 0
  · rw [if_pos hneg]
    simp
  · rw [if_neg hneg]
    split <;> simp

theorem bloquea_mem_trazaCC (h : CabTcp) : .bloquearAcceso ∈ trazaCC k h := by
  simp [trazaCC]

theorem trazaVuelta_paquete (ipRemota : InAddr) (p : Tpdu) :
    trazaVuelta (k, .paquete ipRemota p) =
      (if p.cabecera.tipo = tipoCC then trazaCC k p.cabecera
        else if p.cabecera.tipo = tipoCR then trazaCR k ipRemota p
        else [.bloquearAcceso]) ++ [.ltmWait4event] := by
  have e : trazaVuelta (k, .paquete ipRemota p) =
      (paquete ipRemota p ⟨k, []⟩).2.traza ++ [.ltmWait4event] := rfl
  rw [e, paquete_run]
  split_ifs <;> rfl

theorem accesos_vuelta {v : KernelShm × Evento} (hv : v.2.conCaso v.1) :
    AccesosEnTabla (trazaVuelta v) := by
  have hfin : AccesosEnTabla [.ltmWait4event] := by decide
  obtain ⟨k, e⟩ := v
  cases e with
  | timeOut => exact hfin
  | interrup => exact hfin
  | paquete ipRemota p =>
      rw [trazaVuelta_paquete]
      refine AccesosEnTabla.append ?_ hfin
      obtain ⟨ht | ht, hdentro⟩ := hv
      · rw [if_pos ht]
        exact (soloCelda_trazaCC p.cabecera).accesos (hdentro.1 ht)
      · rw [if_neg (tipoCR_ne_tipoCC ht), if_pos ht]
        exact (soloCelda_trazaCR ipRemota p).accesos
          ((asignConexionCR_cases p k).resolve_right (hdentro.2 ht)).1

theorem disciplina_vuelta {v : KernelShm × Evento} (hv : v.2.conCaso v.1) :
    Disciplina (trazaVuelta v) ∧ SueltaUnaVez (trazaVuelta v) := by
  obtain ⟨k, e⟩ := v
  cases e with
  | timeOut => exact ⟨rfl, rfl⟩
  | interrup => exact ⟨rfl, rfl⟩
  | paquete ipRemota p =>
      rw [trazaVuelta_paquete]
      obtain ⟨ht | ht, -⟩ := hv
      · rw [if_pos ht]
        refine ⟨Disciplina.append (disciplina_trazaCC p.cabecera) rfl, ?_⟩
        simp [SueltaUnaVez, count_trazaCC, bloquea_mem_trazaCC]
      · rw [if_neg (tipoCR_ne_tipoCC ht), if_pos ht]
        exact ⟨rfl, by simp [SueltaUnaVez, trazaCR]⟩

/-- A trace that takes the semaphore and goes on outside the table is never sure to give it back. -/
theorem not_sueltaUnaVez_of_fuera {i : Int} (hi : ¬EnTabla i) (w : List Accion) :
    ¬SueltaUnaVez (hastaFuera (.bloquearAcceso :: .acceso i :: w)) := by
  have e : hastaFuera (.bloquearAcceso :: .acceso i :: w) = [.bloquearAcceso, .acceso i] := by
    simp [hastaFuera, Accion.celda, hi]
  rw [e]
  simp [SueltaUnaVez]

theorem conCaso_of_sueltaUnaVez {v : KernelShm × Evento} (h : SueltaUnaVez (hastaFuera (trazaVuelta v))) :
    v.2.conCaso v.1 := by
  obtain ⟨k, e⟩ := v
  cases e with
  | timeOut => trivial
  | interrup => trivial
  | paquete ipRemota p =>
      rw [trazaVuelta_paquete] at h
      by_cases hcc : p.cabecera.tipo = tipoCC
      · rw [if_pos hcc] at h
        refine ⟨Or.inl hcc, fun _ => ?_, fun hcr => absurd hcc (tipoCR_ne_tipoCC hcr)⟩
        by_contra hno
        exact not_sueltaUnaVez_of_fuera hno _ h
      · rw [if_neg hcc] at h
        by_cases hcr : p.cabecera.tipo = tipoCR
        · rw [if_pos hcr] at h
          refine ⟨Or.inr hcr, fun ht => absurd ht hcc, fun _ hno => ?_⟩
          rw [trazaCR, hno] at h
          exact not_sueltaUnaVez_of_fuera not_enTabla_exNoTsap _ h
        · rw [if_neg hcr] at h
          exact absurd h (by simp [SueltaUnaVez, hastaFuera, Accion.celda])

theorem disciplina_bucle (vs : List (KernelShm × Evento)) (h : ∀ v ∈ vs, v.2.conCaso v.1) :
    Disciplina (trazaBucle vs) ∧ AccesosEnTabla (trazaBucle vs) := by
  induction vs with
  | nil => exact ⟨rfl, by simp [trazaBucle, AccesosEnTabla]⟩
  | cons v vs ih =>
      have hv := h v List.mem_cons_self
      obtain ⟨hdis, hacc⟩ := ih fun u hu => h u (List.mem_cons_of_mem v hu)
      exact ⟨(disciplina_vuelta hv).1.append hdis, (accesos_vuelta hv).append hacc⟩

theorem Disciplina.respeta (h : Disciplina w) : Respeta w where
  sigue := by
    obtain ⟨w', hw⟩ := hastaFuera_prefix w
    rw [Disciplina, ← hw, run_append] at h
    intro hno
    rw [hno] at h
    exact absurd h (by simp)
  acaba := fun _ => h

/-- The discipline of the semaphore holds exactly when the daemon receives only CCs for cells of the
table and CRs with a listener: over all turns of its loop, with exactly one release in every turn that
acquires, and over all sections of all calls. A trace counts as far as it stays in the table. -/
theorem disciplina_semaforo (vs : List (KernelShm × Evento)) :
    (Disciplina (hastaFuera (trazaBucle vs)) ∧
      (∀ v ∈ vs, SueltaUnaVez (hastaFuera (trazaVuelta v))) ∧
      ∀ (c : Llamada) (ks : List KernelShm), ∀ w ∈ c.trazas ks, Respeta w) ↔
      ∀ v ∈ vs, v.2.conCaso v.1 := by
  constructor
  · intro h v hv
    exact conCaso_of_sueltaUnaVez (h.2.1 v hv)
  · intro h
    obtain ⟨hdis, hacc⟩ := disciplina_bucle vs h
    refine ⟨?_, fun v hv => ?_, fun c ks w hw => (Llamada.disciplina c ks w hw).respeta⟩
    · rwa [hastaFuera_of_accesos hacc]
    · rw [hastaFuera_of_accesos (accesos_vuelta (h v hv))]
      exact (disciplina_vuelta (h v hv)).2

/-- A DATOS packet, as `t_send` sends them, stops the daemon in `ltm_wait4event` with the semaphore
held. -/
theorem no_disciplina_datos : ¬Disciplina (hastaFuera (trazaBucle [(kernelPorDefecto,
    .paquete 0x0a000002
      { Tpdu.nulo with cabecera := { Tpdu.nulo.cabecera with tipo := tipoDatos } })])) := by
  decide

end Ltm.Kernel
