import Ltm.Kernel.Indices
import Ltm.Nodo.Vistas

/-! # Steps inside the table

The indices that come from outside are the `id_destino` of a CC and the `id` of a `t_send`; the code makes
one more itself, of the error of `asign_conexion_CR`. A host stays in the table exactly as long as these
do (`accesos_iff_dentro`): what a call waits with was in the table when it began.
-/

namespace Ltm.Nodo
open Kernel Runs
set_option autoImplicit false
set_option maxHeartbeats 250000

/-- The event brings no index that is not one of the table. -/
def Dentro (k : KernelShm) : Suceso → Prop
  | .llama (.send e id datos _) => ¬e.getKernel < 0 → datos ≠ none → EnTabla id
  | .recibe _ p _ => p.Dentro k
  | _ => True

/-- A positive CC finds a packet to take out of `TX`. -/
def ConPaquete (k : KernelShm) : Suceso → Prop
  | .recibe _ p _ => p.cabecera.tipo = tipoCC → ¬p.cabecera.conexionAceptada < 0 →
      (k.CXs p.cabecera.idDestino).TX ≠ []
  | _ => True

/-- The event neither leaves the table nor takes from an empty `TX`: the memory beside the table and the
links of the lists are as the code means them. -/
def Definido (k : KernelShm) (e : Suceso) : Prop := Dentro k e ∧ ConPaquete k e

instance (k : KernelShm) : (e : Suceso) → Decidable (Dentro k e)
  | .llama (.send _ _ _ _) => inferInstanceAs (Decidable (_ → _ → _))
  | .llama (.connect _ _ _) => .isTrue trivial
  | .llama (.listen _ _ _) => .isTrue trivial
  | .recibe _ p _ => inferInstanceAs (Decidable (p.Dentro k))
  | .sigue _ => .isTrue trivial
  | .citaDaemon _ => .isTrue trivial
  | .cita _ _ => .isTrue trivial
  | .despierta _ => .isTrue trivial
  | .suelta => .isTrue trivial

instance (k : KernelShm) : (e : Suceso) → Decidable (ConPaquete k e)
  | .recibe _ _ _ => inferInstanceAs (Decidable (_ → _ → _))
  | .llama _ => .isTrue trivial
  | .sigue _ => .isTrue trivial
  | .citaDaemon _ => .isTrue trivial
  | .cita _ _ => .isTrue trivial
  | .despierta _ => .isTrue trivial
  | .suelta => .isTrue trivial

instance (k : KernelShm) (e : Suceso) : Decidable (Definido k e) := inferInstanceAs (Decidable (_ ∧ _))

def celda : Local → Int
  | .connect i => i
  | .listen i => i
  | .send l => l.id

/-! ## The accesses of a section -/

variable {k k' : KernelShm} {pa : Paso} {w : List Accion} {l : Local}

theorem accesosEnTabla_nil : AccesosEnTabla [] := fun a ha => absurd ha (by simp)

theorem accesos_tSend (e : Entorno) (id : Int) (datos : Option (List UInt8)) (longitud : UInt64) :
    AccesosEnTabla (tSend e id datos longitud ⟨k, []⟩).2.traza ↔
      (¬e.getKernel < 0 → datos ≠ none → EnTabla id) := by
  have hsolo := (soloCelda_empieza (empieza_send (k := k) e id datos longitud)).1
  by_cases hk : e.getKernel < 0
  · refine iff_of_true ?_ fun h => absurd hk h
    unfold tSend
    rw [if_pos hk]
    exact accesosEnTabla_nil
  · rw [imp_iff_right hk]
    cases datos with
    | none =>
        refine iff_of_true ?_ fun h => absurd rfl h
        unfold tSend
        rw [if_neg hk]
        exact accesosEnTabla_nil
    | some ds =>
        rw [imp_iff_right (by simp)]
        refine ⟨fun h => ?_, hsolo.accesos⟩
        have hmem : .acceso id ∈ (tSend e id (some ds) longitud ⟨k, []⟩).2.traza := by
          unfold tSend
          rw [if_neg hk]
          dsimp only
          rw [bloquearAcceso_bind, leeCx_bind]
          by_cases hest : (k.CXs id).estadoCx = .established
          · rw [if_neg (not_not.mpr hest), leeCx_bind]
            obtain ⟨w, e, -⟩ := (bucleSend_fin (cuantosSends longitud)
              (.nuevo id ds longitud (k.CXs id)) { k with semaforo := true }
              [.bloquearAcceso, .acceso id, .acceso id]).traza
            exact e ▸ List.mem_append_left _ (by simp)
          · rw [if_pos hest]
            simp [desbloquearAcceso_bind, pure_run]
        exact h _ hmem _ rfl

theorem accesos_connect {e : Entorno} {destino origen : TDireccion}
    (he : Empieza k (.connect e destino origen) pa k' w) : AccesosEnTabla w := by
  cases he with
  | fuera | busca => exact accesosEnTabla_nil
  | lleno | repetido => exact SoloCelda.accesos (i := 0) (by simp [SoloCelda, Accion.celda]) (by decide)
  | connect =>
      refine SoloCelda.accesos (i := buscarCeldaLibre k) ?_ (buscarCeldaLibre_enTabla k)
      unfold trazaConnect
      split <;> simp [SoloCelda, Accion.celda]

theorem accesos_listen {e : Entorno} {escucha : TDireccion} {remota : Option TDireccion}
    (he : Empieza k (.listen e escucha remota) pa k' w) : AccesosEnTabla w := by
  cases he with
  | fuera | busca => exact accesosEnTabla_nil
  | lleno | repetido => exact SoloCelda.accesos (i := 0) (by simp [SoloCelda, Accion.celda]) (by decide)
  | listen =>
      refine SoloCelda.accesos (i := buscarCeldaLibre k) ?_ (buscarCeldaLibre_enTabla k)
      simp [trazaListen, SoloCelda, Accion.celda]

theorem accesos_empieza (c : Llamada) :
    AccesosEnTabla (c.empieza ⟨k, []⟩).2.traza ↔ Dentro k (.llama c) := by
  cases c with
  | connect e destino origen => exact iff_of_true (accesos_connect (empieza_paso _)) trivial
  | listen e escucha remota => exact iff_of_true (accesos_listen (empieza_paso _)) trivial
  | send e id datos longitud => exact accesos_tSend e id datos longitud

/-- A call that comes to a wait has accessed the cell that it waits at. -/
theorem acceso_of_duerme {c : Llamada} {i : Int} (he : Empieza k c (.duerme i l) k' w) :
    .acceso (celda l) ∈ w := by
  cases he with
  | connect => simp [trazaConnect, celda]
  | listen => simp [trazaListen, celda]
  | send e id ds longitud hest hfin =>
      obtain ⟨-, l', rfl, hid⟩ := hfin.espera rfl
      obtain ⟨w', e, -⟩ := hfin.traza
      dsimp only at e
      rw [e, celda, hid]
      simp

theorem sigue_celda (he : Sigue k l pa k' w) :
    SoloCelda (celda l) w ∧ ∀ i l', pa = .duerme i l' → celda l' = celda l := by
  cases he with
  | connect i => exact ⟨by simp [SoloCelda, Accion.celda, celda], fun _ _ h => absurd h (by simp)⟩
  | listen i => exact ⟨by simp [SoloCelda, Accion.celda, celda], fun _ _ h => absurd h (by simp)⟩
  | send l hfin =>
      refine ⟨hfin.soloCelda, fun i l' hl' => ?_⟩
      obtain ⟨-, l'', rfl, hid⟩ := hfin.espera hl'
      exact hid

theorem accesos_recibe {ip : InAddr} {p : Tpdu} (he : Recibe k ip p k' w) :
    AccesosEnTabla w ↔ p.Dentro k := by
  cases he with
  | cc ht =>
      refine ⟨fun h => ⟨fun _ => ?_, fun hcr => absurd ht (tipoCR_ne_tipoCC hcr)⟩, fun h => ?_⟩
      · exact h _ (acceso_mem_trazaCC p.cabecera) _ rfl
      · exact (soloCelda_trazaCC p.cabecera).accesos (h.1 ht)
  | cr ht =>
      refine ⟨fun h => ⟨fun hcc => absurd hcc (tipoCR_ne_tipoCC ht), fun _ hno => ?_⟩, fun h => ?_⟩
      · have hen := h (.acceso (asignConexionCR p k)) (by simp [trazaCR]) _ rfl
        rw [hno] at hen
        exact not_enTabla_exNoTsap hen
      · exact (soloCelda_trazaCR ip p).accesos ((asignConexionCR_cases p k).resolve_right (h.2 ht)).1
  | otro hcc hcr =>
      exact iff_of_true (SoloCelda.accesos (i := 0) (by simp [SoloCelda, Accion.celda]) (by decide))
        ⟨fun h => absurd h hcc, fun h => absurd h hcr⟩

/-! ## Every step -/

variable {s s' : Estado} {e : Suceso}

/-- What the call waits with is a cell of the table. -/
def Vista.Dentro (x : Vista) : Prop := ∀ l, x.pendiente = some l → EnTabla (celda l)

theorem accesos_paso (hi : ∀ x ∈ s.vistas, x.Dentro) (h : paso s e = some s') :
    AccesosEnTabla s'.ultima ↔ Dentro s.kernel e := by
  cases e with
  | llama c =>
      obtain ⟨hilo, -, -, hcorre⟩ := llama_corre h
      rw [hcorre.ultima]
      exact accesos_empieza c
  | sigue j =>
      obtain ⟨hilo, l, hh, hf, hilo', -, -, hcorre⟩ := sigue_corre h
      have hl : hilo.vista.pendiente = some l := by
        show hilo.fase.pendiente = _
        rw [hf]
        rfl
      have hen := hi _ (List.mem_map_of_mem (List.mem_of_getElem? hh)) l hl
      rw [hcorre.ultima]
      exact iff_of_true ((sigue_celda (sigue_paso l)).1.accesos hen) trivial
  | recibe ip p para =>
      cases transita_recibe h with
      | recibe hs hd he => exact accesos_recibe he
  | citaDaemon h' =>
      cases transita_citaDaemon h with
      | citaDaemon => exact iff_of_true accesosEnTabla_nil trivial
  | cita h₁ h₂ =>
      cases transita_cita h with
      | cita => exact iff_of_true accesosEnTabla_nil trivial
  | despierta h' =>
      cases transita_despierta h with
      | despierta => exact iff_of_true accesosEnTabla_nil trivial
  | suelta =>
      cases transita_suelta h with
      | suelta => exact iff_of_true accesosEnTabla_nil trivial

theorem dentro_paso (hi : ∀ x ∈ s.vistas, x.Dentro) (hok : Dentro s.kernel e) (h : paso s e = some s') :
    ∀ x ∈ s'.vistas, x.Dentro := by
  have hacc := (accesos_paso hi h).mpr hok
  refine forall_vistas_paso hi h (fun c hilo _ _ hcorre l hl => ?_)
    fun j hilo l hilo' _ _ hf hvieja _ hcorre l' hl' => ?_
  · obtain ⟨i, hr⟩ := duerme_of_fasePaso hcorre.fase hl
    have he := empieza_paso (k := s.kernel) c
    rw [hr, ← hcorre.ultima] at he
    exact hacc _ (acceso_of_duerme he) _ rfl
  · obtain ⟨i, hr⟩ := duerme_of_fasePaso hcorre.fase hl'
    rw [(sigue_celda (sigue_paso (k := s.kernel) l)).2 i l' hr]
    refine hvieja l ?_
    show hilo.fase.pendiente = _
    rw [hf]
    rfl

/-- In every run all accesses to `KERNEL->CXs` are in the table exactly as long as every CC is for a cell
of it, every CR has a listener and every `t_send` is on a cell of it. -/
theorem accesos_iff_dentro (k : KernelShm) (es : List Suceso) :
    Along paso (fun _ _ s' => AccesosEnTabla s'.ultima) (inicial k) es ↔
      Along paso (fun s e _ => Dentro s.kernel e) (inicial k) es :=
  have hstep : ∀ s e s', (∀ x ∈ s.vistas, x.Dentro) → Dentro s.kernel e → paso s e = some s' →
      ∀ x ∈ s'.vistas, x.Dentro := fun _ _ _ hi hok h => dentro_paso hi hok h
  along_iff_along (fun s => ∀ x ∈ s.vistas, x.Dentro) (fun s e _ => Dentro s.kernel e) hstep
    (fun _ _ _ hi h => accesos_paso hi h) es fun x hx => absurd hx (by simp [Estado.vistas, inicial])

end Ltm.Nodo
