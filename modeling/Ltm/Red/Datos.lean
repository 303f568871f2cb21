import Ltm.Red.Acuerdo
import Ltm.Kernel.Bufferes

/-! # The network with `t_send`

`pasoDatos` is the step of the network in which hosts also call `t_send`. Every packet that a section of
`t_send` sends is a DATOS packet with the addresses that the call read from its cell at its start, and
with the `id_destino` that the cell holds now (`EsDatos`).
-/

namespace Ltm.Red
open Kernel Nodo Runs
set_option autoImplicit false
set_option maxHeartbeats 250000

def deRed : Suceso → Bool
  | .recibe _ _ _ => true
  | _ => false

def pasoDatos (σ : Sistema) : Evento → Option Sistema
  | .nodo a e => if deRed e then none else (Nodo.paso (σ.nodos a) e).map (σ.tras a σ.red)
  | .entrega d para => paso σ (.entrega d para)
  | .pierde d => paso σ (.pierde d)

theorem pasoDatos_of_paso {σ σ' : Sistema} {e : Evento} (h : paso σ e = some σ') :
    pasoDatos σ e = some σ' := by
  cases e with
  | nodo a e =>
      rw [paso] at h
      by_cases he : interno e = true
      · rw [if_pos he] at h
        have hno : ¬deRed e = true := by
          intro hred
          cases e with
          | recibe => exact absurd he (by simp [interno])
          | llama | sigue | citaDaemon | cita | despierta | suelta => exact absurd hred (by simp [deRed])
        rw [pasoDatos, if_neg hno, h]
      · rw [if_neg he] at h
        exact absurd h (by simp)
  | entrega d para => exact h
  | pierde d => exact h

/-- Everything that a step of the network can be. -/
inductive Avanza (σ : Sistema) : Evento → Sistema → Prop
  | nodo {a : InAddr} {e : Suceso} {s' : Estado} (hno : ¬deRed e = true)
      (h : Nodo.paso (σ.nodos a) e = some s') : Avanza σ (.nodo a e) (σ.tras a σ.red s')
  | entrega {d : Datagrama} {para : Option ℕ} {s' : Estado} (hd : d ∈ σ.red)
      (h : Nodo.paso (σ.nodos d.destino) (.recibe d.origen d.tpdu para) = some s') :
      Avanza σ (.entrega d para) (σ.tras d.destino (σ.red.erase d) s')
  | pierde {d : Datagrama} (hd : d ∈ σ.red) : Avanza σ (.pierde d) { σ with red := σ.red.erase d }

theorem avanza_of_pasoDatos {σ σ' : Sistema} {e : Evento} (h : pasoDatos σ e = some σ') :
    Avanza σ e σ' := by
  cases e with
  | nodo a e =>
      rw [pasoDatos] at h
      by_cases he : deRed e = true
      · rw [if_pos he] at h
        exact absurd h (by simp)
      · rw [if_neg he] at h
        obtain ⟨s', hs', rfl⟩ := Option.map_eq_some_iff.mp h
        exact .nodo he hs'
  | entrega d para =>
      rw [pasoDatos, paso] at h
      by_cases hd : d ∈ σ.red
      · rw [if_pos hd] at h
        obtain ⟨s', hs', rfl⟩ := Option.map_eq_some_iff.mp h
        exact .entrega hd hs'
      · rw [if_neg hd] at h
        exact absurd h (by simp)
  | pierde d =>
      rw [pasoDatos, paso] at h
      by_cases hd : d ∈ σ.red
      · rw [if_pos hd] at h
        obtain rfl := Option.some.inj h
        exact .pierde hd
      · rw [if_neg hd] at h
        exact absurd h (by simp)

/-! ## The packets of a section of `t_send` -/

structure EsDatos (l : SendLocal) (idDestino : Int) (p : InAddr × Tpdu) : Prop where
  ip : p.1 = l.tsapDestino.ip
  tipo : p.2.cabecera.tipo = tipoDatos
  idLocal : p.2.cabecera.idLocal = l.id
  idDestino : p.2.cabecera.idDestino = idDestino
  puertoOrig : p.2.cabecera.puertoOrig = l.tsapOrigen.puerto.toUInt16
  puertoDest : p.2.cabecera.puertoDest = l.tsapDestino.puerto.toUInt16

/-- The variables `l'` are those of the call that `l` are of, with the same addresses. -/
structure MismaLlamada (l l' : SendLocal) : Prop where
  id : l'.id = l.id
  tsapOrigen : l'.tsapOrigen = l.tsapOrigen
  tsapDestino : l'.tsapDestino = l.tsapDestino

theorem esDatos_bucleSend (n : ℕ) (l : SendLocal) (k : KernelShm) (t : List Accion) :
    ∀ p ∈ envios (bucleSend n l ⟨k, t⟩).2.traza,
      p ∈ envios t ∨ EsDatos l (k.CXs l.id).idDestino p := by
  induction n generalizing l k t with
  | zero =>
      intro p hp
      rw [bucleSend, desbloquearAcceso_bind, pure_run, envios_append] at hp
      exact Or.inl (by simpa [envios, Accion.envio] using hp)
  | succ n ih =>
      intro p hp
      by_cases h : (k.CXs l.id).TX.length < k.numBufPkts.toNat
      · rw [bucleSend_turno h] at hp
        rcases ih (l.avanza n) (k.trasEnvio l) _ p hp with hp | hdatos
        · rw [envios_append] at hp
          rcases List.mem_append.mp hp with hp | hp
          · exact Or.inl hp
          · obtain rfl := List.mem_singleton.mp hp
            exact Or.inr ⟨rfl, rfl, rfl, rfl, rfl, rfl⟩
        · have hid : ((k.trasEnvio l).CXs (l.avanza n).id).idDestino = (k.CXs l.id).idDestino := by
            show ((k.trasEnvio l).CXs l.id).idDestino = _
            rw [trasEnvio_self]
          rw [hid] at hdatos
          exact Or.inr ⟨hdatos.ip, hdatos.tipo, hdatos.idLocal, hdatos.idDestino, hdatos.puertoOrig,
            hdatos.puertoDest⟩
      · rw [bucleSend_duerme h, envios_append] at hp
        exact Or.inl (by simpa [envios, Accion.envio] using hp)

theorem espera_bucleSend (n : ℕ) (l : SendLocal) (k : KernelShm) (t : List Accion) (i : Int)
    (l' : Local) (h : (bucleSend n l ⟨k, t⟩).1 = .duerme i l') :
    ∃ l'', l' = .send l'' ∧ MismaLlamada l l'' := by
  induction n generalizing l k t with
  | zero =>
      rw [bucleSend, desbloquearAcceso_bind, pure_run] at h
      exact absurd h (by simp)
  | succ n ih =>
      by_cases hc : (k.CXs l.id).TX.length < k.numBufPkts.toNat
      · rw [bucleSend_turno hc] at h
        obtain ⟨l'', e, hid, horigen, hdestino⟩ := ih _ _ _ h
        exact ⟨l'', e, hid, horigen, hdestino⟩
      · rw [bucleSend_duerme hc] at h
        obtain ⟨-, rfl⟩ := Paso.duerme.inj h
        exact ⟨l, rfl, rfl, rfl, rfl⟩

/-- The section sends DATOS packets of the call `l` only, and if it ends in a wait it is one of that
call. -/
structure EmiteDatos (l : SendLocal) (idDestino : Int) (r : Paso × Mundo) : Prop where
  envios : ∀ p ∈ Kernel.envios r.2.traza, EsDatos l idDestino p
  espera : ∀ i l', r.1 = .duerme i l' → ∃ l'', l' = .send l'' ∧ MismaLlamada l l''

theorem emiteDatos_bucleSend (l : SendLocal) (k : KernelShm) {t : List Accion} (ht : envios t = [])
    (n : ℕ) : EmiteDatos l (k.CXs l.id).idDestino (bucleSend n l ⟨k, t⟩) where
  envios := fun p hp => (esDatos_bucleSend n l k t p hp).resolve_left (by simp [ht])
  espera := espera_bucleSend n l k t

/-- A `t_send` that ends before its loop sends nothing, and does not wait. -/
theorem emiteDatos_retorna (l : SendLocal) (idDestino v : Int) (k : KernelShm) {t : List Accion}
    (ht : envios t = []) : EmiteDatos l idDestino (.retorna v, ⟨k, t⟩) :=
  ⟨fun p hp => absurd hp (by simp [ht]), fun i l h => absurd h (by simp)⟩

/-- The call begins with the addresses of its cell, and only if that is ESTABLISHED does it send or
wait. -/
theorem emiteDatos_tSend (e : Entorno) (id : Int) (datos : Option (List UInt8)) (longitud : UInt64)
    (k : KernelShm) :
    EmiteDatos (.nuevo id (datos.getD []) longitud (k.CXs id)) (k.CXs id).idDestino
      (tSend e id datos longitud ⟨k, []⟩) ∧
    ((k.CXs id).estadoCx = .established ∨ (envios (tSend e id datos longitud ⟨k, []⟩).2.traza = [] ∧
      ∃ v, (tSend e id datos longitud ⟨k, []⟩).1 = .retorna v)) := by
  unfold tSend
  by_cases hk : e.getKernel < 0
  · rw [if_pos hk, pure_run]
    exact ⟨emiteDatos_retorna _ _ _ _ rfl, Or.inr ⟨rfl, _, rfl⟩⟩
  rw [if_neg hk]
  cases datos with
  | none =>
      dsimp only
      rw [pure_run]
      exact ⟨emiteDatos_retorna _ _ _ _ rfl, Or.inr ⟨rfl, _, rfl⟩⟩
  | some ds =>
      dsimp only
      rw [bloquearAcceso_bind, leeCx_bind]
      by_cases hest : (k.CXs id).estadoCx = .established
      · rw [if_neg (not_not.mpr hest), leeCx_bind]
        have h := emiteDatos_bucleSend (.nuevo id ds longitud (k.CXs id)) { k with semaforo := true }
          (t := [.bloquearAcceso, .acceso id, .acceso id]) rfl (cuantosSends longitud)
        exact ⟨h, Or.inl hest⟩
      · rw [if_pos hest, desbloquearAcceso_bind, pure_run]
        exact ⟨emiteDatos_retorna _ _ _ _ rfl, Or.inr ⟨rfl, _, rfl⟩⟩

theorem emiteDatos_tSendSigue (l : SendLocal) (k : KernelShm) :
    EmiteDatos l (k.CXs l.id).idDestino (tSendSigue l ⟨k, []⟩) := by
  unfold tSendSigue
  rw [bloquearAcceso_bind, cambiaCx_bind, leeCx_bind]
  by_cases hnet : (k.CXs l.id).resultadoPrimitiva = exNet
  · rw [if_pos (by rw [KernelShm.conCx_self]; exact hnet), desbloquearAcceso_bind, pure_run]
    exact emiteDatos_retorna _ _ _ _ rfl
  · rw [if_neg (by rw [KernelShm.conCx_self]; exact hnet)]
    have h := emiteDatos_bucleSend l (({ k with semaforo := true }).conCx l.id fun c =>
      { c with primitivaDormida := false }) (t := [.bloquearAcceso, .acceso l.id, .acceso l.id]) rfl
      l.numeroSends
    rw [KernelShm.conCx_self] at h
    exact h

end Ltm.Red
