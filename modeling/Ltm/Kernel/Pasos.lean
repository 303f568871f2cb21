import Ltm.Kernel.Envio

/-! # The steps of the processes

Everything that a step of a call or of the daemon can do: `Empieza` for a call up to its first wait,
`Sigue` for a call from a wait on, `Recibe` for the daemon and a packet. A relation has one
constructor for each way its step can go, with the test that leads there, the result, the kernel
after it and the trace.
-/

namespace Ltm.Kernel
open Runs
set_option autoImplicit false
set_option maxHeartbeats 250000

/-- The call passes all its tests in the kernel `k`, and takes a cell. -/
def Llamada.toma (k : KernelShm) : Llamada → Prop
  | .connect e destino origen => ¬e.getKernel < 0 ∧
    ∃ origen', comprobarConnect e k.interfaz destino origen = some (0, origen') ∧
      k.numCXs ≠ numMaxCXs ∧ ¬buscarConnectRepetido k origen' destino > -1
  | .listen e escucha _ => ¬e.getKernel < 0 ∧
    ∃ escucha', comprobarListen e k.interfaz escucha = (0, escucha') ∧
      k.numCXs ≠ numMaxCXs ∧ ¬buscarListenRepetido k escucha' ≥ 0
  | .send _ _ _ _ => False

instance (k : KernelShm) : (c : Llamada) → Decidable (c.toma k)
  | .connect e destino origen =>
    decidable_of_iff (¬e.getKernel < 0 ∧ ∃ r ∈ comprobarConnect e k.interfaz destino origen,
      r.1 = 0 ∧ k.numCXs ≠ numMaxCXs ∧ ¬buscarConnectRepetido k r.2 destino > -1) (by
        simp [Llamada.toma])
  | .listen e escucha _ =>
    decidable_of_iff (¬e.getKernel < 0 ∧ (comprobarListen e k.interfaz escucha).1 = 0 ∧
      k.numCXs ≠ numMaxCXs ∧
        ¬buscarListenRepetido k (comprobarListen e k.interfaz escucha).2 ≥ 0) (by
        simp [Llamada.toma, Prod.ext_iff])
  | .send _ _ _ _ => inferInstanceAs (Decidable False)

/-- The call finds the kernel and its parameters are good: it goes on to its critical section. -/
def Llamada.entra (k : KernelShm) : Llamada → Prop
  | .connect e destino origen => ¬e.getKernel < 0 ∧
    ∃ origen', comprobarConnect e k.interfaz destino origen = some (0, origen')
  | .listen e escucha _ => ¬e.getKernel < 0 ∧
    ∃ escucha', comprobarListen e k.interfaz escucha = (0, escucha')
  | .send _ _ _ _ => False

/-- The steps of a call up to its first wait, from the kernel `k`. -/
inductive Empieza (k : KernelShm) : Llamada → Paso → KernelShm → List Accion → Prop
  /-- the call ends before it takes the semaphore -/
  | fuera {c : Llamada} (ht : ¬c.toma k) {r : Int} (hr : r = exKernel ∨ r = exInva ∨ r = exNoData) :
      Empieza k c (.retorna r) k []
  | busca {c : Llamada} (ht : ¬c.toma k) : Empieza k c .busca k []
  | lleno {c : Llamada} (hn : k.numCXs = numMaxCXs) :
      Empieza k c (.retorna exMaxC) k.suelto [.bloquearAcceso, .desbloquearAcceso]
  | repetido {c : Llamada} (ht : ¬c.toma k) :
      Empieza k c (.retorna exCDup) k.suelto [.bloquearAcceso, .desbloquearAcceso]
  | sinConexion (e : Entorno) (id : Int) (datos : Option (List UInt8)) (longitud : UInt64) :
      Empieza k (.send e id datos longitud) (.retorna exBadTid) k.suelto
        [.bloquearAcceso, .acceso id, .desbloquearAcceso]
  | connect (e : Entorno) (destino origen origen' : TDireccion) (hk : ¬e.getKernel < 0)
      (hpar : comprobarConnect e k.interfaz destino origen = some (0, origen'))
      (hn : k.numCXs ≠ numMaxCXs) (hrep : ¬buscarConnectRepetido k origen' destino > -1) :
      Empieza k (.connect e destino origen)
        (.duerme (buscarCeldaLibre k) (.connect (buscarCeldaLibre k)))
        (k.trasConnect e.pid destino origen') (trazaConnect k destino origen')
  | listen (e : Entorno) (escucha escucha' : TDireccion) (remota : Option TDireccion)
      (hk : ¬e.getKernel < 0) (hpar : comprobarListen e k.interfaz escucha = (0, escucha'))
      (hn : k.numCXs ≠ numMaxCXs) (hrep : ¬buscarListenRepetido k escucha' ≥ 0) :
      Empieza k (.listen e escucha remota)
        (.duerme (buscarCeldaLibre k) (.listen (buscarCeldaLibre k)))
        (k.trasListen e.pid escucha' remota) (trazaListen k)
  | send (e : Entorno) (id : Int) (datos : List UInt8) (longitud : UInt64) {paso : Paso}
      {k' : KernelShm} {w : List Accion} (hest : (k.CXs id).estadoCx = .established)
      (hfin : FinSend id k [.bloquearAcceso, .acceso id, .acceso id] (paso, ⟨k', w⟩)) :
      Empieza k (.send e id (some datos) longitud) paso k' w

inductive Sigue (k : KernelShm) : Local → Paso → KernelShm → List Accion → Prop
  | connect (i : Int) : Sigue k (.connect i)
      (.retorna (if (k.CXs i).estadoCx = .closed then (k.CXs i).resultadoPeticion else i))
      (k.trasRetorno i) [.bloquearAcceso, .acceso i, .acceso i, .desbloquearAcceso]
  | listen (i : Int) : Sigue k (.listen i)
      (.retorna (if (k.CXs i).estadoCx = .listen then (k.CXs i).resultadoPeticion else i))
      k.suelto [.bloquearAcceso, .acceso i, .acceso i, .desbloquearAcceso]
  | send (l : SendLocal) {paso : Paso} {k' : KernelShm} {w : List Accion}
      (hfin : FinSend l.id k [.bloquearAcceso, .acceso l.id, .acceso l.id] (paso, ⟨k', w⟩)) :
      Sigue k (.send l) paso k' w

inductive Recibe (k : KernelShm) (ipRemota : InAddr) (p : Tpdu) : KernelShm → List Accion → Prop
  | cc (ht : p.cabecera.tipo = tipoCC) :
      Recibe k ipRemota p (k.trasCC p.cabecera) (trazaCC k p.cabecera)
  | cr (ht : p.cabecera.tipo = tipoCR) :
      Recibe k ipRemota p (k.trasCR ipRemota p) (trazaCR k ipRemota p)
  | otro (hcc : p.cabecera.tipo ≠ tipoCC) (hcr : p.cabecera.tipo ≠ tipoCR) :
      Recibe k ipRemota p { k with semaforo := true } [.bloquearAcceso]

/-! ## The code takes these steps -/

section Pasos
variable {k : KernelShm}

theorem comprobarConnect_valor {e : Entorno} {interfaz : String} {destino origen o : TDireccion}
    {r : Int} (h : comprobarConnect e interfaz destino origen = some (r, o)) : r = -1 ∨ r = 0 := by
  unfold comprobarConnect at h
  cases hip : completarIP e interfaz origen with
  | none =>
      rw [hip] at h
      obtain ⟨rfl, -⟩ := Prod.mk.inj (Option.some.inj h)
      exact Or.inl rfl
  | some origen' =>
      rw [hip] at h
      obtain ⟨o', -, e'⟩ := Option.map_eq_some_iff.mp h
      obtain ⟨rfl, -⟩ := Prod.mk.inj e'
      split
      · exact Or.inl rfl
      · exact Or.inr rfl

theorem comprobarListen_valor (e : Entorno) (interfaz : String) (escucha : TDireccion) :
    (comprobarListen e interfaz escucha).1 = -1 ∨ (comprobarListen e interfaz escucha).1 = 0 := by
  unfold comprobarListen
  cases completarIP e interfaz escucha with
  | none => exact Or.inl rfl
  | some escucha' =>
      simp only
      split
      · exact Or.inl rfl
      · exact Or.inr rfl

theorem empieza_connect (e : Entorno) (destino origen : TDireccion) :
    Empieza k (.connect e destino origen) (tConnect e destino origen ⟨k, []⟩).1.2
      (tConnect e destino origen ⟨k, []⟩).2.kernel (tConnect e destino origen ⟨k, []⟩).2.traza := by
  unfold tConnect
  by_cases hk : e.getKernel < 0
  · have ht : ¬(Llamada.connect e destino origen).toma k := fun ht => ht.1 hk
    rw [if_pos hk]
    exact .fuera ht (Or.inl rfl)
  rw [if_neg hk, leeKernel_bind]
  cases hpar : comprobarConnect e k.interfaz destino origen with
  | none =>
      have ht : ¬(Llamada.connect e destino origen).toma k := by
        rintro ⟨-, o, ho, -⟩
        simp [hpar] at ho
      exact .busca ht
  | some par =>
      obtain ⟨r, origen'⟩ := par
      dsimp only
      by_cases hr : r = -1
      · have ht : ¬(Llamada.connect e destino origen).toma k := by
          rintro ⟨-, o, ho, -⟩
          obtain ⟨rfl, -⟩ := Prod.mk.inj (Option.some.inj (hpar.symm.trans ho))
          exact absurd hr (by decide)
        rw [if_pos hr]
        exact .fuera ht (Or.inr (Or.inl rfl))
      · obtain rfl := (comprobarConnect_valor hpar).resolve_left hr
        rw [if_neg hr, bind_run, criticaConnect_run]
        by_cases hn : k.numCXs = numMaxCXs
        · rw [if_pos hn]
          exact .lleno hn
        · rw [if_neg hn]
          by_cases hrep : buscarConnectRepetido k origen' destino > -1
          · have ht : ¬(Llamada.connect e destino origen).toma k := by
              rintro ⟨-, o, ho, -, ho'⟩
              obtain ⟨-, rfl⟩ := Prod.mk.inj (Option.some.inj (hpar.symm.trans ho))
              exact ho' hrep
            rw [if_pos hrep]
            exact .repetido ht
          · rw [if_neg hrep]
            exact .connect e destino origen origen' hk hpar hn hrep

theorem empieza_listen (e : Entorno) (escucha : TDireccion) (remota : Option TDireccion) :
    Empieza k (.listen e escucha remota) (tListen e escucha remota ⟨k, []⟩).1.2
      (tListen e escucha remota ⟨k, []⟩).2.kernel (tListen e escucha remota ⟨k, []⟩).2.traza := by
  unfold tListen
  by_cases hk : e.getKernel < 0
  · have ht : ¬(Llamada.listen e escucha remota).toma k := fun ht => ht.1 hk
    rw [if_pos hk]
    exact .fuera ht (Or.inl rfl)
  rw [if_neg hk, leeKernel_bind]
  have hval := comprobarListen_valor e k.interfaz escucha
  cases hpar : comprobarListen e k.interfaz escucha with
  | mk r escucha' =>
      rw [hpar] at hval
      dsimp only at hval ⊢
      by_cases hr : r = -1
      · have ht : ¬(Llamada.listen e escucha remota).toma k := by
          rintro ⟨-, o, ho, -⟩
          obtain ⟨rfl, -⟩ := Prod.mk.inj (hpar.symm.trans ho)
          exact absurd hr (by decide)
        rw [if_pos hr]
        exact .fuera ht (Or.inr (Or.inl rfl))
      · obtain rfl := hval.resolve_left hr
        rw [if_neg hr, bind_run, criticaListen_run]
        by_cases hn : k.numCXs = numMaxCXs
        · rw [if_pos hn]
          exact .lleno hn
        · rw [if_neg hn]
          by_cases hrep : buscarListenRepetido k escucha' ≥ 0
          · have ht : ¬(Llamada.listen e escucha remota).toma k := by
              rintro ⟨-, o, ho, -, ho'⟩
              obtain ⟨-, rfl⟩ := Prod.mk.inj (hpar.symm.trans ho)
              exact ho' hrep
            rw [if_pos hrep]
            exact .repetido ht
          · rw [if_neg hrep]
            exact .listen e escucha escucha' remota hk hpar hn hrep

theorem empieza_send (e : Entorno) (id : Int) (datos : Option (List UInt8)) (longitud : UInt64) :
    Empieza k (.send e id datos longitud) (tSend e id datos longitud ⟨k, []⟩).1
      (tSend e id datos longitud ⟨k, []⟩).2.kernel (tSend e id datos longitud ⟨k, []⟩).2.traza := by
  unfold tSend
  by_cases hk : e.getKernel < 0
  · rw [if_pos hk]
    exact .fuera (by simp [Llamada.toma]) (Or.inl rfl)
  rw [if_neg hk]
  cases datos with
  | none => exact .fuera (by simp [Llamada.toma]) (Or.inr (Or.inr rfl))
  | some datos =>
      dsimp only
      rw [bloquearAcceso_bind, leeCx_bind]
      by_cases hest : (k.CXs id).estadoCx = .established
      · rw [if_neg (not_not.mpr hest), leeCx_bind]
        exact .send e id datos longitud hest
          ((bucleSend_fin _ (.nuevo id datos longitud (k.CXs id)) _ _).desde
            (efecto_semaforo id k true))
      · rw [if_pos hest]
        exact .sinConexion e id (some datos) longitud

theorem empieza_paso (c : Llamada) : Empieza k c (c.empieza ⟨k, []⟩).1
    (c.empieza ⟨k, []⟩).2.kernel (c.empieza ⟨k, []⟩).2.traza := by
  cases c with
  | connect e destino origen => exact empieza_connect e destino origen
  | listen e escucha remota => exact empieza_listen e escucha remota
  | send e id datos longitud => exact empieza_send e id datos longitud

/-- A call that leaves no trace leaves the kernel. -/
theorem Empieza.kernel_of_nil {c : Llamada} {paso : Paso} {k' : KernelShm}
    (he : Empieza k c paso k' []) : k' = k := by
  generalize hw : ([] : List Accion) = w at he
  cases he with
  | fuera | busca => rfl
  | lleno | repetido | sinConexion | connect | listen => exact absurd hw (List.cons_ne_nil _ _).symm
  | send _ _ _ _ _ hfin =>
      obtain ⟨w', e, -⟩ := hfin.traza
      rw [show w = _ from e] at hw
      exact absurd hw (List.cons_ne_nil _ _).symm

/-- A call that opens a connection and returns without a wait has failed, and has at most taken and
released the semaphore. -/
theorem Empieza.quieta {c : Llamada} {v : Int} {k' : KernelShm} {w : List Accion}
    (h : Empieza k c (.retorna v) k' w) (hno : ∀ e id datos longitud, c ≠ .send e id datos longitud) :
    v < 0 ∧ k'.suelto = k.suelto ∧ (w = [] ∨ w = [.bloquearAcceso, .desbloquearAcceso]) := by
  cases h with
  | fuera _ hr =>
      refine ⟨?_, rfl, Or.inl rfl⟩
      rcases hr with rfl | rfl | rfl <;> decide
  | lleno => exact ⟨by decide, rfl, Or.inr rfl⟩
  | repetido => exact ⟨by decide, rfl, Or.inr rfl⟩
  | sinConexion e id datos longitud => exact absurd rfl (hno e id datos longitud)
  | send e id datos longitud => exact absurd rfl (hno e id (some datos) longitud)

/-- A call that takes no cell leaves the kernel alone but for the semaphore, or is a `t_send`. -/
theorem Empieza.sinToma {c : Llamada} {paso : Paso} {k' : KernelShm} {w : List Accion}
    (h : Empieza k c paso k' w) (ht : ¬c.toma k) :
    (k' = k ∨ k' = k.suelto) ∨ ∃ id, (k.CXs id).estadoCx = .established ∧ EfectoSend id k k' := by
  cases h with
  | fuera => exact Or.inl (Or.inl rfl)
  | busca => exact Or.inl (Or.inl rfl)
  | lleno => exact Or.inl (Or.inr rfl)
  | repetido => exact Or.inl (Or.inr rfl)
  | sinConexion => exact Or.inl (Or.inr rfl)
  | connect e destino origen origen' hk hpar hn hrep =>
      exact absurd ⟨hk, origen', hpar, hn, hrep⟩ ht
  | listen e escucha escucha' remota hk hpar hn hrep =>
      exact absurd ⟨hk, escucha', hpar, hn, hrep⟩ ht
  | send e id datos longitud hest hfin => exact Or.inr ⟨id, hest, hfin.efecto⟩

/-- A `t_connect` whose parameters are good is its critical section. -/
theorem empieza_criticaConnect {e : Entorno} {destino origen origen' : TDireccion}
    (hk : ¬e.getKernel < 0)
    (hpar : comprobarConnect e k.interfaz destino origen = some (0, origen')) :
    (Llamada.connect e destino origen).empieza ⟨k, []⟩ =
      criticaConnect e.pid destino origen' ⟨k, []⟩ := by
  show (tConnect e destino origen >>= fun r => pure r.2) ⟨k, []⟩ = _
  rw [bind_run, tConnect, if_neg hk, leeKernel_bind, hpar]
  rfl

theorem empieza_criticaListen {e : Entorno} {escucha escucha' : TDireccion}
    {remota : Option TDireccion} (hk : ¬e.getKernel < 0)
    (hpar : comprobarListen e k.interfaz escucha = (0, escucha')) :
    (Llamada.listen e escucha remota).empieza ⟨k, []⟩ =
      criticaListen e.pid escucha' remota ⟨k, []⟩ := by
  show (tListen e escucha remota >>= fun r => pure r.2) ⟨k, []⟩ = _
  rw [bind_run, tListen, if_neg hk, leeKernel_bind, hpar]
  rfl

/-- `EXMAXC` is what the test of `num_CXs` says. -/
theorem retorna_exMaxC_iff {c : Llamada} (h : c.entra k) :
    (c.empieza ⟨k, []⟩).1 = .retorna exMaxC ↔ k.numCXs = numMaxCXs := by
  cases c with
  | send => exact absurd h id
  | connect e destino origen =>
      obtain ⟨hk, origen', hpar⟩ := h
      rw [empieza_criticaConnect hk hpar, criticaConnect_run]
      by_cases hn : k.numCXs = numMaxCXs
      · simp [hn]
      · rw [if_neg hn]
        refine iff_of_false ?_ hn
        split <;> simp
  | listen e escucha remota =>
      obtain ⟨hk, escucha', hpar⟩ := h
      rw [empieza_criticaListen hk hpar, criticaListen_run]
      by_cases hn : k.numCXs = numMaxCXs
      · simp [hn]
      · rw [if_neg hn]
        refine iff_of_false ?_ hn
        split <;> simp

theorem tSendSigue_fin (l : SendLocal) : FinSend l.id k [.bloquearAcceso, .acceso l.id, .acceso l.id]
    (tSendSigue l ⟨k, []⟩) := by
  have hk : EfectoSend l.id k
      (({ k with semaforo := true }).conCx l.id fun c => { c with primitivaDormida := false }) :=
    (efecto_semaforo l.id k true).trans (efecto_conCx fun _ => ⟨_, _, rfl⟩)
  unfold tSendSigue
  rw [bloquearAcceso_bind, cambiaCx_bind, leeCx_bind]
  split
  · rw [desbloquearAcceso_bind, pure_run]
    exact ⟨hk.trans (efecto_semaforo l.id _ false), rfl, ⟨_, rfl, rfl, by simp [SoloCelda, Accion.celda]⟩,
      Or.inl ⟨_, rfl⟩⟩
  · exact (bucleSend_fin _ l _ _).desde hk

theorem sigue_paso (l : Local) : Sigue k l (l.sigue ⟨k, []⟩).1 (l.sigue ⟨k, []⟩).2.kernel
    (l.sigue ⟨k, []⟩).2.traza := by
  cases l with
  | connect i =>
      show Sigue k (.connect i) (tConnectSigue i ⟨k, []⟩).1 (tConnectSigue i ⟨k, []⟩).2.kernel
        (tConnectSigue i ⟨k, []⟩).2.traza
      rw [tConnectSigue_run]
      exact .connect i
  | listen i =>
      show Sigue k (.listen i) (tListenSigue i ⟨k, []⟩).1 (tListenSigue i ⟨k, []⟩).2.kernel
        (tListenSigue i ⟨k, []⟩).2.traza
      rw [tListenSigue_run]
      exact .listen i
  | send l => exact .send l (tSendSigue_fin l)

theorem recibe_paso (ipRemota : InAddr) (p : Tpdu) :
    Recibe k ipRemota p (paquete ipRemota p ⟨k, []⟩).2.kernel (paquete ipRemota p ⟨k, []⟩).2.traza := by
  rw [paquete_run]
  by_cases hcc : p.cabecera.tipo = tipoCC
  · rw [if_pos hcc]
    exact .cc hcc
  · rw [if_neg hcc]
    by_cases hcr : p.cabecera.tipo = tipoCR
    · rw [if_pos hcr]
      exact .cr hcr
    · rw [if_neg hcr]
      exact .otro hcc hcr

/-! ## The cell of a packet -/

theorem soloCelda_trazaCC (h : CabTcp) : SoloCelda h.idDestino (trazaCC k h) := by
  unfold trazaCC
  dsimp only
  by_cases hneg : h.conexionAceptada < 0
  · rw [if_pos hneg]
    simp [SoloCelda, Accion.celda]
  · rw [if_neg hneg]
    split <;> simp [SoloCelda, Accion.celda]

theorem soloCelda_trazaCR (ipRemota : InAddr) (p : Tpdu) :
    SoloCelda (asignConexionCR p k) (trazaCR k ipRemota p) := by
  simp [trazaCR, SoloCelda, Accion.celda]

end Pasos

end Ltm.Kernel
