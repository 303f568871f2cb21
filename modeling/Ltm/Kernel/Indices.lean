import Ltm.Kernel.Disciplina

/-! # Indices from outside

The `id_destino` of a received CC and the `id` of a `t_send` go unchecked into `KERNEL->CXs[…]`. Every
access stays in the table, and an identifier out of range is turned away, exactly when there is
nothing to turn away (`accesos_iff`).
-/

namespace Ltm.Kernel
set_option autoImplicit false
set_option maxHeartbeats 250000

/-- The daemon handles the packet safely: it accesses the table only, and drops a packet whose
`id_destino` is out of range. -/
def PaqueteSeguro (k : KernelShm) (ipRemota : InAddr) (p : Tpdu) : Prop :=
  AccesosEnTabla (paquete ipRemota p ⟨k, []⟩).2.traza ∧
    (¬EnTabla p.cabecera.idDestino → (paquete ipRemota p ⟨k, []⟩).2.kernel = k.suelto)

/-- `t_send` is safe, from the kernel `k` and then from the kernels `ks` after each wait: it accesses
the table only, and returns `EXBADTID` on an `id` out of range. -/
def SendSeguro (k : KernelShm) (ks : List KernelShm) (e : Entorno) (id : Int)
    (datos : Option (List UInt8)) (longitud : UInt64) : Prop :=
  (∀ w ∈ (Llamada.send e id datos longitud).trazas (k :: ks), AccesosEnTabla w) ∧
    (¬EnTabla id → (tSend e id datos longitud ⟨k, []⟩).1 = .retorna exBadTid ∧
      (tSend e id datos longitud ⟨k, []⟩).2.kernel = k.suelto)

variable {k k' : KernelShm} {w : List Accion} {id : Int}

/-! ## The daemon -/

theorem acceso_mem_trazaCC (h : CabTcp) : .acceso h.idDestino ∈ trazaCC k h := by
  simp [trazaCC]

theorem paqueteSeguro_iff {ipRemota : InAddr} {p : Tpdu} (ht : p.cabecera.tipo = tipoCC) :
    PaqueteSeguro k ipRemota p ↔ EnTabla p.cabecera.idDestino := by
  have htraza : (paquete ipRemota p ⟨k, []⟩).2.traza = trazaCC k p.cabecera := by
    rw [paquete_run, if_pos ht]
    rfl
  unfold PaqueteSeguro
  rw [htraza]
  constructor
  · intro h
    exact h.1 _ (acceso_mem_trazaCC p.cabecera) _ rfl
  · intro hid
    exact ⟨(soloCelda_trazaCC p.cabecera).accesos hid, fun hno => absurd hid hno⟩

/-! ## `t_send` -/

theorem FinSend.soloCelda {r : Paso × Mundo}
    (h : FinSend id k [.bloquearAcceso, .acceso id, .acceso id] r) : SoloCelda id r.2.traza := by
  obtain ⟨w, e, -, hw⟩ := h.traza
  rw [e]
  refine soloCelda_append.mpr ⟨?_, hw⟩
  simp [SoloCelda, Accion.celda]

theorem soloCelda_empieza {e : Entorno} {datos : Option (List UInt8)} {longitud : UInt64} {paso : Paso}
    (h : Empieza k (.send e id datos longitud) paso k' w) : SoloCelda id w ∧
      ((∃ v, paso = .retorna v) ∨ paso = .busca ∨ ∃ l, paso = .duerme id (.send l) ∧ l.id = id) := by
  cases h with
  | fuera => exact ⟨soloCelda_nil id, Or.inl ⟨_, rfl⟩⟩
  | busca => exact ⟨soloCelda_nil id, Or.inr (Or.inl rfl)⟩
  | lleno => exact ⟨by simp [SoloCelda, Accion.celda], Or.inl ⟨_, rfl⟩⟩
  | repetido => exact ⟨by simp [SoloCelda, Accion.celda], Or.inl ⟨_, rfl⟩⟩
  | sinConexion => exact ⟨by simp [SoloCelda, Accion.celda], Or.inl ⟨_, rfl⟩⟩
  | send _ _ datos _ hest hfin =>
      refine ⟨hfin.soloCelda, ?_⟩
      rcases hfin.paso with hv | hl
      · exact Or.inl hv
      · exact Or.inr (Or.inr hl)

/-- Whatever follows a wait of a `t_send` on the cell `id` is about that cell. -/
theorem soloCelda_trazas (ks : List KernelShm) (l : SendLocal) (i : Int) :
    ∀ w ∈ (Paso.duerme i (.send l)).trazas ks, SoloCelda l.id w := by
  intro w hw
  induction ks generalizing l i with
  | nil => simp [Paso.trazas] at hw
  | cons k ks ih =>
      have hfin := tSendSigue_fin (k := k) l
      rcases List.mem_cons.mp hw with rfl | hw
      · exact hfin.soloCelda
      · rcases hfin.paso with ⟨v, hv⟩ | ⟨l', hl, hid⟩
        · have hnil : (Paso.retorna v).trazas ks = [] := by cases ks <;> rfl
          rw [show ((Local.send l).sigue ⟨k, []⟩).1 = .retorna v from hv, hnil] at hw
          exact absurd hw (by simp)
        · rw [show ((Local.send l).sigue ⟨k, []⟩).1 = .duerme l.id (.send l') from hl] at hw
          rw [← hid]
          exact ih l' l.id hw

theorem soloCelda_send (ks : List KernelShm) (e : Entorno) (datos : Option (List UInt8))
    (longitud : UInt64) : ∀ w ∈ (Llamada.send e id datos longitud).trazas (k :: ks), SoloCelda id w := by
  intro w hw
  obtain ⟨hsolo, hpaso⟩ := soloCelda_empieza (empieza_paso (k := k) (.send e id datos longitud))
  rcases List.mem_cons.mp hw with rfl | hw
  · exact hsolo
  · rcases hpaso with ⟨v, hv⟩ | hb | ⟨l, hl, hid⟩
    · have hnil : (Paso.retorna v).trazas ks = [] := by cases ks <;> rfl
      rw [hv, hnil] at hw
      exact absurd hw (by simp)
    · have hnil : Paso.busca.trazas ks = [] := by cases ks <;> rfl
      rw [hb, hnil] at hw
      exact absurd hw (by simp)
    · rw [hl] at hw
      rw [← hid]
      exact soloCelda_trazas ks l id w hw

/-- A `t_send` that returns `EXBADTID` has read the cell `id`. -/
theorem acceso_mem_empieza {e : Entorno} {datos : Option (List UInt8)} {longitud : UInt64}
    {paso : Paso} (h : Empieza k (.send e id datos longitud) paso k' w)
    (hpaso : paso = .retorna exBadTid) : .acceso id ∈ w := by
  cases h with
  | fuera _ hr =>
      obtain rfl := Paso.retorna.inj hpaso
      exact absurd hr (by decide)
  | busca => exact absurd hpaso (by simp)
  | lleno => exact absurd (Paso.retorna.inj hpaso) (by decide)
  | repetido => exact absurd (Paso.retorna.inj hpaso) (by decide)
  | sinConexion => simp
  | send _ _ datos _ hest hfin =>
      obtain ⟨w', e', -⟩ := hfin.traza
      dsimp only at e'
      rw [e']
      simp

theorem sendSeguro_iff (ks : List KernelShm) (e : Entorno) (datos : Option (List UInt8))
    (longitud : UInt64) : SendSeguro k ks e id datos longitud ↔ EnTabla id := by
  constructor
  · intro h
    by_contra hno
    have hmem := acceso_mem_empieza (empieza_send e id datos longitud) (h.2 hno).1
    exact hno (h.1 _ List.mem_cons_self _ hmem _ rfl)
  · intro hid
    exact ⟨fun w hw => (soloCelda_send ks e datos longitud w hw).accesos hid,
      fun hno => absurd hid hno⟩

/-- Identifiers from the network and from the applications are handled safely exactly when they are
indices of the table: nothing in the code turns the others away. -/
theorem accesos_iff (ks : List KernelShm) (ipRemota : InAddr) {p : Tpdu}
    (ht : p.cabecera.tipo = tipoCC) (e : Entorno) (datos : Option (List UInt8)) (longitud : UInt64) :
    (PaqueteSeguro k ipRemota p ∧ SendSeguro k ks e id datos longitud) ↔
      EnTabla p.cabecera.idDestino ∧ EnTabla id :=
  and_congr (paqueteSeguro_iff ht) (sendSeguro_iff ks e datos longitud)

theorem accesos_iff_ultima :
    (PaqueteSeguro kernelPorDefecto 0x0a000002 (ccPara 7 exNoTsap) ∧
      SendSeguro kernelPorDefecto [kernelPorDefecto] entornoVacio 0 (some [1]) 1) ↔
      EnTabla 7 ∧ EnTabla 0 :=
  accesos_iff _ _ rfl _ _ _

/-- A CC for the cell after the last one writes it, and a `t_send` on the cell before the first one
reads it. -/
theorem accesos_fuera :
    ¬PaqueteSeguro kernelPorDefecto 0x0a000002 (ccPara 8 exNoTsap) ∧
      ¬SendSeguro kernelPorDefecto [] entornoVacio (-1) (some [1]) 1 := by
  have hcc : ¬AccesosEnTabla (paquete 0x0a000002 (ccPara 8 exNoTsap) ⟨kernelPorDefecto, []⟩).2.traza := by
    decide
  have hsend : ¬AccesosEnTabla (tSend entornoVacio (-1) (some [1]) 1 ⟨kernelPorDefecto, []⟩).2.traza := by
    decide
  exact ⟨fun h => hcc h.1, fun h => hsend (h.1 _ List.mem_cons_self)⟩

end Ltm.Kernel
