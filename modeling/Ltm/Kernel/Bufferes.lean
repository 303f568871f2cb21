import Ltm.Kernel.Tabla

/-! # Buffers on their way

`buscar_buffer_libre` takes the first free buffer, or makes a new one when there is none. `Toma` says
what has become of the free buffers once several have been taken, and `Envia` what a section of `t_send`
has done with those it took: they stand at the end of `TX`, numbered one after the other.
-/

namespace Ltm.Kernel
set_option autoImplicit false
set_option maxHeartbeats 250000

def KernelShm.nodosLibres (k : KernelShm) : List ℕ := k.buffersLibres.map BufPkt.nodo

/-- From `k` to `k'` the buffers `bs` have been taken, in this order, the free ones first. -/
structure Toma (k k' : KernelShm) (bs : List BufPkt) : Prop where
  creados : k.nodos ≤ k'.nodos
  reparto : bs.map BufPkt.nodo ++ k'.nodosLibres =
    k.nodosLibres ++ List.range' k.nodos (k'.nodos - k.nodos)
  justos : k'.nodos - k.nodos = bs.length - k.buffersLibres.length

variable {k k' k'' : KernelShm} {b : BufPkt} {bs bs' : List BufPkt}

theorem toma_nil (hl : k'.buffersLibres = k.buffersLibres) (hn : k'.nodos = k.nodos) :
    Toma k k' [] :=
  ⟨hn.ge, by simp [KernelShm.nodosLibres, hl, hn], by simp [hn]⟩

theorem toma_uno (hl : k'.buffersLibres = k.sinBuffer.buffersLibres)
    (hn : k'.nodos = k.sinBuffer.nodos) (hb : b.nodo = (proximoBuffer k).nodo) : Toma k k' [b] := by
  cases hk : k.buffersLibres with
  | nil =>
      have hl' : k'.buffersLibres = [] := by simp [hl, KernelShm.sinBuffer, buscarBufferLibre, hk]
      have hn' : k'.nodos = k.nodos + 1 := by simp [hn, KernelShm.sinBuffer, buscarBufferLibre, hk]
      have hb' : b.nodo = k.nodos := by simp [hb, proximoBuffer, hk]
      exact ⟨by omega, by simp [KernelShm.nodosLibres, hk, hl', hn', hb'], by simp [hk, hn']⟩
  | cons c r =>
      have hl' : k'.buffersLibres = r := by simp [hl, KernelShm.sinBuffer, buscarBufferLibre, hk]
      have hn' : k'.nodos = k.nodos := by simp [hn, KernelShm.sinBuffer, buscarBufferLibre, hk]
      have hb' : b.nodo = c.nodo := by simp [hb, proximoBuffer, hk]
      exact ⟨by omega, by simp [KernelShm.nodosLibres, hk, hl', hn', hb'], by simp [hk, hn']⟩

theorem Toma.length (h : Toma k k' bs) :
    bs.length + k'.buffersLibres.length = k.buffersLibres.length + (k'.nodos - k.nodos) := by
  have := congrArg List.length h.reparto
  simpa [KernelShm.nodosLibres] using this

/-- Nothing has been taken. -/
theorem Toma.quieta (h : Toma k k' []) : k'.nodosLibres = k.nodosLibres ∧ k'.nodos = k.nodos := by
  have hn : k'.nodos - k.nodos = 0 := by simpa using h.justos
  have hc := h.creados
  have hr := h.reparto
  rw [hn] at hr
  exact ⟨by simpa using hr, by omega⟩

theorem Toma.trans (h : Toma k k' bs) (h' : Toma k' k'' bs') : Toma k k'' (bs ++ bs') := by
  have hlen := h.length
  obtain ⟨hc, hr, hj⟩ := h
  obtain ⟨hc', hr', hj'⟩ := h'
  refine ⟨hc.trans hc', ?_, ?_⟩
  · have hrange : List.range' k.nodos (k'.nodos - k.nodos) ++
        List.range' k'.nodos (k''.nodos - k'.nodos) = List.range' k.nodos (k''.nodos - k.nodos) := by
      have e : k.nodos + (k'.nodos - k.nodos) = k'.nodos := by omega
      have e' : k'.nodos - k.nodos + (k''.nodos - k'.nodos) = k''.nodos - k.nodos := by omega
      have happ := List.range'_append_1 (s := k.nodos) (m := k'.nodos - k.nodos)
        (n := k''.nodos - k'.nodos)
      rwa [e, e'] at happ
    rw [List.map_append, List.append_assoc, hr', ← List.append_assoc, hr, List.append_assoc, hrange]
  · rw [List.length_append]
    omega

theorem sublist_trasCC (h : CabTcp) (i : Int) : ((k.trasCC h).CXs i).TX.Sublist (k.CXs i).TX := by
  by_cases e : i = h.idDestino
  · rw [e, trasCC_self, Conexion.recibeCC]
    split
    · exact List.Sublist.refl _
    · exact List.dropLast_sublist _
  · rw [trasCC_of_ne e]

theorem TX_trasCR (ipRemota : InAddr) (p : Tpdu) (i : Int) :
    ((k.trasCR ipRemota p).CXs i).TX = (k.CXs i).TX := by
  by_cases e : i = asignConexionCR p k
  · rw [e, trasCR_self, Conexion.recibeCR]
    split <;> rfl
  · rw [trasCR_of_ne e]

/-! ## A section of `t_send` -/

/-- A section of `t_send` with the variables `l`, which had `n` packets to send, has sent `bs`. -/
structure Envia (l : SendLocal) (n : ℕ) (k k' : KernelShm) (bs : List BufPkt) : Prop where
  toma : Toma k k' bs
  otras : ∀ j, j ≠ l.id → k'.CXs j = k.CXs j
  celda : ∃ dormida, k'.CXs l.id =
    { k.CXs l.id with TX := (k.CXs l.id).TX ++ bs, primitivaDormida := dormida }
  cuantos : bs.length = min n (k.numBufPkts.toNat - (k.CXs l.id).TX.length)
  datos : ∀ (j : ℕ) (b : BufPkt), bs[j]? = some b →
    b.pkt.cabecera.tipo = tipoDatos ∧ b.numSecuencia = l.numeroSecuencia + j
  numBufPkts : k'.numBufPkts = k.numBufPkts
  CXsLibres : k'.CXsLibres = k.CXsLibres

/-- The kernel after a turn of the loop of `t_send` that sends. -/
def KernelShm.trasEnvio (k : KernelShm) (l : SendLocal) : KernelShm :=
  k.sinBuffer.conCx l.id fun c =>
    { c with TX := c.TX ++ [bufferDatos (proximoBuffer k) l (k.CXs l.id).idDestino] }

theorem trasEnvio_self (k : KernelShm) (l : SendLocal) : (k.trasEnvio l).CXs l.id =
    { k.CXs l.id with
      TX := (k.CXs l.id).TX ++ [bufferDatos (proximoBuffer k) l (k.CXs l.id).idDestino] } :=
  KernelShm.conCx_self _ _ _

theorem bucleSend_turno {n : ℕ} {l : SendLocal} {t : List Accion}
    (h : (k.CXs l.id).TX.length < k.numBufPkts.toNat) :
    bucleSend (n + 1) l ⟨k, t⟩ = bucleSend n (l.avanza n) ⟨k.trasEnvio l,
      t ++ [.acceso l.id, .acceso l.id, .acceso l.id, .enviarTpdu l.tsapDestino.ip
        (bufferDatos (proximoBuffer k) l (k.CXs l.id).idDestino).pkt]⟩ := by
  rw [bucleSend, leeCx_bind, leeKernel_bind, if_pos h, tomaBuffer_bind, leeCx_bind, spliceTX_bind,
    enviarTpdu_bind]
  simp only [List.append_assoc, List.cons_append, List.nil_append]
  rfl

/-- The step leaves all buffers where they are, and of the cell `id` it may set `primitiva_dormida`. -/
structure SinBufferes (id : Int) (k k' : KernelShm) : Prop where
  libres : k'.buffersLibres = k.buffersLibres
  nodos : k'.nodos = k.nodos
  otras : ∀ j, j ≠ id → k'.CXs j = k.CXs j
  celda : ∃ dormida, k'.CXs id = { k.CXs id with primitivaDormida := dormida }
  numBufPkts : k'.numBufPkts = k.numBufPkts
  CXsLibres : k'.CXsLibres = k.CXsLibres

theorem sinBufferes_semaforo (id : Int) (k : KernelShm) (s : Bool) :
    SinBufferes id k { k with semaforo := s } :=
  ⟨rfl, rfl, fun _ _ => rfl, ⟨_, rfl⟩, rfl, rfl⟩

theorem sinBufferes_dormida (id : Int) (k : KernelShm) (s dormida : Bool) : SinBufferes id k
    (({ k with semaforo := s }).conCx id fun c => { c with primitivaDormida := dormida }) :=
  ⟨rfl, rfl, fun _ hj => KernelShm.conCx_of_ne _ _ hj, ⟨dormida, KernelShm.conCx_self _ _ _⟩, rfl, rfl⟩

theorem envia_nil {l : SendLocal} {n : ℕ} (h : SinBufferes l.id k k')
    (hn : min n (k.numBufPkts.toNat - (k.CXs l.id).TX.length) = 0) : Envia l n k k' [] := by
  obtain ⟨d, hd⟩ := h.celda
  refine ⟨toma_nil h.libres h.nodos, h.otras, ⟨d, ?_⟩, by rw [hn]; rfl, fun j b hj => by simp at hj,
    h.numBufPkts, h.CXsLibres⟩
  rw [hd, List.append_nil]

theorem Envia.desde {l : SendLocal} {n : ℕ} (h : Envia l n k' k'' bs) (hk : SinBufferes l.id k k') :
    Envia l n k k'' bs := by
  obtain ⟨d, hd⟩ := hk.celda
  obtain ⟨d', hd'⟩ := h.celda
  have hTX : (k'.CXs l.id).TX = (k.CXs l.id).TX := by rw [hd]
  refine ⟨(toma_nil hk.libres hk.nodos).trans h.toma,
    fun j hj => (h.otras j hj).trans (hk.otras j hj), ⟨d', ?_⟩, ?_, h.datos,
    h.numBufPkts.trans hk.numBufPkts, h.CXsLibres.trans hk.CXsLibres⟩
  · rw [hd', hd]
  · rw [h.cuantos, hTX, hk.numBufPkts]

theorem Envia.turno {l : SendLocal} {n : ℕ} (h : (k.CXs l.id).TX.length < k.numBufPkts.toNat)
    (h' : Envia (l.avanza n) n (k.trasEnvio l) k' bs) :
    Envia l (n + 1) k k' (bufferDatos (proximoBuffer k) l (k.CXs l.id).idDestino :: bs) := by
  obtain ⟨htoma, hotras, ⟨d, hcelda⟩, hcuantos, hdatos, hnum, hcl⟩ := h'
  have hid : (l.avanza n).id = l.id := rfl
  rw [hid] at hotras hcelda hcuantos
  have hself := trasEnvio_self k l
  have huno : Toma k (k.trasEnvio l) [bufferDatos (proximoBuffer k) l (k.CXs l.id).idDestino] :=
    toma_uno rfl rfl rfl
  refine ⟨huno.trans htoma, fun j hj => ?_, ⟨d, ?_⟩, ?_, fun j b hj => ?_, hnum, hcl⟩
  · exact (hotras j hj).trans (KernelShm.conCx_of_ne _ _ hj)
  · rw [hcelda, hself, List.append_assoc]
    rfl
  · rw [hself] at hcuantos
    have hnum' : (k.trasEnvio l).numBufPkts = k.numBufPkts := rfl
    rw [hnum', List.length_append, List.length_singleton] at hcuantos
    rw [List.length_cons, hcuantos]
    omega
  · cases j with
    | zero =>
        obtain rfl := Option.some.inj hj
        exact ⟨rfl, (Int.add_zero _).symm⟩
    | succ j =>
        obtain ⟨htipo, hsec⟩ := hdatos j b hj
        refine ⟨htipo, hsec.trans ?_⟩
        show l.numeroSecuencia + 1 + (j : Int) = l.numeroSecuencia + ((j + 1 : ℕ) : Int)
        omega

theorem bucleSend_envios (n : ℕ) (l : SendLocal) (k : KernelShm) (t : List Accion) :
    ∃ bs, Envia l n k (bucleSend n l ⟨k, t⟩).2.kernel bs := by
  induction n generalizing l k t with
  | zero =>
      refine ⟨[], ?_⟩
      rw [bucleSend, desbloquearAcceso_bind, pure_run]
      exact envia_nil (sinBufferes_semaforo l.id k false) (Nat.zero_min _)
  | succ n ih =>
      by_cases h : (k.CXs l.id).TX.length < k.numBufPkts.toNat
      · rw [bucleSend_turno h]
        obtain ⟨bs, hbs⟩ := ih (l.avanza n) (k.trasEnvio l) _
        exact ⟨_, hbs.turno h⟩
      · refine ⟨[], ?_⟩
        rw [bucleSend_duerme h]
        exact envia_nil (sinBufferes_dormida l.id k false true) (by omega)

theorem tSend_envia {e : Entorno} {id : Int} {datos : List UInt8} {longitud : UInt64}
    (hk : ¬e.getKernel < 0) (hest : (k.CXs id).estadoCx = .established) :
    ∃ bs, Envia (.nuevo id datos longitud (k.CXs id)) (cuantosSends longitud) k
      (tSend e id (some datos) longitud ⟨k, []⟩).2.kernel bs := by
  unfold tSend
  rw [if_neg hk]
  dsimp only
  rw [bloquearAcceso_bind, leeCx_bind, if_neg (not_not.mpr hest), leeCx_bind]
  obtain ⟨bs, hbs⟩ := bucleSend_envios (cuantosSends longitud) (.nuevo id datos longitud (k.CXs id))
    { k with semaforo := true } _
  exact ⟨bs, hbs.desde (sinBufferes_semaforo id k true)⟩

/-- How many packets a `t_send` that goes on has to send. -/
def SendLocal.pendientes (l : SendLocal) (c : Conexion) : ℕ :=
  if c.resultadoPrimitiva = exNet then 0 else l.numeroSends

theorem tSendSigue_envia (l : SendLocal) :
    ∃ bs, Envia l (l.pendientes (k.CXs l.id)) k (tSendSigue l ⟨k, []⟩).2.kernel bs := by
  unfold tSendSigue SendLocal.pendientes
  rw [bloquearAcceso_bind, cambiaCx_bind, leeCx_bind, KernelShm.conCx_self]
  by_cases hnet : (k.CXs l.id).resultadoPrimitiva = exNet
  · rw [if_pos hnet, if_pos hnet, desbloquearAcceso_bind, pure_run]
    exact ⟨[], envia_nil (sinBufferes_dormida l.id k false false) (Nat.zero_min _)⟩
  · rw [if_neg hnet, if_neg hnet]
    obtain ⟨bs, hbs⟩ := bucleSend_envios l.numeroSends l _ _
    exact ⟨bs, hbs.desde (sinBufferes_dormida l.id k true false)⟩

end Ltm.Kernel
