import Ltm.Comunicacion.Formato
import Ltm.Kernel.Bufferes

/-! # What stays of a buffer in the packet made in it

`crear_pkt` writes neither `conexion_aceptada` nor `num_seq_ack`, and of `datos` only `longitud` bytes;
`enviar_tpdu` gets all of `sizeof(tpdu)`, or what has become of it by then. A call is followed through its
sections twice, in kernels that may differ in their buffers and agree in all else that a section reads.
-/

namespace Ltm.Kernel
open ByteMemory Comunicacion
set_option autoImplicit false
set_option maxHeartbeats 250000

/-! ## One packet -/

/-- What is overwritten in the place of a packet after `crear_pkt` and before `enviar_tpdu` reads it: the
place is in a frame that the process has left. -/
abbrev Pisada := ℕ → Option UInt8

/-- The bytes that `crear_pkt` leaves in a packet, and nothing overwrites. -/
structure Resto where
  conexionAceptada : List (Option UInt8)
  numSeqAck : List (Option UInt8)
  datos : List (Option UInt8)
  deriving DecidableEq, Repr

/-- What stays in the packet `p` when `longitud` bytes of `datos` are put in it. -/
def Tpdu.resto (p : Tpdu) (o : Pisada) (datos : List UInt8) (longitud : Int) : Resto where
  conexionAceptada := kept (fun j => o (24 + j)) (bytesOf 4 (palabra p.cabecera.conexionAceptada))
  numSeqAck := kept (fun j => o (32 + j)) (bytesOf 4 (palabra p.cabecera.numSeqAck))
  datos := kept (fun j => o (36 + (datos.take longitud.toNat).length + j)) (p.datos.drop longitud.toNat)

/-- `crear_pkt` writes the first six fields and `tamanho_datos`, and the beginning of `datos`. -/
theorem bytesTpdu_crearPkt (tipo : Int) (destino origen : TDireccion) (datos : List UInt8)
    (longitud idLocal idDestino : Int) : ∃ campos tamanho : List UInt8, campos.length = 24 ∧
      tamanho.length = 4 ∧ ∀ p, bytesTpdu (crearPkt p tipo destino origen datos longitud idLocal idDestino) =
        campos ++ (bytesOf 4 (palabra p.cabecera.conexionAceptada) ++ (tamanho ++
          (bytesOf 4 (palabra p.cabecera.numSeqAck) ++
            (datos.take longitud.toNat ++ p.datos.drop longitud.toNat)))) := by
  refine ⟨encode [(4, palabra tipo), (4, palabra idLocal), (4, palabra idDestino),
    (2, origen.puerto.toUInt16.toNat), (2, destino.puerto.toUInt16.toNat), (4, origen.ip.toNat),
    (4, destino.ip.toNat)], bytesOf 4 (palabra longitud), ?_, length_bytesOf _ _, fun p => ?_⟩
  · simp [encode, length_bytesOf]
  · simp only [bytesTpdu, campos, crearPkt, memcpy, encode, List.flatMap_cons, List.flatMap_nil,
      List.append_assoc, List.nil_append]

/-- The packets made with the same arguments in two places, that are then overwritten alike. -/
theorem overwrite_crearPkt_iff (o : Pisada) (p q : Tpdu) (tipo : Int) (destino origen : TDireccion)
    (datos : List UInt8) (longitud idLocal idDestino : Int) :
    overwrite o (bytesTpdu (crearPkt p tipo destino origen datos longitud idLocal idDestino)) =
        overwrite o (bytesTpdu (crearPkt q tipo destino origen datos longitud idLocal idDestino)) ↔
      p.resto o datos longitud = q.resto o datos longitud := by
  obtain ⟨campos, tamanho, hcampos, htamanho, hbytes⟩ :=
    bytesTpdu_crearPkt tipo destino origen datos longitud idLocal idDestino
  have hlen : ∀ u v : ℕ, (bytesOf 4 u).length = (bytesOf 4 v).length := fun u v => by
    rw [length_bytesOf, length_bytesOf]
  rw [hbytes, hbytes, overwrite_append_inj rfl, overwrite_append_inj (hlen _ _),
    overwrite_append_inj rfl, overwrite_append_inj (hlen _ _), overwrite_append_inj rfl]
  simp only [true_and, hcampos, htamanho, length_bytesOf, ← Nat.add_assoc, Nat.reduceAdd, overwrite_eq_iff,
    Tpdu.resto, Resto.mk.injEq]

/-- The second `memcpy` of `t_send` copies the data onto themselves. -/
theorem pkt_bufferDatos (b : BufPkt) (l : SendLocal) (idDestino : Int) :
    (bufferDatos b l idDestino).pkt = crearPkt b.pkt tipoDatos l.tsapDestino l.tsapOrigen l.datos
      l.tamanho l.id idDestino := by
  unfold bufferDatos crearPkt
  simp only [memcpy, List.take_append_drop]

/-! ## Two kernels -/

/-- The kernel without its lists: the semaphore and `CXs_libres` decide about no packet. -/
def KernelShm.campos (k : KernelShm) : KernelShm :=
  { k with
    semaforo := false
    buffersLibres := []
    CXsLibres := []
    CXs := fun i => { k.CXs i with TX := [] }
    nodos := 0
    basura := fun n => ⟨n, .nulo, 0, 0, 0⟩ }

/-- The kernels agree in all fields but the lists, and in the lengths of the lists `TX`. -/
structure MismosCampos (k k' : KernelShm) : Prop where
  campos : k.campos = k'.campos
  cuantos : ∀ i, (k.CXs i).TX.length = (k'.CXs i).TX.length

/-- The buffers that fit in `TX`. -/
def KernelShm.huecos (k : KernelShm) (id : Int) : ℕ :=
  k.numBufPkts.toNat - (k.CXs id).TX.length

/-- The buffers that the next calls of `buscar_buffer_libre` supply. -/
def KernelShm.proximos : ℕ → KernelShm → List BufPkt
  | 0, _ => []
  | h + 1, k => proximoBuffer k :: proximos h k.sinBuffer

variable {k k' : KernelShm}

/-- What does not depend on the lists is the same. -/
theorem MismosCampos.lee {α : Type} (h : MismosCampos k k') (f : KernelShm → α)
    (hf : ∀ k, f k.campos = f k) : f k = f k' := by
  rw [← hf k, h.campos, hf]

theorem MismosCampos.celda {α : Type} (h : MismosCampos k k') (i : Int) (f : Conexion → α)
    (hf : ∀ c : Conexion, f { c with TX := [] } = f c) : f (k.CXs i) = f (k'.CXs i) :=
  h.lee (fun k => f (k.CXs i)) fun k => hf (k.CXs i)

theorem MismosCampos.interfaz (h : MismosCampos k k') : k.interfaz = k'.interfaz :=
  h.lee (fun k => k.interfaz) fun _ => rfl

theorem MismosCampos.numCXs (h : MismosCampos k k') : k.numCXs = k'.numCXs :=
  h.lee (fun k => k.numCXs) fun _ => rfl

theorem MismosCampos.celdaLibre (h : MismosCampos k k') : buscarCeldaLibre k = buscarCeldaLibre k' :=
  h.lee buscarCeldaLibre fun _ => rfl

theorem MismosCampos.huecos (h : MismosCampos k k') (id : Int) : k.huecos id = k'.huecos id := by
  have hnum := h.lee (fun k => k.numBufPkts) fun _ => rfl
  simp only [KernelShm.huecos, hnum, h.cuantos id]

theorem length_proximos (h : ℕ) (k : KernelShm) : (k.proximos h).length = h := by
  induction h generalizing k with
  | zero => rfl
  | succ h ih => rw [KernelShm.proximos, List.length_cons, ih]

theorem proximoBuffer_congr (hl : k'.buffersLibres = k.buffersLibres) (hn : k'.nodos = k.nodos)
    (hb : k'.basura = k.basura) : proximoBuffer k' = proximoBuffer k := by
  rw [proximoBuffer, proximoBuffer, hl, hn, hb]

theorem proximos_congr (hl : k'.buffersLibres = k.buffersLibres) (hn : k'.nodos = k.nodos)
    (hb : k'.basura = k.basura) (h : ℕ) : k'.proximos h = k.proximos h := by
  induction h generalizing k k' with
  | zero => rfl
  | succ h ih =>
      have hprox := proximoBuffer_congr hl hn hb
      have hsin : k'.sinBuffer.buffersLibres = k.sinBuffer.buffersLibres := by
        simp only [KernelShm.sinBuffer, buscarBufferLibre, hprox, hl]
      have hnodos : k'.sinBuffer.nodos = k.sinBuffer.nodos := by
        simp only [KernelShm.sinBuffer, buscarBufferLibre, hl, hn]
      rw [KernelShm.proximos, KernelShm.proximos, hprox, ih hsin hnodos hb]

/-! ## A section of `t_send` -/

def enviado : Accion → Option (InAddr × List UInt8)
  | .enviarTpdu ip pkt => some (ip, bytesTpdu pkt)
  | _ => none

/-- The addresses and bytes that `enviar_tpdu` is given. -/
def enviados (w : List Accion) : List (InAddr × List UInt8) := w.filterMap enviado

abbrev Pisadas := ℕ → Pisada

/-- What `enviar_tpdu` reads of the packets of a section, the `n`-th of them overwritten with `o n`. -/
def pisados (o : Pisadas) (xs : List (InAddr × List UInt8)) : List (InAddr × List UInt8) :=
  xs.mapIdx fun n x => (x.1, overwrite (o n) x.2)

theorem pisados_cons (o : Pisadas) (x : InAddr × List UInt8) (xs : List (InAddr × List UInt8)) :
    pisados o (x :: xs) = (x.1, overwrite (o 0) x.2) :: pisados (fun n => o (n + 1)) xs :=
  List.mapIdx_cons

theorem enviados_append (w v : List Accion) : enviados (w ++ v) = enviados w ++ enviados v :=
  List.filterMap_append

/-- What the loop sends with `n` packets to go and the buffers `bs` for them. -/
def enviosSend (idDestino : Int) : ℕ → SendLocal → List BufPkt → List (InAddr × List UInt8)
  | n + 1, l, b :: bs => (l.tsapDestino.ip, bytesTpdu (bufferDatos b l idDestino).pkt) ::
      enviosSend idDestino n (l.avanza n) bs
  | _, _, _ => []

/-- How the loop ends when `h` packets fit. -/
def finSend : ℕ → SendLocal → ℕ → Paso
  | 0, l, _ => .retorna l.datosEnviados
  | _ + 1, l, 0 => .duerme l.id (.send l)
  | n + 1, l, h + 1 => finSend n (l.avanza n) h

def restosSend : Pisadas → ℕ → SendLocal → List BufPkt → List Resto
  | o, n + 1, l, b :: bs =>
    b.pkt.resto (o 0) l.datos l.tamanho :: restosSend (fun m => o (m + 1)) n (l.avanza n) bs
  | _, _, _, _ => []

theorem huecos_trasEnvio {l : SendLocal} (h : (k.CXs l.id).TX.length < k.numBufPkts.toNat) :
    k.huecos l.id = (k.trasEnvio l).huecos l.id + 1 := by
  have hnum : (k.trasEnvio l).numBufPkts = k.numBufPkts := rfl
  rw [KernelShm.huecos, KernelShm.huecos, trasEnvio_self, hnum, List.length_append,
    List.length_singleton]
  omega

theorem bucleSend_eq (n : ℕ) (l : SendLocal) (k : KernelShm) (t : List Accion) :
    (bucleSend n l ⟨k, t⟩).1 = finSend n l (k.huecos l.id) ∧
      enviados (bucleSend n l ⟨k, t⟩).2.traza = enviados t ++
        enviosSend (k.CXs l.id).idDestino n l (k.proximos (k.huecos l.id)) := by
  induction n generalizing l k t with
  | zero =>
      rw [bucleSend, desbloquearAcceso_bind, pure_run]
      refine ⟨rfl, ?_⟩
      rw [enviados_append]
      rfl
  | succ n ih =>
      by_cases h : (k.CXs l.id).TX.length < k.numBufPkts.toNat
      · have hhuecos : k.huecos l.id = (k.trasEnvio l).huecos (l.avanza n).id + 1 := huecos_trasEnvio h
        have hprox : (k.trasEnvio l).proximos ((k.trasEnvio l).huecos (l.avanza n).id) =
            k.sinBuffer.proximos ((k.trasEnvio l).huecos (l.avanza n).id) :=
          proximos_congr (k := k.sinBuffer) (by rfl) (by rfl) (by rfl) _
        have hdestino : ((k.trasEnvio l).CXs (l.avanza n).id).idDestino = (k.CXs l.id).idDestino := by
          have hid : (l.avanza n).id = l.id := rfl
          rw [hid, trasEnvio_self]
        obtain ⟨hpaso, htraza⟩ := ih (l.avanza n) (k.trasEnvio l)
          (t ++ [.acceso l.id, .acceso l.id, .acceso l.id, .enviarTpdu l.tsapDestino.ip
            (bufferDatos (proximoBuffer k) l (k.CXs l.id).idDestino).pkt])
        rw [bucleSend_turno h, hpaso, htraza, hprox, hdestino, hhuecos, enviados_append]
        exact ⟨rfl, List.append_assoc _ _ _⟩
      · have hhuecos : k.huecos l.id = 0 := Nat.sub_eq_zero_of_le (by omega)
        rw [bucleSend_duerme h, hhuecos, enviados_append]
        exact ⟨rfl, rfl⟩

theorem enviosSend_iff (o : Pisadas) (idDestino : Int) (n : ℕ) (l : SendLocal) {bs bs' : List BufPkt}
    (hlen : bs.length = bs'.length) :
    pisados o (enviosSend idDestino n l bs) = pisados o (enviosSend idDestino n l bs') ↔
      restosSend o n l bs = restosSend o n l bs' := by
  induction n generalizing o l bs bs' with
  | zero => exact iff_of_true rfl rfl
  | succ n ih =>
      cases bs with
      | nil =>
          obtain rfl := List.eq_nil_of_length_eq_zero hlen.symm
          exact iff_of_true rfl rfl
      | cons b bs =>
          obtain ⟨b', bs', rfl⟩ := List.exists_cons_of_length_eq_add_one hlen.symm
          have hresto := ih (fun m => o (m + 1)) (l.avanza n) (Nat.succ.inj hlen)
          have hpkt := overwrite_crearPkt_iff (o 0) b.pkt b'.pkt tipoDatos l.tsapDestino l.tsapOrigen
            l.datos l.tamanho l.id idDestino
          simp only [enviosSend, restosSend, pisados_cons, List.cons.injEq, Prod.mk.injEq, true_and,
            pkt_bufferDatos, hpkt, hresto]

/-! ## Two sections -/

/-- The sections end alike, and with their packets overwritten alike they send the same just if the bytes
`rs` and `rs'` left in the buffers of each are the same. -/
structure Parejas (o : Pisadas) (r r' : Paso × Mundo) (rs rs' : List Resto) : Prop where
  paso : r.1 = r'.1
  envios : pisados o (enviados r.2.traza) = pisados o (enviados r'.2.traza) ↔ rs = rs'

/-- What stays of the buffers that a call takes up to its first wait. -/
def Llamada.restos (k : KernelShm) (o : Pisadas) : Llamada → List Resto
  | .connect e destino origen =>
    if (Llamada.connect e destino origen).toma k then [(proximoBuffer k).pkt.resto (o 0) [] 0] else []
  | .listen _ _ _ => []
  | .send e id (some datos) longitud =>
    if ¬e.getKernel < 0 ∧ (k.CXs id).estadoCx = .established then
      restosSend o (cuantosSends longitud) (.nuevo id datos longitud (k.CXs id)) (k.proximos (k.huecos id))
    else []
  | .send _ _ none _ => []

def Local.restos (k : KernelShm) (o : Pisadas) : Local → List Resto
  | .send l => restosSend o (l.pendientes (k.CXs l.id)) l (k.proximos (k.huecos l.id))
  | _ => []

/-- What stays of the buffer of the answer to a CR, once `conexion_aceptada` is written. -/
def restosCR (k : KernelShm) (o : Pisadas) (p : Tpdu) : List Resto :=
  if p.cabecera.tipo = tipoCR then
    let resul := asignConexionCR p k
    [((proximoBuffer k).pkt.conResultado (if resul = exNoTsap then resul else 1)).resto (o 0) [] 0]
  else []

variable {o : Pisadas}

theorem parejas_bucleSend (h : MismosCampos k k') (n : ℕ) (l : SendLocal) {t : List Accion}
    (ht : enviados t = []) : Parejas o (bucleSend n l ⟨k, t⟩) (bucleSend n l ⟨k', t⟩)
      (restosSend o n l (k.proximos (k.huecos l.id))) (restosSend o n l (k'.proximos (k'.huecos l.id))) := by
  obtain ⟨hpaso, htraza⟩ := bucleSend_eq n l k t
  obtain ⟨hpaso', htraza'⟩ := bucleSend_eq n l k' t
  have hdestino := h.celda l.id Conexion.idDestino fun _ => rfl
  have hlen : (k.proximos (k'.huecos l.id)).length = (k'.proximos (k'.huecos l.id)).length := by
    rw [length_proximos, length_proximos]
  refine ⟨?_, ?_⟩
  · rw [hpaso, hpaso', h.huecos]
  · rw [htraza, htraza', ht, List.nil_append, List.nil_append, hdestino, h.huecos]
    exact enviosSend_iff o _ n l hlen

theorem MismosCampos.semaforo (h : MismosCampos k k') (s s' : Bool) :
    MismosCampos { k with semaforo := s } { k' with semaforo := s' } := ⟨h.campos, h.cuantos⟩

theorem MismosCampos.dormida (h : MismosCampos k k') (id : Int) (d : Bool) :
    MismosCampos (k.conCx id fun c => { c with primitivaDormida := d })
      (k'.conCx id fun c => { c with primitivaDormida := d }) := by
  have hcampos : ∀ k : KernelShm, (k.conCx id fun c => { c with primitivaDormida := d }).campos =
      k.campos.conCx id fun c => { c with primitivaDormida := d } := fun k => by
    refine KernelShm.ext rfl rfl rfl rfl rfl rfl (funext fun i => ?_) rfl rfl
    by_cases hi : i = id
    · rw [hi, KernelShm.conCx_self]
      show ({ (k.conCx id _).CXs id with TX := [] } : Conexion) = _
      rw [KernelShm.conCx_self]
      rfl
    · rw [KernelShm.conCx_of_ne _ _ hi]
      show ({ (k.conCx id _).CXs i with TX := [] } : Conexion) = _
      rw [KernelShm.conCx_of_ne _ _ hi]
      rfl
  refine ⟨by rw [hcampos, hcampos, h.campos], fun i => ?_⟩
  by_cases hi : i = id
  · rw [hi, KernelShm.conCx_self, KernelShm.conCx_self]
    exact h.cuantos id
  · rw [KernelShm.conCx_of_ne _ _ hi, KernelShm.conCx_of_ne _ _ hi]
    exact h.cuantos i

theorem parejas_send (h : MismosCampos k k') (e : Entorno) (id : Int) (datos : Option (List UInt8))
    (longitud : UInt64) :
    Parejas o (tSend e id datos longitud ⟨k, []⟩) (tSend e id datos longitud ⟨k', []⟩)
      ((Llamada.send e id datos longitud).restos k o) ((Llamada.send e id datos longitud).restos k' o) := by
  unfold tSend
  by_cases hk : e.getKernel < 0
  · have hno : ∀ k : KernelShm, (Llamada.send e id datos longitud).restos k o = [] := fun k => by
      cases datos with
      | none => rfl
      | some datos => exact if_neg fun hs => hs.1 hk
    rw [if_pos hk, hno, hno]
    exact ⟨rfl, iff_of_true rfl rfl⟩
  rw [if_neg hk]
  cases datos with
  | none => exact ⟨rfl, iff_of_true rfl rfl⟩
  | some datos =>
      have hest := h.celda id Conexion.estadoCx fun _ => rfl
      have hnuevo := h.celda id (SendLocal.nuevo id datos longitud) fun _ => rfl
      dsimp only
      rw [bloquearAcceso_bind, bloquearAcceso_bind, leeCx_bind, leeCx_bind]
      by_cases he : (k'.CXs id).estadoCx = .established
      · have hsi : ∀ {k : KernelShm}, (k.CXs id).estadoCx = .established →
            (Llamada.send e id (some datos) longitud).restos k o =
              restosSend o (cuantosSends longitud) (.nuevo id datos longitud (k.CXs id))
                (({ k with semaforo := true } : KernelShm).proximos (k.huecos id)) := fun {k} hest => by
          rw [Llamada.restos, if_pos ⟨hk, hest⟩]
          exact congrArg _
            (proximos_congr (k := { k with semaforo := true }) (by rfl) (by rfl) (by rfl) (k.huecos id))
        rw [if_neg (not_not.mpr (hest.trans he)), if_neg (not_not.mpr he), leeCx_bind, leeCx_bind,
          hsi (hest.trans he), hsi he, hnuevo]
        exact parejas_bucleSend (h.semaforo true true) (cuantosSends longitud)
          (.nuevo id datos longitud (k'.CXs id)) rfl
      · have hno : ∀ {k : KernelShm}, (k.CXs id).estadoCx ≠ .established →
            (Llamada.send e id (some datos) longitud).restos k o = [] := fun he => if_neg fun hs => he hs.2
        rw [if_pos (hest.trans_ne he), if_pos he, hno (hest.trans_ne he), hno he]
        exact ⟨rfl, iff_of_true rfl rfl⟩

theorem parejas_sendSigue (h : MismosCampos k k') (l : SendLocal) :
    Parejas o (tSendSigue l ⟨k, []⟩) (tSendSigue l ⟨k', []⟩) ((Local.send l).restos k o)
      ((Local.send l).restos k' o) := by
  let abre (k : KernelShm) : KernelShm :=
    ({ k with semaforo := true }).conCx l.id fun c => { c with primitivaDormida := false }
  have hres := h.celda l.id Conexion.resultadoPrimitiva fun _ => rfl
  have hprox : ∀ k : KernelShm, (abre k).proximos ((abre k).huecos l.id) = k.proximos (k.huecos l.id) :=
    fun k => by
      have hhuecos : (abre k).huecos l.id = k.huecos l.id := by
        simp only [abre, KernelShm.huecos, KernelShm.conCx_self]
        rfl
      rw [hhuecos]
      exact proximos_congr (by rfl) (by rfl) (by rfl) _
  unfold tSendSigue
  rw [Local.restos, Local.restos, SendLocal.pendientes, SendLocal.pendientes, bloquearAcceso_bind,
    bloquearAcceso_bind, cambiaCx_bind, cambiaCx_bind, leeCx_bind, leeCx_bind, KernelShm.conCx_self,
    KernelShm.conCx_self]
  dsimp only
  rw [hres, ← hprox k, ← hprox k']
  by_cases hnet : (k'.CXs l.id).resultadoPrimitiva = exNet
  · rw [if_pos hnet, if_pos hnet]
    exact ⟨rfl, iff_of_true rfl rfl⟩
  · rw [if_neg hnet, if_neg hnet]
    exact parejas_bucleSend ((h.semaforo true true).dormida l.id false) l.numeroSends l rfl

/-- Up to its first wait, a call sends only as a `t_send` or as a `t_connect` that takes a cell. -/
theorem enviados_empieza {c : Llamada} {paso : Paso} {w : List Accion} {k₁ : KernelShm}
    (he : Empieza k c paso k₁ w) (hsend : ∀ e id datos longitud, c ≠ .send e id datos longitud)
    (hconnect : ∀ e destino origen, c = .connect e destino origen → ¬c.toma k) : enviados w = [] := by
  cases he with
  | fuera => rfl
  | busca => rfl
  | lleno => rfl
  | repetido => rfl
  | sinConexion => rfl
  | connect e destino origen origen' hk hpar hn hrep =>
      exact absurd ⟨hk, origen', hpar, hn, hrep⟩ (hconnect e destino origen rfl)
  | listen => rfl
  | send e id datos longitud => exact absurd rfl (hsend e id (some datos) longitud)

theorem paso_connect (h : MismosCampos k k') (e : Entorno) (destino origen : TDireccion) :
    ((Llamada.connect e destino origen).empieza ⟨k, []⟩).1 =
      ((Llamada.connect e destino origen).empieza ⟨k', []⟩).1 := by
  show (tConnect e destino origen ⟨k, []⟩).1.2 = (tConnect e destino origen ⟨k', []⟩).1.2
  unfold tConnect
  by_cases hk : e.getKernel < 0
  · rw [if_pos hk]
    rfl
  rw [if_neg hk, leeKernel_bind, leeKernel_bind, h.interfaz]
  cases comprobarConnect e k'.interfaz destino origen with
  | none => rfl
  | some par =>
      have hrep : buscarConnectRepetido k par.2 destino = buscarConnectRepetido k' par.2 destino :=
        h.lee (fun k => buscarConnectRepetido k par.2 destino) fun _ => rfl
      dsimp only
      by_cases hr : par.1 = -1
      · rw [if_pos hr]
        rfl
      · rw [if_neg hr, bind_run, bind_run, criticaConnect_run, criticaConnect_run, h.numCXs, hrep,
          h.celdaLibre]
        split
        · rfl
        · split <;> rfl

theorem enviados_connect {e : Entorno} {destino origen origen' : TDireccion} (hk : ¬e.getKernel < 0)
    (hpar : comprobarConnect e k.interfaz destino origen = some (0, origen'))
    (hn : k.numCXs ≠ numMaxCXs) (hrep : ¬buscarConnectRepetido k origen' destino > -1) :
    enviados ((Llamada.connect e destino origen).empieza ⟨k, []⟩).2.traza = [(destino.ip,
      bytesTpdu (bufferCR (proximoBuffer k) (buscarCeldaLibre k) destino origen').pkt)] := by
  rw [empieza_criticaConnect hk hpar, criticaConnect_run, if_neg hn, if_neg hrep]
  dsimp only
  unfold trazaConnect enviados
  split <;> rfl

theorem parejas_connect (h : MismosCampos k k') (e : Entorno) (destino origen : TDireccion) :
    Parejas o ((Llamada.connect e destino origen).empieza ⟨k, []⟩)
      ((Llamada.connect e destino origen).empieza ⟨k', []⟩)
      ((Llamada.connect e destino origen).restos k o) ((Llamada.connect e destino origen).restos k' o) := by
  refine ⟨paso_connect h e destino origen, ?_⟩
  have htoma : (Llamada.connect e destino origen).toma k ↔ (Llamada.connect e destino origen).toma k' :=
    iff_of_eq (h.lee (fun k => (Llamada.connect e destino origen).toma k) fun _ => rfl)
  rw [Llamada.restos, Llamada.restos]
  by_cases ht : (Llamada.connect e destino origen).toma k
  · rw [if_pos ht, if_pos (htoma.mp ht)]
    obtain ⟨-, o', hpar', hn', hrep'⟩ := htoma.mp ht
    obtain ⟨hk, o, hpar, hn, hrep⟩ := ht
    rw [h.interfaz, hpar'] at hpar
    obtain rfl := (Prod.mk.inj (Option.some.inj hpar)).2
    rw [enviados_connect hk (h.interfaz ▸ hpar') hn hrep, enviados_connect hk hpar' hn' hrep',
      h.celdaLibre]
    simp only [pisados, List.mapIdx_cons, List.mapIdx_nil, List.cons.injEq, Prod.mk.injEq, true_and,
      and_true]
    exact overwrite_crearPkt_iff _ _ _ _ _ _ _ _ _ _
  · have ht' := fun ht' => ht (htoma.mpr ht')
    rw [if_neg ht, if_neg ht', enviados_empieza (empieza_paso _) (by simp) fun _ _ _ _ => ht,
      enviados_empieza (empieza_paso _) (by simp) fun _ _ _ _ => ht']
    exact iff_of_true rfl rfl

theorem paso_listen (h : MismosCampos k k') (e : Entorno) (escucha : TDireccion)
    (remota : Option TDireccion) : ((Llamada.listen e escucha remota).empieza ⟨k, []⟩).1 =
      ((Llamada.listen e escucha remota).empieza ⟨k', []⟩).1 := by
  have hrep : ∀ t, buscarListenRepetido k t = buscarListenRepetido k' t := fun t =>
    h.lee (fun k => buscarListenRepetido k t) fun _ => rfl
  show (tListen e escucha remota ⟨k, []⟩).1.2 = (tListen e escucha remota ⟨k', []⟩).1.2
  unfold tListen
  by_cases hk : e.getKernel < 0
  · rw [if_pos hk]
    rfl
  rw [if_neg hk, leeKernel_bind, leeKernel_bind, h.interfaz]
  dsimp only
  by_cases hr : (comprobarListen e k'.interfaz escucha).1 = -1
  · rw [if_pos hr]
    rfl
  · rw [if_neg hr, bind_run, bind_run, criticaListen_run, criticaListen_run, h.numCXs, hrep,
      h.celdaLibre]
    split
    · rfl
    · split <;> rfl

theorem parejas_listen (h : MismosCampos k k') (e : Entorno) (escucha : TDireccion)
    (remota : Option TDireccion) : Parejas o ((Llamada.listen e escucha remota).empieza ⟨k, []⟩)
      ((Llamada.listen e escucha remota).empieza ⟨k', []⟩) [] [] := by
  refine ⟨paso_listen h e escucha remota, ?_⟩
  rw [enviados_empieza (empieza_paso _) (by simp) (by simp),
    enviados_empieza (empieza_paso _) (by simp) (by simp)]
  exact iff_of_true rfl rfl

theorem parejas_sigue (h : MismosCampos k k') (l : Local) :
    Parejas o (l.sigue ⟨k, []⟩) (l.sigue ⟨k', []⟩) (l.restos k o) (l.restos k' o) := by
  have hest := fun i => h.celda i Conexion.estadoCx fun _ => rfl
  have hres := fun i => h.celda i Conexion.resultadoPeticion fun _ => rfl
  cases l with
  | connect i =>
      show Parejas o (tConnectSigue i ⟨k, []⟩) (tConnectSigue i ⟨k', []⟩) [] []
      rw [tConnectSigue_run, tConnectSigue_run, hest, hres]
      exact ⟨rfl, iff_of_true rfl rfl⟩
  | listen i =>
      show Parejas o (tListenSigue i ⟨k, []⟩) (tListenSigue i ⟨k', []⟩) [] []
      rw [tListenSigue_run, tListenSigue_run, hest, hres]
      exact ⟨rfl, iff_of_true rfl rfl⟩
  | send l => exact parejas_sendSigue h l

theorem enviados_trazaCC (k : KernelShm) (h : CabTcp) : enviados (trazaCC k h) = [] := by
  unfold trazaCC enviados
  dsimp only
  split
  · rfl
  · split <;> rfl

theorem enviados_trazaCR (k : KernelShm) (ipRemota : InAddr) (p : Tpdu) :
    enviados (trazaCR k ipRemota p) = [(ipRemota, bytesTpdu (k.bufferCC ipRemota p).pkt)] := rfl

theorem parejas_paquete (h : MismosCampos k k') (ipRemota : InAddr) (p : Tpdu) :
    pisados o (enviados (paquete ipRemota p ⟨k, []⟩).2.traza) =
        pisados o (enviados (paquete ipRemota p ⟨k', []⟩).2.traza) ↔ restosCR k o p = restosCR k' o p := by
  have hasig : asignConexionCR p k = asignConexionCR p k' := h.lee (asignConexionCR p) fun _ => rfl
  have hip := h.celda (asignConexionCR p k') Conexion.ipLocal fun _ => rfl
  rw [paquete_run, paquete_run]
  unfold restosCR
  by_cases hcc : p.cabecera.tipo = tipoCC
  · have hcr : ¬p.cabecera.tipo = tipoCR := fun hcr => tipoCR_ne_tipoCC hcr hcc
    rw [if_pos hcc, if_pos hcc, if_neg hcr, if_neg hcr]
    dsimp only
    rw [List.nil_append, List.nil_append, enviados_trazaCC, enviados_trazaCC]
    exact iff_of_true rfl rfl
  · rw [if_neg hcc, if_neg hcc]
    by_cases hcr : p.cabecera.tipo = tipoCR
    · rw [if_pos hcr, if_pos hcr, if_pos hcr, if_pos hcr]
      dsimp only
      rw [List.nil_append, List.nil_append, enviados_trazaCR, enviados_trazaCR, KernelShm.bufferCC,
        KernelShm.bufferCC, hasig, hip]
      simp only [pisados, List.mapIdx_cons, List.mapIdx_nil, List.cons.injEq, Prod.mk.injEq, true_and,
        and_true]
      exact overwrite_crearPkt_iff _ _ _ _ _ _ _ _ _ _
    · rw [if_neg hcr, if_neg hcr, if_neg hcr, if_neg hcr]
      exact iff_of_true rfl rfl

/-! ## Whole calls -/

/-- What the sections of a call send from `paso` on, each in the kernel that it finds and with its packets
overwritten. -/
def Paso.envios : Paso → List (KernelShm × Pisadas) → List (List (InAddr × List UInt8))
  | .duerme _ l, (k, o) :: ks =>
    pisados o (enviados (l.sigue ⟨k, []⟩).2.traza) :: envios (l.sigue ⟨k, []⟩).1 ks
  | _, _ => []

def Paso.restos : Paso → List (KernelShm × Pisadas) → List (List Resto)
  | .duerme _ l, (k, o) :: ks => l.restos k o :: restos (l.sigue ⟨k, []⟩).1 ks
  | _, _ => []

/-- A call of a primitive, or a packet for the daemon to answer. -/
inductive Peticion
  | llama (c : Llamada)
  | contesta (ipRemota : InAddr) (p : Tpdu)

def Peticion.envios : Peticion → List (KernelShm × Pisadas) → List (List (InAddr × List UInt8))
  | _, [] => []
  | .llama c, (k, o) :: ks =>
    pisados o (enviados (c.empieza ⟨k, []⟩).2.traza) :: (c.empieza ⟨k, []⟩).1.envios ks
  | .contesta ipRemota p, (k, o) :: _ => [pisados o (enviados (paquete ipRemota p ⟨k, []⟩).2.traza)]

def Peticion.restos : Peticion → List (KernelShm × Pisadas) → List (List Resto)
  | _, [] => []
  | .llama c, (k, o) :: ks => c.restos k o :: (c.empieza ⟨k, []⟩).1.restos ks
  | .contesta _ p, (k, o) :: _ => [restosCR k o p]

theorem parejas_empieza (h : MismosCampos k k') (c : Llamada) :
    Parejas o (c.empieza ⟨k, []⟩) (c.empieza ⟨k', []⟩) (c.restos k o) (c.restos k' o) := by
  cases c with
  | connect e destino origen => exact parejas_connect h e destino origen
  | listen e escucha remota => exact parejas_listen h e escucha remota
  | send e id datos longitud => exact parejas_send h e id datos longitud

/-- Two kernels that a section may find, and what overwrites its packets in both runs. -/
structure Hallazgo where
  uno : KernelShm
  otro : KernelShm
  pisadas : Pisadas

def Hallazgo.primera (q : Hallazgo) : KernelShm × Pisadas := (q.uno, q.pisadas)

def Hallazgo.segunda (q : Hallazgo) : KernelShm × Pisadas := (q.otro, q.pisadas)

theorem envios_paso_iff (paso : Paso) (qs : List Hallazgo)
    (hqs : ∀ q ∈ qs, MismosCampos q.uno q.otro) :
    paso.envios (qs.map Hallazgo.primera) = paso.envios (qs.map Hallazgo.segunda) ↔
      paso.restos (qs.map Hallazgo.primera) = paso.restos (qs.map Hallazgo.segunda) := by
  induction qs generalizing paso with
  | nil => cases paso <;> exact iff_of_true rfl rfl
  | cons q qs ih =>
      cases paso with
      | retorna => exact iff_of_true rfl rfl
      | busca => exact iff_of_true rfl rfl
      | duerme i l =>
          have hp := parejas_sigue (o := q.pisadas) (hqs q List.mem_cons_self) l
          have hresto := ih (l.sigue ⟨q.otro, []⟩).1 fun q hq => hqs q (List.mem_cons_of_mem _ hq)
          simp only [List.map_cons, Hallazgo.primera, Hallazgo.segunda, Paso.envios, Paso.restos,
            List.cons.injEq, hp.paso, hp.envios]
          exact and_congr_right fun _ => hresto

/-- Two runs of a call, or of the daemon's answer to a packet, whose packets are overwritten alike send the
same bytes just if what neither `crear_pkt` writes nor anything overwrites is the same in the buffers that
they take. -/
theorem envios_iff (r : Peticion) {qs : List Hallazgo} (hqs : ∀ q ∈ qs, MismosCampos q.uno q.otro) :
    r.envios (qs.map Hallazgo.primera) = r.envios (qs.map Hallazgo.segunda) ↔
      r.restos (qs.map Hallazgo.primera) = r.restos (qs.map Hallazgo.segunda) := by
  cases qs with
  | nil => cases r <;> exact iff_of_true rfl rfl
  | cons q qs =>
      have hq := hqs q List.mem_cons_self
      cases r with
      | llama c =>
          have hp := parejas_empieza (o := q.pisadas) hq c
          have hresto := envios_paso_iff (c.empieza ⟨q.otro, []⟩).1 qs fun q hq =>
            hqs q (List.mem_cons_of_mem _ hq)
          simp only [List.map_cons, Hallazgo.primera, Hallazgo.segunda, Peticion.envios, Peticion.restos,
            List.cons.injEq, hp.paso, hp.envios]
          exact and_congr_right fun _ => hresto
      | contesta ipRemota p =>
          have hp := parejas_paquete (o := q.pisadas) hq ipRemota p
          simp only [List.map_cons, Hallazgo.primera, Hallazgo.segunda, Peticion.envios, Peticion.restos,
            List.cons.injEq, and_true, hp]

/-- The default kernel, in memory whose bytes all read `b` where the data of its packets will be. -/
def kernelSobre (b : UInt8) : KernelShm :=
  { kernelPorDefecto with
    basura := fun n => ⟨n, { Tpdu.nulo with datos := List.replicate maxDatos b }, 0, 0, 0⟩ }

def pideConexion : Peticion :=
  .llama (.connect entornoVacio ⟨0x0a000002, 80⟩ ⟨0x0a000001, 1000⟩)

theorem mismosCampos_sobre (b c : UInt8) : MismosCampos (kernelSobre b) (kernelSobre c) :=
  ⟨rfl, fun _ => rfl⟩

/-- The two memories, with nothing overwritten in the packet. -/
def sobres : Hallazgo := ⟨kernelSobre 0, kernelSobre 7, fun _ _ => none⟩

theorem envios_iff_pideConexion :
    pideConexion.envios ([sobres].map Hallazgo.primera) = pideConexion.envios ([sobres].map Hallazgo.segunda) ↔
      pideConexion.restos ([sobres].map Hallazgo.primera) =
        pideConexion.restos ([sobres].map Hallazgo.segunda) :=
  envios_iff pideConexion fun _ hq => List.mem_singleton.mp hq ▸ mismosCampos_sobre 0 7

/-- The CR of a `t_connect` shows what was in the memory of its buffer. -/
theorem no_envios : MismosCampos sobres.uno sobres.otro ∧
    pideConexion.envios [sobres.primera] ≠ pideConexion.envios [sobres.segunda] :=
  ⟨mismosCampos_sobre 0 7, by decide +kernel⟩

end Ltm.Kernel
