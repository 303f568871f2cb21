import Ltm.Kernel.Interfaz
import Ltm.Kernel.Bprincipal

/-! # What each section does

For every section of `Interfaz` and `Bprincipal`: its result, the kernel after it and its trace. A
section that gives the semaphore back ends in a kernel `suelto`, or in one of the kernels `tras…`.
The rest of the development uses these equations and does not run the code again.
-/

namespace Ltm.Kernel
set_option autoImplicit false
set_option maxHeartbeats 250000

/-! ## Kernels after a section -/

section Tras
variable (k : KernelShm)

def KernelShm.suelto : KernelShm := { k with semaforo := false }

def KernelShm.sinBuffer : KernelShm :=
  { buscarBufferLibre k with buffersLibres := (buscarBufferLibre k).buffersLibres.tail }

def KernelShm.celdaConnect (pid : Int) (destino origen : TDireccion) (i : Int) : Conexion :=
  { (k.CXs i).abreConnect pid destino origen with
    TX := (k.CXs i).TX ++ [bufferCR (proximoBuffer k) i destino origen] }

def KernelShm.trasConnect (pid : Int) (destino origen : TDireccion) : KernelShm :=
  { k.sinBuffer.conCx (buscarCeldaLibre k) fun _ =>
      k.celdaConnect pid destino origen (buscarCeldaLibre k) with
    numCXs := k.numCXs + 1
    CXsLibres := k.CXsLibres.tail
    semaforo := false }

def KernelShm.trasListen (pid : Int) (escucha : TDireccion) (remota : Option TDireccion) : KernelShm :=
  { k.conCx (buscarCeldaLibre k) fun c => c.abreListen pid escucha remota with
    numCXs := k.numCXs + 1
    semaforo := false }

/-- The kernel after the section that ends a `t_connect` on the cell `i`. -/
def KernelShm.trasRetorno (i : Int) : KernelShm :=
  { k with
    numCXs := if (k.CXs i).estadoCx = .closed then k.numCXs - 1 else k.numCXs
    semaforo := false }

def Conexion.recibeCC (c : Conexion) (h : CabTcp) : Conexion :=
  if h.conexionAceptada < 0 then
    { c with estadoCx := .closed, celdaOcupada := 0, resultadoPeticion := h.conexionAceptada }
  else
    { c with
      estadoCx := .established
      idDestino := h.idLocal
      resultadoPeticion := exOk
      TX := c.TX.dropLast }

def KernelShm.trasCC (h : CabTcp) : KernelShm :=
  { k.conCx h.idDestino fun c => c.recibeCC h with
    buffersLibres := if h.conexionAceptada < 0 then k.buffersLibres
      else k.buffersLibres ++ (k.CXs h.idDestino).TX.getLast?.toList
    semaforo := false }

/-- The cell that a CR leaves at the index that `asign_conexion_CR` gives. -/
def Conexion.recibeCR (c : Conexion) (ipRemota : InAddr) (h : CabTcp) (resul : Int) : Conexion :=
  if resul = exNoTsap then { c with resultadoPeticion := resul } else c.aceptaCR ipRemota h

/-- The buffer that holds the answer to the CR `p`. -/
def KernelShm.bufferCC (ipRemota : InAddr) (p : Tpdu) : BufPkt :=
  let resul := asignConexionCR p k
  let b := proximoBuffer k
  { b with
    contadorRtx := numMaxRTx
    pkt := paqueteCC (b.pkt.conResultado (if resul = exNoTsap then resul else 1))
      (k.CXs resul).ipLocal ipRemota p.cabecera resul }

def KernelShm.trasCR (ipRemota : InAddr) (p : Tpdu) : KernelShm :=
  { k.sinBuffer.conCx (asignConexionCR p k) fun c =>
      c.recibeCR ipRemota p.cabecera (asignConexionCR p k) with
    buffersLibres := k.bufferCC ipRemota p :: k.sinBuffer.buffersLibres
    semaforo := false }

end Tras

/-! ## `t_connect` -/

section Llamadas
variable {k : KernelShm} {t : List Accion}

theorem popFront_bind {β : Type} (g : Unit → Seccion β) : (popFront >>= g) ⟨k, t⟩ =
    g () ⟨{ k with CXsLibres := k.CXsLibres.tail },
      t ++ if k.CXsLibres = [] then [.listaVacia] else []⟩ := by
  unfold popFront
  rw [bind_run, leeKernel_bind]
  by_cases h : k.CXsLibres = []
  · simp only [h, if_true]
    rw [List.tail_nil, ← h]
    rfl
  · simp only [h, if_false, List.append_nil]
    rfl

def trazaConnect (k : KernelShm) (destino origen : TDireccion) : List Accion :=
  let i := buscarCeldaLibre k
  .bloquearAcceso :: (if k.CXsLibres = [] then [.listaVacia] else []) ++ [.acceso i, .acceso i,
    .enviarTpdu destino.ip (bufferCR (proximoBuffer k) i destino origen).pkt, .desbloquearAcceso,
    .barrera i]

theorem ocupaConnect_run (pid : Int) (destino origen : TDireccion) :
    ocupaConnect pid destino origen ⟨{ k with semaforo := true }, t ++ [.bloquearAcceso]⟩ =
      (.duerme (buscarCeldaLibre k) (.connect (buscarCeldaLibre k)),
        ⟨k.trasConnect pid destino origen, t ++ trazaConnect k destino origen⟩) := by
  unfold ocupaConnect
  simp only [↓leeKernel_bind, ↓popFront_bind, ↓cambia_bind, ↓cambiaCx_bind, ↓tomaBuffer_bind,
    ↓spliceTX_bind, ↓enviarTpdu_bind, ↓desbloquearAcceso_bind, ↓esperaBarrera_bind, pure_run]
  refine Prod.ext rfl (Mundo.ext (KernelShm.ext rfl rfl rfl rfl rfl rfl ?_ rfl rfl) ?_)
  · show Function.update (Function.update k.CXs _ _) _ _ = Function.update k.CXs _ _
    rw [Function.update_idem]
    simp only [KernelShm.conCx, buscarBufferLibre, Function.update_self]
    rfl
  · simp only [trazaConnect, List.append_assoc]
    rfl

/-- The two tests with which a critical section begins, for a free cell and for a repetition. -/
theorem pruebas_run (p : KernelShm → Prop) [DecidablePred p] (resto : Seccion Paso)
    (hp : p { k with semaforo := true } ↔ p k) :
    (do
      bloquearAcceso
      if (← leeKernel).numCXs = numMaxCXs then
        desbloquearAcceso
        return .retorna exMaxC
      else if p (← leeKernel) then
        desbloquearAcceso
        return .retorna exCDup
      else
        resto : Seccion Paso) ⟨k, t⟩ =
      if k.numCXs = numMaxCXs then
        (.retorna exMaxC, ⟨k.suelto, t ++ [.bloquearAcceso, .desbloquearAcceso]⟩)
      else if p k then
        (.retorna exCDup, ⟨k.suelto, t ++ [.bloquearAcceso, .desbloquearAcceso]⟩)
      else resto ⟨{ k with semaforo := true }, t ++ [.bloquearAcceso]⟩ := by
  rw [bloquearAcceso_bind, leeKernel_bind]
  by_cases h : k.numCXs = numMaxCXs
  · rw [if_pos h, if_pos h, desbloquearAcceso_bind, pure_run, List.append_assoc]
    rfl
  · rw [if_neg h, if_neg h, leeKernel_bind]
    by_cases h' : p k
    · rw [if_pos h', if_pos (hp.mpr h'), desbloquearAcceso_bind, pure_run, List.append_assoc]
      rfl
    · rw [if_neg h', if_neg fun h'' => h' (hp.mp h'')]

theorem criticaConnect_run (pid : Int) (destino origen : TDireccion) :
    criticaConnect pid destino origen ⟨k, t⟩ =
      if k.numCXs = numMaxCXs then
        (.retorna exMaxC, ⟨k.suelto, t ++ [.bloquearAcceso, .desbloquearAcceso]⟩)
      else if buscarConnectRepetido k origen destino > -1 then
        (.retorna exCDup, ⟨k.suelto, t ++ [.bloquearAcceso, .desbloquearAcceso]⟩)
      else
        (.duerme (buscarCeldaLibre k) (.connect (buscarCeldaLibre k)),
          ⟨k.trasConnect pid destino origen, t ++ trazaConnect k destino origen⟩) := by
  unfold criticaConnect
  rw [pruebas_run (fun k => buscarConnectRepetido k origen destino > -1) _ Iff.rfl, ocupaConnect_run]

theorem tConnectSigue_run (i : Int) : tConnectSigue i ⟨k, t⟩ =
    (.retorna (if (k.CXs i).estadoCx = .closed then (k.CXs i).resultadoPeticion else i),
      ⟨k.trasRetorno i, t ++ [.bloquearAcceso, .acceso i, .acceso i, .desbloquearAcceso]⟩) := by
  unfold tConnectSigue
  rw [bloquearAcceso_bind, leeCx_bind, leeCx_bind]
  by_cases h : (k.CXs i).estadoCx = .closed
  · simp only [h, if_true, cambia_bind, desbloquearAcceso_bind, pure_run, KernelShm.trasRetorno,
      List.append_assoc]
    rfl
  · simp only [h, if_false, desbloquearAcceso_bind, pure_run, KernelShm.trasRetorno,
      List.append_assoc]
    rfl

/-! ## `t_listen` -/

def trazaListen (k : KernelShm) : List Accion :=
  let i := buscarCeldaLibre k
  [.bloquearAcceso, .acceso i, .desbloquearAcceso, .barrera i]

theorem criticaListen_run (pid : Int) (escucha : TDireccion) (remota : Option TDireccion) :
    criticaListen pid escucha remota ⟨k, t⟩ =
      if k.numCXs = numMaxCXs then
        (.retorna exMaxC, ⟨k.suelto, t ++ [.bloquearAcceso, .desbloquearAcceso]⟩)
      else if buscarListenRepetido k escucha ≥ 0 then
        (.retorna exCDup, ⟨k.suelto, t ++ [.bloquearAcceso, .desbloquearAcceso]⟩)
      else
        (.duerme (buscarCeldaLibre k) (.listen (buscarCeldaLibre k)),
          ⟨k.trasListen pid escucha remota, t ++ trazaListen k⟩) := by
  have hresto : ocupaListen pid escucha remota ⟨{ k with semaforo := true }, t ++ [.bloquearAcceso]⟩ =
      (.duerme (buscarCeldaLibre k) (.listen (buscarCeldaLibre k)),
        ⟨k.trasListen pid escucha remota, t ++ trazaListen k⟩) := by
    unfold ocupaListen
    simp only [↓leeKernel_bind, ↓cambia_bind, ↓cambiaCx_bind, ↓desbloquearAcceso_bind,
      ↓esperaBarrera_bind, pure_run, List.append_assoc]
    rfl
  unfold criticaListen
  rw [pruebas_run (fun k => buscarListenRepetido k escucha ≥ 0) _ Iff.rfl, hresto]

theorem tListenSigue_run (i : Int) : tListenSigue i ⟨k, t⟩ =
    (.retorna (if (k.CXs i).estadoCx = .listen then (k.CXs i).resultadoPeticion else i),
      ⟨k.suelto, t ++ [.bloquearAcceso, .acceso i, .acceso i, .desbloquearAcceso]⟩) := by
  unfold tListenSigue
  rw [bloquearAcceso_bind, leeCx_bind, leeCx_bind]
  by_cases h : (k.CXs i).estadoCx = .listen
  · simp only [h, if_true, desbloquearAcceso_bind, pure_run, List.append_assoc]
    rfl
  · simp only [h, if_false, desbloquearAcceso_bind, pure_run, List.append_assoc]
    rfl

/-! ## The daemon -/

theorem spliceLibres_run (i : Int) : spliceLibres i ⟨k, t⟩ = ((),
    ⟨({ k with buffersLibres := k.buffersLibres ++ (k.CXs i).TX.getLast?.toList }).conCx i fun c =>
        { c with TX := c.TX.dropLast },
      t ++ .acceso i :: if (k.CXs i).TX = [] then [.listaVacia] else []⟩) := by
  unfold spliceLibres
  rw [leeCx_bind]
  by_cases h : (k.CXs i).TX = []
  · have hcx : ({ k.CXs i with TX := (k.CXs i).TX.dropLast } : Conexion) = k.CXs i := by
      rw [h, List.dropLast_nil, ← h]
    have hk : ({ k with buffersLibres := k.buffersLibres ++ (k.CXs i).TX.getLast?.toList }).conCx i
        (fun c => { c with TX := c.TX.dropLast }) = k := by
      unfold KernelShm.conCx
      simp only [hcx, Function.update_eq_self]
      simp only [h, List.getLast?_nil, Option.toList_none, List.append_nil]
    rw [hk]
    simp only [h, List.getLast?_nil, if_true, anota, List.append_assoc, List.cons_append,
      List.nil_append]
  · have hb := List.getLast?_eq_some_getLast h
    simp only [hb, h, if_false, Option.toList_some]
    rfl

def trazaCC (k : KernelShm) (h : CabTcp) : List Accion :=
  let i := h.idDestino
  [.bloquearAcceso, .acceso i, .acceso i, .acceso i] ++
    (if h.conexionAceptada < 0 then []
      else .acceso i :: if (k.CXs i).TX = [] then [.listaVacia] else []) ++
    [.desbloquearAcceso, .barrera i]

theorem conCx_conCx (k : KernelShm) (i : Int) (f g : Conexion → Conexion) :
    (k.conCx i f).conCx i g = k.conCx i fun c => g (f c) := by
  unfold KernelShm.conCx
  simp only [Function.update_idem, Function.update_self]

theorem ccNegativo_run (h : CabTcp) (hneg : h.conexionAceptada < 0) :
    ccNegativo h ⟨k, t⟩ = ((), ⟨k.conCx h.idDestino fun c => c.recibeCC h,
      t ++ [.acceso h.idDestino, .acceso h.idDestino, .acceso h.idDestino]⟩) := by
  unfold ccNegativo
  rw [cambiaCx_bind, cambiaCx_bind, conCx_conCx]
  simp only [cambiaCx, anota, bind_run, cambia, conCx_conCx, Conexion.recibeCC, if_pos hneg,
    List.append_assoc, List.cons_append, List.nil_append]

theorem ccPositivo_run (h : CabTcp) (hpos : ¬h.conexionAceptada < 0) :
    ccPositivo h ⟨k, t⟩ = ((),
      ⟨({ k with buffersLibres := k.buffersLibres ++ (k.CXs h.idDestino).TX.getLast?.toList }).conCx
          h.idDestino fun c => c.recibeCC h,
        t ++ [.acceso h.idDestino, .acceso h.idDestino, .acceso h.idDestino] ++
          .acceso h.idDestino :: if (k.CXs h.idDestino).TX = [] then [.listaVacia] else []⟩) := by
  unfold ccPositivo
  rw [cambiaCx_bind, cambiaCx_bind, cambiaCx_bind, conCx_conCx, conCx_conCx, spliceLibres_run]
  refine Prod.ext rfl (Mundo.ext (KernelShm.ext rfl rfl rfl rfl ?_ rfl ?_ rfl rfl) ?_)
  · simp only [KernelShm.conCx, Function.update_self]
  · simp only [KernelShm.conCx, Function.update_idem, Function.update_self, Conexion.recibeCC,
      if_neg hpos]
  · simp only [KernelShm.conCx, Function.update_self, List.append_assoc]
    rfl

theorem casoCC_run (h : CabTcp) :
    casoCC h ⟨{ k with semaforo := true }, t ++ [.bloquearAcceso]⟩ =
      ((), ⟨k.trasCC h, t ++ trazaCC k h⟩) := by
  unfold casoCC
  rw [bind_run]
  by_cases hneg : h.conexionAceptada < 0
  · rw [if_pos hneg, ccNegativo_run h hneg, desbloquearAcceso_bind]
    simp only [esperaBarrera, anota, trazaCC, if_pos hneg, List.append_assoc, KernelShm.trasCC]
    rfl
  · rw [if_neg hneg, ccPositivo_run h hneg, desbloquearAcceso_bind]
    simp only [esperaBarrera, anota, trazaCC, if_neg hneg, List.append_assoc, KernelShm.trasCC]
    rfl

def trazaCR (k : KernelShm) (ipRemota : InAddr) (p : Tpdu) : List Accion :=
  let i := asignConexionCR p k
  [.bloquearAcceso, .acceso i, .acceso i, .enviarTpdu ipRemota (k.bufferCC ipRemota p).pkt,
    .desbloquearAcceso, .barrera i]

theorem marcaCR_run (ipRemota : InAddr) (h : CabTcp) (resul : Int) :
    marcaCR ipRemota h resul ⟨k, t⟩ = (if resul = exNoTsap then resul else 1,
      ⟨k.conCx resul fun c => c.recibeCR ipRemota h resul, t ++ [.acceso resul]⟩) := by
  unfold marcaCR Conexion.recibeCR
  by_cases hr : resul = exNoTsap
  · simp only [if_pos hr]
    rfl
  · simp only [if_neg hr]
    rfl

theorem recibeCR_ipLocal (c : Conexion) (ipRemota : InAddr) (h : CabTcp) (resul : Int) :
    (c.recibeCR ipRemota h resul).ipLocal = c.ipLocal := by
  unfold Conexion.recibeCR
  split <;> rfl

theorem casoCR_run (ipRemota : InAddr) (p : Tpdu) :
    casoCR ipRemota p ⟨{ k with semaforo := true }, t ++ [.bloquearAcceso]⟩ =
      ((), ⟨k.trasCR ipRemota p, t ++ trazaCR k ipRemota p⟩) := by
  have hcr : asignConexionCR p { k with semaforo := true } = asignConexionCR p k := rfl
  have hip : ∀ (k' : KernelShm) (resul : Int),
      ((k'.conCx resul fun c => c.recibeCR ipRemota p.cabecera resul).CXs resul).ipLocal =
        (k'.CXs resul).ipLocal := fun k' resul => by
    simp only [KernelShm.conCx, Function.update_self, recibeCR_ipLocal]
  unfold casoCR
  rw [leeKernel_bind, hcr, tomaBuffer_bind, bind_run, marcaCR_run, leeCx_bind, hip,
    escribeLibre_bind, enviarTpdu_bind, desbloquearAcceso_bind]
  simp only [esperaBarrera, anota, List.append_assoc, trazaCR]
  rfl

theorem paquete_run (ipRemota : InAddr) (p : Tpdu) : paquete ipRemota p ⟨k, t⟩ =
    if p.cabecera.tipo = tipoCC then ((), ⟨k.trasCC p.cabecera, t ++ trazaCC k p.cabecera⟩)
    else if p.cabecera.tipo = tipoCR then
      ((), ⟨k.trasCR ipRemota p, t ++ trazaCR k ipRemota p⟩)
    else ((), ⟨{ k with semaforo := true }, t ++ [.bloquearAcceso]⟩) := by
  unfold paquete
  rw [bloquearAcceso_bind]
  by_cases hcc : p.cabecera.tipo = tipoCC
  · rw [if_pos hcc, if_pos hcc, casoCC_run]
  · rw [if_neg hcc, if_neg hcc]
    by_cases hcr : p.cabecera.tipo = tipoCR
    · rw [if_pos hcr, if_pos hcr, casoCR_run]
    · rw [if_neg hcr, if_neg hcr, pure_run]

end Llamadas

end Ltm.Kernel
