import Ltm.Kernel.Seccion

/-! # The primitives: `INTERFAZ.cc`

`tConnect`, `tListen` and `tSend` run a call up to its first wait; `tConnectSigue`, `tListenSigue` and
`tSendSigue` go on when the wait is over. A step of a call ends with the value it returns, with a
wait on the barrier of a cell together with the local variables that the rest of the call reads, or
in the search for a free port.
-/

namespace Ltm.Kernel
set_option autoImplicit false
set_option maxHeartbeats 250000

/-- The local variables of `t_send` in its loop; `datos` are the bytes from `puntero_datos` on. -/
structure SendLocal where
  id : Int
  datos : List UInt8
  tamanho : Int
  numeroSends : ℕ
  numeroSecuencia : Int
  datosATransmitir : Int
  datosEnviados : Int
  tsapOrigen : TDireccion
  tsapDestino : TDireccion
  deriving DecidableEq, Repr

/-- What a waiting call still needs: `indice_celda`, or the variables of `t_send`. -/
inductive Local
  | connect (indiceCelda : Int)
  | listen (indiceCelda : Int)
  | send (l : SendLocal)
  deriving DecidableEq, Repr

/-- The end of a step of a call. `busca` is the loop of `buscar_puerto_libre`. -/
inductive Paso
  | retorna (r : Int)
  | duerme (i : Int) (l : Local)
  | busca
  deriving DecidableEq, Repr

/-! ## `t_connect` -/

def Conexion.abreConnect (c : Conexion) (pid : Int) (destino origen : TDireccion) : Conexion :=
  { c with
    apPid := pid
    estadoCx := .connect
    celdaOcupada := 1
    ipDestino := destino.ip
    ipLocal := origen.ip
    puertoOrigen := origen.puerto.toUInt16
    puertoDestino := destino.puerto.toUInt16 }

/-- The buffer of the CR that `t_connect` sends for the cell `i`. -/
def bufferCR (b : BufPkt) (i : Int) (destino origen : TDireccion) : BufPkt :=
  { b with contadorRtx := numMaxRTx, pkt := crearPkt b.pkt tipoCR destino origen [] 0 i 0 }

/-- `t_connect` with the semaphore held, once its two tests are passed. -/
def ocupaConnect (pid : Int) (destino origen : TDireccion) : Seccion Paso := do
  let i := buscarCeldaLibre (← leeKernel)
  popFront
  cambia fun k => { k with numCXs := k.numCXs + 1 }
  cambiaCx i fun c => c.abreConnect pid destino origen
  let b := bufferCR (← tomaBuffer) i destino origen
  spliceTX i b
  enviarTpdu destino.ip b.pkt
  desbloquearAcceso
  esperaBarrera i
  return .duerme i (.connect i)

def criticaConnect (pid : Int) (destino origen : TDireccion) : Seccion Paso := do
  bloquearAcceso
  if (← leeKernel).numCXs = numMaxCXs then
    desbloquearAcceso
    return .retorna exMaxC
  else if buscarConnectRepetido (← leeKernel) origen destino > -1 then
    desbloquearAcceso
    return .retorna exCDup
  else
    ocupaConnect pid destino origen

/-- `t_connect` up to its wait, with `*tsap_origen` as it leaves it. -/
def tConnect (e : Entorno) (destino origen : TDireccion) : Seccion (TDireccion × Paso) := do
  if e.getKernel < 0 then
    return (origen, .retorna exKernel)
  match comprobarConnect e (← leeKernel).interfaz destino origen with
  | none => return (origen, .busca)
  | some (r, origen') =>
    if r = -1 then
      return (origen', .retorna exInva)
    return (origen', ← criticaConnect e.pid destino origen')

def tConnectSigue (i : Int) : Seccion Paso := do
  bloquearAcceso
  let res := (← leeCx i).resultadoPeticion
  if (← leeCx i).estadoCx = .closed then
    cambia fun k => { k with numCXs := k.numCXs - 1 }
    desbloquearAcceso
    return .retorna res
  else
    desbloquearAcceso
    return .retorna i

/-! ## `t_listen` -/

/-- The cell that `t_listen` fills in; without `tsap_remota` any remote address will do. -/
def Conexion.abreListen (c : Conexion) (pid : Int) (escucha : TDireccion)
    (remota : Option TDireccion) : Conexion :=
  { c with
    apPid := pid
    estadoCx := .listen
    celdaOcupada := 1
    ipLocal := escucha.ip
    puertoOrigen := escucha.puerto.toUInt16
    ipDestino := (remota.map TDireccion.ip).getD 0
    puertoDestino := (remota.map fun t => t.puerto.toUInt16).getD 0 }

def ocupaListen (pid : Int) (escucha : TDireccion) (remota : Option TDireccion) : Seccion Paso := do
  let i := buscarCeldaLibre (← leeKernel)
  cambia fun k => { k with numCXs := k.numCXs + 1 }
  cambiaCx i fun c => c.abreListen pid escucha remota
  desbloquearAcceso
  esperaBarrera i
  return .duerme i (.listen i)

def criticaListen (pid : Int) (escucha : TDireccion) (remota : Option TDireccion) :
    Seccion Paso := do
  bloquearAcceso
  if (← leeKernel).numCXs = numMaxCXs then
    desbloquearAcceso
    return .retorna exMaxC
  else if buscarListenRepetido (← leeKernel) escucha ≥ 0 then
    desbloquearAcceso
    return .retorna exCDup
  else
    ocupaListen pid escucha remota

/-- `t_listen` up to its wait, with `*tsap_escucha` as it leaves it. -/
def tListen (e : Entorno) (escucha : TDireccion) (remota : Option TDireccion) :
    Seccion (TDireccion × Paso) := do
  if e.getKernel < 0 then
    return (escucha, .retorna exKernel)
  let (r, escucha') := comprobarListen e (← leeKernel).interfaz escucha
  if r = -1 then
    return (escucha', .retorna exInva)
  return (escucha', ← criticaListen e.pid escucha' remota)

def tListenSigue (i : Int) : Seccion Paso := do
  bloquearAcceso
  let res := (← leeCx i).resultadoPeticion
  if (← leeCx i).estadoCx = .listen then
    desbloquearAcceso
    return .retorna res
  else
    desbloquearAcceso
    return .retorna i

/-! ## `t_send` -/

/-- The conversion of a number to `int`. -/
def aInt (n : Int) : Int := n.bmod 4294967296

/-- The buffer of a DATOS packet as the loop of `t_send` leaves it; `idDestino` is the cell's. -/
def bufferDatos (b : BufPkt) (l : SendLocal) (idDestino : Int) : BufPkt :=
  let datos := memcpy b.pkt.datos l.datos l.tamanho
  { b with
    pkt := crearPkt { b.pkt with datos := datos } tipoDatos l.tsapDestino l.tsapOrigen datos l.tamanho
      l.id idDestino
    estadoPkt := noConfirmado
    contadorRtx := numMaxRTx
    numSecuencia := l.numeroSecuencia }

/-- The local variables after a packet has been sent, `n` more to go. -/
def SendLocal.avanza (l : SendLocal) (n : ℕ) : SendLocal :=
  let resto := aInt (l.datosATransmitir - l.tamanho)
  { l with
    datos := l.datos.drop l.tamanho.toNat
    numeroSecuencia := l.numeroSecuencia + 1
    numeroSends := n
    datosATransmitir := resto
    datosEnviados := aInt (l.datosEnviados + l.tamanho)
    tamanho := if n = 1 then resto else l.tamanho }

/-- `while (numero_sends > 0)`, entered with the semaphore held. -/
def bucleSend : ℕ → SendLocal → Seccion Paso
  | 0, l => do
    desbloquearAcceso
    return .retorna l.datosEnviados
  | n + 1, l => do
    if (← leeCx l.id).TX.length < (← leeKernel).numBufPkts.toNat then
      let b ← tomaBuffer
      let b := bufferDatos b l (← leeCx l.id).idDestino
      spliceTX l.id b
      enviarTpdu l.tsapDestino.ip b.pkt
      bucleSend n (l.avanza n)
    else
      cambiaCx l.id fun c => { c with primitivaDormida := true }
      desbloquearAcceso
      esperaBarrera l.id
      return .duerme l.id (.send l)

/-- `numero_sends` before the loop; below zero it is as good as zero. -/
def cuantosSends (longitud : UInt64) : ℕ :=
  if longitud.toNat ≤ maxDatos then 1
  else (aInt (aInt (longitud.toNat / maxDatos : ℕ) +
    if longitud.toNat % maxDatos > 0 then 1 else 0)).toNat

def SendLocal.nuevo (id : Int) (datos : List UInt8) (longitud : UInt64) (c : Conexion) :
    SendLocal where
  id := id
  datos := datos
  tamanho := if longitud.toNat ≤ maxDatos then longitud.toNat else maxDatos
  numeroSends := cuantosSends longitud
  numeroSecuencia := 0
  datosATransmitir := aInt longitud.toNat
  datosEnviados := 0
  tsapOrigen := ⟨c.ipLocal, c.puertoOrigen.toInt16⟩
  tsapDestino := ⟨c.ipDestino, c.puertoDestino.toInt16⟩

/-- `t_send` up to its first wait; `datos` is `none` for a null pointer. The value returned is the
one before its conversion to `size_t`. -/
def tSend (e : Entorno) (id : Int) (datos : Option (List UInt8)) (longitud : UInt64) :
    Seccion Paso := do
  if e.getKernel < 0 then
    return .retorna exKernel
  match datos with
  | none => return .retorna exNoData
  | some datos =>
    bloquearAcceso
    if (← leeCx id).estadoCx ≠ .established then
      desbloquearAcceso
      return .retorna exBadTid
    else
      let l := SendLocal.nuevo id datos longitud (← leeCx id)
      bucleSend l.numeroSends l

def tSendSigue (l : SendLocal) : Seccion Paso := do
  bloquearAcceso
  cambiaCx l.id fun c => { c with primitivaDormida := false }
  if (← leeCx l.id).resultadoPrimitiva = exNet then
    desbloquearAcceso
    return .retorna exNet
  else
    bucleSend l.numeroSends l

/-! ## Calls -/

inductive Llamada
  | connect (e : Entorno) (destino origen : TDireccion)
  | listen (e : Entorno) (escucha : TDireccion) (remota : Option TDireccion)
  | send (e : Entorno) (id : Int) (datos : Option (List UInt8)) (longitud : UInt64)

/-- A call up to its first wait. -/
def Llamada.empieza : Llamada → Seccion Paso
  | .connect e destino origen => do
    let r ← tConnect e destino origen
    return r.2
  | .listen e escucha remota => do
    let r ← tListen e escucha remota
    return r.2
  | .send e id datos longitud => tSend e id datos longitud

/-- A call from the end of a wait up to the next one. -/
def Local.sigue : Local → Seccion Paso
  | .connect i => tConnectSigue i
  | .listen i => tListenSigue i
  | .send l => tSendSigue l

end Ltm.Kernel
