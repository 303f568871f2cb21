import Ltm.Kernel.Seccion

/-! # The daemon: `bucle_principal`

`paquete` is one turn of the daemon's loop that received a packet: the TPDU at `pkt + offset` and the
source address in `ip_remota`, whatever `recibir_tpdu` left there. A turn ends back at
`ltm_wait4event`; the last thing it does may be a wait on a barrier.
-/

namespace Ltm.Kernel
set_option autoImplicit false
set_option maxHeartbeats 250000

/-! ## `case CC` -/

def ccNegativo (h : CabTcp) : Seccion Unit := do
  cambiaCx h.idDestino fun c => { c with estadoCx := .closed }
  cambiaCx h.idDestino fun c => { c with celdaOcupada := 0 }
  cambiaCx h.idDestino fun c => { c with resultadoPeticion := h.conexionAceptada }

/-- A positive CC: `splice` takes the CR out of `TX`. -/
def ccPositivo (h : CabTcp) : Seccion Unit := do
  cambiaCx h.idDestino fun c => { c with estadoCx := .established }
  cambiaCx h.idDestino fun c => { c with idDestino := h.idLocal }
  cambiaCx h.idDestino fun c => { c with resultadoPeticion := exOk }
  spliceLibres h.idDestino

def casoCC (h : CabTcp) : Seccion Unit := do
  (if h.conexionAceptada < 0 then ccNegativo h else ccPositivo h)
  desbloquearAcceso
  esperaBarrera h.idDestino

/-! ## `case CR` -/

def Conexion.aceptaCR (c : Conexion) (ipRemota : InAddr) (h : CabTcp) : Conexion :=
  { c with
    estadoCx := .established
    resultadoPeticion := exOk
    puertoDestino := h.puertoOrig
    ipDestino := ipRemota
    idDestino := h.idLocal }

def Tpdu.conResultado (p : Tpdu) (r : Int) : Tpdu :=
  { p with cabecera := { p.cabecera with conexionAceptada := r } }

/-- The CC that answers the CR `h` from `ipRemota` for the cell `resul`, made in the packet `p`. -/
def paqueteCC (p : Tpdu) (ipLocal ipRemota : InAddr) (h : CabTcp) (resul : Int) : Tpdu :=
  crearPkt p tipoCC ⟨ipRemota, h.puertoOrig.toInt16⟩ ⟨ipLocal, h.puertoDest.toInt16⟩ [] 0 resul
    h.idLocal

/-- The two branches of `case CR`: no listener, or the cell `resul`; the value is
`conexion_aceptada`. -/
def marcaCR (ipRemota : InAddr) (h : CabTcp) (resul : Int) : Seccion Int :=
  if resul = exNoTsap then do
    cambiaCx resul fun c => { c with resultadoPeticion := resul }
    return resul
  else do
    cambiaCx resul fun c => c.aceptaCR ipRemota h
    return 1

/-- Without a listener `resul` is `EXNOTSAP` and the index of no cell: from `marcaCR` on the code is
outside the table. -/
def casoCR (ipRemota : InAddr) (p : Tpdu) : Seccion Unit := do
  let h := p.cabecera
  let resul := asignConexionCR p (← leeKernel)
  let b ← tomaBuffer
  let aceptada ← marcaCR ipRemota h resul
  let ipLocal := (← leeCx resul).ipLocal
  let b := { b with
    contadorRtx := numMaxRTx
    pkt := paqueteCC (b.pkt.conResultado aceptada) ipLocal ipRemota h resul }
  escribeLibre b
  enviarTpdu ipRemota b.pkt
  desbloquearAcceso
  esperaBarrera resul

/-! ## The loop -/

/-- `case PAQUETE`. Of the packet types only `CC` and `CR` have a case with code: `ACK` has an empty
one, and `DATOS` and the rest have none. -/
def paquete (ipRemota : InAddr) (p : Tpdu) : Seccion Unit := do
  bloquearAcceso
  if p.cabecera.tipo = tipoCC then
    casoCC p.cabecera
  else if p.cabecera.tipo = tipoCR then
    casoCR ipRemota p

/-- What `ltm_wait4event` reports. -/
inductive Evento
  | timeOut
  | interrup
  | paquete (ipRemota : InAddr) (p : Tpdu)

/-- One turn of the loop, up to the next `ltm_wait4event`. -/
def vuelta : Evento → Seccion Unit
  | .timeOut => anota .ltmWait4event
  | .interrup => anota .ltmWait4event
  | .paquete ipRemota p => do
    paquete ipRemota p
    anota .ltmWait4event

end Ltm.Kernel
