import Ltm.Kernel.Types

/-! # The helpers of `FUNCP.cc`

Each loop over the table returns the first index that passes its test (`primera`). The helpers that
only read the kernel take it as an argument.
-/

namespace Ltm.Kernel
set_option autoImplicit false
set_option maxHeartbeats 250000

/-- `for (i = 0; i < NUM_MAX_CXs; i++) if (p) { … = i; break; }` with the value before the loop. -/
def primera (p : ℕ → Prop) [DecidablePred p] (porDefecto : Int) : Int :=
  (((List.range numMaxCXs).find? fun i => p i).map Int.ofNat).getD porDefecto

/-! ## The search loops -/

/-- An `int16_t` port against the `uint16_t` port of a cell, both promoted to `int`. -/
def mismoPuerto (puerto : UInt16) (t : Int16) : Prop := (puerto.toNat : Int) = t.toInt

instance (puerto : UInt16) (t : Int16) : Decidable (mismoPuerto puerto t) :=
  inferInstanceAs (Decidable (_ = _))

def buscarCeldaLibre (k : KernelShm) : Int :=
  primera (fun i => (k.CXs i).celdaOcupada = 0) 0

/-- A cell that `buscar_connect_repetido` takes for a repeated connect. -/
def connectRepetido (c : Conexion) (origen destino : TDireccion) : Prop :=
  (c.ipDestino = destino.ip ∧ mismoPuerto c.puertoDestino destino.puerto) ∨
    mismoPuerto c.puertoOrigen origen.puerto

instance (c : Conexion) (origen destino : TDireccion) :
    Decidable (connectRepetido c origen destino) :=
  inferInstanceAs (Decidable ((_ ∧ _) ∨ _))

def buscarConnectRepetido (k : KernelShm) (origen destino : TDireccion) : Int :=
  primera (fun i => connectRepetido (k.CXs i) origen destino) (-1)

def buscarListenRepetido (k : KernelShm) (escucha : TDireccion) : Int :=
  primera (fun i => mismoPuerto (k.CXs i).puertoOrigen escucha.puerto) (-1)

/-- A cell that `asign_conexion_CR` accepts for the header of a CR. -/
def encaja (c : Conexion) (h : CabTcp) : Prop :=
  h.ipDestino = c.ipLocal ∧ h.puertoDest = c.puertoOrigen ∧
    ((c.ipDestino = 0 ∧ c.puertoDestino = 0 ∧ c.estadoCx = .listen) ∨
      (c.ipDestino = h.ipLocal ∧ c.puertoDestino = 0 ∧ c.estadoCx = .listen) ∨
      (c.ipDestino = h.ipLocal ∧ c.puertoDestino = h.puertoOrig ∧ c.estadoCx = .listen))

instance (c : Conexion) (h : CabTcp) : Decidable (encaja c h) :=
  inferInstanceAs (Decidable (_ ∧ _ ∧ (_ ∨ _ ∨ _)))

def asignConexionCR (p : Tpdu) (k : KernelShm) : Int :=
  primera (fun i => encaja (k.CXs i) p.cabecera) exNoTsap

/-- `buscar_puerto_libre`: each turn draws a port from a value of `rand()` and looks for it in the
table as it stands then; `none` where the turns given do not end the search. -/
def buscarPuertoLibre : List (ℕ × KernelShm) → Option UInt16
  | [] => none
  | (r, k) :: vueltas =>
    let puerto := UInt16.ofNat (1 + r % 32767)
    if primera (fun i => (k.CXs i).puertoOrigen = puerto) (-1) = -1 then some puerto
    else buscarPuertoLibre vueltas

/-! ## Parameters -/

/-- An entry of `getifaddrs`: its name, and the family and address of `ifa_addr` unless null. -/
structure Interfaz where
  nombre : String
  direccion : Option (ℕ × InAddr)
  deriving DecidableEq, Repr

abbrev afInet : ℕ := 2

/-- `obtener_IP_local`: the value returned and the address it leaves in `*ip`; `none` is a failed
`getifaddrs`. -/
def obtenerIPLocal (interfaces : Option (List Interfaz)) (nombre : String) (ip : InAddr) :
    Int × InAddr :=
  match interfaces with
  | none => (0, ip)
  | some lista =>
    (1, (lista.findSome? fun a => match a.direccion with
      | some (familia, direccion) =>
        if a.nombre = nombre ∧ familia = afInet then some direccion else none
      | none => none).getD ip)

/-- What a call finds outside the kernel: the result of `ltm_get_kernel`, the thread identifier, the
interfaces, and the turns of `buscar_puerto_libre`. -/
structure Entorno where
  getKernel : Int
  pid : Int
  interfaces : Option (List Interfaz)
  vueltas : List (ℕ × KernelShm)

/-- A process that has found the kernel, and has no interfaces to look for. -/
def entornoVacio : Entorno := ⟨0, 0, none, []⟩

/-- `if (ip.s_addr == 0) … obtener_IP_local`: the completed address, or `none` for `return -1`. -/
def completarIP (e : Entorno) (interfaz : String) (origen : TDireccion) : Option TDireccion :=
  if origen.ip = 0 then
    let r := obtenerIPLocal e.interfaces interfaz origen.ip
    if r.1 = 0 then none else some { origen with ip := r.2 }
  else some origen

/-- `if (puerto == 0) puerto = buscar_puerto_libre()`. -/
def completarPuerto (e : Entorno) (origen : TDireccion) : Option TDireccion :=
  if origen.puerto = 0 then (buscarPuertoLibre e.vueltas).map fun p => { origen with puerto := p.toInt16 }
  else some origen

/-- `comprobar_parametros`, case `'c'`: the value returned and the local address it leaves; `none`
while the search for a free port goes on. -/
def comprobarConnect (e : Entorno) (interfaz : String) (destino origen : TDireccion) :
    Option (Int × TDireccion) :=
  match completarIP e interfaz origen with
  | none => some (-1, origen)
  | some origen' =>
    (completarPuerto e origen').map fun origen'' =>
      (if destino.puerto = 0 ∨ destino.ip = 0 then -1 else 0, origen'')

def comprobarListen (e : Entorno) (interfaz : String) (escucha : TDireccion) : Int × TDireccion :=
  match completarIP e interfaz escucha with
  | none => (-1, escucha)
  | some escucha' => (if escucha'.puerto = 0 then -1 else 0, escucha')

/-! ## Packets and buffers -/

/-- `memcpy(destino, origen, n)` for the first bytes of an area. -/
def memcpy (destino origen : List UInt8) (n : Int) : List UInt8 :=
  origen.take n.toNat ++ destino.drop n.toNat

/-- `crear_pkt`: the fields it does not write keep what the packet held. -/
def crearPkt (pkt : Tpdu) (tipo : Int) (destino origen : TDireccion) (datos : List UInt8)
    (longitud idLocal idDestino : Int) : Tpdu where
  cabecera :=
    { pkt.cabecera with
      tipo := tipo
      puertoDest := destino.puerto.toUInt16
      puertoOrig := origen.puerto.toUInt16
      ipDestino := destino.ip
      ipLocal := origen.ip
      idDestino := idDestino
      idLocal := idLocal
      tamanhoDatos := longitud }
  datos := memcpy pkt.datos datos longitud

/-- The buffer that `buscar_buffer_libre` returns: the first free one, or a new one. -/
def proximoBuffer (k : KernelShm) : BufPkt :=
  k.buffersLibres.head?.getD { k.basura k.nodos with nodo := k.nodos }

def buscarBufferLibre (k : KernelShm) : KernelShm :=
  { k with
    buffersLibres := if k.buffersLibres = [] then [proximoBuffer k] else k.buffersLibres
    nodos := if k.buffersLibres = [] then k.nodos + 1 else k.nodos }

end Ltm.Kernel
