import Mathlib.Logic.Function.Basic
import Mathlib.Data.List.Basic

/-! # The kernel's data: `ltmtypes.h` and `CONFP.h`

The connection table and the lists of the shared memory. An `int` of the source is an `Int`, a port
of the table or of a packet a `UInt16`, the port of a `t_direccion` an `Int16`. `KERNEL->CXs[k]` is
the `k`-th `Conexion` of the memory that the array starts, for every `int` `k`: the table is the
indices that satisfy `EnTabla`, at the others the same memory holds something else. What an access
there does is not modelled beyond the trace: a definition goes on as if that memory were apart, and
the statements that need it assume that no step leaves the table (`Tpdu.Dentro`) or follow a trace
only as far as the table (`hastaFuera`).
-/

namespace Ltm.Kernel
set_option autoImplicit false
set_option maxHeartbeats 250000

/-! ## Constants -/

abbrev numMaxCXs : ℕ := 8
abbrev maxDatos : ℕ := 1024
abbrev numMaxRTx : Int := 6
abbrev noConfirmado : Int := 1

abbrev exOk : Int := 0
abbrev exBadTid : Int := -1
abbrev exCDup : Int := -2
abbrev exNet : Int := -3
abbrev exKernel : Int := -4
abbrev exNoTsap : Int := -6
abbrev exNoData : Int := -7
abbrev exInva : Int := -9
abbrev exMaxC : Int := -10

abbrev tipoCR : Int := 101
abbrev tipoCC : Int := 102
abbrev tipoDatos : Int := 103
abbrev tipoAck : Int := 104

/-! ## Packets and buffers -/

abbrev InAddr := UInt32

structure TDireccion where
  ip : InAddr
  puerto : Int16
  deriving DecidableEq, Repr

structure CabTcp where
  tipo : Int
  idLocal : Int
  idDestino : Int
  puertoOrig : UInt16
  puertoDest : UInt16
  ipLocal : InAddr
  ipDestino : InAddr
  conexionAceptada : Int
  tamanhoDatos : Int
  numSeqAck : Int
  deriving DecidableEq, Repr

structure Tpdu where
  cabecera : CabTcp
  datos : List UInt8
  deriving DecidableEq, Repr

/-- A list node with its `buf_pkt`: `nodo` tells the nodes apart, `pkt` is the packet as the code has
written it. The pointer of that name leads into a frame of `buscar_buffer_libre` that is gone
(`Nodo.Contenedor`), so what `enviar_tpdu` reads there is a parameter of its own (`Lectura`). -/
structure BufPkt where
  nodo : ℕ
  pkt : Tpdu
  estadoPkt : Int
  contadorRtx : Int
  numSecuencia : Int
  deriving DecidableEq, Repr

/-! ## The table -/

inductive EstadoCx
  | closed
  | listen
  | connect
  | established
  deriving DecidableEq, Repr

structure Conexion where
  apPid : Int
  puertoOrigen : UInt16
  puertoDestino : UInt16
  celdaOcupada : Int
  estadoCx : EstadoCx
  resultadoPeticion : Int
  idDestino : Int
  ipDestino : InAddr
  ipLocal : InAddr
  primitivaDormida : Bool
  resultadoPrimitiva : Int
  TX : List BufPkt
  deriving DecidableEq, Repr

/-- `kernel_shm_t`. `semaforo` says that `SEMAFORO` is held. `nodos` counts the list nodes created,
and `basura n` is what the storage of the `n`-th of them holds before the code writes it. Of `CXs` the
table is what is `EnTabla`; a section that goes beyond it is not defined from there on (`hastaFuera`). -/
@[ext] structure KernelShm where
  interfaz : String
  numCXs : Int
  semaforo : Bool
  numBufPkts : UInt16
  buffersLibres : List BufPkt
  CXsLibres : List Int
  CXs : Int → Conexion
  nodos : ℕ
  basura : ℕ → BufPkt

def EnTabla (i : Int) : Prop := 0 ≤ i ∧ i < numMaxCXs

instance (i : Int) : Decidable (EnTabla i) := inferInstanceAs (Decidable (_ ∧ _))

def KernelShm.ocupada (k : KernelShm) (i : Int) : Prop := (k.CXs i).celdaOcupada ≠ 0

instance (k : KernelShm) (i : Int) : Decidable (k.ocupada i) := inferInstanceAs (Decidable (_ ≠ _))

/-! ## Start-up -/

/-- A cell of the memory that `CreaMemoriaKERNEL` has cleared. -/
def Conexion.nula : Conexion :=
  ⟨0, 0, 0, 0, .closed, 0, 0, 0, 0, false, 0, []⟩

/-- `inicializar_CXs_libres`. -/
def inicializarCXsLibres (k : KernelShm) : KernelShm :=
  { k with CXsLibres := k.CXsLibres ++ (List.range numMaxCXs).map Int.ofNat }

/-- The initialisation at the head of `bucle_principal`. -/
def iniciaKernel (numBufPkts : UInt16) (k : KernelShm) : KernelShm :=
  inicializarCXsLibres
    { k with
      numCXs := 0
      numBufPkts := numBufPkts
      semaforo := false
      CXs := fun i => if EnTabla i then { k.CXs i with estadoCx := .closed, TX := [] } else k.CXs i
      buffersLibres := []
      CXsLibres := [] }

/-- The kernel that the daemon's loop starts with: `fuera` is the memory around the table. -/
def kernelInicial (interfaz : String) (numBufPkts : UInt16) (fuera : Int → Conexion)
    (basura : ℕ → BufPkt) : KernelShm :=
  iniciaKernel numBufPkts
    { interfaz := interfaz
      numCXs := 0
      semaforo := false
      numBufPkts := 0
      buffersLibres := []
      CXsLibres := []
      CXs := fun i => if EnTabla i then .nula else fuera i
      nodos := 0
      basura := basura }

def Tpdu.nulo : Tpdu := ⟨⟨0, 0, 0, 0, 0, 0, 0, 0, 0, 0⟩, []⟩

def ccPara (idDestino conexionAceptada : Int) : Tpdu :=
  { Tpdu.nulo with
    cabecera :=
      { Tpdu.nulo.cabecera with
        tipo := tipoCC
        idDestino := idDestino
        conexionAceptada := conexionAceptada } }

/-- The kernel of a daemon started with its default arguments, in cleared memory. -/
def kernelPorDefecto : KernelShm :=
  kernelInicial "eth0" 100 (fun _ => .nula) fun n => ⟨n, .nulo, 0, 0, 0⟩

end Ltm.Kernel
