import Ltm.Kernel.Funcp

/-! # Sections of code

A `Seccion` is a stretch of the code of one process between two points where it stops: a return, or
a wait on a barrier. It acts on the kernel and leaves a trace of what it does with the semaphore, the
cells `KERNEL->CXs[k]`, the barriers and the network. A section that would wait for the semaphore is
one that runs later, so `bloquearAcceso` only takes it.
-/

namespace Ltm.Kernel
set_option autoImplicit false
set_option maxHeartbeats 250000

inductive Accion
  | bloquearAcceso
  | desbloquearAcceso
  /-- a read or write of `KERNEL->CXs[i]` -/
  | acceso (i : Int)
  /-- `espera_barrera` on `KERNEL->CXs[i].barC` -/
  | barrera (i : Int)
  /-- `enviar_tpdu` is called for the packet that the code has built as `pkt` -/
  | enviarTpdu (ip : InAddr) (pkt : Tpdu)
  /-- a `pop_front` of, or a `splice` from, an empty list -/
  | listaVacia
  /-- the daemon is back at `ltm_wait4event` -/
  | ltmWait4event
  deriving DecidableEq, Repr

@[ext] structure Mundo where
  kernel : KernelShm
  traza : List Accion

abbrev Seccion := StateM Mundo

/-! ## Operations -/

def anota (a : Accion) : Seccion Unit := fun m => ((), { m with traza := m.traza ++ [a] })

def leeKernel : Seccion KernelShm := fun m => (m.kernel, m)

def cambia (f : KernelShm → KernelShm) : Seccion Unit := fun m =>
  ((), { m with kernel := f m.kernel })

def bloquearAcceso : Seccion Unit := do
  anota .bloquearAcceso
  cambia fun k => { k with semaforo := true }

def desbloquearAcceso : Seccion Unit := do
  anota .desbloquearAcceso
  cambia fun k => { k with semaforo := false }

/-- `bloquea_llamada` and `despierta_conexion`. -/
def esperaBarrera (i : Int) : Seccion Unit := anota (.barrera i)

def enviarTpdu (ip : InAddr) (pkt : Tpdu) : Seccion Unit := anota (.enviarTpdu ip pkt)

def KernelShm.conCx (k : KernelShm) (i : Int) (f : Conexion → Conexion) : KernelShm :=
  { k with CXs := Function.update k.CXs i (f (k.CXs i)) }

@[simp] theorem KernelShm.conCx_self (k : KernelShm) (i : Int) (f : Conexion → Conexion) :
    (k.conCx i f).CXs i = f (k.CXs i) := Function.update_self i _ k.CXs

theorem KernelShm.conCx_of_ne (k : KernelShm) {i j : Int} (f : Conexion → Conexion) (h : j ≠ i) :
    (k.conCx i f).CXs j = k.CXs j := Function.update_of_ne h _ k.CXs

def leeCx (i : Int) : Seccion Conexion := do
  anota (.acceso i)
  return (← leeKernel).CXs i

def cambiaCx (i : Int) (f : Conexion → Conexion) : Seccion Unit := do
  anota (.acceso i)
  cambia fun k => k.conCx i f

/-- `KERNEL->CXs_libres.pop_front()`. -/
def popFront : Seccion Unit := do
  if (← leeKernel).CXsLibres = [] then
    anota .listaVacia
  else
    cambia fun k => { k with CXsLibres := k.CXsLibres.tail }

/-- `it = buscar_buffer_libre()`; the value is `*it`. -/
def tomaBuffer : Seccion BufPkt := fun m =>
  (proximoBuffer m.kernel, { m with kernel := buscarBufferLibre m.kernel })

/-- Write the first buffer of `buffers_libres`. -/
def escribeLibre (b : BufPkt) : Seccion Unit :=
  cambia fun k => { k with buffersLibres := b :: k.buffersLibres.tail }

/-- `TX.splice(TX.end(), buffers_libres, buffers_libres.begin())` for the list `TX` of the cell `i`,
with `b` written to the buffer. -/
def spliceTX (i : Int) (b : BufPkt) : Seccion Unit := do
  anota (.acceso i)
  cambia fun k =>
    ({ k with buffersLibres := k.buffersLibres.tail }).conCx i fun c => { c with TX := c.TX ++ [b] }

/-- `buffers_libres.splice(buffers_libres.end(), TX, --TX.end())` for the list `TX` of the cell
`i`. -/
def spliceLibres (i : Int) : Seccion Unit := do
  match (← leeCx i).TX.getLast? with
  | none => anota .listaVacia
  | some b =>
    cambia fun k =>
      ({ k with buffersLibres := k.buffersLibres ++ [b] }).conCx i fun c =>
        { c with TX := c.TX.dropLast }

/-! ## Symbolic execution -/

section Run
variable {α β : Type} {k : KernelShm} {t : List Accion} (f : α → Seccion β) (g : Unit → Seccion β)

theorem pure_run (a : α) (m : Mundo) : (pure a : Seccion α) m = (a, m) := (rfl)

theorem bind_run (c : Seccion α) (m : Mundo) : (c >>= f) m = f (c m).1 (c m).2 := (rfl)

theorem bloquearAcceso_bind : (bloquearAcceso >>= g) ⟨k, t⟩ =
    g () ⟨{ k with semaforo := true }, t ++ [.bloquearAcceso]⟩ := (rfl)

theorem desbloquearAcceso_bind : (desbloquearAcceso >>= g) ⟨k, t⟩ =
    g () ⟨{ k with semaforo := false }, t ++ [.desbloquearAcceso]⟩ := (rfl)

theorem esperaBarrera_bind (i : Int) : (esperaBarrera i >>= g) ⟨k, t⟩ =
    g () ⟨k, t ++ [.barrera i]⟩ := (rfl)

theorem enviarTpdu_bind (ip : InAddr) (p : Tpdu) : (enviarTpdu ip p >>= g) ⟨k, t⟩ =
    g () ⟨k, t ++ [.enviarTpdu ip p]⟩ := (rfl)

theorem cambia_bind (h : KernelShm → KernelShm) : (cambia h >>= g) ⟨k, t⟩ = g () ⟨h k, t⟩ := (rfl)

theorem leeKernel_bind (h : KernelShm → Seccion β) : (leeKernel >>= h) ⟨k, t⟩ = h k ⟨k, t⟩ := (rfl)

theorem leeCx_bind (i : Int) (h : Conexion → Seccion β) : (leeCx i >>= h) ⟨k, t⟩ =
    h (k.CXs i) ⟨k, t ++ [.acceso i]⟩ := (rfl)

theorem cambiaCx_bind (i : Int) (h : Conexion → Conexion) : (cambiaCx i h >>= g) ⟨k, t⟩ =
    g () ⟨k.conCx i h, t ++ [.acceso i]⟩ := (rfl)

theorem tomaBuffer_bind (h : BufPkt → Seccion β) : (tomaBuffer >>= h) ⟨k, t⟩ =
    h (proximoBuffer k) ⟨buscarBufferLibre k, t⟩ := (rfl)

theorem escribeLibre_bind (b : BufPkt) : (escribeLibre b >>= g) ⟨k, t⟩ =
    g () ⟨{ k with buffersLibres := b :: k.buffersLibres.tail }, t⟩ := (rfl)

theorem spliceTX_bind (i : Int) (b : BufPkt) : (spliceTX i b >>= g) ⟨k, t⟩ =
    g () ⟨({ k with buffersLibres := k.buffersLibres.tail }).conCx i fun c =>
      { c with TX := c.TX ++ [b] }, t ++ [.acceso i]⟩ := (rfl)

end Run

end Ltm.Kernel
