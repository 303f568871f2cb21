import Ltm.Comunicacion.Interfaz
import Ltm.Nodo.Maquina
import Ltm.Foundations.Runs

/-! # Receptions of the daemon

A turn of `bucle_principal` that receives a packet: `recibir_tpdu` fills the buffer `pkt`, and what
stands at `pkt + offset` is processed whatever `recibir_tpdu` has returned. After a failed or a short
reception these are bytes of earlier datagrams.
-/

namespace Ltm.Comunicacion
open ByteMemory Kernel Nodo Runs
set_option autoImplicit false
set_option maxHeartbeats 250000

/-- A host with the local variables of its daemon. -/
structure Anfitrion where
  estado : Estado
  daemon : LocalDaemon

inductive Hecho
  /-- the daemon is told of a packet, and `recvfrom` finds this -/
  | llega (l : Llegada) (para : Option ℕ)
  | otro (e : Suceso)

def LocalDaemon.recibe (d : LocalDaemon) (l : Llegada) : Int × LocalDaemon := recibirTpdu maxLongPkt d l

/-- `*puntero_pkt`. -/
def LocalDaemon.tpdu (d : LocalDaemon) : Tpdu := leeTpdu d.pkt d.offset

def pasoAnfitrion (a : Anfitrion) : Hecho → Option Anfitrion
  | .llega l para =>
    let d := (a.daemon.recibe l).2
    (paso a.estado (.recibe d.ipRemota d.tpdu para)).map fun s => ⟨s, d⟩
  | .otro (.recibe _ _ _) => none
  | .otro e => (paso a.estado e).map fun s => ⟨s, a.daemon⟩

/-- `recibir_tpdu` fails, or brings less than a header. -/
def Inservible (d : LocalDaemon) (l : Llegada) : Prop := (d.recibe l).1 < sizeofCabTcp

/-- The step changes no cell, no `TX` list and no free buffer, sends nothing and wakes nobody. -/
structure Inactiva (s s' : Estado) : Prop where
  CXs : s'.kernel.CXs = s.kernel.CXs
  buffersLibres : s'.kernel.buffersLibres = s.kernel.buffersLibres
  envios : ∀ ip p, .enviarTpdu ip p ∉ s'.ultima
  barreras : ∀ i, .barrera i ∉ s'.ultima

/-- What the daemon does with a reception. -/
def LocalDaemon.efecto (d : LocalDaemon) (l : Llegada) : Seccion Unit :=
  paquete (d.recibe l).2.ipRemota (d.recibe l).2.tpdu

/-- A reception that brings no header has no effect, and the effect of any other one does not depend on
what the daemon held before. -/
structure Limpia (a : Anfitrion) (l : Llegada) (a' : Anfitrion) : Prop where
  inservible : Inservible a.daemon l → Inactiva a.estado a'.estado
  servible : ¬Inservible a.daemon l → ∀ d : LocalDaemon, d.efecto l = a.daemon.efecto l

/-- The `tipo` that the daemon reads: at the end of the IP header, or where the last whole one ended, in
the bytes of the datagram over those of the earlier ones. -/
def tipoLeido (d : LocalDaemon) : Llegada → Int
  | .error => leeInt d.pkt d.offset
  | .datagrama _ octetos =>
    let pkt := put d.pkt 0 (octetos.take maxLongPkt)
    if (octetos.take maxLongPkt).length < lenCabIP pkt then leeInt pkt d.offset
    else leeInt pkt (lenCabIP pkt)

variable {d : LocalDaemon} {l : Llegada} {a a' : Anfitrion}

/-! ## What is read -/

theorem leeInt_memset {m : Mem} {n : ℕ} : leeInt (put m 0 (List.replicate n 0)) n = leeInt m n := by
  unfold leeInt
  rw [load_congr 4 _ m n fun x hx _ => put_replicate hx]

theorem tipo_tpdu (d : LocalDaemon) : d.tpdu.cabecera.tipo = leeInt d.pkt d.offset := (rfl)

theorem tipo_recibe (d : LocalDaemon) (l : Llegada) :
    (d.recibe l).2.tpdu.cabecera.tipo = tipoLeido d l := by
  rw [tipo_tpdu]
  cases l with
  | error => rfl
  | datagrama fuente octetos =>
      unfold LocalDaemon.recibe recibirTpdu recvfrom tipoLeido
      dsimp only
      rw [if_neg (by omega)]
      by_cases h : (octetos.take maxLongPkt).length <
          lenCabIP (put d.pkt 0 (octetos.take maxLongPkt))
      · rw [if_pos h, if_pos (by omega)]
      · rw [if_neg h, if_neg (by omega)]
        exact leeInt_memset

/-- The section looks at the header only. -/
theorem paquete_congr {p p' : Tpdu} (h : p.cabecera = p'.cabecera) (ip : InAddr) :
    paquete ip p = paquete ip p' := by
  obtain ⟨cabecera, datos⟩ := p
  obtain ⟨cabecera', datos'⟩ := p'
  obtain rfl : cabecera = cabecera' := h
  rfl

/-- The datagram, as it is cut, has a whole header behind its IP header. -/
theorem servible_datagrama (h : ¬Inservible d l) : ∃ fuente octetos, l = .datagrama fuente octetos ∧
    lenCabIP (put d.pkt 0 (octetos.take maxLongPkt)) + sizeofCabTcp ≤
      (octetos.take maxLongPkt).length := by
  have hneg : (-1 : Int) < sizeofCabTcp := by decide
  unfold Inservible LocalDaemon.recibe recibirTpdu recvfrom at h
  cases l with
  | error => exact absurd hneg h
  | datagrama fuente octetos =>
      refine ⟨fuente, octetos, rfl, ?_⟩
      dsimp only at h
      rw [if_neg (by omega)] at h
      split at h
      · exact absurd hneg h
      · simp only [sizeofCabTcp] at h ⊢
        omega

theorem lenCabIP_put {bs : List UInt8} (h : 0 < bs.length) (m m' : Mem) :
    lenCabIP (put m 0 bs) = lenCabIP (put m' 0 bs) := by
  rw [lenCabIP, lenCabIP, put_congr le_rfl (by omega)]

theorem recibe_datagrama {fuente : InAddr} {octetos : List UInt8} {n : ℕ}
    (hn : lenCabIP (put d.pkt 0 (octetos.take maxLongPkt)) = n)
    (hle : n ≤ (octetos.take maxLongPkt).length) :
    (d.recibe (.datagrama fuente octetos)).2 =
      ⟨put (put d.pkt 0 (octetos.take maxLongPkt)) 0 (List.replicate n 0), n, fuente⟩ := by
  unfold LocalDaemon.recibe recibirTpdu recvfrom
  dsimp only
  rw [hn, if_neg (by omega), if_neg (by omega)]
  rfl

theorem efecto_servible (h : ¬Inservible d l) (e : LocalDaemon) : e.efecto l = d.efecto l := by
  obtain ⟨fuente, octetos, rfl, hle⟩ := servible_datagrama h
  simp only [sizeofCabTcp] at hle
  generalize hn : lenCabIP (put d.pkt 0 (octetos.take maxLongPkt)) = n at hle
  have hne : lenCabIP (put e.pkt 0 (octetos.take maxLongPkt)) = n :=
    (lenCabIP_put (by omega) e.pkt d.pkt).trans hn
  unfold LocalDaemon.efecto
  rw [recibe_datagrama hn (by omega), recibe_datagrama hne (by omega)]
  refine paquete_congr (leeCabTcp_congr fun x h1 h2 => ?_) fuente
  -- the header lies behind what is cleared, in the bytes of the datagram
  dsimp only [sizeofCabTcp] at h1 h2 ⊢
  rw [put_replicate h1, put_replicate h1]
  exact put_congr (Nat.zero_le x) (by omega)

/-! ## What it does -/

theorem inactiva_iff {para : Option ℕ} (h : pasoAnfitrion a (.llega l para) = some a') :
    Inactiva a.estado a'.estado ↔
      tipoLeido a.daemon l ≠ tipoCC ∧ tipoLeido a.daemon l ≠ tipoCR := by
  obtain ⟨s, hs, rfl⟩ := Option.map_eq_some_iff.mp h
  rw [← tipo_recibe]
  cases transita_of_paso hs with
  | recibe hlibre hd he =>
      cases he with
      | cc ht =>
          refine iff_of_false (fun hin => ?_) fun hno => hno.1 ht
          exact hin.barreras (a.daemon.recibe l).2.tpdu.cabecera.idDestino
            (by simp [Estado.trasRecibir, trazaCC])
      | cr ht =>
          refine iff_of_false (fun hin => ?_) fun hno => hno.2 ht
          exact hin.barreras (asignConexionCR (a.daemon.recibe l).2.tpdu a.estado.kernel)
            (by simp [Estado.trasRecibir, trazaCR])
      | otro hcc hcr =>
          refine iff_of_true ⟨rfl, rfl, ?_, ?_⟩ ⟨hcc, hcr⟩
          · simp [Estado.trasRecibir]
          · simp [Estado.trasRecibir]

theorem limpia_iff_tipo {para : Option ℕ} (h : pasoAnfitrion a (.llega l para) = some a') :
    Limpia a l a' ↔ (Inservible a.daemon l →
      tipoLeido a.daemon l ≠ tipoCC ∧ tipoLeido a.daemon l ≠ tipoCR) := by
  constructor
  · exact fun hl hin => (inactiva_iff h).mp (hl.inservible hin)
  · exact fun hok => ⟨fun hin => (inactiva_iff h).mpr (hok hin), fun hs d => efecto_servible hs d⟩

def RecepcionLimpia (a : Anfitrion) (h : Hecho) (a' : Anfitrion) : Prop :=
  match h with
  | .llega l _ => Limpia a l a'
  | .otro _ => True

/-- At the place where the daemon looks after a failed or short reception there is no CC and no CR. -/
def SinRestoDePaquete (a : Anfitrion) : Hecho → Prop
  | .llega l _ => Inservible a.daemon l →
      tipoLeido a.daemon l ≠ tipoCC ∧ tipoLeido a.daemon l ≠ tipoCR
  | .otro _ => True

/-- In every run all receptions are clean exactly as long as the daemon finds no CC and no CR where it
looks after an unusable one. -/
theorem recepcionLimpia_iff {interfaz : String} {numBufPkts : UInt16} {fuera : Int → Conexion}
    {basura : ℕ → BufPkt} {pkt : Mem} {ip : InAddr} (hs : List Hecho) :
    Along pasoAnfitrion RecepcionLimpia
        ⟨inicial (kernelInicial interfaz numBufPkts fuera basura), ⟨pkt, 0, ip⟩⟩ hs ↔
      Along pasoAnfitrion (fun a h _ => SinRestoDePaquete a h)
        ⟨inicial (kernelInicial interfaz numBufPkts fuera basura), ⟨pkt, 0, ip⟩⟩ hs := by
  refine along_iff_along (fun _ => True) (fun a h _ => SinRestoDePaquete a h)
    (fun _ _ _ _ _ _ => trivial) (fun a h a' _ hp => ?_) hs trivial
  cases h with
  | llega l para => exact limpia_iff_tipo hp
  | otro e => exact Iff.rfl

def ccNegativa : Tpdu := { tpduVacia with cabecera := (ccPara 0 exNoTsap).cabecera }

/-- A connect is refused by a CC, and the daemon and the call meet at the barrier. -/
def fallo : List Hecho :=
  [.otro (.llama (conecta 80 1000)),
    .llega (.datagrama 0x0a000002 (cabIP 5 ++ bytesTpdu ccNegativa)) (some 0), .otro (.citaDaemon 0)]

/-- After a failed reception the CC is processed again. -/
theorem no_recepcionLimpia :
    ¬Along pasoAnfitrion RecepcionLimpia ⟨inicial kernelPorDefecto, ⟨fun _ => 0, 0, 0⟩⟩
      (fallo ++ [.llega .error none]) := by
  have hrun : ((run pasoAnfitrion ⟨inicial kernelPorDefecto, ⟨fun _ => 0, 0, 0⟩⟩ fallo).bind
      fun a => (pasoAnfitrion a (.llega .error none)).map fun a' =>
        decide (.barrera 0 ∈ a'.estado.ultima)) = some true := by decide +kernel
  obtain ⟨a, hr, ha'⟩ := Option.bind_eq_some_iff.mp hrun
  obtain ⟨a', ha, hmal⟩ := Option.map_eq_some_iff.mp ha'
  intro h
  have hinservible : Inservible a.daemon .error := by
    show (-1 : Int) < sizeofCabTcp
    decide
  exact ((h.last hr ha).inservible hinservible).barreras 0 (of_decide_eq_true hmal)

end Ltm.Comunicacion
