import Ltm.Comunicacion.Formato

/-! # The interface with the network: `comunicacion.c`

`enviar_tpdu` hands a TPDU to the network and `recibir_tpdu` takes a datagram, IP header included, into
the buffer of the daemon. The IP header of a datagram can have from 20 to 60 bytes; the buffer has room
for a TPDU behind the shortest one only (`recibe_enviada_iff`).
-/

namespace Ltm.Comunicacion
open ByteMemory Kernel
set_option autoImplicit false
set_option maxHeartbeats 250000

/-! ## `enviar_tpdu` -/

/-- The fields of `interfaz_red_interno_t` that `enviar_tpdu` reads. -/
structure InterfazRed where
  pe : Int
  RTT : Int
  ipRetardo : InAddr
  deriving DecidableEq, Repr

/-- `if (IR->pe > 0) … if (j <= IR->pe)`. -/
def pierde (ir : InterfazRed) (azar : UInt32) : Prop := ir.pe > 0 ∧ (azar.toNat % 100 : ℕ) ≤ ir.pe

instance (ir : InterfazRed) (azar : UInt32) : Decidable (pierde ir azar) :=
  inferInstanceAs (Decidable (_ ∧ _))

/-- `enviar_tpdu`, with the number that `_get_random` gives, and with the memory from where the array
`encapsulado` was: the value returned, and what goes to `sendto`, unless the packet is dropped. The array
is local to the block that fills it, so that what `sendto` reads there is up to the memory. -/
def enviarTpdu (ir : InterfazRed) (azar : UInt32) (ipdest : InAddr) (tpdu : List UInt8) (pila : Mem) :
    Int × Option (InAddr × List UInt8) :=
  if tpdu.length > 1500 then (-1, none)
  else if pierde ir azar then (tpdu.length, none)
  else if ir.RTT ≠ 0 then (tpdu.length, some (ir.ipRetardo, bytes pila 0 (tpdu.length + 4)))
  else (tpdu.length, some (ipdest, tpdu))

/-! ## `recibir_tpdu` -/

/-- The local variables of `bucle_principal` that stay from one reception to the next; the array `pkt`
starts at address `0`. -/
structure LocalDaemon where
  pkt : Mem
  offset : ℕ
  ipRemota : InAddr

/-- What `recvfrom` finds: an error, or a datagram with its source. -/
inductive Llegada
  | error
  | datagrama (fuente : InAddr) (octetos : List UInt8)
  deriving DecidableEq, Repr

/-- `recvfrom` into the buffer: a datagram is cut at the length asked for. -/
def recvfrom (pkt : Mem) (longitud : ℕ) : Llegada → Int × Mem
  | .error => (-1, pkt)
  | .datagrama _ octetos => ((octetos.take longitud).length, put pkt 0 (octetos.take longitud))

def Llegada.fuente (d : LocalDaemon) : Llegada → InAddr
  | .error => d.ipRemota
  | .datagrama fuente _ => fuente

/-- `4 * iphdrs->ihl`. -/
def lenCabIP (pkt : Mem) : ℕ := 4 * ((pkt 0).toNat % 16)

def recibirTpdu (longitud : ℕ) (d : LocalDaemon) (l : Llegada) : Int × LocalDaemon :=
  let (recibidos, pkt) := recvfrom d.pkt longitud l
  if recibidos < 0 then (recibidos, { d with pkt := pkt })
  else if recibidos < lenCabIP pkt then (-1, { d with pkt := pkt })
  else
    (recibidos - lenCabIP pkt,
      { pkt := put pkt 0 (List.replicate (lenCabIP pkt) 0)
        offset := lenCabIP pkt
        ipRemota := l.fuente d })

/-! ## What is sent and what is received -/

/-- The bytes of an IP header of `4 * ihl` bytes. -/
structure CabeceraIP (ihl : ℕ) (cab : List UInt8) : Prop where
  legal : 5 ≤ ihl ∧ ihl ≤ 15
  largo : cab.length = 4 * ihl
  campo : ∀ b ∈ cab.head?, b.toNat % 16 = ihl

/-- The reception `r` has brought the packet `p` whole, behind an IP header of `4 * ihl` bytes. -/
structure Entregada (ihl : ℕ) (p : Tpdu) (r : Int × LocalDaemon) : Prop where
  largo : r.1 = sizeofTpdu
  offset : r.2.offset = 4 * ihl
  tpdu : leeTpdu r.2.pkt r.2.offset = p

variable {ir : InterfazRed} {azar : UInt32} {ipdest ipdest' : InAddr} {p : Tpdu} {enviado : List UInt8}
  {ihl : ℕ} {cab : List UInt8} {d : LocalDaemon} {fuente : InAddr} {pila : Mem}

theorem enviado_eq (hrtt : ir.RTT = 0)
    (h : (enviarTpdu ir azar ipdest (bytesTpdu p) pila).2 = some (ipdest', enviado)) :
    enviado = bytesTpdu p := by
  unfold enviarTpdu at h
  rw [if_neg (not_not.mpr hrtt)] at h
  split at h
  · exact absurd h (by simp)
  · split at h
    · exact absurd h (by simp)
    · exact (Prod.mk.inj (Option.some.inj h)).2.symm

/-- The reception of a datagram with a whole IP header. -/
theorem recibirTpdu_cabecera (hcab : CabeceraIP ihl cab) {resto : List UInt8} {longitud : ℕ}
    (hl : 60 ≤ longitud) :
    recibirTpdu longitud d (.datagrama fuente (cab ++ resto)) =
      (((resto.take (longitud - 4 * ihl)).length : Int),
        { pkt := put (put d.pkt 0 (cab ++ resto.take (longitud - 4 * ihl))) 0
            (List.replicate (4 * ihl) 0)
          offset := 4 * ihl
          ipRemota := fuente }) := by
  obtain ⟨hlegal, hlargo, hcampo⟩ := hcab
  have htake : (cab ++ resto).take longitud = cab ++ resto.take (longitud - 4 * ihl) := by
    rw [List.take_append, hlargo, List.take_of_length_le (by omega)]
  have hpos : 0 < (cab ++ resto.take (longitud - 4 * ihl)).length := by
    rw [List.length_append]
    omega
  have hihl : lenCabIP (put d.pkt 0 (cab ++ resto.take (longitud - 4 * ihl))) = 4 * ihl := by
    have hbyte := put_inside (m := d.pkt) (a := 0) hpos
    cases cab with
    | nil => exact absurd hlargo (by simp; omega)
    | cons b cab =>
        rw [lenCabIP, hbyte]
        simp only [List.cons_append, List.getElem_cons_zero]
        rw [hcampo b rfl]
  have hlen : ((cab ++ resto.take (longitud - 4 * ihl)).length : Int) =
      (4 * ihl : ℕ) + (resto.take (longitud - 4 * ihl)).length := by
    rw [List.length_append, hlargo]
    omega
  unfold recibirTpdu recvfrom
  simp only [htake, hihl]
  rw [if_neg (by omega), if_neg (by omega), hlen]
  simp [Llegada.fuente]

theorem entregada_iff (hp : Valida p) (hcab : CabeceraIP ihl cab) :
    Entregada ihl p (recibirTpdu maxLongPkt d (.datagrama fuente (cab ++ bytesTpdu p))) ↔ ihl = 5 := by
  have hlegal := hcab.legal
  have hlargo := hcab.largo
  rw [recibirTpdu_cabecera hcab (by decide)]
  constructor
  · intro h
    have hrec := h.largo
    simp only [List.length_take, length_bytesTpdu hp] at hrec
    simp only [maxLongPkt, sizeofTpdu, cabeceraIP, sizeofCabTcp] at hrec
    omega
  · rintro rfl
    have htake : (bytesTpdu p).take (maxLongPkt - 4 * 5) = bytesTpdu p := by
      apply List.take_of_length_le
      rw [length_bytesTpdu hp]
      decide
    rw [htake]
    refine ⟨by rw [length_bytesTpdu hp], rfl, ?_⟩
    -- the header is cleared in front of the packet
    have hresto : ∀ x, 4 * 5 ≤ x →
        put (put d.pkt 0 (cab ++ bytesTpdu p)) 0 (List.replicate (4 * 5) 0) x =
          put (put d.pkt 0 cab) (4 * 5) (bytesTpdu p) x := by
      intro x hx
      rw [put_replicate hx, put_append, hlargo, Nat.zero_add]
    exact (leeTpdu_congr fun x hx _ => hresto x hx).trans (leeTpdu_put hp _ _)

/-- A packet made by `crear_pkt` and sent whole arrives whole behind an IP header of `4 * ihl` bytes
exactly if the header has no options. -/
theorem recibe_enviada_iff {p₀ : Tpdu} {tipo longitud idLocal idDestino : Int}
    {destino origen : TDireccion} {datos : List UInt8} (hp₀ : Valida p₀) (htipo : EsInt tipo)
    (hlocal : EsInt idLocal) (hdestino : EsInt idDestino) (h0 : 0 ≤ longitud)
    (hmax : longitud ≤ maxDatos) (hdatos : longitud.toNat ≤ datos.length) (hrtt : ir.RTT = 0)
    (henv : (enviarTpdu ir azar ipdest (bytesTpdu (crearPkt p₀ tipo destino origen datos longitud
      idLocal idDestino)) pila).2 = some (ipdest', enviado)) (hcab : CabeceraIP ihl cab) :
    Entregada ihl (crearPkt p₀ tipo destino origen datos longitud idLocal idDestino)
      (recibirTpdu maxLongPkt d (.datagrama fuente (cab ++ enviado))) ↔ ihl = 5 := by
  rw [enviado_eq hrtt henv]
  exact entregada_iff (valida_crearPkt hp₀ htipo hlocal hdestino h0 hmax hdatos) hcab

/-! ## An empty CR -/

def tpduVacia : Tpdu := ⟨Tpdu.nulo.cabecera, List.replicate maxDatos 0⟩

theorem valida_vacia : Valida tpduVacia :=
  ⟨by decide, by decide, by decide, by decide, by decide, by decide, List.length_replicate⟩

/-- A CR without data from port 1000 to port 80. -/
def crVacio : Tpdu := crearPkt tpduVacia tipoCR ⟨0x0a000002, 80⟩ ⟨0x0a000001, 1000⟩ [] 0 0 0

/-- The first bytes of an IP header of `4 * ihl` bytes, the rest zero. -/
def cabIP (ihl : ℕ) : List UInt8 := UInt8.ofNat (64 + ihl) :: List.replicate (4 * ihl - 1) 0

theorem cabeceraIP_cabIP (h : 5 ≤ ihl ∧ ihl ≤ 15) : CabeceraIP ihl (cabIP ihl) := by
  refine ⟨h, ?_, fun b hb => ?_⟩
  · rw [cabIP, List.length_cons, List.length_replicate]
    omega
  · obtain rfl : UInt8.ofNat (64 + ihl) = b := Option.some.inj hb
    rw [UInt8.toNat_ofNat']
    omega

def sinPerdidas : InterfazRed := ⟨0, 0, 0⟩

theorem recibe_enviada_cr : Entregada 5 crVacio (recibirTpdu maxLongPkt ⟨fun _ => 0, 0, 0⟩
    (.datagrama 0x0a000001 (cabIP 5 ++ bytesTpdu crVacio))) := by
  have henv : (enviarTpdu sinPerdidas 0 0x0a000002 (bytesTpdu crVacio) fun _ => 0).2 =
      some (0x0a000002, bytesTpdu crVacio) := by decide +kernel
  have hcab : CabeceraIP 5 (cabIP 5) := cabeceraIP_cabIP (by decide)
  exact (recibe_enviada_iff valida_vacia (by decide) (by decide) (by decide) le_rfl (by decide) le_rfl
    rfl henv hcab).mpr rfl

/-- Behind a header of 24 bytes four bytes of the packet are cut off. -/
theorem no_recibe_enviada : CabeceraIP 6 (cabIP 6) ∧
    enviarTpdu sinPerdidas 0 0x0a000002 (bytesTpdu crVacio) (fun _ => 0) =
      ((sizeofTpdu : Int), some (0x0a000002, bytesTpdu crVacio)) ∧
    ¬Entregada 6 crVacio (recibirTpdu maxLongPkt ⟨fun _ => 0, 0, 0⟩
      (.datagrama 0x0a000001 (cabIP 6 ++ bytesTpdu crVacio))) := by
  have hrec : (recibirTpdu maxLongPkt ⟨fun _ => 0, 0, 0⟩
      (.datagrama 0x0a000001 (cabIP 6 ++ bytesTpdu crVacio))).1 = 1056 := by decide +kernel
  refine ⟨cabeceraIP_cabIP (by decide), by decide +kernel, fun h => ?_⟩
  rw [h.largo] at hrec
  exact absurd hrec (by decide)

end Ltm.Comunicacion
