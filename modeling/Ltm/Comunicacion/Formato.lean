import Ltm.Foundations.ByteMemory
import Ltm.Kernel.Funcp

/-! # A TPDU in memory

The layout of `tpdu`: the fields of `cab_tcp` at their offsets, `sizeof(cab_tcp)` bytes with no padding,
and then `datos`. What `Tpdu.bytes` puts into a memory is read back by `leeTpdu` (`leeTpdu_put`).
-/

namespace Ltm.Comunicacion
open ByteMemory Kernel
set_option autoImplicit false
set_option maxHeartbeats 250000

abbrev cabeceraIP : ℕ := 20
abbrev sizeofCabTcp : ℕ := 36
abbrev sizeofTpdu : ℕ := sizeofCabTcp + maxDatos
abbrev maxLongPkt : ℕ := cabeceraIP + sizeofCabTcp + maxDatos

/-- The value is one of an `int`. -/
def EsInt (v : Int) : Prop := -2147483648 ≤ v ∧ v < 2147483648

instance (v : Int) : Decidable (EsInt v) := inferInstanceAs (Decidable (_ ∧ _))

/-- The four bytes of an `int`, as a number. -/
def palabra (v : Int) : ℕ := (v % 4294967296).toNat

/-- The `int` whose four bytes are the number `n`. -/
def deSigno (n : ℕ) : Int := if n < 2147483648 then n else (n : Int) - 4294967296

def leeInt (m : Mem) (a : ℕ) : Int := deSigno (load m 4 a)

def leeCabTcp (m : Mem) (a : ℕ) : CabTcp where
  tipo := leeInt m a
  idLocal := leeInt m (a + 4)
  idDestino := leeInt m (a + 8)
  puertoOrig := UInt16.ofNat (load m 2 (a + 12))
  puertoDest := UInt16.ofNat (load m 2 (a + 14))
  ipLocal := UInt32.ofNat (load m 4 (a + 16))
  ipDestino := UInt32.ofNat (load m 4 (a + 20))
  conexionAceptada := leeInt m (a + 24)
  tamanhoDatos := leeInt m (a + 28)
  numSeqAck := leeInt m (a + 32)

/-- `*(tpdu *)a`. -/
def leeTpdu (m : Mem) (a : ℕ) : Tpdu := ⟨leeCabTcp m a, bytes m (a + sizeofCabTcp) maxDatos⟩

/-- The fields of a `cab_tcp`, each with its width. -/
def campos (h : CabTcp) : List (ℕ × ℕ) :=
  [(4, palabra h.tipo), (4, palabra h.idLocal), (4, palabra h.idDestino), (2, h.puertoOrig.toNat),
    (2, h.puertoDest.toNat), (4, h.ipLocal.toNat), (4, h.ipDestino.toNat),
    (4, palabra h.conexionAceptada), (4, palabra h.tamanhoDatos), (4, palabra h.numSeqAck)]

/-- The bytes of a `tpdu`. -/
def bytesTpdu (p : Tpdu) : List UInt8 := encode (campos p.cabecera) ++ p.datos

/-- The fields of the packet are values of their C types. -/
structure Valida (p : Tpdu) : Prop where
  tipo : EsInt p.cabecera.tipo
  idLocal : EsInt p.cabecera.idLocal
  idDestino : EsInt p.cabecera.idDestino
  conexionAceptada : EsInt p.cabecera.conexionAceptada
  tamanhoDatos : EsInt p.cabecera.tamanhoDatos
  numSeqAck : EsInt p.cabecera.numSeqAck
  datos : p.datos.length = maxDatos

theorem deSigno_palabra {v : Int} (hv : EsInt v) : deSigno (palabra v % 256 ^ 4) = v := by
  obtain ⟨h1, h2⟩ := hv
  unfold deSigno palabra
  split <;> omega

theorem length_encode_campos (h : CabTcp) : (encode (campos h)).length = sizeofCabTcp := by
  simp [encode, campos, length_bytesOf]

theorem length_bytesTpdu {p : Tpdu} (hp : Valida p) : (bytesTpdu p).length = sizeofTpdu := by
  rw [bytesTpdu, List.length_append, length_encode_campos, hp.datos]

theorem ofNat_puerto (u : UInt16) : UInt16.ofNat (u.toNat % 256 ^ 2) = u := by
  have hlt : u.toNat < 256 ^ 2 := u.toNat_lt
  rw [Nat.mod_eq_of_lt hlt, UInt16.ofNat_toNat]

theorem ofNat_ip (u : UInt32) : UInt32.ofNat (u.toNat % 256 ^ 4) = u := by
  have hlt : u.toNat < 256 ^ 4 := u.toNat_lt
  rw [Nat.mod_eq_of_lt hlt, UInt32.ofNat_toNat]

theorem leeCabTcp_of_loads {p : Tpdu} (hp : Valida p) {m : Mem} {a : ℕ}
    (h : loads m a ((campos p.cabecera).map Prod.fst) =
      (campos p.cabecera).map fun f => f.2 % 256 ^ f.1) : leeCabTcp m a = p.cabecera := by
  simp only [campos, List.map_cons, List.map_nil, loads, Nat.add_assoc, Nat.reduceAdd,
    List.cons.injEq, and_true] at h
  obtain ⟨h0, h4, h8, h12, h14, h16, h20, h24, h28, h32⟩ := h
  unfold leeCabTcp leeInt
  rw [h0, h4, h8, h12, h14, h16, h20, h24, h28, h32, deSigno_palabra hp.tipo,
    deSigno_palabra hp.idLocal, deSigno_palabra hp.idDestino, deSigno_palabra hp.conexionAceptada,
    deSigno_palabra hp.tamanhoDatos, deSigno_palabra hp.numSeqAck, ofNat_puerto, ofNat_puerto,
    ofNat_ip, ofNat_ip]

theorem leeTpdu_put {p : Tpdu} (hp : Valida p) (m : Mem) (a : ℕ) :
    leeTpdu (put m a (bytesTpdu p)) a = p := by
  have hdatos : bytes (put m a (bytesTpdu p)) (a + sizeofCabTcp) maxDatos = p.datos := by
    rw [bytesTpdu, put_append, length_encode_campos, ← hp.datos]
    exact bytes_put _ _ _
  have hcabecera : leeCabTcp (put m a (bytesTpdu p)) a = p.cabecera :=
    leeCabTcp_of_loads hp (loads_put_encode (campos p.cabecera) m a p.datos)
  rw [leeTpdu, hcabecera, hdatos]

theorem leeCabTcp_congr {m m' : Mem} {a : ℕ} (h : ∀ x, a ≤ x → x < a + sizeofCabTcp → m x = m' x) :
    leeCabTcp m a = leeCabTcp m' a := by
  have hload (n b : ℕ) (h1 : a ≤ b) (h2 : b + n ≤ a + 36) : load m n b = load m' n b :=
    load_congr n m m' b fun x hx hx' => h x (by omega) (by simp only [sizeofCabTcp]; omega)
  unfold leeCabTcp leeInt
  simp (disch := omega) only [hload]

theorem leeTpdu_congr {m m' : Mem} {a : ℕ} (h : ∀ x, a ≤ x → x < a + sizeofTpdu → m x = m' x) :
    leeTpdu m a = leeTpdu m' a := by
  have hle : sizeofCabTcp ≤ sizeofTpdu := by decide
  rw [leeTpdu, leeTpdu, leeCabTcp_congr fun x h1 h2 => h x h1 (by omega),
    bytes_congr fun x h1 h2 => h x (by omega) (by simp only [sizeofTpdu]; omega)]

/-- `crear_pkt` makes packets of their C types from such packets. -/
theorem valida_crearPkt {p : Tpdu} {tipo longitud idLocal idDestino : Int}
    {destino origen : TDireccion} {datos : List UInt8} (hp : Valida p) (htipo : EsInt tipo)
    (hlocal : EsInt idLocal) (hdestino : EsInt idDestino) (h0 : 0 ≤ longitud)
    (hmax : longitud ≤ maxDatos) (hdatos : longitud.toNat ≤ datos.length) :
    Valida (crearPkt p tipo destino origen datos longitud idLocal idDestino) where
  tipo := htipo
  idLocal := hlocal
  idDestino := hdestino
  conexionAceptada := hp.conexionAceptada
  tamanhoDatos := by
    have hlt : (maxDatos : Int) < 2147483648 := by decide
    have hint : EsInt longitud := ⟨by omega, by omega⟩
    exact hint
  numSeqAck := hp.numSeqAck
  datos := by
    show (memcpy p.datos datos longitud).length = maxDatos
    have hle : longitud.toNat ≤ maxDatos := Int.toNat_le.mpr hmax
    simp only [memcpy, List.length_append, List.length_take, List.length_drop, hp.datos]
    omega

end Ltm.Comunicacion
