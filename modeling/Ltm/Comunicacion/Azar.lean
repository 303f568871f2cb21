import Ltm.Comunicacion.Interfaz
import Ltm.Foundations.MultiplyCarry

/-! # The numbers that decide the losses: `_get_random`

Two multiply-with-carry generators in `int` variables. The one in `m_w` is a number between `0` and
`18000 * 65536`, and its step never overflows; the one in `m_z` overflows, and its carry can be
negative. From the initial state no number of calls brings either of them to `0`, where it would stay
(`azar_vivo`).
-/

namespace Ltm.Comunicacion
open MultiplyCarry Kernel
set_option autoImplicit false
set_option maxHeartbeats 250000

/-- The static variables of `_get_random`. -/
structure Semillas where
  mW : Int32
  mZ : Int32
  deriving DecidableEq, Repr

/-- `k * (m & 65535) + (m >> 16)`, where product and sum wrap and the shift is arithmetic. -/
def mezcla (k m : Int32) : Int32 := k * (m &&& (65535 : Int32)) + (m >>> (16 : Int32))

def getRandom (s : Semillas) : UInt32 × Semillas :=
  let mZ := mezcla 36969 s.mZ
  let mW := mezcla 18000 s.mW
  (((mZ <<< (16 : Int32)) + mW).toUInt32, ⟨mW, mZ⟩)

def Semillas.inicial : Semillas := ⟨1, 1⟩

/-- The variables after `n` calls. -/
def llamadas (s : Semillas) : ℕ → Semillas
  | 0 => s
  | n + 1 => (getRandom (llamadas s n)).2

/-- The number that the step of `m_w` computes. -/
def sumaW (s : Semillas) : Int := 18000 * (s.mW &&& (65535 : Int32)).toInt + (s.mW >>> (16 : Int32)).toInt

/-- Neither half of the generator has come to its end, and the step of `m_w` overflows in neither of its
operations. -/
structure Vivo (s : Semillas) : Prop where
  mZ : s.mZ ≠ 0
  mW : s.mW ≠ 0
  rango : 0 < s.mW.toInt ∧ s.mW.toInt < 2147483648
  producto : EsInt (18000 * (s.mW &&& (65535 : Int32)).toInt)
  suma : EsInt (sumaW s)
  exacta : (getRandom s).2.mW.toInt = sumaW s

/-! ## The operations on the integers -/

section Enteros
variable (k m : Int32)

theorem toInt_and_65535 : (m &&& (65535 : Int32)).toInt = m.toInt % 65536 := by
  have hlow : (m &&& (65535 : Int32)).toBitVec.toNat = m.toBitVec.toNat % 65536 :=
    Nat.and_two_pow_sub_one_eq_mod m.toBitVec.toNat 16
  have hand : (m &&& (65535 : Int32)).toInt = (m.toBitVec.toNat % 65536 : ℕ) := by
    rw [← Int32.toInt_toBitVec, BitVec.toInt_eq_toNat_of_lt (by omega), hlow]
  have hm : m.toInt = m.toBitVec.toNat ∨ m.toInt = m.toBitVec.toNat - 4294967296 := by
    rw [← Int32.toInt_toBitVec, BitVec.toInt_eq_toNat_cond]
    split <;> omega
  rw [hand]
  omega

theorem toInt_shiftRight_16 : (m >>> (16 : Int32)).toInt = m.toInt / 65536 := by
  rw [← Int32.toInt_toBitVec, Int32.toBitVec_shiftRight]
  exact (BitVec.toInt_sshiftRight (x := m.toBitVec) (n := 16)).trans (Int.shiftRight_eq_div_pow _ _)

theorem toInt_mezcla {a : Int} (ha : k.toInt = a) :
    (mezcla k m).toInt = (next a 65536 m.toInt).bmod 4294967296 := by
  unfold mezcla next
  rw [Int32.toInt_add, Int32.toInt_mul, toInt_and_65535, toInt_shiftRight_16, Int.bmod_add_bmod, ha]

theorem mezcla_zero : mezcla k 0 = 0 := by
  apply Int32.toInt.inj
  rw [toInt_mezcla k 0 rfl]
  simp [next_zero]

end Enteros

/-! ## One step of each half -/

variable {m : Int32} {s : Semillas}

/-- The step of `m_z` on the integers stays within one turn of `int` from `0`. -/
theorem mezcla_36969_ne_zero (hm : m ≠ 0) : mezcla 36969 m ≠ 0 := by
  have hlo : -2147483648 ≤ m.toInt := Int32.le_toInt m
  have hhi : m.toInt < 2147483648 := Int32.toInt_lt m
  have h0 : m.toInt ≠ 0 := fun e => hm (Int32.toInt.inj e)
  have hnext : next 36969 65536 m.toInt ≠ 0 :=
    fun e => h0 ((next_eq_zero_iff (by decide) (by decide) (by omega)).mp e)
  have hturn : -4294967296 < next 36969 65536 m.toInt ∧ next 36969 65536 m.toInt < 4294967296 := by
    unfold next
    omega
  have hwrap : (mezcla 36969 m).toInt = (next 36969 65536 m.toInt).bmod 4294967296 :=
    toInt_mezcla 36969 m rfl
  intro e
  rw [e] at hwrap
  have hdvd : (4294967296 : Int) ∣ next 36969 65536 m.toInt := Int.dvd_of_bmod_eq_zero hwrap.symm
  omega

/-- The numbers that the half in `m_w` runs through. -/
def EnCurso (m : Int32) : Prop := 0 < m.toInt ∧ m.toInt < 18000 * 65536

theorem toInt_mezcla_18000 (h : EnCurso m) :
    (mezcla 18000 m).toInt = next 18000 65536 m.toInt := by
  have hpos := next_pos (a := 18000) (b := 65536) (by decide) (by decide) h.1
  have hlt := next_lt (by decide) (by decide) h.2
  have hwrap : (mezcla 18000 m).toInt = (next 18000 65536 m.toInt).bmod 4294967296 :=
    toInt_mezcla 18000 m rfl
  rw [hwrap]
  exact Int.bmod_eq_of_le (by omega) (by omega)

theorem EnCurso.mezcla (h : EnCurso m) : EnCurso (mezcla 18000 m) := by
  rw [EnCurso, toInt_mezcla_18000 h]
  exact ⟨next_pos (by decide) (by decide) h.1, next_lt (by decide) (by decide) h.2⟩

theorem vivo_of_enCurso (hz : s.mZ ≠ 0) (hw : EnCurso s.mW) : Vivo s := by
  have hsuma : sumaW s = next 18000 65536 s.mW.toInt := by
    rw [sumaW, toInt_and_65535, toInt_shiftRight_16]
    rfl
  have hsig := hw.mezcla
  rw [EnCurso, toInt_mezcla_18000 hw] at hsig
  obtain ⟨hpos, hlt⟩ := hw
  exact
    { mZ := hz
      mW := fun e => by simp [e] at hpos
      rango := ⟨hpos, by omega⟩
      producto := by rw [toInt_and_65535]; unfold EsInt; omega
      suma := by rw [hsuma]; unfold EsInt; omega
      exacta := by rw [hsuma]; exact toInt_mezcla_18000 ⟨hpos, hlt⟩ }

/-! ## Every number of calls -/

theorem llamadas_enCurso (n : ℕ) :
    (llamadas .inicial n).mZ ≠ 0 ∧ EnCurso (llamadas .inicial n).mW := by
  induction n with
  | zero => exact ⟨by decide, by unfold EnCurso; decide⟩
  | succ n ih => exact ⟨mezcla_36969_ne_zero ih.1, ih.2.mezcla⟩

theorem llamadas_cero (s : Semillas) (n : ℕ) :
    (s.mZ = 0 → (llamadas s n).mZ = 0) ∧ (s.mW = 0 → (llamadas s n).mW = 0) := by
  induction n with
  | zero => exact ⟨id, id⟩
  | succ n ih =>
      refine ⟨fun h => ?_, fun h => ?_⟩
      · show mezcla 36969 (llamadas s n).mZ = 0
        rw [ih.1 h, mezcla_zero]
      · show mezcla 18000 (llamadas s n).mW = 0
        rw [ih.2 h, mezcla_zero]

/-- From the initial state the generator never comes to its end, though `m_z` does become negative; a
half that is `0` stays so. -/
theorem azar_vivo : (∀ n, Vivo (llamadas .inicial n)) ∧ (∃ n, (llamadas .inicial n).mZ < 0) ∧
    ∀ s n, (s.mZ = 0 → (llamadas s n).mZ = 0) ∧ (s.mW = 0 → (llamadas s n).mW = 0) := by
  refine ⟨fun n => ?_, ⟨5, by decide⟩, llamadas_cero⟩
  obtain ⟨hz, hw⟩ := llamadas_enCurso n
  exact vivo_of_enCurso hz hw

/-- A negative `m_w` could come to `0`. -/
example : mezcla 18000 (-1179647999) = 0 := by decide

end Ltm.Comunicacion
