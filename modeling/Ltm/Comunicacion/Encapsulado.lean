import Ltm.Comunicacion.Interfaz

/-! # Delayed packets

With an `RTT` the packet goes to another host, behind the four bytes of its destination. It is put
together in an array that is gone when `sendto` reads it, so a packet that is delayed may leave as
anything (`emite_iff`). The array is also too short: with the prefix the last bytes of the longest packets
fall behind it.
-/

namespace Ltm.Comunicacion
open ByteMemory Kernel
set_option autoImplicit false
set_option maxHeartbeats 250000

/-- The length of the array `encapsulado`, and the limit for a packet. -/
abbrev maxEncapsulado : ℕ := 1500

/-- The packet goes through `encapsulado`. -/
def retrasa (ir : InterfazRed) (azar : UInt32) (tpdu : List UInt8) : Prop :=
  tpdu.length ≤ maxEncapsulado ∧ ¬pierde ir azar ∧ ir.RTT ≠ 0

instance (ir : InterfazRed) (azar : UInt32) (tpdu : List UInt8) : Decidable (retrasa ir azar tpdu) :=
  inferInstanceAs (Decidable (_ ∧ _ ∧ _))

/-- The ranges that `enviar_tpdu` writes, as offsets in `encapsulado`. -/
def escritos (ir : InterfazRed) (azar : UInt32) (tpdu : List UInt8) : List (ℕ × ℕ) :=
  if retrasa ir azar tpdu then [(4, tpdu.length), (0, 4)] else []

/-- The memory once the two `memcpy` have filled `encapsulado`. -/
def encapsula (pila : Mem) (ipdest : InAddr) (tpdu : List UInt8) : Mem :=
  put (put pila 4 tpdu) 0 (bytesOf 4 ipdest.toNat)

/-- The ways a call is to go: its value and what it passes to `sendto` are `r`. -/
inductive Emite (ir : InterfazRed) (azar : UInt32) (ipdest : InAddr) (tpdu : List UInt8) :
    Int × Option (InAddr × List UInt8) → Prop
  | rechazada (hlargo : tpdu.length > maxEncapsulado) : Emite ir azar ipdest tpdu (-1, none)
  | perdida (hp : pierde ir azar) : Emite ir azar ipdest tpdu (tpdu.length, none)
  | directa (hrtt : ir.RTT = 0) : Emite ir azar ipdest tpdu (tpdu.length, some (ipdest, tpdu))
  | retardada (hrtt : ir.RTT ≠ 0) {octetos : List UInt8} (hcab : octetos.take 4 = bytesOf 4 ipdest.toNat)
      (hresto : octetos.drop 4 = tpdu) (hdentro : ∀ w ∈ escritos ir azar tpdu, w.1 + w.2 ≤ maxEncapsulado) :
      Emite ir azar ipdest tpdu (tpdu.length, some (ir.ipRetardo, octetos))

/-- The packet goes through `encapsulado`, and with the prefix does not fit. -/
def desborda (ir : InterfazRed) (azar : UInt32) (tpdu : List UInt8) : Prop :=
  retrasa ir azar tpdu ∧ maxEncapsulado < tpdu.length + 4

variable {ir : InterfazRed} {azar : UInt32} {ipdest : InAddr} {tpdu : List UInt8} {pila : Mem}

theorem enviarTpdu_retrasada (h : retrasa ir azar tpdu) : enviarTpdu ir azar ipdest tpdu pila =
    ((tpdu.length : Int), some (ir.ipRetardo, bytes pila 0 (tpdu.length + 4))) := by
  obtain ⟨hlargo, hp, hrtt⟩ := h
  unfold enviarTpdu
  rw [if_neg (Nat.not_lt.mpr hlargo), if_neg hp, if_pos hrtt]

theorem emite_of_not_retrasa (h : ¬retrasa ir azar tpdu) :
    Emite ir azar ipdest tpdu (enviarTpdu ir azar ipdest tpdu pila) := by
  unfold enviarTpdu
  by_cases hlargo : tpdu.length > maxEncapsulado
  · rw [if_pos hlargo]
    exact .rechazada hlargo
  · by_cases hp : pierde ir azar
    · rw [if_neg hlargo, if_pos hp]
      exact .perdida hp
    · have hrtt : ir.RTT = 0 := by
        by_contra hno
        exact h ⟨Nat.not_lt.mp hlargo, hp, hno⟩
      rw [if_neg hlargo, if_neg hp, if_neg (not_not.mpr hrtt)]
      exact .directa hrtt

/-- A packet that goes through `encapsulado` goes as it is to when `sendto` still reads it there, whole. -/
theorem emite_iff_of_retrasa (h : retrasa ir azar tpdu) :
    Emite ir azar ipdest tpdu (enviarTpdu ir azar ipdest tpdu pila) ↔
      bytes pila 0 (tpdu.length + 4) = bytesOf 4 ipdest.toNat ++ tpdu ∧
        tpdu.length + 4 ≤ maxEncapsulado := by
  rw [enviarTpdu_retrasada h]
  constructor
  · generalize hr : ((tpdu.length : Int), some (ir.ipRetardo, bytes pila 0 (tpdu.length + 4))) = r
    intro he
    cases he with
    | rechazada hlargo => exact absurd h.1 (Nat.not_le.mpr hlargo)
    | perdida hp => exact absurd hp h.2.1
    | directa hrtt => exact absurd hrtt h.2.2
    | retardada hrtt hcab hresto hdentro =>
        obtain rfl := (Prod.mk.inj (Option.some.inj (Prod.mk.inj hr).2)).2
        refine ⟨?_, ?_⟩
        · rw [← List.take_append_drop 4 (bytes pila 0 (tpdu.length + 4)), hcab, hresto]
        · have hfin := hdentro (4, tpdu.length) (by rw [escritos, if_pos h]; exact List.mem_cons_self)
          dsimp only at hfin
          omega
  · rintro ⟨hbytes, hcabe⟩
    rw [hbytes]
    refine .retardada h.2.2 (List.take_left' (length_bytesOf 4 _)) (List.drop_left' (length_bytesOf 4 _))
      fun w hw => ?_
    rw [escritos, if_pos h] at hw
    rcases List.mem_cons.mp hw with rfl | hw
    · show 4 + tpdu.length ≤ maxEncapsulado
      omega
    · obtain rfl := List.mem_singleton.mp hw
      decide

/-- The bytes read back, also of a packet that does not fit. -/
theorem bytes_encapsula (pila : Mem) (ipdest : InAddr) (tpdu : List UInt8) :
    bytes (encapsula pila ipdest tpdu) 0 (tpdu.length + 4) = bytesOf 4 ipdest.toNat ++ tpdu := by
  have hlen := length_bytesOf 4 ipdest.toNat
  have hjunto : (bytesOf 4 ipdest.toNat ++ tpdu).length = tpdu.length + 4 := by
    rw [List.length_append, hlen]
    omega
  rw [← bytes_put pila 0 (bytesOf 4 ipdest.toNat ++ tpdu), hjunto, put_append, hlen, Nat.zero_add]
  refine bytes_congr fun x _ hx => ?_
  unfold encapsula
  by_cases h4 : x < 4
  · rw [put_outside (m := put pila 0 _) (Or.inl h4)]
    exact put_congr (Nat.zero_le x) (by omega)
  · rw [put_outside (Or.inr (by omega))]
    exact put_congr (by omega) (by omega)

/-- A memory that holds something else than the destination. -/
theorem exists_pisada (ipdest : InAddr) (tpdu : List UInt8) :
    ∃ pila : Mem, bytes pila 0 (tpdu.length + 4) ≠ bytesOf 4 ipdest.toNat ++ tpdu := by
  refine ⟨fun _ => UInt8.ofNat (ipdest.toNat + 1), fun h => ?_⟩
  have hhead := congrArg List.head? h
  have hcab : (bytesOf 4 ipdest.toNat ++ tpdu).head? = some (UInt8.ofNat ipdest.toNat) := rfl
  rw [hcab, bytes, List.head?_map, List.head?_range, if_neg (Nat.succ_ne_zero _), Option.map_some] at hhead
  have hbyte := congrArg UInt8.toNat (Option.some.inj hhead)
  rw [UInt8.toNat_ofNat', UInt8.toNat_ofNat'] at hbyte
  omega

/-- Whatever stands by then in the place of the array, the packet goes out as given exactly if it does not
go through the array: it is dropped, too long, or not to be delayed. With the array as it was filled, it
would unless it is one of the four longest that are accepted. -/
theorem emite_iff (ir : InterfazRed) (azar : UInt32) (ipdest : InAddr) (tpdu : List UInt8) :
    ((∀ pila, Emite ir azar ipdest tpdu (enviarTpdu ir azar ipdest tpdu pila)) ↔
        ir.RTT = 0 ∨ pierde ir azar ∨ tpdu.length > maxEncapsulado) ∧
      ∀ pila, Emite ir azar ipdest tpdu
        (enviarTpdu ir azar ipdest tpdu (encapsula pila ipdest tpdu)) ↔ ¬desborda ir azar tpdu := by
  have hcond : (ir.RTT = 0 ∨ pierde ir azar ∨ tpdu.length > maxEncapsulado) ↔ ¬retrasa ir azar tpdu := by
    unfold retrasa
    rw [not_and_or, not_and_or, not_not, not_not, Nat.not_le]
    tauto
  rw [hcond]
  by_cases h : retrasa ir azar tpdu
  · refine ⟨iff_of_false (fun hall => ?_) (not_not.mpr h), fun pila => ?_⟩
    · obtain ⟨pila, hno⟩ := exists_pisada ipdest tpdu
      exact hno ((emite_iff_of_retrasa h).mp (hall pila)).1
    · rw [emite_iff_of_retrasa h, and_iff_right (bytes_encapsula pila ipdest tpdu), desborda,
        and_iff_right h, Nat.not_lt]
  · exact ⟨iff_of_true (fun pila => emite_of_not_retrasa h) h,
      fun pila => iff_of_true (emite_of_not_retrasa h) fun hd => h hd.1⟩

/-- A packet of three bytes with the delay on, and zeros where the array was. -/
theorem no_emite : ¬Emite ⟨0, 10, 0x0a0000fe⟩ 0 0x0a000002 [1, 2, 3]
    (enviarTpdu ⟨0, 10, 0x0a0000fe⟩ 0 0x0a000002 [1, 2, 3] fun _ => 0) := by
  rw [emite_iff_of_retrasa (by decide)]
  decide

end Ltm.Comunicacion
