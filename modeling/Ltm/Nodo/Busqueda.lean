import Ltm.Kernel.Parametros
import Ltm.Nodo.Puertos

/-! # The search for a free port among the other steps of the host

`buscar_puerto_libre` reads the table without the semaphore, cell by cell, and reserves nothing. Here the
reads of any number of searches stand between the steps of the host. Only `puerto_origen` is read, and a
section of the host writes it once at most, so no read needs to fall inside a section.
-/

namespace Ltm.Nodo
open Kernel Runs
set_option autoImplicit false
set_option maxHeartbeats 250000

/-! ## Searches -/

/-- A connect with this local address comes to `buscar_puerto_libre`. -/
def BuscaPuerto (e : Entorno) (origen : TDireccion) : Prop :=
  ¬e.getKernel < 0 ∧ ¬(origen.ip = 0 ∧ e.interfaces = none) ∧ origen.puerto = 0

instance (e : Entorno) (origen : TDireccion) : Decidable (BuscaPuerto e origen) :=
  inferInstanceAs (Decidable (_ ∧ _ ∧ _))

/-- A `t_connect` in `buscar_puerto_libre`, with the turns that have ended in `e`, the last value of
`rand()`, and the cells as the turn under way has read them. -/
structure Busqueda where
  e : Entorno
  destino : TDireccion
  origen : TDireccion
  r : ℕ
  leidas : List Conexion
  busca : BuscaPuerto e origen
  pocas : leidas.length ≤ numMaxCXs
  ocupados : buscarPuertoLibre e.vueltas = none

/-- The port that the turn tries. -/
def Busqueda.puerto (b : Busqueda) : UInt16 := UInt16.ofNat (1 + b.r % 32767)

/-- `puerto_ocupado`. -/
def Busqueda.ocupado (b : Busqueda) : Prop := ∃ c ∈ b.leidas, c.puertoOrigen = b.puerto

instance (b : Busqueda) : Decidable b.ocupado := inferInstanceAs (Decidable (∃ c ∈ b.leidas, _))

/-- The turn under way as `buscarPuertoLibre` takes it; cells not read are those of `k`. -/
def Busqueda.vuelta (b : Busqueda) (k : KernelShm) : ℕ × KernelShm :=
  (b.r, { k with CXs := fun i => b.leidas[i.toNat]?.getD (k.CXs i) })

variable {k : KernelShm} {b : Busqueda}

theorem buscarPuertoLibre_append {v w : List (ℕ × KernelShm)} (h : buscarPuertoLibre v = none) :
    buscarPuertoLibre (v ++ w) = buscarPuertoLibre w := by
  induction v with
  | nil => rfl
  | cons u v ih =>
      rw [buscarPuertoLibre] at h
      rw [List.cons_append, buscarPuertoLibre]
      split at h
      · exact absurd h (by simp)
      · next hno =>
        rw [← ih h]
        exact if_neg hno

theorem Busqueda.vuelta_celda {n : ℕ} {c : Conexion} (h : b.leidas[n]? = some c) :
    (b.vuelta k).2.CXs n = c := by
  show b.leidas[(n : Int).toNat]?.getD (k.CXs n) = c
  rw [Int.toNat_natCast, h]
  rfl

/-- What a turn says of the port. -/
theorem Busqueda.vuelta_eq (b : Busqueda) (k : KernelShm) : buscarPuertoLibre [b.vuelta k] =
    if primera (fun i => ((b.vuelta k).2.CXs i).puertoOrigen = b.puerto) (-1) = -1 then some b.puerto
    else none := rfl

theorem Busqueda.vuelta_of_ocupado (h : b.ocupado) : buscarPuertoLibre [b.vuelta k] = none := by
  obtain ⟨c, hc, hp⟩ := h
  obtain ⟨n, hn⟩ := List.mem_iff_getElem?.mp hc
  obtain ⟨hlt, -⟩ := List.getElem?_eq_some_iff.mp hn
  have hpocas := b.pocas
  rw [b.vuelta_eq, if_neg]
  intro hno
  refine puertoLibre_iff.mp hno n (enTabla_natCast.mpr (by omega)) ?_
  rw [vuelta_celda hn, hp]

/-- A turn that has read the whole table and not found the port. -/
theorem Busqueda.vuelta_of_libre (hlen : b.leidas.length = numMaxCXs) (h : ¬b.ocupado) :
    buscarPuertoLibre [b.vuelta k] = some b.puerto := by
  rw [b.vuelta_eq, if_pos]
  refine puertoLibre_iff.mpr fun i hi hp => ?_
  obtain ⟨n, hn, rfl⟩ := enTabla_iff.mp hi
  have hget : b.leidas[n]? = some b.leidas[n] := List.getElem?_eq_getElem (by omega)
  rw [vuelta_celda hget] at hp
  exact h ⟨_, List.getElem_mem _, hp⟩

def Busqueda.lee (b : Busqueda) (c : Conexion) (h : b.leidas.length < numMaxCXs) : Busqueda :=
  { b with
    leidas := b.leidas ++ [c]
    pocas := by rw [List.length_append]; exact h }

/-- The next turn, with a new value of `rand()`. -/
def Busqueda.repite (b : Busqueda) (k : KernelShm) (r : ℕ) (h : b.ocupado) : Busqueda :=
  { b with
    e := { b.e with vueltas := b.e.vueltas ++ [b.vuelta k] }
    r := r
    leidas := []
    busca := b.busca
    pocas := Nat.zero_le _
    ocupados := (buscarPuertoLibre_append b.ocupados).trans (b.vuelta_of_ocupado h) }

/-- The call with all the turns of its search. -/
def Busqueda.llamada (b : Busqueda) (k : KernelShm) : Llamada :=
  .connect { b.e with vueltas := b.e.vueltas ++ [b.vuelta k] } b.destino b.origen

/-! ## Steps -/

abbrev Busca := Estado × List Busqueda

/-- A step of the host, or one of the searches: a new one begins, the search `n` reads a cell, draws
again, or ends and enters the critical section of its call. -/
inductive Acto
  | suceso (e : Suceso)
  | busca (e : Entorno) (destino origen : TDireccion) (r : ℕ)
  | lee (n : ℕ)
  | repite (n : ℕ) (r : ℕ)
  | entra (n : ℕ)

/-- Calls that search begin with `Acto.busca`. -/
def Suceso.busca : Suceso → Prop
  | .llama (.connect e _ origen) => BuscaPuerto e origen
  | _ => False

instance : (e : Suceso) → Decidable e.busca
  | .llama (.connect e _ origen) => inferInstanceAs (Decidable (BuscaPuerto e origen))
  | .llama (.listen _ _ _) => .isFalse id
  | .llama (.send _ _ _ _) => .isFalse id
  | .sigue _ => .isFalse id
  | .recibe _ _ _ => .isFalse id
  | .citaDaemon _ => .isFalse id
  | .cita _ _ => .isFalse id
  | .despierta _ => .isFalse id
  | .suelta => .isFalse id

def pasoBusca (q : Busca) : Acto → Option Busca
  | .suceso e => if e.busca then none else (paso q.1 e).map fun s => (s, q.2)
  | .busca e destino origen r =>
    if h : BuscaPuerto e origen then
      some (q.1, q.2 ++ [⟨{ e with vueltas := [] }, destino, origen, r, [], h, Nat.zero_le _, rfl⟩])
    else none
  | .lee n => q.2[n]?.bind fun b =>
    if h : b.leidas.length < numMaxCXs ∧ ¬b.ocupado then
      some (q.1, q.2.set n (b.lee (q.1.kernel.CXs b.leidas.length) h.1))
    else none
  | .repite n r => q.2[n]?.bind fun b =>
    if h : b.ocupado then some (q.1, q.2.set n (b.repite q.1.kernel r h)) else none
  | .entra n => q.2[n]?.bind fun b =>
    if b.leidas.length = numMaxCXs ∧ ¬b.ocupado then
      (paso q.1 (.llama (b.llamada q.1.kernel))).map fun s => (s, q.2.eraseIdx n)
    else none

/-! ## The port drawn at the critical section -/

/-- The cell has the remote address of a connect. -/
def tieneDestino (c : Conexion) (destino : TDireccion) : Prop :=
  c.ipDestino = destino.ip ∧ c.puertoDestino = destino.puerto.toUInt16

instance (c : Conexion) (destino : TDireccion) : Decidable (tieneDestino c destino) :=
  inferInstanceAs (Decidable (_ ∧ _))

/-- The search has found a port that no cell had when it was read, and its call is refused as a
repetition only if some cell has its destination. -/
structure Concede (s : Estado) (b : Busqueda) (s' : Estado) : Prop where
  puerto : ∃ p, buscarPuertoLibre (b.e.vueltas ++ [b.vuelta s.kernel]) = some p ∧
    1 ≤ p.toNat ∧ p.toNat ≤ 32767 ∧
      ∀ n < numMaxCXs, ∃ c, b.leidas[n]? = some c ∧ c.puertoOrigen ≠ p
  sinDup : (∀ i, EnTabla i → ¬tieneDestino (s.kernel.CXs i) b.destino) → ¬Retorna s s' exCDup

/-- If the call comes to look for repetitions, and no cell has its destination, then no cell has the port
drawn. -/
def Busqueda.Reservado (b : Busqueda) (k : KernelShm) : Prop :=
  ¬(b.destino.puerto = 0 ∨ b.destino.ip = 0) → k.numCXs ≠ numMaxCXs →
    (∀ i, EnTabla i → ¬tieneDestino (k.CXs i) b.destino) →
      ∀ i, EnTabla i → (k.CXs i).puertoOrigen ≠ b.puerto

variable {s s' : Estado} {o : TDireccion}

theorem Busqueda.toNat_puerto (b : Busqueda) : 1 ≤ b.puerto.toNat ∧ b.puerto.toNat ≤ 32767 := by
  have hr : b.puerto.toNat = (1 + b.r % 32767) % 65536 := UInt16.toNat_ofNat'
  omega

theorem Busqueda.mismoPuerto_iff {p : UInt16} : mismoPuerto p b.puerto.toInt16 ↔ p = b.puerto := by
  have hint : b.puerto.toInt16.toInt = if 2 * b.puerto.toNat < 65536 then (b.puerto.toNat : Int)
      else (b.puerto.toNat : Int) - 65536 := BitVec.toInt_eq_toNat_cond b.puerto.toBitVec
  obtain ⟨-, hle⟩ := b.toNat_puerto
  rw [mismoPuerto, hint, if_pos (by omega), ← UInt16.toNat_inj]
  omega

/-- The local address that a call whose search has ended takes to its critical section. -/
theorem Busqueda.origen_eq (hlen : b.leidas.length = numMaxCXs) (hlibre : ¬b.ocupado) :
    ∃ o, o.puerto = b.puerto.toInt16 ∧ (b.llamada k).origen k =
      if b.destino.puerto = 0 ∨ b.destino.ip = 0 then none else some o := by
  obtain ⟨hk, hip, hp⟩ := b.busca
  let e : Entorno := { b.e with vueltas := b.e.vueltas ++ [b.vuelta k] }
  have hbusca : buscarPuertoLibre e.vueltas = some b.puerto :=
    (buscarPuertoLibre_append b.ocupados).trans (vuelta_of_libre hlen hlibre)
  obtain ⟨o, ho⟩ : ∃ o, completarIP e k.interfaz b.origen = some o :=
    Option.ne_none_iff_exists'.mp fun hno => hip (completarIP_eq_none_iff.mp hno)
  have hpuerto : completarPuerto e o = some { o with puerto := b.puerto.toInt16 } := by
    rw [completarPuerto, if_pos ((completarIP_some ho).1.trans hp), hbusca]
    rfl
  have hcomp : comprobarConnect e k.interfaz b.destino b.origen =
      some (if b.destino.puerto = 0 ∨ b.destino.ip = 0 then -1 else 0,
        { o with puerto := b.puerto.toInt16 }) := by
    rw [comprobarConnect, ho]
    dsimp only
    rw [hpuerto]
    rfl
  refine ⟨{ o with puerto := b.puerto.toInt16 }, rfl, ?_⟩
  rw [Busqueda.llamada, Llamada.origen, if_neg hk, hcomp, Option.bind_some]
  split <;> rfl

theorem Busqueda.abre_llamada (b : Busqueda) : (b.llamada k).abre := trivial

theorem Busqueda.repite_iff {c : Conexion} (ho : o.puerto = b.puerto.toInt16) :
    c.repite o (b.llamada k) ↔ c.mismoDestino (b.llamada k) ∨ c.puertoOrigen = b.puerto := by
  rw [Conexion.repite, ho, mismoPuerto_iff]

theorem tieneDestino_of_mismoDestino {c : Conexion} (h : c.mismoDestino (b.llamada k)) :
    tieneDestino c b.destino :=
  ⟨h.1, (Kernel.mismoPuerto_iff.mp h.2).1⟩

theorem concede_puerto (hlen : b.leidas.length = numMaxCXs) (hlibre : ¬b.ocupado) (k : KernelShm) :
    ∃ p, buscarPuertoLibre (b.e.vueltas ++ [b.vuelta k]) = some p ∧ 1 ≤ p.toNat ∧ p.toNat ≤ 32767 ∧
      ∀ n < numMaxCXs, ∃ c, b.leidas[n]? = some c ∧ c.puertoOrigen ≠ p := by
  obtain ⟨hge, hle⟩ := b.toNat_puerto
  refine ⟨b.puerto, ?_, hge, hle, fun n hn => ?_⟩
  · rw [buscarPuertoLibre_append b.ocupados, Busqueda.vuelta_of_libre hlen hlibre]
  · have hget : b.leidas[n]? = some b.leidas[n] := List.getElem?_eq_getElem (by omega)
    exact ⟨_, hget, fun hp => hlibre ⟨_, List.getElem_mem _, hp⟩⟩

/-- When the call of a search is refused as a repetition. -/
theorem retorna_exCDup_busca (h : paso s (.llama (b.llamada s.kernel)) = some s')
    (hlen : b.leidas.length = numMaxCXs) (hlibre : ¬b.ocupado) : Retorna s s' exCDup ↔
      ¬(b.destino.puerto = 0 ∨ b.destino.ip = 0) ∧ s.kernel.numCXs ≠ numMaxCXs ∧
        ∃ i, EnTabla i ∧ ((s.kernel.CXs i).mismoDestino (b.llamada s.kernel) ∨
          (s.kernel.CXs i).puertoOrigen = b.puerto) := by
  obtain ⟨o, hp, ho⟩ := Busqueda.origen_eq (k := s.kernel) hlen hlibre
  rw [(paso_llama h).2.2 exCDup]
  by_cases hdest : b.destino.puerto = 0 ∨ b.destino.ip = 0
  · rw [if_pos hdest] at ho
    refine iff_of_false (fun hr => ?_) fun hr => hr.1 hdest
    obtain ⟨o', ho'⟩ := origen_of_exCDup b.abre_llamada hr
    rw [ho] at ho'
    exact absurd ho' (by simp)
  · rw [if_neg hdest] at ho
    rw [retorna_exCDup_iff ho]
    simp only [Busqueda.repite_iff hp, hdest, not_false_eq_true, true_and]

theorem concede_iff (h : paso s (.llama (b.llamada s.kernel)) = some s')
    (hlen : b.leidas.length = numMaxCXs) (hlibre : ¬b.ocupado) :
    Concede s b s' ↔ b.Reservado s.kernel := by
  have hdup := retorna_exCDup_busca h hlen hlibre
  constructor
  · intro hc hdest hn hno i hi hp
    exact hc.sinDup hno (hdup.mpr ⟨hdest, hn, i, hi, Or.inr hp⟩)
  · intro hr
    refine ⟨concede_puerto hlen hlibre s.kernel, fun hno hret => ?_⟩
    obtain ⟨hdest, hn, i, hi, hm | hp⟩ := hdup.mp hret
    · exact hno i hi (tieneDestino_of_mismoDestino hm)
    · exact hr hdest hn hno i hi hp

/-- The step that ends a search ends it with a port that does not collide. -/
def SinColision (q : Busca) (a : Acto) (q' : Busca) : Prop :=
  match a with
  | .entra n => ∀ b, q.2[n]? = some b → Concede q.1 b q'.1
  | _ => True

def EnReserva (q : Busca) : Acto → Prop
  | .entra n => ∀ b, q.2[n]? = some b → b.Reservado q.1.kernel
  | _ => True

theorem sinColision_iff_enReserva {q q' : Busca} {a : Acto} (h : pasoBusca q a = some q') :
    SinColision q a q' ↔ EnReserva q a := by
  cases a with
  | entra n =>
      rw [pasoBusca] at h
      obtain ⟨b, hb, h⟩ := Option.bind_eq_some_iff.mp h
      split at h
      · next hfin =>
        obtain ⟨s', hs, rfl⟩ := Option.map_eq_some_iff.mp h
        have hiff := concede_iff hs hfin.1 hfin.2
        constructor
        · rintro hc b' hb'
          obtain rfl := Option.some.inj (hb.symm.trans hb')
          exact hiff.mp (hc b hb)
        · rintro hr b' hb'
          obtain rfl := Option.some.inj (hb.symm.trans hb')
          exact hiff.mpr (hr b hb)
      · exact absurd h (by simp)
  | _ => exact iff_of_true trivial trivial

/-- In every interleaving the ports drawn do not collide exactly as long as none of them is in the table
by the time its call tests it again. -/
theorem sinColision_iff (q : Busca) (as : List Acto) :
    Along pasoBusca SinColision q as ↔ Along pasoBusca (fun q a _ => EnReserva q a) q as :=
  along_iff_along (fun _ => True) (fun q a _ => EnReserva q a) (fun _ _ _ _ _ _ => trivial)
    (fun _ _ _ _ h => sinColision_iff_enReserva h) as trivial

/-- Two connects draw port 1, and both have read the table when one of them enters. -/
def carrera : List Acto :=
  [.busca entornoVacio ⟨0x0a000003, 81⟩ ⟨0x0a000001, 0⟩ 0,
    .busca entornoVacio ⟨0x0a000002, 80⟩ ⟨0x0a000001, 0⟩ 0] ++
      List.replicate numMaxCXs (.lee 0) ++ List.replicate numMaxCXs (.lee 1) ++ [.entra 1]

/-- The other is refused, although no cell has its destination. -/
theorem no_sinColision :
    ¬Along pasoBusca SinColision (inicial kernelPorDefecto, []) (carrera ++ [.entra 0]) := by
  have hrun : ((run pasoBusca (inicial kernelPorDefecto, []) carrera).bind fun q =>
      (pasoBusca q (.entra 0)).map fun q' => (decide (Retorna q.1 q'.1 exCDup),
        q.2.map Busqueda.destino,
        decide (∀ n < numMaxCXs, ¬tieneDestino (q.1.kernel.CXs n) ⟨0x0a000003, 81⟩))) =
      some (true, [⟨0x0a000003, 81⟩], true) := by decide +kernel
  obtain ⟨q, hr, hq⟩ := Option.bind_eq_some_iff.mp hrun
  obtain ⟨q', hs, hval⟩ := Option.map_eq_some_iff.mp hq
  simp only [Prod.mk.injEq, decide_eq_true_eq] at hval
  obtain ⟨hret, hdest, hno⟩ := hval
  obtain ⟨b, hb, hbd⟩ := List.map_eq_singleton_iff.mp hdest
  intro h
  have hc : Concede q.1 b q'.1 := h.last hr hs b (by rw [hb]; rfl)
  refine hc.sinDup (fun i hi ht => ?_) hret
  obtain ⟨n, hn, rfl⟩ := enTabla_iff.mp hi
  rw [hbd] at ht
  exact hno n hn ht

end Ltm.Nodo
