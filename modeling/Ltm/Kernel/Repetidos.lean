import Ltm.Kernel.Tabla

/-! # Repeated addresses

`t_connect` and `t_listen` look for the addresses they are given in all cells of the table, occupied or
not, and compare an `int16_t` with a `uint16_t`. A negative port is equal to none (`mismoPuerto_iff`).
-/

namespace Ltm.Kernel
set_option autoImplicit false
set_option maxHeartbeats 250000

/-- The two ports have the same sixteen bits, and the signed one is not negative. -/
theorem mismoPuerto_iff {puerto : UInt16} {t : Int16} :
    mismoPuerto puerto t ↔ puerto = t.toUInt16 ∧ ¬t.toInt < 0 := by
  have hint : t.toInt = if 2 * t.toUInt16.toNat < 65536 then (t.toUInt16.toNat : Int)
      else (t.toUInt16.toNat : Int) - 65536 := BitVec.toInt_eq_toNat_cond t.toBitVec
  have hlt : t.toUInt16.toNat < 65536 := t.toUInt16.toNat_lt
  have hlt' : puerto.toNat < 65536 := puerto.toNat_lt
  rw [mismoPuerto, hint, ← UInt16.toNat_inj]
  split <;> omega

/-! ## A call in its critical section -/

/-- The call is one that opens a connection. -/
def Llamada.abre : Llamada → Prop
  | .send _ _ _ _ => False
  | _ => True

/-- The local address that the call takes to its critical section. -/
def Llamada.origen (k : KernelShm) : Llamada → Option TDireccion
  | .connect e destino origen =>
    if e.getKernel < 0 then none
    else (comprobarConnect e k.interfaz destino origen).bind fun r =>
      if r.1 = 0 then some r.2 else none
  | .listen e escucha _ =>
    if e.getKernel < 0 then none
    else
      let r := comprobarListen e k.interfaz escucha
      if r.1 = 0 then some r.2 else none
  | .send _ _ _ _ => none

/-- The cell has the remote address of a connect, as the code compares them. -/
def Conexion.mismoDestino (c : Conexion) : Llamada → Prop
  | .connect _ destino _ => c.ipDestino = destino.ip ∧ mismoPuerto c.puertoDestino destino.puerto
  | _ => False

/-- The cell is one that the call with the local address `o` takes for a repetition. -/
def Conexion.repite (c : Conexion) (o : TDireccion) (l : Llamada) : Prop :=
  c.mismoDestino l ∨ mismoPuerto c.puertoOrigen o.puerto

variable {k : KernelShm} {c : Llamada} {o : TDireccion}

theorem origen_connect {e : Entorno} {destino origen : TDireccion} :
    (Llamada.connect e destino origen).origen k = some o ↔
      ¬e.getKernel < 0 ∧ comprobarConnect e k.interfaz destino origen = some (0, o) := by
  unfold Llamada.origen
  by_cases hk : e.getKernel < 0
  · simp [hk]
  · simp only [hk, if_false, not_false_eq_true, true_and, Option.bind_eq_some_iff]
    constructor
    · rintro ⟨⟨r, o'⟩, hpar, hr⟩
      split at hr
      · next h0 =>
        obtain rfl := Option.some.inj hr
        rw [hpar, show r = 0 from h0]
      · exact absurd hr (by simp)
    · exact fun hpar => ⟨(0, o), hpar, if_pos rfl⟩

theorem origen_listen {e : Entorno} {escucha : TDireccion} {remota : Option TDireccion} :
    (Llamada.listen e escucha remota).origen k = some o ↔
      ¬e.getKernel < 0 ∧ comprobarListen e k.interfaz escucha = (0, o) := by
  unfold Llamada.origen
  by_cases hk : e.getKernel < 0
  · simp [hk]
  · simp only [hk, if_false, not_false_eq_true, true_and, Prod.ext_iff]
    split
    · next h0 => simp [h0]
    · next h0 => simp [h0]

/-- One of the search loops over the whole table. -/
theorem primera_ge_zero_iff {p : ℕ → Prop} [DecidablePred p] {q : Int → Prop}
    (hq : ∀ i : ℕ, p i ↔ q i) : primera p (-1) ≥ 0 ↔ ∃ i, EnTabla i ∧ q i := by
  rcases primera_cases p (-1) with ⟨i, hi, hp, -, e⟩ | ⟨hno, e⟩
  · rw [e]
    exact iff_of_true (Int.natCast_nonneg i) ⟨i, enTabla_natCast.mpr hi, (hq i).mp hp⟩
  · rw [e]
    refine iff_of_false (by decide) ?_
    rintro ⟨i, hi, hqi⟩
    obtain ⟨n, hn, rfl⟩ := enTabla_iff.mp hi
    exact hno n hn ((hq n).mpr hqi)

theorem buscarConnectRepetido_iff {e : Entorno} {destino origen : TDireccion} :
    buscarConnectRepetido k o destino > -1 ↔
      ∃ i, EnTabla i ∧ (k.CXs i).repite o (.connect e destino origen) :=
  Int.lt_iff_add_one_le.trans (primera_ge_zero_iff fun _ => Iff.rfl)

theorem buscarListenRepetido_iff {e : Entorno} {escucha : TDireccion} {remota : Option TDireccion} :
    buscarListenRepetido k o ≥ 0 ↔
      ∃ i, EnTabla i ∧ (k.CXs i).repite o (.listen e escucha remota) :=
  primera_ge_zero_iff fun _ => (or_iff_right not_false).symm

/-- The ways a call that reaches its critical section can go. -/
inductive Critica (k : KernelShm) (c : Llamada) (o : TDireccion) (r : Paso × Mundo) : Prop
  | lleno (hn : k.numCXs = numMaxCXs) (hr : r.1 = .retorna exMaxC) (hk : r.2.kernel = k.suelto)
  | repetida (hn : k.numCXs ≠ numMaxCXs) (hrep : ∃ i, EnTabla i ∧ (k.CXs i).repite o c)
      (hr : r.1 = .retorna exCDup) (hk : r.2.kernel = k.suelto)
  | toma (hn : k.numCXs ≠ numMaxCXs) (hrep : ¬∃ i, EnTabla i ∧ (k.CXs i).repite o c)
      (hr : ∃ i l, r.1 = .duerme i l)

theorem critica_of_origen (ho : c.origen k = some o) : Critica k c o (c.empieza ⟨k, []⟩) := by
  cases c with
  | send => exact absurd ho (by simp [Llamada.origen])
  | connect e destino origen =>
      obtain ⟨hk, hpar⟩ := origen_connect.mp ho
      rw [empieza_criticaConnect hk hpar, criticaConnect_run]
      by_cases hn : k.numCXs = numMaxCXs
      · rw [if_pos hn]
        exact .lleno hn rfl rfl
      · rw [if_neg hn]
        by_cases h : buscarConnectRepetido k o destino > -1
        · rw [if_pos h]
          exact .repetida hn (buscarConnectRepetido_iff.mp h) rfl rfl
        · rw [if_neg h]
          exact .toma hn (fun h' => h (buscarConnectRepetido_iff.mpr h')) ⟨_, _, rfl⟩
  | listen e escucha remota =>
      obtain ⟨hk, hpar⟩ := origen_listen.mp ho
      rw [empieza_criticaListen hk hpar, criticaListen_run]
      by_cases hn : k.numCXs = numMaxCXs
      · rw [if_pos hn]
        exact .lleno hn rfl rfl
      · rw [if_neg hn]
        by_cases h : buscarListenRepetido k o ≥ 0
        · rw [if_pos h]
          exact .repetida hn (buscarListenRepetido_iff.mp h) rfl rfl
        · rw [if_neg h]
          exact .toma hn (fun h' => h (buscarListenRepetido_iff.mpr h')) ⟨_, _, rfl⟩

/-- A call that does not reach its critical section leaves the kernel alone. -/
theorem fuera_of_origen (ho : c.origen k = none) (habre : c.abre) :
    (c.empieza ⟨k, []⟩).2.kernel = k ∧ ((c.empieza ⟨k, []⟩).1 = .busca ∨
      ∃ v, (c.empieza ⟨k, []⟩).1 = .retorna v ∧ (v = exKernel ∨ v = exInva)) := by
  cases c with
  | send => exact absurd habre id
  | connect e destino origen =>
      show (tConnect e destino origen ⟨k, []⟩).2.kernel = k ∧
        ((tConnect e destino origen ⟨k, []⟩).1.2 = .busca ∨
          ∃ v, (tConnect e destino origen ⟨k, []⟩).1.2 = .retorna v ∧ (v = exKernel ∨ v = exInva))
      unfold tConnect
      by_cases hk : e.getKernel < 0
      · rw [if_pos hk]
        exact ⟨rfl, Or.inr ⟨_, rfl, Or.inl rfl⟩⟩
      rw [if_neg hk, leeKernel_bind]
      cases hpar : comprobarConnect e k.interfaz destino origen with
      | none => exact ⟨rfl, Or.inl rfl⟩
      | some par =>
          obtain ⟨r, o⟩ := par
          rcases comprobarConnect_valor hpar with rfl | rfl
          · exact ⟨rfl, Or.inr ⟨_, rfl, Or.inr rfl⟩⟩
          · rw [origen_connect.mpr ⟨hk, hpar⟩] at ho
            exact absurd ho (by simp)
  | listen e escucha remota =>
      show (tListen e escucha remota ⟨k, []⟩).2.kernel = k ∧
        ((tListen e escucha remota ⟨k, []⟩).1.2 = .busca ∨
          ∃ v, (tListen e escucha remota ⟨k, []⟩).1.2 = .retorna v ∧ (v = exKernel ∨ v = exInva))
      unfold tListen
      by_cases hk : e.getKernel < 0
      · rw [if_pos hk]
        exact ⟨rfl, Or.inr ⟨_, rfl, Or.inl rfl⟩⟩
      rw [if_neg hk, leeKernel_bind]
      have hval := comprobarListen_valor e k.interfaz escucha
      cases hpar : comprobarListen e k.interfaz escucha with
      | mk r o =>
          rw [hpar] at hval
          rcases hval with e' | e'
          · obtain rfl : r = -1 := e'
            exact ⟨rfl, Or.inr ⟨_, rfl, Or.inr rfl⟩⟩
          · obtain rfl : r = 0 := e'
            rw [origen_listen.mpr ⟨hk, hpar⟩] at ho
            exact absurd ho (by simp)

/-! ## Local ports -/

/-- No two occupied cells have the same local port. -/
def Unicos (k : KernelShm) : Prop :=
  ∀ i j, EnTabla i → EnTabla j → k.ocupada i → k.ocupada j →
    (k.CXs i).puertoOrigen = (k.CXs j).puertoOrigen → i = j

/-- An occupied cell has the local port `o` of a call. -/
def EnUso (k : KernelShm) (o : TDireccion) : Prop :=
  ∃ i, EnTabla i ∧ k.ocupada i ∧ (k.CXs i).puertoOrigen = o.puerto.toUInt16

/-- If the port of the call is in use it is not negative, or the table is full, or the call is a connect
and some cell has its remote address. -/
def Llamada.visible (k : KernelShm) (c : Llamada) : Prop :=
  ∀ o, c.origen k = some o → EnUso k o → o.puerto.toInt < 0 →
    k.numCXs = numMaxCXs ∨ ∃ i, EnTabla i ∧ (k.CXs i).mismoDestino c

variable {k' : KernelShm}

/-- The step occupies no cell of the table and changes the port of none that is occupied. -/
def MismosPuertos (k k' : KernelShm) : Prop :=
  ∀ i, EnTabla i → k'.ocupada i → k.ocupada i ∧ (k'.CXs i).puertoOrigen = (k.CXs i).puertoOrigen

theorem mismosPuertos_of_CXs (h : k'.CXs = k.CXs) : MismosPuertos k k' := fun i _ hocu =>
  ⟨(ocupada_congr (by rw [h])).mp hocu, by rw [h]⟩

theorem MismaTabla.mismosPuertos (h : MismaTabla k k') : MismosPuertos k k' := fun i _ hocu => by
  obtain ⟨TX, d, e⟩ := h.celda i
  exact ⟨(h.ocupada_iff i).mp hocu, by rw [e]⟩

theorem mismosPuertos_recibe {ipRemota : InAddr} {p : Tpdu} {w : List Accion}
    (h : Recibe k ipRemota p k' w) : MismosPuertos k k' := by
  intro i hi hocu
  refine ⟨h.mengua.ocupada i hi hocu, ?_⟩
  cases h with
  | otro => rfl
  | cc =>
      by_cases e : i = p.cabecera.idDestino
      · rw [e, trasCC_self, Conexion.recibeCC]
        split <;> rfl
      · rw [trasCC_of_ne e]
  | cr =>
      by_cases e : i = asignConexionCR p k
      · rw [e, trasCR_self, Conexion.recibeCR]
        split <;> rfl
      · rw [trasCR_of_ne e]

theorem mismosPuertos_sigue {l : Local} {paso : Paso} {w : List Accion}
    (h : Sigue k l paso k' w) : MismosPuertos k k' := by
  cases h with
  | connect => exact mismosPuertos_of_CXs rfl
  | listen => exact mismosPuertos_of_CXs rfl
  | send l hfin => exact hfin.efecto.mismaTabla.mismosPuertos

theorem Unicos.conserva (h : Unicos k) (hp : MismosPuertos k k') : Unicos k' := by
  intro i j hi hj hocu hocu' e
  obtain ⟨hi', ei⟩ := hp i hi hocu
  obtain ⟨hj', ej⟩ := hp j hj hocu'
  exact h i j hi hj hi' hj' (by rw [← ei, ← ej, e])

theorem Unicos.toma (h : Unicos k) {o : TDireccion} {i : Int} (huso : ¬EnUso k o)
    (hself : (k'.CXs i).puertoOrigen = o.puerto.toUInt16)
    (hne : ∀ j, j ≠ i → k'.CXs j = k.CXs j) : Unicos k' := by
  have hotra : ∀ j, EnTabla j → j ≠ i → k'.ocupada j →
      (k'.CXs j).puertoOrigen ≠ (k'.CXs i).puertoOrigen := by
    intro j hj hji hocu e
    refine huso ⟨j, hj, (ocupada_congr (hne j hji)).mp hocu, ?_⟩
    rw [← hne j hji, e, hself]
  intro a b ha hb hocu hocu' e
  by_cases ea : a = i
  · by_cases eb : b = i
    · rw [ea, eb]
    · rw [ea] at e
      exact absurd e.symm (hotra b hb eb hocu')
  · by_cases eb : b = i
    · rw [eb] at e
      exact absurd e (hotra a ha ea hocu)
    · rw [hne a ea, hne b eb] at e
      exact h a b ha hb ((ocupada_congr (hne a ea)).mp hocu) ((ocupada_congr (hne b eb)).mp hocu') e

/-- A call that takes a cell has a port that no occupied cell has. -/
theorem not_enUso_of_toma {o : TDireccion} (hv : c.visible k)
    (ho : c.origen k = some o) (hn : k.numCXs ≠ numMaxCXs)
    (hrep : ¬∃ i, EnTabla i ∧ (k.CXs i).repite o c) : ¬EnUso k o := by
  intro huso
  by_cases hneg : o.puerto.toInt < 0
  · rcases hv o ho huso hneg with hmax | ⟨i, hi, hdest⟩
    · exact hn hmax
    · exact hrep ⟨i, hi, Or.inl hdest⟩
  · obtain ⟨i, hi, -, e⟩ := huso
    exact hrep ⟨i, hi, Or.inr (mismoPuerto_iff.mpr ⟨e, hneg⟩)⟩

theorem unicos_empieza {paso : Paso} {w : List Accion} (hu : Unicos k)
    (hv : c.visible k) (he : Empieza k c paso k' w) : Unicos k' := by
  cases he with
  | connect e destino origen origen' hk hpar hn hrep =>
      refine hu.toma (not_enUso_of_toma hv (origen_connect.mpr ⟨hk, hpar⟩) hn fun h => ?_) ?_
        fun j hj => trasConnect_of_ne e.pid destino origen' hj
      · exact hrep (buscarConnectRepetido_iff.mpr h)
      · rw [trasConnect_self]
        rfl
  | listen e escucha escucha' remota hk hpar hn hrep =>
      refine hu.toma (not_enUso_of_toma hv (origen_listen.mpr ⟨hk, hpar⟩) hn fun h => ?_) ?_
        fun j hj => trasListen_of_ne e.pid escucha' remota hj
      · exact hrep (buscarListenRepetido_iff.mpr h)
      · rw [trasListen_self]
        rfl
  | fuera => exact hu
  | busca => exact hu
  | lleno => exact hu.conserva (mismosPuertos_of_CXs rfl)
  | repetido => exact hu.conserva (mismosPuertos_of_CXs rfl)
  | sinConexion => exact hu.conserva (mismosPuertos_of_CXs rfl)
  | send e id datos longitud hest hfin =>
      exact hu.conserva hfin.efecto.mismaTabla.mismosPuertos

end Ltm.Kernel
