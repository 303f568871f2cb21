import Ltm.Kernel.Pasos
import Mathlib.Data.Finset.Card

/-! # The table before and after a section

What the search loops find, which cells are occupied, and what each of the kernels `tras…` does to the
cells of the table.
-/

namespace Ltm.Kernel
set_option autoImplicit false
set_option maxHeartbeats 250000

/-! ## The search loops -/

theorem primera_cases (p : ℕ → Prop) [DecidablePred p] (d : Int) :
    (∃ i : ℕ, i < numMaxCXs ∧ p i ∧ (∀ j < i, ¬p j) ∧ primera p d = i) ∨
      (∀ i < numMaxCXs, ¬p i) ∧ primera p d = d := by
  unfold primera
  cases hf : (List.range numMaxCXs).find? fun i => p i with
  | none =>
      refine Or.inr ⟨fun i hi => ?_, rfl⟩
      have := List.find?_eq_none.mp hf i (List.mem_range.mpr hi)
      simpa using this
  | some i =>
      have hp : p i := by simpa using List.find?_some hf
      have hi : i < numMaxCXs := List.mem_range.mp (List.mem_of_find?_eq_some hf)
      refine Or.inl ⟨i, hi, hp, fun j hj => ?_, rfl⟩
      have hfirst := (List.find?_range_eq_some.mp hf).2.2 j hj
      simpa using hfirst

theorem enTabla_natCast {i : ℕ} : EnTabla i ↔ i < numMaxCXs := by
  unfold EnTabla
  omega

theorem enTabla_iff {i : Int} : EnTabla i ↔ ∃ n : ℕ, n < numMaxCXs ∧ i = n := by
  unfold EnTabla
  constructor
  · intro h
    exact ⟨i.toNat, by omega, by omega⟩
  · rintro ⟨n, hn, rfl⟩
    omega

theorem not_enTabla_exNoTsap : ¬EnTabla exNoTsap := by
  decide

theorem tipoCR_ne_tipoCC {p : Tpdu} (ht : p.cabecera.tipo = tipoCR) : p.cabecera.tipo ≠ tipoCC := by
  rw [ht]
  decide

variable {k k' : KernelShm}

theorem buscarCeldaLibre_enTabla (k : KernelShm) : EnTabla (buscarCeldaLibre k) := by
  unfold buscarCeldaLibre
  rcases primera_cases (fun i => (k.CXs i).celdaOcupada = 0) 0 with ⟨i, hi, -, -, e⟩ | ⟨-, e⟩
  · rw [e]
    exact enTabla_natCast.mpr hi
  · rw [e]
    decide

theorem buscarCeldaLibre_libre {i : Int} (hi : EnTabla i) (hlibre : ¬k.ocupada i) :
    ¬k.ocupada (buscarCeldaLibre k) := by
  obtain ⟨n, hn, rfl⟩ := enTabla_iff.mp hi
  unfold buscarCeldaLibre
  rcases primera_cases (fun i => (k.CXs i).celdaOcupada = 0) 0 with ⟨j, -, hj, -, e⟩ | ⟨hno, -⟩
  · rw [e]
    exact not_not.mpr hj
  · exact absurd (not_not.mp hlibre) (hno n hn)

theorem asignConexionCR_cases (p : Tpdu) (k : KernelShm) :
    EnTabla (asignConexionCR p k) ∧ encaja (k.CXs (asignConexionCR p k)) p.cabecera ∨
      asignConexionCR p k = exNoTsap := by
  unfold asignConexionCR
  rcases primera_cases (fun i => encaja (k.CXs i) p.cabecera) exNoTsap with ⟨i, hi, hp, -, e⟩ | ⟨-, e⟩
  · rw [e]
    exact Or.inl ⟨enTabla_natCast.mpr hi, hp⟩
  · exact Or.inr e

theorem encaja_listen {c : Conexion} {h : CabTcp} (he : encaja c h) : c.estadoCx = .listen := by
  obtain ⟨-, -, h1 | h2 | h3⟩ := he
  · exact h1.2.2
  · exact h2.2.2
  · exact h3.2.2

/-! ## The occupied cells -/

def KernelShm.ocupadas (k : KernelShm) : Finset ℕ :=
  (Finset.range numMaxCXs).filter fun i => k.ocupada i

theorem mem_ocupadas {i : ℕ} : i ∈ k.ocupadas ↔ i < numMaxCXs ∧ k.ocupada i := by
  simp [KernelShm.ocupadas]

theorem exists_libre (h : k.ocupadas.card < numMaxCXs) : ∃ i, EnTabla i ∧ ¬k.ocupada i := by
  by_contra hno
  have hall : k.ocupadas = Finset.range numMaxCXs := by
    refine Finset.filter_true_of_mem fun i hi => ?_
    by_contra hlibre
    exact hno ⟨i, enTabla_natCast.mpr (Finset.mem_range.mp hi), hlibre⟩
  rw [hall, Finset.card_range] at h
  omega

theorem card_ocupadas_eq : k.ocupadas.card = numMaxCXs ↔ ∀ i, EnTabla i → k.ocupada i := by
  constructor
  · intro h i hi
    by_contra hlibre
    obtain ⟨n, hn, rfl⟩ := enTabla_iff.mp hi
    have hsub : k.ocupadas ⊆ (Finset.range numMaxCXs).erase n := by
      intro j hj
      obtain ⟨hj, hocu⟩ := mem_ocupadas.mp hj
      refine Finset.mem_erase.mpr ⟨?_, Finset.mem_range.mpr hj⟩
      rintro rfl
      exact hlibre hocu
    have hcard := Finset.card_le_card hsub
    rw [Finset.card_erase_of_mem (Finset.mem_range.mpr hn), Finset.card_range] at hcard
    omega
  · intro h
    have hall : k.ocupadas = Finset.range numMaxCXs :=
      Finset.filter_true_of_mem fun i hi => h i (enTabla_natCast.mpr (Finset.mem_range.mp hi))
    rw [hall, Finset.card_range]

/-! ## Cells after a section -/

/-- The kernels have the same table but for `TX` lists and `primitiva_dormida` flags. -/
structure MismaTabla (k k' : KernelShm) : Prop where
  celda : ∀ i, ∃ TX dormida, k'.CXs i = { k.CXs i with TX := TX, primitivaDormida := dormida }
  numCXs : k'.numCXs = k.numCXs
  CXsLibres : k'.CXsLibres = k.CXsLibres

theorem mismaTabla_of_CXs (h : k'.CXs = k.CXs) (hn : k'.numCXs = k.numCXs)
    (hl : k'.CXsLibres = k.CXsLibres) : MismaTabla k k' :=
  ⟨fun i => ⟨_, _, by rw [h]⟩, hn, hl⟩

theorem MismaTabla.refl (k : KernelShm) : MismaTabla k k := mismaTabla_of_CXs rfl rfl rfl

theorem mismaTabla_suelto (k : KernelShm) : MismaTabla k k.suelto := mismaTabla_of_CXs rfl rfl rfl

theorem EfectoSend.mismaTabla {id : Int} (h : EfectoSend id k k') : MismaTabla k k' := by
  refine ⟨fun i => ?_, h.numCXs, h.CXsLibres⟩
  by_cases hi : i = id
  · rw [hi]
    exact h.celda
  · exact ⟨_, _, by rw [h.otras i hi]⟩

theorem not_toma_of_lleno {c : Llamada} (hn : k.numCXs = numMaxCXs) : ¬c.toma k := by
  intro ht
  cases c with
  | connect e destino origen =>
      obtain ⟨-, o, -, hno, -⟩ := ht
      exact hno hn
  | listen e escucha remota =>
      obtain ⟨-, o, -, hno, -⟩ := ht
      exact hno hn
  | send => exact ht

theorem not_toma_of_retorna {c : Llamada} {v : Int} {w : List Accion}
    (h : Empieza k c (.retorna v) k' w) : ¬c.toma k := by
  cases h with
  | fuera ht => exact ht
  | lleno hn => exact not_toma_of_lleno hn
  | repetido ht => exact ht
  | sinConexion => exact id
  | send => exact id

theorem Empieza.mismaTabla {c : Llamada} {paso : Paso} {w : List Accion}
    (h : Empieza k c paso k' w) (ht : ¬c.toma k) : MismaTabla k k' := by
  rcases h.sinToma ht with (rfl | rfl) | ⟨id, -, hefecto⟩
  · exact .refl k'
  · exact mismaTabla_suelto k
  · exact hefecto.mismaTabla

variable {i j : Int}

theorem MismaTabla.ocupada_iff (h : MismaTabla k k') (i : Int) : k'.ocupada i ↔ k.ocupada i := by
  obtain ⟨TX, d, e⟩ := h.celda i
  unfold KernelShm.ocupada
  rw [e]

theorem ocupada_congr (h : k'.CXs i = k.CXs i) : k'.ocupada i ↔ k.ocupada i := by
  unfold KernelShm.ocupada
  rw [h]

theorem trasConnect_self (pid : Int) (destino origen : TDireccion) :
    (k.trasConnect pid destino origen).CXs (buscarCeldaLibre k) =
      k.celdaConnect pid destino origen (buscarCeldaLibre k) :=
  Function.update_self _ _ _

theorem trasConnect_of_ne (pid : Int) (destino origen : TDireccion) (h : j ≠ buscarCeldaLibre k) :
    (k.trasConnect pid destino origen).CXs j = k.CXs j :=
  Function.update_of_ne h _ _

theorem estado_trasConnect (pid : Int) (destino origen : TDireccion) :
    ((k.trasConnect pid destino origen).CXs (buscarCeldaLibre k)).estadoCx = .connect := by
  rw [trasConnect_self]
  rfl

theorem ocupada_trasConnect (pid : Int) (destino origen : TDireccion) :
    (k.trasConnect pid destino origen).ocupada (buscarCeldaLibre k) := by
  unfold KernelShm.ocupada
  rw [trasConnect_self]
  simp [KernelShm.celdaConnect, Conexion.abreConnect]

/-- The `TX` list of the cell ends with the CR. -/
theorem getLast?_trasConnect (pid : Int) (destino origen : TDireccion) :
    ((k.trasConnect pid destino origen).CXs (buscarCeldaLibre k)).TX.getLast? =
      some (bufferCR (proximoBuffer k) (buscarCeldaLibre k) destino origen) := by
  rw [trasConnect_self, KernelShm.celdaConnect]
  exact List.getLast?_concat

theorem trasListen_self (pid : Int) (escucha : TDireccion) (remota : Option TDireccion) :
    (k.trasListen pid escucha remota).CXs (buscarCeldaLibre k) =
      (k.CXs (buscarCeldaLibre k)).abreListen pid escucha remota :=
  Function.update_self _ _ _

theorem estado_trasListen (pid : Int) (escucha : TDireccion) (remota : Option TDireccion) :
    ((k.trasListen pid escucha remota).CXs (buscarCeldaLibre k)).estadoCx = .listen := by
  rw [trasListen_self]
  rfl

theorem ocupada_trasListen (pid : Int) (escucha : TDireccion) (remota : Option TDireccion) :
    (k.trasListen pid escucha remota).ocupada (buscarCeldaLibre k) := by
  unfold KernelShm.ocupada
  rw [trasListen_self]
  simp [Conexion.abreListen]

theorem trasListen_of_ne (pid : Int) (escucha : TDireccion) (remota : Option TDireccion)
    (h : j ≠ buscarCeldaLibre k) : (k.trasListen pid escucha remota).CXs j = k.CXs j :=
  Function.update_of_ne h _ _

theorem trasCC_self (h : CabTcp) : (k.trasCC h).CXs h.idDestino = (k.CXs h.idDestino).recibeCC h :=
  Function.update_self _ _ _

theorem trasCC_of_ne {h : CabTcp} (hj : j ≠ h.idDestino) : (k.trasCC h).CXs j = k.CXs j :=
  Function.update_of_ne hj _ _

theorem trasCR_self (ipRemota : InAddr) (p : Tpdu) :
    (k.trasCR ipRemota p).CXs (asignConexionCR p k) =
      (k.CXs (asignConexionCR p k)).recibeCR ipRemota p.cabecera (asignConexionCR p k) :=
  Function.update_self _ _ _

theorem trasCR_of_ne {ipRemota : InAddr} {p : Tpdu} (hj : j ≠ asignConexionCR p k) :
    (k.trasCR ipRemota p).CXs j = k.CXs j :=
  Function.update_of_ne hj _ _

theorem trasCR_of_noTsap {ipRemota : InAddr} {p : Tpdu} (hp : asignConexionCR p k = exNoTsap)
    (hj : EnTabla j) : (k.trasCR ipRemota p).CXs j = k.CXs j := by
  apply trasCR_of_ne
  rintro rfl
  rw [hp] at hj
  exact not_enTabla_exNoTsap hj

theorem trasCR_of_enTabla {ipRemota : InAddr} {p : Tpdu} (hi : EnTabla (asignConexionCR p k)) :
    (k.trasCR ipRemota p).CXs (asignConexionCR p k) =
      (k.CXs (asignConexionCR p k)).aceptaCR ipRemota p.cabecera := by
  have hno : asignConexionCR p k ≠ exNoTsap := by
    intro e
    rw [e] at hi
    exact not_enTabla_exNoTsap hi
  rw [trasCR_self, Conexion.recibeCR, if_neg hno]

theorem ocupada_trasCR (ipRemota : InAddr) (p : Tpdu) (i : Int) :
    (k.trasCR ipRemota p).ocupada i ↔ k.ocupada i := by
  unfold KernelShm.ocupada
  by_cases e : i = asignConexionCR p k
  · rw [e, trasCR_self, Conexion.recibeCR]
    split <;> rfl
  · rw [trasCR_of_ne e]

/-! ## Sections that occupy no cell -/

/-- The kernel `k'` has the count of `k`, and no cell more. -/
structure Mengua (k k' : KernelShm) : Prop where
  numCXs : k'.numCXs = k.numCXs
  ocupada : ∀ i, EnTabla i → k'.ocupada i → k.ocupada i
  activa : ∀ i, EnTabla i → k'.ocupada i → (k.CXs i).estadoCx ≠ .closed →
    (k'.CXs i).estadoCx ≠ .closed

theorem MismaTabla.mengua (h : MismaTabla k k') : Mengua k k' := by
  refine ⟨h.numCXs, fun i _ hocu => ?_, fun i _ _ hact => ?_⟩
  · obtain ⟨TX, d, e⟩ := h.celda i
    unfold KernelShm.ocupada at hocu ⊢
    rwa [e] at hocu
  · obtain ⟨TX, d, e⟩ := h.celda i
    rw [e]
    exact hact

theorem mengua_trasCC (k : KernelShm) (h : CabTcp) : Mengua k (k.trasCC h) := by
  refine ⟨rfl, fun i _ hocu => ?_, fun i _ hocu hact => ?_⟩
  · by_cases hi : i = h.idDestino
    · subst hi
      unfold KernelShm.ocupada at hocu ⊢
      rw [trasCC_self, Conexion.recibeCC] at hocu
      split at hocu
      · exact absurd rfl hocu
      · exact hocu
    · unfold KernelShm.ocupada at hocu ⊢
      rwa [trasCC_of_ne hi] at hocu
  · by_cases hi : i = h.idDestino
    · subst hi
      unfold KernelShm.ocupada at hocu
      rw [trasCC_self, Conexion.recibeCC] at hocu ⊢
      split at hocu
      · exact absurd rfl hocu
      · next hpos =>
        rw [if_neg hpos]
        simp
    · rwa [trasCC_of_ne hi]

theorem mengua_trasCR (k : KernelShm) (ipRemota : InAddr) (p : Tpdu) :
    Mengua k (k.trasCR ipRemota p) := by
  refine ⟨rfl, fun i _ hocu => (ocupada_trasCR ipRemota p i).mp hocu, fun i hi' _ hact => ?_⟩
  by_cases hi : i = asignConexionCR p k
  · subst hi
    rw [trasCR_of_enTabla hi']
    simp [Conexion.aceptaCR]
  · rwa [trasCR_of_ne hi]

theorem Recibe.mengua {ipRemota : InAddr} {p : Tpdu} {w : List Accion}
    (h : Recibe k ipRemota p k' w) : Mengua k k' := by
  cases h with
  | cc => exact mengua_trasCC k p.cabecera
  | cr => exact mengua_trasCR k ipRemota p
  | otro => exact ⟨rfl, fun _ _ h => h, fun _ _ _ h => h⟩

end Ltm.Kernel
