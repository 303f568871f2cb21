import Ltm.Nodo.Capacidad
import Ltm.Nodo.Dentro

/-! # The list of free cells and the table

`CXs_libres` starts as the list of all cells, and only `t_connect` takes from it. It stays the list of
the free cells as long as no `t_listen` takes a cell and no negative CC frees one: then it is in the
order of the table, and its head is the cell that `buscar_celda_libre` finds. The nodes of the list stand
behind the table, in reach of a write beside it, so the runs are those that stay inside (`Definido`).
-/

namespace Ltm.Nodo
open Kernel Runs
set_option autoImplicit false
set_option maxHeartbeats 250000

/-- `CXs_libres` holds each free cell of the table once, and nothing else. -/
structure Libres (k : KernelShm) : Prop where
  nodup : k.CXsLibres.Nodup
  mem : ∀ i, i ∈ k.CXsLibres ↔ EnTabla i ∧ ¬k.ocupada i

/-- The event neither takes a cell for a `t_listen` nor frees one by a negative CC. -/
def sinFuga (k : KernelShm) : Suceso → Prop
  | .llama (.listen e escucha remota) => ¬(Llamada.listen e escucha remota).toma k
  | .recibe _ p _ => ¬(p.cabecera.tipo = tipoCC ∧ p.cabecera.conexionAceptada < 0 ∧
      EnTabla p.cabecera.idDestino ∧ k.ocupada p.cabecera.idDestino)
  | _ => True

def tomaConnect (k : KernelShm) : Suceso → Prop
  | .llama (.connect e destino origen) => (Llamada.connect e destino origen).toma k
  | _ => False

instance (k : KernelShm) (e : Suceso) : Decidable (tomaConnect k e) := by
  unfold tomaConnect
  split <;> infer_instance

/-- The free list after a step agrees with the table, and a `t_connect` that takes a cell pops it: the
list is not empty, and the cell is its head. -/
structure ListaConforme (s : Estado) (e : Suceso) (s' : Estado) : Prop where
  libres : Libres s'.kernel
  popFront : tomaConnect s.kernel e →
    s.kernel.CXsLibres = buscarCeldaLibre s.kernel :: s'.kernel.CXsLibres

/-! ## The free cells in the order of the table -/

theorem filter_of_cons {α : Type} {l t : List α} {p q : α → Bool} {a : α} (hl : l.Nodup)
    (hp : l.filter p = a :: t) (hq : ∀ x ∈ l, q x = true ↔ p x = true ∧ x ≠ a) : l.filter q = t := by
  have hnodup : (a :: t).Nodup := hp ▸ hl.filter p
  have ha : ∀ x ∈ t, x ≠ a := by
    rintro x hx rfl
    exact (List.nodup_cons.mp hnodup).1 hx
  have hfilter : l.filter q = (a :: t).filter fun x => !p x || q x := by
    rw [← hp, List.filter_filter]
    apply List.filter_congr
    intro x hx
    have := hq x hx
    cases hpx : p x <;> cases hqx : q x <;> simp_all
  rw [hfilter, List.filter_cons_of_neg]
  · apply List.filter_eq_self.mpr
    intro x hx
    have hmem : x ∈ l.filter p := hp ▸ List.mem_cons_of_mem a hx
    obtain ⟨hxl, hpx⟩ := List.mem_filter.mp hmem
    simp [(hq x hxl).mpr ⟨hpx, ha x hx⟩]
  · have hmem : a ∈ l.filter p := hp ▸ List.mem_cons_self
    obtain ⟨hal, hpa⟩ := List.mem_filter.mp hmem
    have := hq a hal
    simp_all

def libresEnOrden (k : KernelShm) : List Int :=
  ((List.range numMaxCXs).filter fun i : ℕ => ¬k.ocupada i).map Int.ofNat

variable {k k' : KernelShm}

theorem nodup_libresEnOrden (k : KernelShm) : (libresEnOrden k).Nodup :=
  (List.nodup_range.filter _).map fun _ _ h => Int.ofNat.inj h

theorem mem_libresEnOrden {i : Int} : i ∈ libresEnOrden k ↔ EnTabla i ∧ ¬k.ocupada i := by
  simp only [libresEnOrden, List.mem_map, List.mem_filter, List.mem_range, decide_eq_true_eq]
  constructor
  · rintro ⟨n, ⟨hn, hlibre⟩, rfl⟩
    exact ⟨enTabla_natCast.mpr hn, hlibre⟩
  · rintro ⟨hi, hlibre⟩
    obtain ⟨n, hn, rfl⟩ := enTabla_iff.mp hi
    exact ⟨n, ⟨hn, hlibre⟩, rfl⟩

theorem libresEnOrden_congr (h : ∀ i, EnTabla i → (k'.ocupada i ↔ k.ocupada i)) :
    libresEnOrden k' = libresEnOrden k := by
  unfold libresEnOrden
  congr 1
  apply List.filter_congr
  intro i hi
  rw [decide_eq_decide, h i (enTabla_natCast.mpr (List.mem_range.mp hi))]

theorem buscarCeldaLibre_eq_head (k : KernelShm) :
    buscarCeldaLibre k = (libresEnOrden k).head?.getD 0 := by
  have hlibre : (fun i : ℕ => decide ((k.CXs i).celdaOcupada = 0)) =
      fun i : ℕ => decide ¬k.ocupada i := by
    funext i
    simp [KernelShm.ocupada]
  unfold buscarCeldaLibre primera libresEnOrden
  rw [List.head?_map, List.head?_filter, hlibre]

theorem libresEnOrden_toma (hlibre : ¬k.ocupada (buscarCeldaLibre k))
    (hself : k'.ocupada (buscarCeldaLibre k))
    (hne : ∀ i, i ≠ buscarCeldaLibre k → (k'.ocupada i ↔ k.ocupada i)) :
    libresEnOrden k = buscarCeldaLibre k :: libresEnOrden k' := by
  have hhead := buscarCeldaLibre_eq_head k
  have hmem := mem_libresEnOrden.mpr ⟨buscarCeldaLibre_enTabla k, hlibre⟩
  cases hf : (List.range numMaxCXs).filter fun i : ℕ => ¬k.ocupada i with
  | nil =>
      unfold libresEnOrden at hmem
      rw [hf] at hmem
      exact absurd hmem (by simp)
  | cons n t =>
      have hn : buscarCeldaLibre k = n := by
        rw [hhead, libresEnOrden, hf]
        rfl
      have ht : ((List.range numMaxCXs).filter fun i : ℕ => ¬k'.ocupada i) = t := by
        refine filter_of_cons List.nodup_range hf ?_
        intro i _hi
        by_cases hi : i = n
        · rw [hn] at hself
          simp [hi, hself]
        · have := hne i (by omega)
          simp [hi, this]
      rw [libresEnOrden, hf, libresEnOrden, ht, hn]
      rfl

theorem Libres.of_orden (h : k.CXsLibres = libresEnOrden k) : Libres k :=
  ⟨h ▸ nodup_libresEnOrden k, fun _ => h ▸ mem_libresEnOrden⟩

/-! ## Every step -/

inductive EfectoLibres (k : KernelShm) (e : Suceso) (k' : KernelShm) : Prop
  | quieto (hl : k'.CXsLibres = k.CXsLibres)
      (ho : ∀ i, EnTabla i → (k'.ocupada i ↔ k.ocupada i)) (hok : sinFuga k e)
      (hno : ¬tomaConnect k e)
  | toma (hl : k'.CXsLibres = k.CXsLibres.tail) (hlibre : ¬k.ocupada (buscarCeldaLibre k))
      (hself : k'.ocupada (buscarCeldaLibre k))
      (hne : ∀ i, i ≠ buscarCeldaLibre k → (k'.ocupada i ↔ k.ocupada i)) (hok : sinFuga k e)
      (ht : tomaConnect k e)
  | fuga {i : Int} (hl : k'.CXsLibres = k.CXsLibres) (hi : EnTabla i)
      (ho : ¬(k'.ocupada i ↔ k.ocupada i)) (hok : ¬sinFuga k e) (hno : ¬tomaConnect k e)

theorem EfectoLibres.CXsLibres {e : Suceso} (h : EfectoLibres k e k') :
    k'.CXsLibres = if tomaConnect k e then k.CXsLibres.tail else k.CXsLibres := by
  cases h with
  | quieto hl _ _ hno => rw [hl, if_neg hno]
  | toma hl _ _ _ _ ht => rw [hl, if_pos ht]
  | fuga hl _ _ _ hno => rw [hl, if_neg hno]

theorem EfectoLibres.of_mismaTabla {e : Suceso} (h : MismaTabla k k') (hok : sinFuga k e)
    (hno : ¬tomaConnect k e) : EfectoLibres k e k' :=
  .quieto h.CXsLibres (fun i _ => h.ocupada_iff i) hok hno

theorem efectoLibres_empieza {s : Estado} (hi : Cuadra s) {c : Llamada} {paso : Paso}
    {w : List Accion} (he : Empieza s.kernel c paso k' w) :
    EfectoLibres s.kernel (.llama c) k' := by
  by_cases ht : c.toma s.kernel
  · cases he with
    | connect e destino origen origen' hk hpar hn hrep =>
        refine .toma rfl (hi.celda_libre hn) (ocupada_trasConnect e.pid destino origen')
          (fun i hne => ?_) trivial ht
        exact ocupada_congr (trasConnect_of_ne e.pid destino origen' hne)
    | listen e escucha escucha' remota hk hpar hn hrep =>
        refine .fuga rfl (buscarCeldaLibre_enTabla s.kernel) (fun ho => ?_) (not_not.mpr ht) id
        apply hi.celda_libre hn
        rw [← ho]
        exact ocupada_trasListen e.pid escucha' remota
    | fuera hno => exact absurd ht hno
    | busca hno => exact absurd ht hno
    | repetido hno => exact absurd ht hno
    | lleno hn => exact absurd ht (not_toma_of_lleno hn)
    | sinConexion => exact absurd ht (by simp [Llamada.toma])
    | send => exact absurd ht (by simp [Llamada.toma])
  · refine .of_mismaTabla (he.mismaTabla ht) ?_ ?_
    · cases c with
      | connect => trivial
      | listen => exact ht
      | send => trivial
    · cases c with
      | connect => exact ht
      | listen => exact id
      | send => exact id

theorem efectoLibres_trasCC {ipRemota : InAddr} {p : Tpdu} {para : Option ℕ}
    (ht : p.cabecera.tipo = tipoCC) :
    EfectoLibres k (.recibe ipRemota p para) (k.trasCC p.cabecera) := by
  by_cases hneg : p.cabecera.conexionAceptada < 0
  · have hself : ¬(k.trasCC p.cabecera).ocupada p.cabecera.idDestino := by
      unfold KernelShm.ocupada
      rw [trasCC_self, Conexion.recibeCC, if_pos hneg]
      simp
    by_cases hocu : EnTabla p.cabecera.idDestino ∧ k.ocupada p.cabecera.idDestino
    · refine .fuga rfl hocu.1 (fun ho => hself (ho.mpr hocu.2)) ?_ id
      exact not_not.mpr ⟨ht, hneg, hocu⟩
    · refine .quieto rfl (fun i hi => ?_) (fun h => hocu h.2.2) id
      by_cases e : i = p.cabecera.idDestino
      · rw [e] at hi ⊢
        exact iff_of_false hself fun h => hocu ⟨hi, h⟩
      · exact ocupada_congr (trasCC_of_ne e)
  · refine .quieto rfl (fun i _ => ?_) (fun h => hneg h.2.1) id
    by_cases e : i = p.cabecera.idDestino
    · unfold KernelShm.ocupada
      rw [e, trasCC_self, Conexion.recibeCC, if_neg hneg]
    · exact ocupada_congr (trasCC_of_ne e)

theorem efectoLibres_recibe {ipRemota : InAddr} {p : Tpdu} {para : Option ℕ} {w : List Accion}
    (he : Recibe k ipRemota p k' w) : EfectoLibres k (.recibe ipRemota p para) k' := by
  cases he with
  | cc ht => exact efectoLibres_trasCC ht
  | cr ht =>
      exact .quieto rfl (fun i _ => ocupada_trasCR ipRemota p i)
        (fun h => tipoCR_ne_tipoCC ht h.1) id
  | otro hcc hcr => exact .quieto rfl (fun _ _ => Iff.rfl) (fun h => hcc h.1) id

theorem libres_sigue {l : Local} {paso : Paso} {w : List Accion} (h : Sigue k l paso k' w) :
    k'.CXsLibres = k.CXsLibres ∧ ∀ i, k'.ocupada i ↔ k.ocupada i := by
  cases h with
  | connect i => exact ⟨rfl, fun _ => Iff.rfl⟩
  | listen i => exact ⟨rfl, fun _ => Iff.rfl⟩
  | send l hfin =>
      exact ⟨hfin.efecto.CXsLibres, fun i => hfin.efecto.mismaTabla.ocupada_iff i⟩

variable {s s' : Estado} {e : Suceso}

theorem efectoLibres_transita (hi : Cuadra s) (h : Transita s e s') :
    EfectoLibres s.kernel e s'.kernel := by
  cases h with
  | termina hs he => exact efectoLibres_empieza hi he
  | empieza hs he => exact efectoLibres_empieza hi he
  | acaba hs hh hf he =>
      exact .quieto (libres_sigue he).1 (fun i _ => (libres_sigue he).2 i) trivial id
  | vuelve hs hh hf he =>
      exact .quieto (libres_sigue he).1 (fun i _ => (libres_sigue he).2 i) trivial id
  | recibe hs hd he => exact efectoLibres_recibe he
  | citaDaemon hh hf hd => exact .of_mismaTabla (.refl _) trivial id
  | cita hne hh hf hh' hf' => exact .of_mismaTabla (.refl _) trivial id
  | despierta hh hf => exact .of_mismaTabla (.refl _) trivial id
  | suelta hd => exact .of_mismaTabla (.refl _) trivial id

structure EnOrden (s : Estado) : Prop where
  cuadra : Cuadra s
  lista : s.kernel.CXsLibres = libresEnOrden s.kernel

theorem enOrden_paso (hi : EnOrden s) (hok : sinFuga s.kernel e) (h : paso s e = some s') :
    EnOrden s' := by
  have ht := transita_of_paso h
  refine ⟨cuadra_transita hi.cuadra ht, ?_⟩
  cases efectoLibres_transita hi.cuadra ht with
  | quieto hl ho => rw [hl, hi.lista, libresEnOrden_congr ho]
  | toma hl hlibre hself hne =>
      rw [hl, hi.lista, libresEnOrden_toma hlibre hself hne]
      rfl
  | fuga hl hi' ho hno => exact absurd hok hno

/-- A step from a list in order leaves a list that agrees with the table just if it leaks nothing. -/
theorem listaConforme_iff_sinFuga (hi : EnOrden s) (h : paso s e = some s') :
    ListaConforme s e s' ↔ sinFuga s.kernel e := by
  constructor
  · intro hlista
    by_contra hno
    cases efectoLibres_transita hi.cuadra (transita_of_paso h) with
    | quieto hl ho hok => exact hno hok
    | toma hl hlibre hself hne hok => exact hno hok
    | @fuga i hl hi' ho hok =>
        have hantes := (Libres.of_orden hi.lista).mem i
        have hahora := hlista.libres.mem i
        rw [hl] at hahora
        tauto
  · intro hok
    refine ⟨Libres.of_orden (enOrden_paso hi hok h).lista, fun hto => ?_⟩
    cases efectoLibres_transita hi.cuadra (transita_of_paso h) with
    | quieto hl ho hok hno => exact absurd hto hno
    | toma hl hlibre hself hne =>
        rw [hl, hi.lista, libresEnOrden_toma hlibre hself hne]
        rfl
    | fuga hl hi' ho hno => exact absurd hok hno

theorem enOrden_inicial (interfaz : String) (numBufPkts : UInt16) (fuera : Int → Conexion)
    (basura : ℕ → BufPkt) :
    EnOrden (inicial (kernelInicial interfaz numBufPkts fuera basura)) := by
  have hc := cuadra_inicial interfaz numBufPkts fuera basura
  refine ⟨hc, ?_⟩
  have hlibre : ∀ i : ℕ, i ∈ List.range numMaxCXs →
      (decide ¬(kernelInicial interfaz numBufPkts fuera basura).ocupada i) = true := by
    intro i hi
    have hi' := enTabla_natCast.mpr (List.mem_range.mp hi)
    simp [KernelShm.ocupada, kernelInicial, iniciaKernel, inicializarCXsLibres, hi', Conexion.nula]
  show (kernelInicial interfaz numBufPkts fuera basura).CXsLibres =
    libresEnOrden (kernelInicial interfaz numBufPkts fuera basura)
  unfold libresEnOrden
  rw [List.filter_eq_self.mpr hlibre]
  rfl

/-- The free list agrees with the table from the start. In a run inside the table it does so after every
step, and every `t_connect` pops the cell it takes, exactly when no step of the run takes a cell for a
`t_listen` or frees one by a negative CC. -/
theorem listaConforme_iff {interfaz : String} {numBufPkts : UInt16} {fuera : Int → Conexion}
    {basura : ℕ → BufPkt} {es : List Suceso}
    (hdef : Along paso (fun s e _ => Definido s.kernel e)
      (inicial (kernelInicial interfaz numBufPkts fuera basura)) es) :
    Libres (kernelInicial interfaz numBufPkts fuera basura) ∧
      (Along paso ListaConforme (inicial (kernelInicial interfaz numBufPkts fuera basura)) es ↔
        Along paso (fun s e _ => sinFuga s.kernel e)
          (inicial (kernelInicial interfaz numBufPkts fuera basura)) es) :=
  have hi := enOrden_inicial interfaz numBufPkts fuera basura
  have hsinFuga : ∀ s e s', EnOrden s → Definido s.kernel e → sinFuga s.kernel e →
      paso s e = some s' → EnOrden s' := fun _ _ _ hi _ hok h => enOrden_paso hi hok h
  ⟨Libres.of_orden hi.lista, along_iff_along_of EnOrden (fun s e _ => sinFuga s.kernel e)
    (fun s e _ => Definido s.kernel e) hsinFuga
    (fun _ _ _ hi _ h => listaConforme_iff_sinFuga hi h) es hi hdef⟩

/-- A connect, and the CC that accepts it. -/
theorem listaConforme_iff_conecta : Libres kernelPorDefecto ∧
    (Along paso ListaConforme (inicial kernelPorDefecto)
        [.llama (conecta 80 1000), .recibe 0x0a000002 (ccPara 0 1) (some 0)] ↔
      Along paso (fun s e _ => sinFuga s.kernel e) (inicial kernelPorDefecto)
        [.llama (conecta 80 1000), .recibe 0x0a000002 (ccPara 0 1) (some 0)]) :=
  listaConforme_iff (by decide +kernel)

/-- A `t_listen` takes the first cell, which stays in the list; and after eight refused connects, with
every cell free, a connect pops from an empty list. -/
theorem no_listaConforme :
    ¬Along paso ListaConforme (inicial kernelPorDefecto) [.llama (escucha 80)] ∧
      (run paso (inicial kernelPorDefecto)
        ((List.range 8).flatMap rechazado ++ [.llama (conecta 90 1010)])).map
          (fun s => decide (.listaVacia ∈ s.ultima)) = some true := by
  have hcelda : (paso (inicial kernelPorDefecto) (.llama (escucha 80))).map (fun s =>
      decide (0 ∈ s.kernel.CXsLibres ∧ s.kernel.ocupada 0)) = some true := by decide +kernel
  refine ⟨fun h => ?_, by decide +kernel⟩
  obtain ⟨s, hs, hmal⟩ := Option.map_eq_some_iff.mp hcelda
  obtain ⟨hmem, hocu⟩ := of_decide_eq_true hmal
  have hlista := ((Along.cons_of_some hs).mp h).1
  exact ((hlista.libres.mem 0).mp hmem).2 hocu

end Ltm.Nodo
