import Ltm.Nodo.Hilos
import Ltm.Foundations.Runs

/-! # The count of connections covers the occupied cells

`num_CXs` is the number of calls that took a cell and have not given its place back (`contados`), and
every occupied cell was taken last by such a call. So there are never more occupied cells than
`num_CXs` says, and the cell that `buscar_celda_libre` hands out is free. `Cuadra` is this invariant;
every step of a host keeps it.
-/

namespace Ltm.Nodo
open Kernel Runs
set_option autoImplicit false
set_option maxHeartbeats 250000

structure Cuadra (s : Estado) : Prop where
  activa : ∀ i, EnTabla i → s.kernel.ocupada i → (s.kernel.CXs i).estadoCx ≠ .closed
  num : s.kernel.numCXs = s.contados.card
  tope : s.kernel.numCXs ≤ numMaxCXs
  dueno : ∀ i, EnTabla i → s.kernel.ocupada i →
    ∃ h f, s.dueno i = some h ∧ s.ficha h = some f ∧ f.cuenta = true ∧ f.celda = some i
  enCurso : ∀ h l i, s.pendiente h = some l → celdaDe l = some i →
    EnTabla i ∧ ∃ f, s.ficha h = some f ∧ f.cuenta = true ∧ f.celda = some i

variable {s s' : Estado}

/-! ## What the invariant gives -/

theorem Cuadra.card_le (hi : Cuadra s) : s.kernel.ocupadas.card ≤ s.contados.card := by
  have hdueno : ∀ i ∈ s.kernel.ocupadas, ∃ h f, s.dueno (i : Int) = some h ∧ s.ficha h = some f ∧
      f.cuenta = true ∧ f.celda = some (i : Int) := by
    intro i hocu
    obtain ⟨hlt, hocu⟩ := mem_ocupadas.mp hocu
    exact hi.dueno i (enTabla_natCast.mpr hlt) hocu
  refine Finset.card_le_card_of_injOn (fun i => (s.dueno (i : Int)).getD 0) ?_ ?_
  · intro i hocu
    obtain ⟨h, f, hd, hf, hc, -⟩ := hdueno i hocu
    simp only [hd, Option.getD_some, Finset.mem_coe]
    exact mem_contados.mpr ⟨f, hf, hc⟩
  · intro i hi' j hj' e
    obtain ⟨h, f, hd, hf, -, hcelda⟩ := hdueno i hi'
    obtain ⟨h', f', hd', hf', -, hcelda'⟩ := hdueno j hj'
    simp only [hd, hd', Option.getD_some] at e
    subst e
    obtain rfl := Option.some.inj (hf.symm.trans hf')
    have := Option.some.inj (hcelda.symm.trans hcelda')
    omega

theorem Cuadra.celda_libre (hi : Cuadra s) (hn : s.kernel.numCXs ≠ numMaxCXs) :
    ¬s.kernel.ocupada (buscarCeldaLibre s.kernel) := by
  have hle := hi.card_le
  have hnum := hi.num
  have htope := hi.tope
  obtain ⟨i, hi', hlibre⟩ := exists_libre (k := s.kernel) (by omega)
  exact buscarCeldaLibre_libre hi' hlibre

/-! ## Steps that occupy no cell -/

theorem Cuadra.mengua (hi : Cuadra s) (hk : Mengua s.kernel s'.kernel) (hd : s'.dueno = s.dueno)
    (hf : ∀ h f, s.ficha h = some f → s'.ficha h = some f) (hc : s'.contados = s.contados)
    (hp : ∀ h l, s'.pendiente h = some l → s.pendiente h = some l ∨ celdaDe l = none) :
    Cuadra s' where
  activa := fun i hi' hocu =>
    hk.activa i hi' hocu (hi.activa i hi' (hk.ocupada i hi' hocu))
  num := by rw [hk.numCXs, hc, hi.num]
  tope := by rw [hk.numCXs]; exact hi.tope
  dueno := by
    intro i hi' hocu
    obtain ⟨h, f, hd', hf', hcu, hce⟩ := hi.dueno i hi' (hk.ocupada i hi' hocu)
    exact ⟨h, f, by rw [hd, hd'], hf h f hf', hcu, hce⟩
  enCurso := by
    intro h l i hl hce
    rcases hp h l hl with hl | hno
    · obtain ⟨hi', f, hf', hrest⟩ := hi.enCurso h l i hl hce
      exact ⟨hi', f, hf h f hf', hrest⟩
    · rw [hno] at hce
      exact absurd hce (by simp)

theorem Cuadra.quieto (hi : Cuadra s) (hk : s'.kernel = s.kernel) (hd : s'.dueno = s.dueno)
    (hf : ∀ h, s'.ficha h = s.ficha h) (hp : ∀ h, s'.pendiente h = s.pendiente h) : Cuadra s' :=
  hi.mengua (hk ▸ (MismaTabla.refl s.kernel).mengua) hd (fun h f e => by rw [hf, e])
    (contados_congr hf) (fun h l e => Or.inl (by rw [← hp, e]))

theorem Cuadra.anade (hi : Cuadra s) {hilo : Hilo} (hk : Mengua s.kernel s'.kernel)
    (hd : s'.dueno = s.dueno) (hs : s'.hilos = s.hilos ++ [hilo]) (hcu : hilo.ficha.cuenta = false)
    (hl : ∀ l, hilo.fase.pendiente = some l → celdaDe l = none) : Cuadra s' := by
  refine hi.mengua hk hd (fun h f hf => (ficha_concat hs).mpr (Or.inl hf)) ?_ fun h l e => ?_
  · ext h
    rw [mem_contados, mem_contados]
    constructor
    · rintro ⟨f, hf, hc⟩
      rcases (ficha_concat hs).mp hf with hf | ⟨-, rfl⟩
      · exact ⟨f, hf, hc⟩
      · rw [hcu] at hc
        exact absurd hc (by simp)
    · rintro ⟨f, hf, hc⟩
      exact ⟨f, (ficha_concat hs).mpr (Or.inl hf), hc⟩
  · rcases (pendiente_concat hs).mp e with e | ⟨-, e⟩
    · exact Or.inl e
    · exact Or.inr (hl l e)

/-! ## A call takes a cell -/

theorem card_contados_concat {hilo : Hilo} (hs : s'.hilos = s.hilos ++ [hilo])
    (hcu : hilo.ficha.cuenta = true) : s'.contados.card = s.contados.card + 1 := by
  have hnew : s'.contados = insert s.hilos.length s.contados := by
    ext h
    rw [Finset.mem_insert, mem_contados, mem_contados]
    constructor
    · rintro ⟨f, hf, hc⟩
      rcases (ficha_concat hs).mp hf with hf | ⟨rfl, -⟩
      · exact Or.inr ⟨f, hf, hc⟩
      · exact Or.inl rfl
    · rintro (rfl | ⟨f, hf, hc⟩)
      · exact ⟨_, (ficha_concat hs).mpr (Or.inr ⟨rfl, rfl⟩), hcu⟩
      · exact ⟨f, (ficha_concat hs).mpr (Or.inl hf), hc⟩
  rw [hnew, Finset.card_insert_of_notMem]
  intro hmem
  obtain ⟨f, hf, -⟩ := mem_contados.mp hmem
  have := lt_of_ficha hf
  omega

theorem Cuadra.toma (hi : Cuadra s) {hilo : Hilo} {i : Int} {l : Local} (hi' : EnTabla i)
    (hn : s.kernel.numCXs ≠ numMaxCXs) (hnum : s'.kernel.numCXs = s.kernel.numCXs + 1)
    (hself : (s'.kernel.CXs i).estadoCx ≠ .closed)
    (hne : ∀ j, j ≠ i → s'.kernel.CXs j = s.kernel.CXs j)
    (hd : s'.dueno = Function.update s.dueno i (some s.hilos.length))
    (hs : s'.hilos = s.hilos ++ [hilo]) (hfase : hilo.fase = .espera i l) (hl : celdaDe l = some i)
    (hcelda : hilo.ficha.celda = some i) (hcu : hilo.ficha.cuenta = true) : Cuadra s' where
  activa := by
    intro j hj hocu
    by_cases e : j = i
    · rw [e]
      exact hself
    · unfold KernelShm.ocupada at hocu
      rw [hne j e] at hocu ⊢
      exact hi.activa j hj hocu
  num := by
    rw [hnum, hi.num, card_contados_concat hs hcu]
    omega
  tope := by
    have := hi.tope
    rw [hnum]
    omega
  dueno := by
    intro j hj hocu
    by_cases e : j = i
    · subst e
      exact ⟨s.hilos.length, hilo.ficha, by rw [hd, Function.update_self],
        (ficha_concat hs).mpr (Or.inr ⟨rfl, rfl⟩), hcu, hcelda⟩
    · unfold KernelShm.ocupada at hocu
      rw [hne j e] at hocu
      obtain ⟨h, f, hd', hf, hrest⟩ := hi.dueno j hj hocu
      exact ⟨h, f, by rw [hd, Function.update_of_ne e, hd'], (ficha_concat hs).mpr (Or.inl hf), hrest⟩
  enCurso := by
    intro h l' j hl' hce
    rcases (pendiente_concat hs).mp hl' with e | ⟨rfl, e⟩
    · obtain ⟨hj, f, hf, hrest⟩ := hi.enCurso h l' j e hce
      exact ⟨hj, f, (ficha_concat hs).mpr (Or.inl hf), hrest⟩
    · rw [hfase] at e
      obtain rfl := Option.some.inj e
      obtain rfl := Option.some.inj (hl.symm.trans hce)
      exact ⟨hi', hilo.ficha, (ficha_concat hs).mpr (Or.inr ⟨rfl, rfl⟩), hcu, hcelda⟩

/-! ## A call returns -/

theorem card_contados_erase {h : ℕ} {hilo hilo' : Hilo} (hh : s.hilos[h]? = some hilo)
    (hs : s'.hilos = s.hilos.set h hilo') (hcu : hilo.ficha.cuenta = true)
    (hcu' : hilo'.ficha.cuenta = false) : (s'.contados.card : Int) = s.contados.card - 1 := by
  have hmem : h ∈ s.contados := mem_contados.mpr ⟨_, ficha_of_hilo hh, hcu⟩
  have hnew : s'.contados = s.contados.erase h := by
    ext j
    rw [Finset.mem_erase, mem_contados, mem_contados]
    constructor
    · rintro ⟨f, hf, hc⟩
      rcases (ficha_set hh hs).mp hf with ⟨rfl, rfl⟩ | ⟨hj, hf⟩
      · rw [hcu'] at hc
        exact absurd hc (by simp)
      · exact ⟨hj, f, hf, hc⟩
    · rintro ⟨hj, f, hf, hc⟩
      exact ⟨f, (ficha_set hh hs).mpr (Or.inr ⟨hj, hf⟩), hc⟩
  rw [hnew, Finset.card_erase_of_mem hmem]
  have := Finset.card_pos.mpr ⟨h, hmem⟩
  omega

/-- A call that returns and does not count, or keeps its count. -/
theorem Cuadra.termina (hi : Cuadra s) {h : ℕ} {hilo hilo' : Hilo} (hh : s.hilos[h]? = some hilo)
    (hs : s'.hilos = s.hilos.set h hilo') (hk : Mengua s.kernel s'.kernel)
    (hd : s'.dueno = s.dueno) (hfi : hilo'.ficha = hilo.ficha)
    (hl : ∀ l, hilo'.fase.pendiente = some l → celdaDe l = none) : Cuadra s' := by
  have hf := ficha_set_self hh hs hfi
  refine hi.mengua hk hd (fun j f e => by rw [hf, e]) (contados_congr hf) fun j l e => ?_
  rcases (pendiente_set hh hs).mp e with ⟨-, e⟩ | ⟨-, e⟩
  · exact Or.inr (hl l e)
  · exact Or.inl e

/-- A refused `t_connect` gives its place back: its cell is not occupied, so no cell needs it. -/
theorem Cuadra.devuelve (hi : Cuadra s) {h : ℕ} {hilo hilo' : Hilo} {i : Int}
    (hh : s.hilos[h]? = some hilo) (hl : hilo.fase.pendiente = some (.connect i))
    (hcl : (s.kernel.CXs i).estadoCx = .closed) (hs : s'.hilos = s.hilos.set h hilo')
    (hcx : s'.kernel.CXs = s.kernel.CXs) (hnum : s'.kernel.numCXs = s.kernel.numCXs - 1)
    (hd : s'.dueno = s.dueno) (hp : hilo'.fase.pendiente = none)
    (hcu' : hilo'.ficha.cuenta = false) : Cuadra s' := by
  obtain ⟨hi', f, hf, hcu, hce⟩ :=
    hi.enCurso h _ i (by rw [pendiente_of_hilo hh, hl]) rfl
  obtain rfl := Option.some.inj ((ficha_of_hilo hh).symm.trans hf)
  exact
    { activa := fun j hj hocu => by
        unfold KernelShm.ocupada at hocu
        rw [hcx] at hocu ⊢
        exact hi.activa j hj hocu
      num := by rw [hnum, hi.num, card_contados_erase hh hs hcu hcu']
      tope := by
        have := hi.tope
        rw [hnum]
        omega
      dueno := by
        intro j hj hocu
        unfold KernelShm.ocupada at hocu
        rw [hcx] at hocu
        obtain ⟨h', f', hd', hf', hcu'', hce'⟩ := hi.dueno j hj hocu
        refine ⟨h', f', by rw [hd, hd'], (ficha_set hh hs).mpr (Or.inr ⟨?_, hf'⟩), hcu'', hce'⟩
        rintro rfl
        obtain rfl := Option.some.inj (hf.symm.trans hf')
        obtain rfl := Option.some.inj (hce.symm.trans hce')
        exact hi.activa _ hj hocu hcl
      enCurso := by
        intro j l k hl' hce'
        rcases (pendiente_set hh hs).mp hl' with ⟨-, e⟩ | ⟨hj, e⟩
        · rw [hp] at e
          exact absurd e (by simp)
        · obtain ⟨hk, f', hf', hrest⟩ := hi.enCurso j l k e hce'
          exact ⟨hk, f', (ficha_set hh hs).mpr (Or.inr ⟨hj, hf'⟩), hrest⟩ }

/-! ## Every step -/

theorem Cuadra.acaba (hi : Cuadra s) {h : ℕ} {hilo : Hilo} {l : Local} {v : Int} {k' : KernelShm}
    {w : List Accion} (hh : s.hilos[h]? = some hilo) (hf : hilo.fase = .sale l)
    (he : Sigue s.kernel l (.retorna v) k' w) :
    Cuadra { s with
      kernel := k'
      hilos := s.hilos.set h (hilo.acabado s.kernel l v)
      ultima := w } := by
  have hno : ∀ l', (hilo.acabado s.kernel l v).fase.pendiente = some l' → celdaDe l' = none :=
    fun l' e => absurd e (by simp [Hilo.acabado, Fase.pendiente])
  have hficha : descuenta s.kernel l = false → (hilo.acabado s.kernel l v).ficha = hilo.ficha :=
    fun e => by simp [Hilo.acabado, e]
  cases he with
  | connect i =>
      by_cases hcl : (s.kernel.CXs i).estadoCx = .closed
      · refine hi.devuelve hh (by rw [hf]; rfl) hcl rfl rfl ?_ rfl rfl ?_
        · simp only [KernelShm.trasRetorno, if_pos hcl]
        · simp [Hilo.acabado, descuenta, hcl]
      · refine hi.termina hh rfl ?_ rfl (hficha (by simp [descuenta, hcl])) hno
        refine ⟨?_, fun _ _ h => h, fun _ _ _ h => h⟩
        simp only [KernelShm.trasRetorno, if_neg hcl]
  | listen i => exact hi.termina hh rfl (mismaTabla_suelto s.kernel).mengua rfl (hficha rfl) hno
  | send l hfin =>
      exact hi.termina hh rfl hfin.efecto.mismaTabla.mengua rfl (hficha rfl) hno

theorem Cuadra.despertado (hi : Cuadra s) {h : ℕ} {hilo : Hilo} {i : Int} {l : Local}
    (hh : s.hilos[h]? = some hilo) (hf : hilo.fase = .espera i l) :
    Cuadra (s.despertado h hilo l) :=
  hi.quieto rfl rfl (ficha_despertado hh) (pendiente_despertado hh hf)

theorem cuadra_transita (hi : Cuadra s) {e : Suceso} (h : Transita s e s') : Cuadra s' := by
  cases h with
  | termina hs he =>
      refine hi.anade (he.mismaTabla (not_toma_of_retorna he)).mengua rfl rfl rfl fun l hl => ?_
      exact absurd hl (by simp [hiloTerminado, Fase.pendiente])
  | empieza hs he =>
      cases he with
      | connect e destino origen origen' hk hpar hn hrep =>
          refine hi.toma (buscarCeldaLibre_enTabla s.kernel) hn rfl ?_ ?_ rfl rfl rfl rfl rfl rfl
          · simp [estado_trasConnect]
          · exact fun j hj => trasConnect_of_ne e.pid destino origen' hj
      | listen e escucha escucha' remota hk hpar hn hrep =>
          refine hi.toma (buscarCeldaLibre_enTabla s.kernel) hn rfl ?_ ?_ rfl rfl rfl rfl rfl rfl
          · simp [estado_trasListen]
          · exact fun j hj => trasListen_of_ne e.pid escucha' remota hj
      | send e id datos longitud hest hfin =>
          obtain ⟨-, l, rfl, -⟩ := hfin.espera rfl
          refine hi.anade hfin.efecto.mismaTabla.mengua rfl rfl rfl fun l' hl' => ?_
          obtain rfl := Option.some.inj hl'
          rfl
  | acaba hs hh hf he => exact hi.acaba hh hf he
  | vuelve hs hh hf he =>
      cases he with
      | send l hfin =>
          obtain ⟨-, l', rfl, -⟩ := hfin.espera rfl
          refine hi.termina hh rfl hfin.efecto.mismaTabla.mengua rfl rfl fun l'' hl'' => ?_
          obtain rfl := Option.some.inj hl''
          rfl
  | recibe hs hd he =>
      exact hi.mengua he.mengua rfl (fun h f e => by rw [ficha_trasRecibir, e])
        (contados_congr (ficha_trasRecibir _ _ _))
        fun h l e => Or.inl (by rw [← pendiente_trasRecibir, e])
  | citaDaemon hh hf hd =>
      exact (hi.despertado hh hf).quieto rfl rfl (fun _ => rfl) fun _ => rfl
  | cita hne hh hf hh' hf' =>
      exact (hi.despertado hh hf).despertado ((despertado_of_ne hne).trans hh') hf'
  | despierta hh hf => exact hi.despertado hh hf
  | suelta hd => exact hi.quieto rfl rfl (fun _ => rfl) fun _ => rfl

theorem cuadra_inicial (interfaz : String) (numBufPkts : UInt16) (fuera : Int → Conexion)
    (basura : ℕ → BufPkt) : Cuadra (inicial (kernelInicial interfaz numBufPkts fuera basura)) := by
  have hlibre : ∀ i, EnTabla i → ¬(kernelInicial interfaz numBufPkts fuera basura).ocupada i := by
    intro i hi
    simp [KernelShm.ocupada, kernelInicial, iniciaKernel, inicializarCXsLibres, hi, Conexion.nula]
  exact
    { activa := fun i hi hocu => absurd hocu (hlibre i hi)
      num := rfl
      tope := Int.natCast_nonneg numMaxCXs
      dueno := fun i hi hocu => absurd hocu (hlibre i hi)
      enCurso := fun h l i hl => by simp [inicial, Estado.pendiente] at hl }

theorem cuadra_run {es : List Suceso} (hi : Cuadra s) (hr : run paso s es = some s') : Cuadra s' :=
  run_invariant Cuadra (fun _ _ _ => True)
    (fun _ _ _ hi _ h => cuadra_transita hi (transita_of_paso h)) hi
    (Along.of_true (fun _ _ _ _ => trivial) es s) hr

/-- In every state of every run there are no more occupied cells than `num_CXs` says, and no more than
the table has; and while the table is not full, `buscar_celda_libre` gives a free cell. -/
theorem ocupadas_le_numCXs {interfaz : String} {numBufPkts : UInt16} {fuera : Int → Conexion}
    {basura : ℕ → BufPkt} {es : List Suceso}
    (hr : run paso (inicial (kernelInicial interfaz numBufPkts fuera basura)) es = some s) :
    (s.kernel.ocupadas.card : Int) ≤ s.kernel.numCXs ∧ s.kernel.numCXs ≤ numMaxCXs ∧
      (s.kernel.numCXs ≠ numMaxCXs → EnTabla (buscarCeldaLibre s.kernel) ∧
        ¬s.kernel.ocupada (buscarCeldaLibre s.kernel)) := by
  have hi := cuadra_run (cuadra_inicial interfaz numBufPkts fuera basura) hr
  have hle := hi.card_le
  have hnum := hi.num
  exact ⟨by omega, hi.tope, fun hn => ⟨buscarCeldaLibre_enTabla s.kernel, hi.celda_libre hn⟩⟩

/-- A refused connect whose cell is taken again, and again refused, before it goes on. -/
theorem ocupadas_le_numCXs_reuso : ∃ s, run paso (inicial kernelPorDefecto)
    [.llama (conecta 80 1000), .recibe 0x0a000002 (ccPara 0 exNoTsap) (some 0), .suelta,
      .llama (conecta 81 1001), .recibe 0x0a000002 (ccPara 0 exNoTsap) (some 1), .suelta,
      .despierta 0, .sigue 0] = some s ∧ (s.kernel.ocupadas.card : Int) ≤ s.kernel.numCXs := by
  have hsome : (run paso (inicial kernelPorDefecto)
      [.llama (conecta 80 1000), .recibe 0x0a000002 (ccPara 0 exNoTsap) (some 0), .suelta,
        .llama (conecta 81 1001), .recibe 0x0a000002 (ccPara 0 exNoTsap) (some 1), .suelta,
        .despierta 0, .sigue 0]).isSome = true := by decide +kernel
  obtain ⟨s, hs⟩ := Option.isSome_iff_exists.mp hsome
  exact ⟨s, hs, (ocupadas_le_numCXs hs).1⟩

end Ltm.Nodo
