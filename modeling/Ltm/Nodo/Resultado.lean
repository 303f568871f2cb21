import Ltm.Nodo.Turno

/-! # What a call returns, and what it leaves behind

The daemon frees a refused cell before the refused call has read its result. If no call takes the cell
in between, every call is let through by its own answer and returns it, and a refused one gives its
place back: with no refused call on its way, `num_CXs` is the number of occupied cells.
-/

namespace Ltm.Nodo
open Kernel Runs
set_option autoImplicit false
set_option maxHeartbeats 250000

/-- A call is let through only by the daemon that has answered it, one that was refused returns what
the refusal says, and an index that a call returns is that of an ESTABLISHED cell that is its own. -/
def Propio (s : Estado) (e : Suceso) (s' : Estado) : Prop :=
  match e with
  | .llama _ => ∀ v, s'.hilos[s.hilos.length]?.map Hilo.fase = some (.fin v) → v < 0
  | .sigue h => ∀ hilo v, s.hilos[h]? = some hilo → s'.hilos[h]?.map Hilo.fase = some (.fin v) →
      (∀ r, hilo.respuesta = some r → r < 0 → v = r) ∧
        (0 ≤ v → EnTabla v ∧ (s'.kernel.CXs v).estadoCx = .established ∧ s'.dueno v = some h)
  | .citaDaemon h => s.daemon.map Prod.snd = some (some h)
  | .cita _ _ => False
  | .despierta _ => False
  | _ => True

/-- No refused call is on its way to return. -/
def SinRechazos (s : Estado) : Prop :=
  ∀ hilo ∈ s.hilos, ∀ v ∈ hilo.respuesta, v < 0 → hilo.fase.acabada = true

instance (s : Estado) : Decidable (SinRechazos s) := inferInstanceAs (Decidable (∀ _ ∈ _, _))

variable {s s' : Estado} {h : ℕ} {hilo : Hilo} {l : Local}

/-! ## Results -/

theorem Turno.retorna (hi : Turno s) {v : Int} {k' : KernelShm} {w : List Accion}
    (hh : s.hilos[h]? = some hilo) (hf : hilo.fase = .sale l)
    (he : Sigue s.kernel l (.retorna v) k' w) :
    (∀ r, hilo.respuesta = some r → r < 0 → v = r) ∧
      (0 ≤ v → EnTabla v ∧ (k'.CXs v).estadoCx = .established ∧ s.dueno v = some h) := by
  obtain ⟨i, v', hl, -, hdu, hr, hres⟩ := hi.sale hh hf
  have hi' := hi.enTabla i h hdu
  cases hres with
  | rechazada hl' hv hest hval =>
      subst hl'
      obtain rfl := Option.some.inj hl
      cases he
      rw [if_pos hest, hval]
      exact ⟨fun r hr' _ => Option.some.inj (hr.symm.trans hr'), fun hpos => absurd hv (by omega)⟩
  | abierta hv hest hocu =>
      have hvi : v = i ∧ k'.CXs = s.kernel.CXs := by
        cases he with
        | connect j =>
            obtain rfl := Option.some.inj hl
            exact ⟨if_neg (by simp [hest]), rfl⟩
        | listen j =>
            obtain rfl := Option.some.inj hl
            exact ⟨if_neg (by simp [hest]), rfl⟩
        | send l => exact absurd hl (by simp [celdaDe])
      obtain ⟨rfl, hk⟩ := hvi
      refine ⟨fun r hr' hneg => ?_, fun _ => ⟨hi', by rw [hk]; exact hest, hdu⟩⟩
      obtain rfl := Option.some.inj (hr.symm.trans hr')
      exact absurd hneg hv

theorem propio_transita {e : Suceso} (hi : Turno s) (hfiel : Fiel s e) (h : Transita s e s') :
    Propio s e s' := by
  cases h with
  | termina hs he =>
      intro v hv
      have hlast : ∀ a : Hilo, (s.hilos ++ [a])[s.hilos.length]? = some a := fun _ =>
        List.getElem?_concat_length
      dsimp only at hv
      rw [hlast] at hv
      obtain rfl := Fase.fin.inj (Option.some.inj hv)
      exact (he.quieta (no_send_of_fiel hfiel)).1
  | empieza hs he =>
      intro v hv
      have hlast : ∀ a : Hilo, (s.hilos ++ [a])[s.hilos.length]? = some a := fun _ =>
        List.getElem?_concat_length
      dsimp only at hv
      rw [hlast] at hv
      exact absurd (Option.some.inj hv) (by simp [hiloNuevo])
  | acaba hs hh hf he =>
      intro hilo' v hh' hv
      obtain rfl := Option.some.inj (hh.symm.trans hh')
      obtain ⟨a, ha, hfin⟩ := Option.map_eq_some_iff.mp hv
      rcases (getElem?_set_iff hh).mp ha with ⟨-, rfl⟩ | ⟨hne, -⟩
      · obtain rfl := Fase.fin.inj hfin
        exact hi.retorna hh hf he
      · exact absurd rfl hne
  | vuelve hs hh hf he =>
      obtain ⟨i, v, hl, -⟩ := hi.sale hh hf
      obtain ⟨v', e'⟩ := (sigue_CXs hl he).2
      exact absurd e' (by simp)
  | recibe hs hd he => trivial
  | citaDaemon hh hf hd =>
      obtain ⟨hpara, -⟩ := hi.avisa hh hf hd
      show s.daemon.map Prod.snd = _
      rw [hd, hpara]
      rfl
  | cita hne hh hf hh' hf' => exact hi.no_cita hne hh hf hh' hf'
  | despierta hh hf => exact hfiel
  | suelta hd => trivial

/-- In every run of barriers and network in which no call takes a cell that an earlier call has not
left, every call is let through and returns as its own answer says. -/
theorem resultado_propio {interfaz : String} {numBufPkts : UInt16} {fuera : Int → Conexion}
    {basura : ℕ → BufPkt} {es : List Suceso}
    (hfiel : Along paso (fun s e _ => Fiel s e)
      (inicial (kernelInicial interfaz numBufPkts fuera basura)) es)
    (hok : Along paso (fun s e _ => SinReuso s e)
      (inicial (kernelInicial interfaz numBufPkts fuera basura)) es) :
    Along paso Propio (inicial (kernelInicial interfaz numBufPkts fuera basura)) es :=
  along_of_invariant Turno (fun s e _ => Fiel s e ∧ SinReuso s e)
    (fun _ _ _ hi hok h => turno_transita hi hok.1 hok.2 (transita_of_paso h))
    (fun _ _ _ hi hok h => propio_transita hi hok.1 (transita_of_paso h))
    (turno_inicial interfaz numBufPkts fuera basura) (hfiel.and hok)

/-- A connect is refused, and another one takes its cell. -/
def reuso : List Suceso :=
  [.llama (conecta 80 1000), .recibe 0x0a000002 (ccPara 0 exNoTsap) (some 0),
    .llama (conecta 81 1001)]

/-- A connect is refused and let through, and another one takes its cell before it goes on. -/
def reusoTardio : List Suceso :=
  [.llama (conecta 80 1000), .recibe 0x0a000002 (ccPara 0 exNoTsap) (some 0), .citaDaemon 0,
    .llama (conecta 81 1001)]

theorem resultado_propio_rechazado : Along paso Propio (inicial kernelPorDefecto) (rechazado 0) :=
  resultado_propio (by decide +kernel) (by decide +kernel)

/-- The cell of a refused connect is taken by another connect, which meets the first one at the barrier;
or the first one has passed the barrier, and returns the index of the cell for a success. -/
theorem no_propio :
    Along paso (fun s e _ => Fiel s e) (inicial kernelPorDefecto) (reuso ++ [.cita 0 1]) ∧
      ¬Along paso Propio (inicial kernelPorDefecto) (reuso ++ [.cita 0 1]) ∧
      Along paso (fun s e _ => Fiel s e) (inicial kernelPorDefecto)
        (reusoTardio ++ [.sigue 0]) ∧
      ¬Along paso Propio (inicial kernelPorDefecto) (reusoTardio ++ [.sigue 0]) := by
  have hreuso : ((run paso (inicial kernelPorDefecto) reuso).bind fun s =>
      paso s (.cita 0 1)).isSome = true := by decide +kernel
  have htarde : ((run paso (inicial kernelPorDefecto) reusoTardio).bind fun s =>
      (paso s (.sigue 0)).map fun s' => (s.hilos[0]?.bind Hilo.respuesta,
        s'.hilos[0]?.map Hilo.fase)) = some (some exNoTsap, some (.fin 0)) := by decide +kernel
  refine ⟨by decide +kernel, fun h => ?_, by decide +kernel, fun h => ?_⟩
  · obtain ⟨s', hs'⟩ := Option.isSome_iff_exists.mp hreuso
    obtain ⟨s, hr, hs⟩ := Option.bind_eq_some_iff.mp hs'
    exact h.last hr hs
  · obtain ⟨s, hr, hs'⟩ := Option.bind_eq_some_iff.mp htarde
    obtain ⟨s', hs, hval⟩ := Option.map_eq_some_iff.mp hs'
    obtain ⟨hresp, hfin⟩ := Prod.mk.inj hval
    obtain ⟨hilo, hh, hresp⟩ := Option.bind_eq_some_iff.mp hresp
    have hmal := ((h.last hr hs) hilo 0 hh hfin).1 exNoTsap hresp (by decide)
    exact absurd hmal (by decide)

/-! ## Capacity -/

/-- The cell of a call that counts, with no refused call on its way. -/
theorem Turno.contada (hi : Turno s) (hsin : SinRechazos s) (hh : s.hilos[h]? = some hilo)
    (hcu : hilo.ficha.cuenta = true) :
    ∃ i, hilo.ficha.celda = some i ∧ s.dueno i = some h ∧ s.kernel.ocupada i := by
  have hcurso : ∀ l, hilo.fase.pendiente = some l → hilo.fase.acabada = false →
      ∃ i, hilo.ficha.celda = some i ∧ s.dueno i = some h ∧ s.kernel.ocupada i := by
    intro l hl hviva
    obtain ⟨i, -, -, hce, hdu, hsit⟩ := hi.curso hh hl
    refine ⟨i, hce, hdu, ?_⟩
    cases hsit with
    | aguarda _ _ _ hocu => exact hocu
    | resuelta _ hr hres =>
        cases hres with
        | abierta _ _ hocu => exact hocu
        | rechazada _ hv =>
            have hfin := hsin hilo (List.mem_of_getElem? hh) _ hr hv
            rw [hviva] at hfin
            exact absurd hfin (by simp)
  cases hf : hilo.fase with
  | fin v => exact (hi.enRegla h hilo hh).acabada v hf hcu
  | espera i l => exact hcurso l (by rw [hf]; rfl) (by rw [hf]; rfl)
  | sale l => exact hcurso l (by rw [hf]; rfl) (by rw [hf]; rfl)

theorem Turno.numCXs_eq (hi : Turno s) (hsin : SinRechazos s) :
    s.kernel.numCXs = s.kernel.ocupadas.card := by
  have hcelda : ∀ h ∈ s.contados, ∃ n : ℕ, n < numMaxCXs ∧
      (s.ficha h).bind Ficha.celda = some (n : Int) ∧ s.dueno n = some h ∧ s.kernel.ocupada n := by
    intro h hmem
    obtain ⟨f, hf, hcu⟩ := mem_contados.mp hmem
    obtain ⟨hilo, hh, rfl⟩ := Option.map_eq_some_iff.mp hf
    obtain ⟨i, hce, hdu, hocu⟩ := hi.contada hsin hh hcu
    obtain ⟨n, hn, rfl⟩ := enTabla_iff.mp (hi.enTabla i h hdu)
    exact ⟨n, hn, by rw [hf]; exact hce, hdu, hocu⟩
  have hle : s.contados.card ≤ s.kernel.ocupadas.card := by
    refine Finset.card_le_card_of_injOn
      (fun h => (((s.ficha h).bind Ficha.celda).getD 0).toNat) ?_ ?_
    · intro h hmem
      obtain ⟨n, hn, hce, -, hocu⟩ := hcelda h hmem
      simp only [hce, Option.getD_some, Int.toNat_natCast, Finset.mem_coe]
      exact mem_ocupadas.mpr ⟨hn, hocu⟩
    · intro h hmem h' hmem' e
      obtain ⟨n, -, hce, hdu, -⟩ := hcelda h hmem
      obtain ⟨n', -, hce', hdu', -⟩ := hcelda h' hmem'
      simp only [hce, hce', Option.getD_some, Int.toNat_natCast] at e
      subst e
      exact Option.some.inj (hdu.symm.trans hdu')
  have hge := hi.cuadra.card_le
  have hnum := hi.cuadra.num
  omega

/-- In every run of barriers and network in which no call takes a cell that an earlier call has not
left: whenever no refused call is on its way to return, `num_CXs` is the number of occupied cells, and
a call whose parameters are good returns `EXMAXC` exactly if all cells are occupied. -/
theorem numCXs_eq_ocupadas {interfaz : String} {numBufPkts : UInt16} {fuera : Int → Conexion}
    {basura : ℕ → BufPkt} {es : List Suceso}
    (hfiel : Along paso (fun s e _ => Fiel s e)
      (inicial (kernelInicial interfaz numBufPkts fuera basura)) es)
    (hok : Along paso (fun s e _ => SinReuso s e)
      (inicial (kernelInicial interfaz numBufPkts fuera basura)) es)
    (hr : run paso (inicial (kernelInicial interfaz numBufPkts fuera basura)) es = some s)
    (hsin : SinRechazos s) :
    s.kernel.numCXs = s.kernel.ocupadas.card ∧ ∀ c : Llamada, c.entra s.kernel →
      ((c.empieza ⟨s.kernel, []⟩).1 = .retorna exMaxC ↔ ∀ i, EnTabla i → s.kernel.ocupada i) := by
  have hi : Turno s := run_invariant Turno (fun s e _ => Fiel s e ∧ SinReuso s e)
    (fun _ _ _ hi hok h => turno_transita hi hok.1 hok.2 (transita_of_paso h))
    (turno_inicial interfaz numBufPkts fuera basura) (hfiel.and hok) hr
  have heq := hi.numCXs_eq hsin
  refine ⟨heq, fun c hc => ?_⟩
  rw [retorna_exMaxC_iff hc, heq, ← card_ocupadas_eq]
  omega

theorem numCXs_eq_ocupadas_rechazado : ∃ s, run paso (inicial kernelPorDefecto) (rechazado 0) = some s ∧
    s.kernel.numCXs = s.kernel.ocupadas.card := by
  have hsome : (run paso (inicial kernelPorDefecto) (rechazado 0)).map
      (fun s => decide (SinRechazos s)) = some true := by decide +kernel
  obtain ⟨s, hs, hsin⟩ := Option.map_eq_some_iff.mp hsome
  exact ⟨s, hs, (numCXs_eq_ocupadas (by decide +kernel) (by decide +kernel) hs
    (of_decide_eq_true hsin)).1⟩

/-- The refused connect whose cell was taken again has returned an index and keeps its place: two places
for one occupied cell. -/
theorem no_numCXs_eq_ocupadas :
    Along paso (fun s e _ => Fiel s e) (inicial kernelPorDefecto) (reusoTardio ++ [.sigue 0]) ∧
      (run paso (inicial kernelPorDefecto) (reusoTardio ++ [.sigue 0])).map (fun s =>
        (decide (SinRechazos s), s.kernel.numCXs, s.kernel.ocupadas.card)) = some (true, 2, 1) := by
  decide +kernel

end Ltm.Nodo
