import Ltm.Nodo.Capacidad

/-! # Every call and its cell

The runs are those of the barriers and of the network: a call goes on only after a meeting of two at
its barrier, and a received CC answers a CR that a call of this host sent and that has no answer yet
(`Fiel`). If no call takes a cell that an earlier call has not left (`SinReuso`), each call that has not
returned owns its cell: it waits for an answer, or the cell shows the answer (`Situacion`).
-/

namespace Ltm.Nodo
open Kernel Runs
set_option autoImplicit false
set_option maxHeartbeats 250000

/-! ## The runs -/

/-- The event is one of `t_connect`, `t_listen`, the daemon, two that meet at a barrier, or the network
with a packet that it neither made up nor delivered before. A barrier outside the table may let the
daemon pass. -/
def Fiel (s : Estado) : Suceso → Prop
  | .llama (.send _ _ _ _) => False
  | .recibe _ p para => Debida s p para
  | .despierta _ => False
  | .suelta => ∀ d ∈ s.daemon, ¬EnTabla d.1
  | _ => True

instance (s : Estado) (e : Suceso) : Decidable (Fiel s e) := by
  unfold Fiel
  split <;> infer_instance

def Fase.acabada : Fase → Bool
  | .fin _ => true
  | _ => false

/-- A call that takes a cell takes one that every call given it before has left. -/
def SinReuso (s : Estado) : Suceso → Prop
  | .llama c => c.toma s.kernel → ∀ hilo ∈ s.hilos,
      hilo.ficha.celda = some (buscarCeldaLibre s.kernel) → hilo.fase.acabada = true
  | _ => True

instance (s : Estado) (e : Suceso) : Decidable (SinReuso s e) := by
  unfold SinReuso
  split <;> infer_instance

/-! ## The invariant -/

/-- The state that a call gives its cell when it takes it. -/
def pedido : Local → EstadoCx
  | .connect _ => .connect
  | .listen _ => .listen
  | .send _ => .established

/-- The cell shows the answer `v` to the call that waits with `l`. -/
inductive Resuelta (c : Conexion) (l : Local) (v : Int) : Prop
  | rechazada {i : Int} (hl : l = .connect i) (hv : v < 0) (hest : c.estadoCx = .closed)
      (hres : c.resultadoPeticion = v)
  | abierta (hv : ¬v < 0) (hest : c.estadoCx = .established) (hocu : c.celdaOcupada ≠ 0)

/-- A call that has not returned, and its cell `i`. -/
inductive Situacion (c : Conexion) (hilo : Hilo) (i : Int) (l : Local) : Prop
  | aguarda (hf : hilo.fase = .espera i l) (hr : hilo.respuesta = none)
      (hest : c.estadoCx = pedido l) (hocu : c.celdaOcupada ≠ 0)
  | resuelta {v : Int} (hf : hilo.fase = .espera i l ∨ hilo.fase = .sale l)
      (hr : hilo.respuesta = some v) (hres : Resuelta c l v)

structure EnRegla (s : Estado) (h : ℕ) (hilo : Hilo) : Prop where
  curso : ∀ l, hilo.fase.pendiente = some l →
    ∃ i, celdaDe l = some i ∧ s.dueno i = some h ∧ Situacion (s.kernel.CXs i) hilo i l
  pide : ∀ b, hilo.ficha.cr = some b → hilo.respuesta = none →
    hilo.fase = .espera b.pkt.cabecera.idLocal (.connect b.pkt.cabecera.idLocal)
  acabada : ∀ v, hilo.fase = .fin v → hilo.ficha.cuenta = true →
    ∃ i, hilo.ficha.celda = some i ∧ s.dueno i = some h ∧ s.kernel.ocupada i

/-- The daemon waits at the barrier `i` for the call it has answered. -/
def Avisa (s : Estado) (i : Int) (para : Option ℕ) : Prop :=
  ∃ h hilo l v, para = some h ∧ s.hilos[h]? = some hilo ∧ hilo.fase = .espera i l ∧
    hilo.respuesta = some v

def Escucha (s : Estado) (i : Int) : Prop :=
  ∃ h hilo, s.dueno i = some h ∧ s.hilos[h]? = some hilo ∧ hilo.fase = .espera i (.listen i) ∧
    hilo.respuesta = none

structure Turno (s : Estado) : Prop where
  cuadra : Cuadra s
  enTabla : ∀ i h, s.dueno i = some h → EnTabla i
  enRegla : ∀ h hilo, s.hilos[h]? = some hilo → EnRegla s h hilo
  daemon : ∀ i para, s.daemon = some (i, para) → EnTabla i → Avisa s i para
  escucha : ∀ i, EnTabla i → (s.kernel.CXs i).estadoCx = .listen → Escucha s i

variable {s s' : Estado} {h : ℕ} {hilo : Hilo} {l : Local} {i : Int}

/-! ## What the invariant gives -/

theorem Turno.curso (hi : Turno s) (hh : s.hilos[h]? = some hilo) (hl : hilo.fase.pendiente = some l) :
    ∃ i, celdaDe l = some i ∧ EnTabla i ∧ hilo.ficha.celda = some i ∧ s.dueno i = some h ∧
      Situacion (s.kernel.CXs i) hilo i l := by
  obtain ⟨i, hce, hd, hsit⟩ := (hi.enRegla h hilo hh).curso l hl
  obtain ⟨hi', f, hf, -, hfi⟩ := hi.cuadra.enCurso h l i (by rw [pendiente_of_hilo hh, hl]) hce
  obtain rfl := Option.some.inj ((ficha_of_hilo hh).symm.trans hf)
  exact ⟨i, hce, hi', hfi, hd, hsit⟩

theorem pendiente_of_espera (hf : hilo.fase = .espera i l) : hilo.fase.pendiente = some l := by
  rw [hf]
  rfl

theorem pendiente_of_sale (hf : hilo.fase = .sale l) : hilo.fase.pendiente = some l := by
  rw [hf]
  rfl

theorem Turno.espera (hi : Turno s) (hh : s.hilos[h]? = some hilo) (hf : hilo.fase = .espera i l) :
    celdaDe l = some i ∧ EnTabla i ∧ hilo.ficha.celda = some i ∧ s.dueno i = some h ∧
      Situacion (s.kernel.CXs i) hilo i l := by
  obtain ⟨j, hce, hj, hfi, hd, hsit⟩ := hi.curso hh (pendiente_of_espera hf)
  have hij : j = i := by
    cases hsit with
    | aguarda hf' =>
        rw [hf] at hf'
        exact (Fase.espera.inj hf').1.symm
    | resuelta hf' =>
        rcases hf' with hf' | hf'
        · rw [hf] at hf'
          exact (Fase.espera.inj hf').1.symm
        · rw [hf] at hf'
          exact absurd hf' (by simp)
  rw [hij] at hce hj hfi hd hsit
  exact ⟨hce, hj, hfi, hd, hsit⟩

theorem Turno.sale (hi : Turno s) (hh : s.hilos[h]? = some hilo) (hf : hilo.fase = .sale l) :
    ∃ i v, celdaDe l = some i ∧ hilo.ficha.celda = some i ∧ s.dueno i = some h ∧
      hilo.respuesta = some v ∧ Resuelta (s.kernel.CXs i) l v := by
  obtain ⟨i, hce, -, hfi, hd, hsit⟩ := hi.curso hh (pendiente_of_sale hf)
  cases hsit with
  | aguarda hf' =>
      rw [hf] at hf'
      exact absurd hf' (by simp)
  | resuelta _ hr hres => exact ⟨i, _, hce, hfi, hd, hr, hres⟩

/-! ## Steps that change one call -/

theorem EnRegla.conserva (hr : EnRegla s h hilo)
    (hcelda : ∀ l i, hilo.fase.pendiente = some l → celdaDe l = some i → hilo.ficha.celda = some i)
    (hk : ∀ i, hilo.ficha.celda = some i → s.dueno i = some h →
      hilo.fase.acabada = false ∨ s.kernel.ocupada i →
        s'.kernel.CXs i = s.kernel.CXs i ∧ s'.dueno i = s.dueno i) : EnRegla s' h hilo where
  curso := by
    intro l hl
    obtain ⟨i, hce, hd, hsit⟩ := hr.curso l hl
    have hviva : hilo.fase.acabada = false := by
      cases hf : hilo.fase with
      | fin v =>
          rw [hf] at hl
          exact absurd hl (by simp [Fase.pendiente])
      | espera j l => rfl
      | sale l => rfl
    obtain ⟨hcx, hd'⟩ := hk i (hcelda l i hl hce) hd (Or.inl hviva)
    exact ⟨i, hce, by rw [hd', hd], by rw [hcx]; exact hsit⟩
  pide := hr.pide
  acabada := by
    intro v hv hcu
    obtain ⟨i, hce, hd, hocu⟩ := hr.acabada v hv hcu
    obtain ⟨hcx, hd'⟩ := hk i hce hd (Or.inr hocu)
    exact ⟨i, hce, by rw [hd', hd], (ocupada_congr hcx).mpr hocu⟩

theorem Turno.cambia (hi : Turno s) (hc : Cuadra s') (h : ℕ)
    (hotros : ∀ j, j ≠ h → s'.hilos[j]? = s.hilos[j]?)
    (hnuevo : ∀ hilo, s'.hilos[h]? = some hilo → EnRegla s' h hilo)
    (hk : ∀ j hilo i, j ≠ h → s.hilos[j]? = some hilo → hilo.ficha.celda = some i →
      s.dueno i = some j → hilo.fase.acabada = false ∨ s.kernel.ocupada i →
        s'.kernel.CXs i = s.kernel.CXs i ∧ s'.dueno i = s.dueno i)
    (htabla : ∀ i j, s'.dueno i = some j → EnTabla i)
    (hdaemon : ∀ i para, s'.daemon = some (i, para) → EnTabla i → Avisa s' i para)
    (hescucha : ∀ i, EnTabla i → (s'.kernel.CXs i).estadoCx = .listen → Escucha s' i) :
    Turno s' where
  cuadra := hc
  enTabla := htabla
  enRegla := by
    intro j hilo hj
    by_cases e : j = h
    · subst e
      exact hnuevo hilo hj
    · have hj' := (hotros j e).symm.trans hj
      refine (hi.enRegla j hilo hj').conserva (fun l i hl hce => ?_) fun i => hk j hilo i e hj'
      obtain ⟨i', hce', -, hfi, -⟩ := hi.curso hj' hl
      rw [hce] at hce'
      rw [hce', hfi]
  daemon := hdaemon
  escucha := hescucha

theorem Avisa.conserva {para : Option ℕ} (ha : Avisa s i para)
    (hh : ∀ (j : ℕ) (hilo : Hilo) (l : Local), s.hilos[j]? = some hilo → hilo.fase = .espera i l →
      s'.hilos[j]? = s.hilos[j]?) : Avisa s' i para := by
  obtain ⟨j, hilo, l, v, hpara, hj, hf, hr⟩ := ha
  exact ⟨j, hilo, l, v, hpara, (hh j hilo l hj hf).trans hj, hf, hr⟩

theorem Escucha.conserva (he : Escucha s i) (hd : s'.dueno i = s.dueno i)
    (hh : ∀ (j : ℕ) (hilo : Hilo), s.hilos[j]? = some hilo → hilo.fase = .espera i (.listen i) →
      hilo.respuesta = none → s'.hilos[j]? = s.hilos[j]?) : Escucha s' i := by
  obtain ⟨j, hilo, hdu, hj, hf, hr⟩ := he
  exact ⟨j, hilo, by rw [hd, hdu], (hh j hilo hj hf hr).trans hj, hf, hr⟩

theorem Turno.quieto (hi : Turno s) (hc : Cuadra s') (hh : s'.hilos = s.hilos)
    (hk : ∀ i, EnTabla i → s'.kernel.CXs i = s.kernel.CXs i) (hd : s'.dueno = s.dueno)
    (hdae : ∀ i para, s'.daemon = some (i, para) → EnTabla i → s.daemon = some (i, para)) :
    Turno s' := by
  refine hi.cambia hc s.hilos.length (fun _ _ => by rw [hh]) (fun hilo hhilo => ?_)
    (fun j hilo i _ hj hce hdu _ => ?_) (fun i j hdu => ?_) (fun i para hd' hi' => ?_)
    fun i hi' hest => ?_
  · rw [hh] at hhilo
    exact absurd rfl (ne_length_of_getElem? hhilo)
  · exact ⟨hk i (hi.enTabla i j hdu), by rw [hd]⟩
  · rw [hd] at hdu
    exact hi.enTabla i j hdu
  · exact (hi.daemon i para (hdae i para hd' hi') hi').conserva fun _ _ _ _ _ => by rw [hh]
  · rw [hk i hi'] at hest
    exact (hi.escucha i hi' hest).conserva (by rw [hd]) fun _ _ _ _ _ => by rw [hh]

theorem Turno.anade (hi : Turno s) (hc : Cuadra s') {c : Llamada} {v : Int}
    (hs : s'.hilos = s.hilos ++ [hiloTerminado c v]) (hk : s'.kernel.CXs = s.kernel.CXs)
    (hd : s'.dueno = s.dueno) (hdae : s'.daemon = s.daemon) : Turno s' := by
  have hotros : ∀ j, j ≠ s.hilos.length → s'.hilos[j]? = s.hilos[j]? := by
    intro j hj
    rw [hs, getElem?_concat_of_ne hj]
  refine hi.cambia hc s.hilos.length hotros (fun hilo hhilo => ?_)
    (fun j hilo i _ _ _ _ _ => ⟨by rw [hk], by rw [hd]⟩) (fun i j hdu => ?_)
    (fun i para hd' hi' => ?_) fun i hi' hest => ?_
  · rw [hs] at hhilo
    rcases getElem?_concat_iff.mp hhilo with hh | ⟨-, rfl⟩
    · exact absurd rfl (ne_length_of_getElem? hh)
    · exact ⟨fun l hl => absurd hl (by simp [hiloTerminado, Fase.pendiente]),
        fun b hb => absurd hb (by simp [hiloTerminado]),
        fun _ _ hcu => absurd hcu (by simp [hiloTerminado])⟩
  · rw [hd] at hdu
    exact hi.enTabla i j hdu
  · rw [hdae] at hd'
    exact (hi.daemon i para hd' hi').conserva fun j _ _ hj _ => hotros j (ne_length_of_getElem? hj)
  · rw [hk] at hest
    exact (hi.escucha i hi' hest).conserva (by rw [hd]) fun j _ hj _ _ =>
      hotros j (ne_length_of_getElem? hj)

theorem Turno.toma (hi : Turno s) (hc : Cuadra s') (hi' : EnTabla i) (hlibre : ¬s.kernel.ocupada i)
    (hne : ∀ j, j ≠ i → s'.kernel.CXs j = s.kernel.CXs j)
    (hest : (s'.kernel.CXs i).estadoCx = pedido l) (hocu : s'.kernel.ocupada i)
    (hs : s'.hilos = s.hilos ++ [hilo])
    (hd : s'.dueno = Function.update s.dueno i (some s.hilos.length)) (hdae : s'.daemon = s.daemon)
    (hf : hilo.fase = .espera i l) (hl : celdaDe l = some i) (hr : hilo.respuesta = none)
    (hcr : ∀ b, hilo.ficha.cr = some b → b.pkt.cabecera.idLocal = i ∧ l = .connect i)
    (hreuso : ∀ hilo ∈ s.hilos, hilo.ficha.celda = some i → hilo.fase.acabada = true) :
    Turno s' := by
  have hotros : ∀ j, j ≠ s.hilos.length → s'.hilos[j]? = s.hilos[j]? := by
    intro j hj
    rw [hs, getElem?_concat_of_ne hj]
  have hnadie : ∀ (j : ℕ) (hilo : Hilo), s.hilos[j]? = some hilo → hilo.ficha.celda = some i →
      hilo.fase.acabada = true := fun j hilo hj => hreuso hilo (List.mem_of_getElem? hj)
  refine hi.cambia hc s.hilos.length hotros (fun hilo' hhilo => ?_)
    (fun j hilo' k _ hj hce hdu hviva => ?_) (fun k j hdu => ?_) (fun k para hd' hk' => ?_)
    fun k hk' hest' => ?_
  · rw [hs] at hhilo
    rcases getElem?_concat_iff.mp hhilo with hh | ⟨-, rfl⟩
    · exact absurd rfl (ne_length_of_getElem? hh)
    · refine ⟨fun l' hl' => ?_, fun b hb _ => ?_, fun v hv => absurd (hf.symm.trans hv) (by simp)⟩
      · obtain rfl := Option.some.inj ((pendiente_of_espera hf).symm.trans hl')
        exact ⟨i, hl, by rw [hd, Function.update_self], .aguarda hf hr hest hocu⟩
      · obtain ⟨e, rfl⟩ := hcr b hb
        rw [e, hf]
  · have hki : k ≠ i := by
      rintro rfl
      rcases hviva with hviva | hocu
      · rw [hnadie j hilo' hj hce] at hviva
        exact absurd hviva (by simp)
      · exact hlibre hocu
    exact ⟨hne k hki, by rw [hd, Function.update_of_ne hki]⟩
  · by_cases e : k = i
    · rw [e]
      exact hi'
    · rw [hd, Function.update_of_ne e] at hdu
      exact hi.enTabla k j hdu
  · rw [hdae] at hd'
    exact (hi.daemon k para hd' hk').conserva fun j _ _ hj _ => hotros j (ne_length_of_getElem? hj)
  · by_cases e : k = i
    · subst e
      rw [hest] at hest'
      cases l with
      | connect j => exact absurd hest' (by simp [pedido])
      | send l => exact absurd hest' (by simp [pedido])
      | listen j =>
          obtain rfl := Option.some.inj hl
          refine ⟨s.hilos.length, hilo, by rw [hd, Function.update_self], ?_, hf, hr⟩
          rw [hs]
          exact List.getElem?_concat_length
    · rw [hne k e] at hest'
      refine (hi.escucha k hk' hest').conserva (by rw [hd, Function.update_of_ne e]) fun j _ hj _ _ => ?_
      exact hotros j (ne_length_of_getElem? hj)

/-- The daemon answers the call `h`, which waits at the barrier of its cell `i`. -/
theorem Turno.resuelve (hi : Turno s) (hc : Cuadra s') {v : Int} (hh : s.hilos[h]? = some hilo)
    (hf : hilo.fase = .espera i l) (hres : Resuelta (s'.kernel.CXs i) l v)
    (hne : ∀ j, j ≠ i → s'.kernel.CXs j = s.kernel.CXs j) (hd : s'.dueno = s.dueno)
    (hs : ∀ j, s'.hilos[j]? =
      s.hilos[j]?.map fun hilo => if some h = some j then { hilo with respuesta := some v } else hilo)
    (hdae : s'.daemon = some (i, some h)) : Turno s' := by
  obtain ⟨hl, hi', hce, hdu, -⟩ := hi.espera hh hf
  have hotros : ∀ j, j ≠ h → s'.hilos[j]? = s.hilos[j]? := by
    intro j hj
    rw [hs]
    cases s.hilos[j]? with
    | none => rfl
    | some hilo => simp [Ne.symm hj]
  have hself : s'.hilos[h]? = some { hilo with respuesta := some v } := by
    rw [hs, hh]
    simp
  have hcerrada : (s'.kernel.CXs i).estadoCx ≠ .listen := by
    cases hres with
    | rechazada _ _ hest => simp [hest]
    | abierta _ hest => simp [hest]
  refine hi.cambia hc h hotros (fun hilo' hhilo => ?_) (fun j hilo' k hj hj' hce' hdu' hviva => ?_)
    (fun k j hdu => ?_) (fun k para hd' hk' => ?_) fun k hk' hest' => ?_
  · obtain rfl := Option.some.inj (hself.symm.trans hhilo)
    refine ⟨fun l' hl' => ?_, fun _ _ e => absurd e (by simp), fun v hv => ?_⟩
    · obtain rfl := Option.some.inj ((pendiente_of_espera hf).symm.trans hl')
      exact ⟨i, hl, by rw [hd, hdu], .resuelta (Or.inl hf) rfl hres⟩
    · exact absurd (hf.symm.trans hv) (by simp)
  · refine ⟨hne k ?_, by rw [hd]⟩
    rintro rfl
    exact hj (Option.some.inj (hdu'.symm.trans hdu))
  · rw [hd] at hdu
    exact hi.enTabla k j hdu
  · rw [hdae] at hd'
    obtain ⟨rfl, rfl⟩ := Prod.mk.inj (Option.some.inj hd')
    exact ⟨h, _, l, v, rfl, hself, hf, rfl⟩
  · have hki : k ≠ i := by
      rintro rfl
      exact hcerrada hest'
    rw [hne k hki] at hest'
    refine (hi.escucha k hk' hest').conserva (by rw [hd]) fun j hilo' hj hf' _ => hotros j ?_
    rintro rfl
    obtain rfl := Option.some.inj (hh.symm.trans hj)
    exact hki (Fase.espera.inj (hf'.symm.trans hf)).1

/-- The daemon waits at the barrier of a call just for that call, and has answered it. -/
theorem Turno.avisa (hi : Turno s) {para : Option ℕ} (hh : s.hilos[h]? = some hilo)
    (hf : hilo.fase = .espera i l) (hd : s.daemon = some (i, para)) :
    para = some h ∧ ∃ v, hilo.respuesta = some v := by
  obtain ⟨-, hi', -, hdu, -⟩ := hi.espera hh hf
  obtain ⟨j, hilo', l', v, hpara, hj, hf', hr⟩ := hi.daemon i para hd hi'
  obtain ⟨-, -, -, hdu', -⟩ := hi.espera hj hf'
  obtain rfl := Option.some.inj (hdu'.symm.trans hdu)
  obtain rfl := Option.some.inj (hj.symm.trans hh)
  exact ⟨hpara, v, hr⟩

/-- Two calls do not wait at one barrier. -/
theorem Turno.no_cita (hi : Turno s) {h' : ℕ} {hilo' : Hilo} {l' : Local} (hne : h ≠ h')
    (hh : s.hilos[h]? = some hilo) (hf : hilo.fase = .espera i l) (hh' : s.hilos[h']? = some hilo')
    (hf' : hilo'.fase = .espera i l') : False := by
  obtain ⟨-, -, -, hdu, -⟩ := hi.espera hh hf
  obtain ⟨-, -, -, hdu', -⟩ := hi.espera hh' hf'
  exact hne (Option.some.inj (hdu.symm.trans hdu'))

theorem Turno.mueve (hi : Turno s) (hc : Cuadra s') {hilo' : Hilo} (hh : s.hilos[h]? = some hilo)
    (hs : s'.hilos = s.hilos.set h hilo') (hk : s'.kernel.CXs = s.kernel.CXs)
    (hd : s'.dueno = s.dueno) (hnuevo : EnRegla s' h hilo')
    (hdae : ∀ i para, s'.daemon = some (i, para) → EnTabla i →
      s.daemon = some (i, para) ∧ para ≠ some h)
    (hlisten : ∀ i, hilo.fase = .espera i (.listen i) → hilo.respuesta ≠ none) : Turno s' := by
  have hotros : ∀ j, j ≠ h → s'.hilos[j]? = s.hilos[j]? := by
    intro j hj
    rw [hs, List.getElem?_set_ne (Ne.symm hj)]
  refine hi.cambia hc h hotros (fun hilo'' hhilo => ?_)
    (fun j hilo i _ _ _ _ _ => ⟨by rw [hk], by rw [hd]⟩) (fun i j hdu => ?_)
    (fun i para hd' hi' => ?_) fun i hi' hest => ?_
  · rw [hs] at hhilo
    rcases (getElem?_set_iff hh).mp hhilo with ⟨-, rfl⟩ | ⟨hne, -⟩
    · exact hnuevo
    · exact absurd rfl hne
  · rw [hd] at hdu
    exact hi.enTabla i j hdu
  · obtain ⟨hd'', hpara⟩ := hdae i para hd' hi'
    refine (hi.daemon i para hd'' hi').conserva fun j hilo₂ l₂ hj hf₂ => hotros j ?_
    rintro rfl
    exact hpara (hi.avisa hj hf₂ hd'').1
  · rw [hk] at hest
    refine (hi.escucha i hi' hest).conserva (by rw [hd]) fun j hilo₂ hj hf₂ hr₂ => hotros j ?_
    rintro rfl
    obtain rfl := Option.some.inj (hh.symm.trans hj)
    exact hlisten i hf₂ hr₂

theorem Turno.acaba (hi : Turno s) (hc : Cuadra s') {v : Int} (hh : s.hilos[h]? = some hilo)
    (hf : hilo.fase = .sale l) (hs : s'.hilos = s.hilos.set h (hilo.acabado s.kernel l v))
    (hk : s'.kernel.CXs = s.kernel.CXs) (hd : s'.dueno = s.dueno) (hdae : s'.daemon = s.daemon) :
    Turno s' := by
  obtain ⟨i, v', hl, hce, hdu, hr, hres⟩ := hi.sale hh hf
  refine hi.mueve hc hh hs hk hd ⟨fun l' hl' => ?_, fun b _ hr' => ?_, fun _ _ hcu => ?_⟩
    (fun i' para hd' hi' => ?_) fun i' hf' => absurd (hf.symm.trans hf') (by simp)
  · exact absurd hl' (by simp [Hilo.acabado, Fase.pendiente])
  · exact absurd (hr.symm.trans hr') (by simp)
  · have hcx : s'.kernel.CXs i = s.kernel.CXs i := by rw [hk]
    refine ⟨i, hce, by rw [hd, hdu], (ocupada_congr hcx).mpr ?_⟩
    simp only [Hilo.acabado, Bool.and_eq_true, Bool.not_eq_true'] at hcu
    cases hres with
    | abierta _ _ hocu => exact hocu
    | @rechazada j hl' _ hest =>
        subst hl'
        obtain rfl := Option.some.inj hl
        exact absurd hcu.2 (by simp [descuenta, hest])
  · rw [hdae] at hd'
    refine ⟨hd', ?_⟩
    rintro rfl
    obtain ⟨j, hilo', l', v'', e, hj, hf', -⟩ := hi.daemon i' _ hd' hi'
    obtain rfl := Option.some.inj e
    obtain rfl := Option.some.inj (hh.symm.trans hj)
    exact absurd (hf.symm.trans hf') (by simp)

/-- The daemon lets the call that it has answered pass. -/
theorem Turno.citaDaemon (hi : Turno s) {para : Option ℕ} (hh : s.hilos[h]? = some hilo)
    (hf : hilo.fase = .espera i l) (hd : s.daemon = some (i, para)) :
    Turno { s.despertado h hilo l with daemon := none } := by
  obtain ⟨-, v, hr⟩ := hi.avisa hh hf hd
  obtain ⟨hl, hi', hce, hdu, hsit⟩ := hi.espera hh hf
  have hc : Cuadra { s.despertado h hilo l with daemon := none } :=
    (hi.cuadra.despertado hh hf).quieto rfl rfl (fun _ => rfl) fun _ => rfl
  refine hi.mueve hc hh rfl rfl rfl ⟨fun l' hl' => ?_, fun b _ hr' => ?_, fun _ hv => ?_⟩
    (fun i' para hd' => absurd hd' (by simp)) fun i' _ hr' => ?_
  · obtain rfl := Option.some.inj hl'
    refine ⟨i, hl, hdu, ?_⟩
    cases hsit with
    | aguarda _ hr' => exact absurd (hr.symm.trans hr') (by simp)
    | resuelta _ hr' hres => exact .resuelta (Or.inr rfl) hr' hres
  · exact absurd (hr.symm.trans hr') (by simp)
  · exact absurd hv (by simp)
  · exact absurd (hr.symm.trans hr') (by simp)

/-! ## Every step -/

theorem empieza_retorna_CXs {k k' : KernelShm} {c : Llamada} {v : Int} {w : List Accion}
    (he : Empieza k c (.retorna v) k' w) (hno : ∀ e id datos longitud, c ≠ .send e id datos longitud) :
    k'.CXs = k.CXs := by
  have hk := congrArg KernelShm.CXs (he.quieta hno).2.1
  exact hk

theorem no_send_of_fiel {c : Llamada} (hfiel : Fiel s (.llama c)) :
    ∀ e id datos longitud, c ≠ .send e id datos longitud := by
  rintro e id datos longitud rfl
  exact hfiel

theorem Turno.empieza (hi : Turno s) {c : Llamada} {k' : KernelShm} {w : List Accion}
    (hc : Cuadra s') (hfiel : Fiel s (.llama c)) (hok : SinReuso s (.llama c))
    (he : Empieza s.kernel c (.duerme i l) k' w) (hk : s'.kernel = k')
    (hs : s'.hilos = s.hilos ++ [hiloNuevo c i l k'])
    (hd : s'.dueno = anotaDueno s.dueno s.hilos.length l) (hdae : s'.daemon = s.daemon) :
    Turno s' := by
  cases he with
  | connect e destino origen origen' hker hpar hn hrep =>
      refine hi.toma hc (buscarCeldaLibre_enTabla s.kernel) (hi.cuadra.celda_libre hn)
        (fun j e' => ?_) ?_ ?_ hs hd hdae rfl rfl rfl (fun b hb => ?_)
        (hok ⟨hker, origen', hpar, hn, hrep⟩)
      · rw [hk, trasConnect_of_ne e.pid destino origen' e']
      · rw [hk, estado_trasConnect]
        rfl
      · rw [hk]
        exact ocupada_trasConnect e.pid destino origen'
      · obtain rfl := Option.some.inj ((getLast?_trasConnect e.pid destino origen').symm.trans hb)
        exact ⟨rfl, rfl⟩
  | listen e escucha escucha' remota hker hpar hn hrep =>
      refine hi.toma hc (buscarCeldaLibre_enTabla s.kernel) (hi.cuadra.celda_libre hn)
        (fun j e' => ?_) ?_ ?_ hs hd hdae rfl rfl rfl (fun b hb => ?_)
        (hok ⟨hker, escucha', hpar, hn, hrep⟩)
      · rw [hk, trasListen_of_ne e.pid escucha' remota e']
      · rw [hk, estado_trasListen]
        rfl
      · rw [hk]
        exact ocupada_trasListen e.pid escucha' remota
      · exact absurd hb (by simp [hiloNuevo, crDe])
  | send e id datos longitud => exact absurd rfl (no_send_of_fiel hfiel e id (some datos) longitud)

theorem sigue_CXs {k k' : KernelShm} {pa : Paso} {w : List Accion} (hl : celdaDe l = some i)
    (he : Sigue k l pa k' w) : k'.CXs = k.CXs ∧ ∃ v, pa = .retorna v := by
  cases he with
  | connect j => exact ⟨rfl, _, rfl⟩
  | listen j => exact ⟨rfl, _, rfl⟩
  | send l => exact absurd hl (by simp [celdaDe])

/-- The daemon receives a CC: it answers the call whose CR it answers. -/
theorem Turno.recibeCC (hi : Turno s) {ipRemota : InAddr} {p : Tpdu} {para : Option ℕ}
    (hc : Cuadra (s.trasRecibir p para ⟨s.kernel.trasCC p.cabecera, trazaCC s.kernel p.cabecera⟩))
    (hfiel : Fiel s (.recibe ipRemota p para)) (ht : p.cabecera.tipo = tipoCC) :
    Turno (s.trasRecibir p para ⟨s.kernel.trasCC p.cabecera, trazaCC s.kernel p.cabecera⟩) := by
  obtain ⟨h, hpara, hilo, hh, hr, b, hb, hid⟩ := hfiel ht
  obtain rfl : para = some h := hpara
  have hh : s.hilos[h]? = some hilo := hh
  have hf := (hi.enRegla h hilo hh).pide b hb hr
  rw [hid] at hf
  obtain ⟨-, -, -, -, hsit⟩ := hi.espera hh hf
  have hdest : s.destinatario p (some h) = some h := by
    unfold Estado.destinatario
    rw [if_pos ht]
  have hresul : resultadoDe p = p.cabecera.conexionAceptada := if_pos ht
  have hres : Resuelta ((s.kernel.trasCC p.cabecera).CXs p.cabecera.idDestino)
      (.connect p.cabecera.idDestino) p.cabecera.conexionAceptada := by
    rw [trasCC_self, Conexion.recibeCC]
    by_cases hneg : p.cabecera.conexionAceptada < 0
    · rw [if_pos hneg]
      exact .rechazada rfl hneg rfl rfl
    · rw [if_neg hneg]
      cases hsit with
      | aguarda _ _ _ hocu => exact .abierta hneg rfl hocu
      | resuelta _ hr' => exact absurd (hr.symm.trans hr') (by simp)
  refine hi.resuelve hc hh hf hres (fun j hj => trasCC_of_ne hj) rfl (fun j => ?_) ?_
  · unfold Estado.trasRecibir
    rw [hdest, hresul, anotaRespuesta_getElem?]
  · unfold Estado.trasRecibir
    rw [hdest, barreraDe_trazaCC]
    rfl

/-- The daemon receives a CR: it answers the call that listens at the cell, or nobody. -/
theorem Turno.recibeCR (hi : Turno s) {ipRemota : InAddr} {p : Tpdu} {para : Option ℕ}
    (hc : Cuadra (s.trasRecibir p para ⟨s.kernel.trasCR ipRemota p, trazaCR s.kernel ipRemota p⟩))
    (ht : p.cabecera.tipo = tipoCR) :
    Turno (s.trasRecibir p para ⟨s.kernel.trasCR ipRemota p, trazaCR s.kernel ipRemota p⟩) := by
  have hdest : s.destinatario p para = s.dueno (asignConexionCR p s.kernel) := by
    unfold Estado.destinatario
    rw [if_neg (tipoCR_ne_tipoCC ht), if_pos ht]
  have hresul : resultadoDe p = exOk := if_neg (tipoCR_ne_tipoCC ht)
  rcases asignConexionCR_cases p s.kernel with ⟨hen, hencaja⟩ | hno
  · obtain ⟨h, hilo, hdu, hh, hf, hr⟩ := hi.escucha _ hen (encaja_listen hencaja)
    obtain ⟨-, -, -, -, hsit⟩ := hi.espera hh hf
    have hres : Resuelta ((s.kernel.trasCR ipRemota p).CXs (asignConexionCR p s.kernel))
        (.listen (asignConexionCR p s.kernel)) exOk := by
      rw [trasCR_of_enTabla hen]
      cases hsit with
      | aguarda _ _ _ hocu => exact .abierta (by decide) rfl hocu
      | resuelta _ hr' => exact absurd (hr.symm.trans hr') (by simp)
    refine hi.resuelve hc hh hf hres (fun j hj => trasCR_of_ne hj) rfl (fun j => ?_) ?_
    · unfold Estado.trasRecibir
      rw [hdest, hdu, hresul, anotaRespuesta_getElem?]
    · unfold Estado.trasRecibir
      rw [hdest, hdu, barreraDe_trazaCR]
      rfl
  · have hnadie : s.dueno (asignConexionCR p s.kernel) = none := by
      cases hdu : s.dueno (asignConexionCR p s.kernel) with
      | none => rfl
      | some h =>
          have hen := hi.enTabla _ h hdu
          rw [hno] at hen
          exact absurd hen not_enTabla_exNoTsap
    refine hi.quieto hc ?_ (fun i hi' => trasCR_of_noTsap hno hi') rfl fun i para' hd hi' => ?_
    · unfold Estado.trasRecibir
      rw [hdest, hnadie]
      rfl
    · unfold Estado.trasRecibir at hd
      rw [barreraDe_trazaCR, hno] at hd
      obtain ⟨rfl, -⟩ := Prod.mk.inj (Option.some.inj hd)
      exact absurd hi' not_enTabla_exNoTsap

theorem Turno.recibe (hi : Turno s) {ipRemota : InAddr} {p : Tpdu} {para : Option ℕ}
    {k' : KernelShm} {w : List Accion} (hc : Cuadra (s.trasRecibir p para ⟨k', w⟩))
    (hfiel : Fiel s (.recibe ipRemota p para)) (he : Recibe s.kernel ipRemota p k' w) :
    Turno (s.trasRecibir p para ⟨k', w⟩) := by
  cases he with
  | cc ht => exact hi.recibeCC hc hfiel ht
  | cr ht => exact hi.recibeCR hc ht
  | otro hcc hcr =>
      refine hi.quieto hc ?_ (fun _ _ => rfl) rfl fun _ _ hd => absurd hd (by simp [Estado.trasRecibir,
        barreraDe])
      unfold Estado.trasRecibir Estado.destinatario
      rw [if_neg hcc, if_neg hcr]
      rfl

theorem turno_transita {e : Suceso} (hi : Turno s) (hfiel : Fiel s e) (hok : SinReuso s e)
    (h : Transita s e s') : Turno s' := by
  have hc := cuadra_transita hi.cuadra h
  cases h with
  | termina hs he =>
      exact hi.anade hc rfl (empieza_retorna_CXs he (no_send_of_fiel hfiel)) rfl rfl
  | empieza hs he => exact hi.empieza hc hfiel hok he rfl rfl rfl rfl
  | acaba hs hh hf he =>
      obtain ⟨i, v, hl, -⟩ := hi.sale hh hf
      exact hi.acaba hc hh hf rfl (sigue_CXs hl he).1 rfl rfl
  | vuelve hs hh hf he =>
      obtain ⟨i, v, hl, -⟩ := hi.sale hh hf
      obtain ⟨v', e'⟩ := (sigue_CXs hl he).2
      exact absurd e' (by simp)
  | recibe hs hd he => exact hi.recibe hc hfiel he
  | citaDaemon hh hf hd => exact hi.citaDaemon hh hf hd
  | cita hne hh hf hh' hf' => exact absurd (hi.no_cita hne hh hf hh' hf') id
  | despierta hh hf => exact absurd hfiel id
  | suelta hd => exact hi.quieto hc rfl (fun _ _ => rfl) rfl fun _ _ hd' => absurd hd' (by simp)

theorem turno_inicial (interfaz : String) (numBufPkts : UInt16) (fuera : Int → Conexion)
    (basura : ℕ → BufPkt) : Turno (inicial (kernelInicial interfaz numBufPkts fuera basura)) where
  cuadra := cuadra_inicial interfaz numBufPkts fuera basura
  enTabla := fun i h hd => absurd hd (by simp [inicial])
  enRegla := fun h hilo hh => absurd hh (by simp [inicial])
  daemon := fun i para hd => absurd hd (by simp [inicial])
  escucha := by
    intro i hi hest
    simp [inicial, kernelInicial, iniciaKernel, inicializarCXsLibres, hi] at hest

end Ltm.Nodo
