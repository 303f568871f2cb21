import Ltm.Nodo.Confirma

/-! # A network that neither makes up nor repeats an answer

Every CC that the daemon receives answers a CR of this host that has no answer yet (`Legitimo`). The cell
of such a CR is still in CONNECT and owned by the call that sent it, so such a CC is one that `Confirma`
allows. The calls may be woken at any time.
-/

namespace Ltm.Nodo
open Kernel Runs
set_option autoImplicit false
set_option maxHeartbeats 250000

/-- No CC is made up or repeated. -/
def Legitimo (s : Estado) : Suceso → Prop
  | .recibe _ p para => Debida s p para
  | _ => True

instance (s : Estado) : (e : Suceso) → Decidable (Legitimo s e)
  | .recibe _ p para => inferInstanceAs (Decidable (Debida s p para))
  | .llama _ | .sigue _ | .citaDaemon _ | .cita _ _ | .despierta _ | .suelta => .isTrue trivial

/-- The call `h` has sent the CR `b` and has no answer. -/
def SinRespuesta (s : Estado) (h : ℕ) (b : BufPkt) : Prop :=
  ∃ hilo, s.hilos[h]? = some hilo ∧ hilo.respuesta = none ∧ hilo.ficha.cr = some b

/-- The cell that the CR `b` asks for is the one of the call `h`, in CONNECT. -/
structure Pregunta (s : Estado) (h : ℕ) (b : BufPkt) : Prop where
  enTabla : EnTabla b.pkt.cabecera.idLocal
  connect : (s.kernel.CXs b.pkt.cabecera.idLocal).estadoCx = .connect
  dueno : s.dueno b.pkt.cabecera.idLocal = some h

structure Correspondida (s : Estado) : Prop where
  confirmable : Confirmable s
  pregunta : ∀ h b, SinRespuesta s h b → Pregunta s h b

variable {s s' : Estado} {k k' : KernelShm} {h j : ℕ} {b : BufPkt} {hilo hilo' : Hilo}

/-! ## What the invariant gives -/

/-- `TX` ends with the CR that has no answer. -/
theorem Correspondida.ultimo (hi : Correspondida s) (hb : SinRespuesta s h b) :
    (s.kernel.CXs b.pkt.cabecera.idLocal).TX.getLast? = some b := by
  obtain ⟨ht, hest, hd⟩ := hi.pregunta h b hb
  obtain ⟨hilo, hh, -, hcr⟩ := hb
  obtain ⟨h', b', hd', hb', hlast, -⟩ := hi.confirmable.pide _ ht hest
  obtain rfl := Option.some.inj (hd.symm.trans hd')
  have hcr' : s.cr h = some b := cr_eq_some.mpr ⟨_, ficha_of_hilo hh, hcr⟩
  obtain rfl := Option.some.inj (hcr'.symm.trans hb')
  exact hlast

theorem sinRespuesta_of_legitimo {ipRemota : InAddr} {p : Tpdu} {para : Option ℕ}
    (hleg : Legitimo s (.recibe ipRemota p para)) (ht : p.cabecera.tipo = tipoCC) :
    ∃ h b, para = some h ∧ SinRespuesta s h b ∧ b.pkt.cabecera.idLocal = p.cabecera.idDestino := by
  obtain ⟨h, hpara, hilo, hh, hr, b, hcr, hid⟩ := hleg ht
  exact ⟨h, b, hpara, ⟨hilo, hh, hr, hcr⟩, hid⟩

theorem Correspondida.esperado {e : Suceso} (hi : Correspondida s) (hleg : Legitimo s e) :
    Esperado s.kernel e := by
  cases e with
  | recibe ipRemota p para =>
      intro ht _
      obtain ⟨h, b, -, hb, hid⟩ := sinRespuesta_of_legitimo hleg ht
      rw [← hid]
      exact (hi.pregunta h b hb).connect
  | _ => trivial

/-! ## The calls without an answer, before and after a step -/

theorem sinRespuesta_concat (hs : s'.hilos = s.hilos ++ [hilo]) (hb : SinRespuesta s' h b) :
    SinRespuesta s h b ∨ h = s.hilos.length ∧ hilo.ficha.cr = some b := by
  obtain ⟨a, ha, hr, hcr⟩ := hb
  rw [hs] at ha
  rcases getElem?_concat_iff.mp ha with ha | ⟨rfl, rfl⟩
  · exact Or.inl ⟨a, ha, hr, hcr⟩
  · exact Or.inr ⟨rfl, hcr⟩

theorem sinRespuesta_set (hh : s.hilos[j]? = some hilo) (hs : s'.hilos = s.hilos.set j hilo')
    (hcr' : hilo'.ficha.cr = hilo.ficha.cr) (hr' : hilo'.respuesta = hilo.respuesta)
    (hb : SinRespuesta s' h b) : SinRespuesta s h b := by
  obtain ⟨a, ha, hr, hcr⟩ := hb
  rw [hs] at ha
  rcases (getElem?_set_iff hh).mp ha with ⟨rfl, rfl⟩ | ⟨-, ha⟩
  · exact ⟨hilo, hh, by rw [← hr', hr], by rw [← hcr', hcr]⟩
  · exact ⟨a, ha, hr, hcr⟩

theorem sinRespuesta_trasRecibir {p : Tpdu} {para : Option ℕ} {m : Mundo}
    (hb : SinRespuesta (s.trasRecibir p para m) h b) :
    SinRespuesta s h b ∧ s.destinatario p para ≠ some h := by
  obtain ⟨a, ha, hr, hcr⟩ := hb
  unfold Estado.trasRecibir at ha
  rw [anotaRespuesta_getElem?] at ha
  obtain ⟨hilo, hh, rfl⟩ := Option.map_eq_some_iff.mp ha
  by_cases hd : s.destinatario p para = some h
  · rw [if_pos hd] at hr
    exact absurd hr (by simp)
  · rw [if_neg hd] at hr hcr
    exact ⟨⟨hilo, hh, hr, hcr⟩, hd⟩

theorem Correspondida.avanza (hi : Correspondida s) (hc : Confirmable s')
    (hb : ∀ h b, SinRespuesta s' h b → Pregunta s' h b ∨ SinRespuesta s h b ∧
      s'.kernel.CXs b.pkt.cabecera.idLocal = s.kernel.CXs b.pkt.cabecera.idLocal ∧
      s'.dueno b.pkt.cabecera.idLocal = s.dueno b.pkt.cabecera.idLocal) : Correspondida s' := by
  refine ⟨hc, fun h b hs => ?_⟩
  rcases hb h b hs with hp | ⟨hs, hcx, hd⟩
  · exact hp
  · obtain ⟨ht, hest, hdu⟩ := hi.pregunta h b hs
    exact ⟨ht, by rw [hcx, hest], by rw [hd, hdu]⟩

/-- A step of the sends touches no cell in CONNECT. -/
theorem Correspondida.envio (hi : Correspondida s) (hc : Confirmable s')
    (hk : SoloEnvia s.kernel s'.kernel) (hd : s'.dueno = s.dueno)
    (hb : ∀ h b, SinRespuesta s' h b → SinRespuesta s h b) : Correspondida s' := by
  refine hi.avanza hc fun h b hs => ?_
  obtain ⟨ht, hest, hdu⟩ := hi.pregunta h b (hb h b hs)
  rcases hk _ ht with hcx | ⟨hest', -⟩
  · exact Or.inr ⟨hb h b hs, hcx, by rw [hd]⟩
  · exact absurd (hest.symm.trans hest') (by simp)

theorem Correspondida.despertado {i : Int} {l : Local} (hi : Correspondida s)
    (hh : s.hilos[j]? = some hilo) (hf : hilo.fase = .espera i l) :
    Correspondida (s.despertado j hilo l) := by
  have hs : (s.despertado j hilo l).hilos = s.hilos.set j { hilo with fase := .sale l } := rfl
  exact hi.envio (hi.confirmable.despertado hh hf) (soloEnvia_of_CXs rfl) rfl
    fun _ _ hb => sinRespuesta_set hh hs rfl rfl hb

/-! ## Every step -/

theorem Correspondida.toma {i : Int} (hi : Correspondida s) (hc : Confirmable s')
    (hi' : EnTabla i) (hlibre : ¬s.kernel.ocupada i)
    (hne : ∀ j, j ≠ i → s'.kernel.CXs j = s.kernel.CXs j) (hs : s'.hilos = s.hilos ++ [hilo])
    (hd : s'.dueno = Function.update s.dueno i (some s.hilos.length))
    (hcr : ∀ b, hilo.ficha.cr = some b → b.pkt.cabecera.idLocal = i ∧
      (s'.kernel.CXs i).estadoCx = .connect) : Correspondida s' := by
  refine hi.avanza hc fun h b hb => ?_
  rcases sinRespuesta_concat hs hb with hb | ⟨rfl, hcr'⟩
  · have hp := hi.pregunta h b hb
    have hocu := hi.confirmable.ocupada _ hp.enTabla (by rw [hp.connect]; simp)
    have hji : b.pkt.cabecera.idLocal ≠ i := by
      rintro rfl
      exact hlibre hocu
    exact Or.inr ⟨hb, hne _ hji, by rw [hd, Function.update_of_ne hji]⟩
  · obtain ⟨rfl, hest⟩ := hcr b hcr'
    exact Or.inl ⟨hi', hest, by rw [hd, Function.update_self]⟩

theorem Correspondida.empieza {c : Llamada} {i : Int} {l : Local} {w : List Accion}
    (hi : Correspondida s) (hc : Confirmable s') (he : Empieza s.kernel c (.duerme i l) s'.kernel w)
    (hs : s'.hilos = s.hilos ++ [hiloNuevo c i l s'.kernel])
    (hd : s'.dueno = anotaDueno s.dueno s.hilos.length l) : Correspondida s' := by
  generalize hk : s'.kernel = k' at he
  cases he with
  | connect e destino origen origen' hker hpar hn hrep =>
      refine hi.toma hc (buscarCeldaLibre_enTabla _) (hi.confirmable.cuadra.celda_libre hn)
        (fun j hj => by rw [hk, trasConnect_of_ne e.pid destino origen' hj]) hs hd fun b hb => ?_
      have hb : (s'.kernel.CXs (buscarCeldaLibre s.kernel)).TX.getLast? = some b := hb
      rw [hk, getLast?_trasConnect] at hb
      obtain rfl := Option.some.inj hb
      exact ⟨rfl, by rw [hk, estado_trasConnect]⟩
  | listen e escucha escucha' remota hker hpar hn hrep =>
      exact hi.toma hc (buscarCeldaLibre_enTabla _) (hi.confirmable.cuadra.celda_libre hn)
        (fun j hj => by rw [hk, trasListen_of_ne e.pid escucha' remota hj]) hs hd
        fun b hb => absurd hb (by simp [hiloNuevo, crDe])
  | send e id datos longitud hest hfin =>
      obtain ⟨rfl, l', rfl, hid⟩ := hfin.espera rfl
      subst hk
      refine hi.envio hc (soloEnvia_of_efecto hfin.efecto fun _ => hest) hd fun h b hb => ?_
      rcases sinRespuesta_concat hs hb with hb | ⟨-, hb⟩
      · exact hb
      · exact absurd hb (by simp [hiloNuevo, crDe])

theorem soloEnvia_sigue {l : Local} {paso : Paso} {w : List Accion} (he : Sigue k l paso k' w)
    (hl : ∀ l', l = .send l' → EnTabla l'.id → (k.CXs l'.id).estadoCx = .established) :
    SoloEnvia k k' := by
  cases he with
  | connect i => exact soloEnvia_of_CXs rfl
  | listen i => exact soloEnvia_of_CXs rfl
  | send l hfin => exact soloEnvia_of_efecto hfin.efecto (hl l rfl)

theorem Correspondida.sigue {l : Local} {paso : Paso} {w : List Accion} (hi : Correspondida s)
    (hc : Confirmable s') (hh : s.hilos[j]? = some hilo) (hf : hilo.fase = .sale l)
    (he : Sigue s.kernel l paso s'.kernel w) (hs : s'.hilos = s.hilos.set j hilo')
    (hcr : hilo'.ficha.cr = hilo.ficha.cr) (hr : hilo'.respuesta = hilo.respuesta)
    (hd : s'.dueno = s.dueno) : Correspondida s' := by
  refine hi.envio hc (soloEnvia_sigue he fun l' hl' => ?_) hd
    fun _ _ hb => sinRespuesta_set hh hs hcr hr hb
  refine hi.confirmable.envia j l' ?_
  rw [pendiente_of_hilo hh, hf, hl']
  rfl

theorem Correspondida.recibe {ipRemota : InAddr} {p : Tpdu} {para : Option ℕ} {w : List Accion}
    (hi : Correspondida s) (hleg : Legitimo s (.recibe ipRemota p para))
    (he : Recibe s.kernel ipRemota p k' w) (hc : Confirmable (s.trasRecibir p para ⟨k', w⟩)) :
    Correspondida (s.trasRecibir p para ⟨k', w⟩) := by
  refine hi.avanza hc fun h b hb => ?_
  obtain ⟨hb, hno⟩ := sinRespuesta_trasRecibir hb
  obtain ⟨ht', hest, hdu⟩ := hi.pregunta h b hb
  have hcx : k'.CXs b.pkt.cabecera.idLocal = s.kernel.CXs b.pkt.cabecera.idLocal := by
    cases he with
    | otro => rfl
    | cr ht =>
        apply trasCR_of_ne
        intro e
        rcases asignConexionCR_cases p s.kernel with ⟨-, hencaja⟩ | hnoTsap
        · rw [← e] at hencaja
          exact absurd (hest.symm.trans (encaja_listen hencaja)) (by simp)
        · rw [e, hnoTsap] at ht'
          exact not_enTabla_exNoTsap ht'
    | cc ht =>
        apply trasCC_of_ne
        intro e
        obtain ⟨h₀, b₀, rfl, hb₀, hid⟩ := sinRespuesta_of_legitimo hleg ht
        have hdu₀ := (hi.pregunta h₀ b₀ hb₀).dueno
        rw [hid, ← e, hdu] at hdu₀
        rw [Estado.destinatario, if_pos ht] at hno
        exact hno hdu₀.symm
  exact Or.inr ⟨hb, hcx, rfl⟩

theorem correspondida_transita {e : Suceso} (hi : Correspondida s) (hleg : Legitimo s e)
    (h : Transita s e s') : Correspondida s' := by
  have hc := confirmable_transita hi.confirmable (hi.esperado hleg) h
  cases h with
  | @termina c v k' w hs he =>
      refine hi.envio hc (soloEnvia_empieza he (not_toma_of_retorna he)) rfl fun h b hb => ?_
      rcases sinRespuesta_concat (by rfl) hb with hb | ⟨-, hb⟩
      · exact hb
      · exact absurd hb (by simp [hiloTerminado])
  | empieza hs he => exact hi.empieza hc he rfl rfl
  | acaba hs hh hf he => exact hi.sigue hc hh hf he rfl rfl rfl rfl
  | vuelve hs hh hf he => exact hi.sigue hc hh hf he rfl rfl rfl rfl
  | recibe hs hd he => exact hi.recibe hleg he hc
  | citaDaemon hh hf hd =>
      exact (hi.despertado hh hf).envio hc (soloEnvia_of_CXs rfl) rfl fun _ _ hb => hb
  | cita hne hh hf hh' hf' =>
      exact (hi.despertado hh hf).despertado ((despertado_of_ne hne).trans hh') hf'
  | despierta hh hf => exact hi.despertado hh hf
  | suelta hd => exact hi.envio hc (soloEnvia_of_CXs rfl) rfl fun _ _ hb => hb

theorem correspondida_inicial (interfaz : String) (numBufPkts : UInt16) (fuera : Int → Conexion)
    (basura : ℕ → BufPkt) :
    Correspondida (inicial (kernelInicial interfaz numBufPkts fuera basura)) :=
  ⟨confirmable_inicial interfaz numBufPkts fuera basura, fun h b ⟨hilo, hh, _⟩ => by
    simp [inicial] at hh⟩

end Ltm.Nodo
