import Ltm.Nodo.Capacidad

/-! # What a connection confirm acts on

`case CC` looks neither at the state of the cell nor at what its `TX` list ends with. As long as every
CC finds its cell in CONNECT it is right: such a cell is occupied, its `TX` ends with the CR of the call
that took it, and the `t_send` calls that sleep are on ESTABLISHED cells, which no CC reaches.
-/

namespace Ltm.Nodo
open Kernel Runs
set_option autoImplicit false
set_option maxHeartbeats 250000

def Estado.cr (s : Estado) (h : ℕ) : Option BufPkt := (s.ficha h).bind Ficha.cr

/-- The CC with header `h` acts only on a pending connect: at a cell that is not in CONNECT it changes
nothing and the daemon does not wait, and at one in CONNECT a positive CC moves the CR of that connect
to `buffers_libres`, and no other buffer. -/
structure SoloPendiente (s : Estado) (h : CabTcp) (s' : Estado) : Prop where
  ajena : (s.kernel.CXs h.idDestino).estadoCx ≠ .connect →
    s'.kernel.CXs = s.kernel.CXs ∧ s'.kernel.buffersLibres = s.kernel.buffersLibres ∧
      ∀ para, s'.daemon ≠ some (h.idDestino, para)
  suya : (s.kernel.CXs h.idDestino).estadoCx = .connect → ¬h.conexionAceptada < 0 →
    ∃ c b, s.dueno h.idDestino = some c ∧ s.cr c = some b ∧ b.pkt.cabecera.tipo = tipoCR ∧
      (s.kernel.CXs h.idDestino).TX = (s'.kernel.CXs h.idDestino).TX ++ [b] ∧
      s'.kernel.buffersLibres = s.kernel.buffersLibres ++ [b] ∧
      ∀ j, j ≠ h.idDestino → s'.kernel.CXs j = s.kernel.CXs j

/-- A step that receives a CC for a cell of the table acts only on a pending connect. -/
def Confirma (s : Estado) (e : Suceso) (s' : Estado) : Prop :=
  match e with
  | .recibe _ p _ => p.cabecera.tipo = tipoCC → EnTabla p.cabecera.idDestino →
      SoloPendiente s p.cabecera s'
  | _ => True

/-- A CC for a cell of the table finds it in CONNECT. -/
def Esperado (k : KernelShm) : Suceso → Prop
  | .recibe _ p _ => p.cabecera.tipo = tipoCC → EnTabla p.cabecera.idDestino →
      (k.CXs p.cabecera.idDestino).estadoCx = .connect
  | _ => True

/-! ## The invariant -/

/-- The cell `i` waits for the answer to the CR at the end of its `TX`, sent by its owner. -/
def Pide (s : Estado) (i : Int) : Prop :=
  ∃ h b, s.dueno i = some h ∧ s.cr h = some b ∧ (s.kernel.CXs i).TX.getLast? = some b ∧
    b.pkt.cabecera.tipo = tipoCR

structure Confirmable (s : Estado) : Prop where
  cuadra : Cuadra s
  ocupada : ∀ i, EnTabla i → (s.kernel.CXs i).estadoCx ≠ .closed → s.kernel.ocupada i
  pide : ∀ i, EnTabla i → (s.kernel.CXs i).estadoCx = .connect → Pide s i
  envia : ∀ h l, s.pendiente h = some (.send l) → EnTabla l.id →
    (s.kernel.CXs l.id).estadoCx = .established

variable {s s' : Estado} {k k' : KernelShm}

theorem cr_eq_some {h : ℕ} {b : BufPkt} :
    s.cr h = some b ↔ ∃ f, s.ficha h = some f ∧ f.cr = some b :=
  Option.bind_eq_some_iff

theorem cr_concat {hilo : Hilo} (hs : s'.hilos = s.hilos ++ [hilo]) {h : ℕ} {b : BufPkt}
    (hb : s.cr h = some b) : s'.cr h = some b := by
  obtain ⟨f, hf, hcr⟩ := cr_eq_some.mp hb
  exact cr_eq_some.mpr ⟨f, (ficha_concat hs).mpr (Or.inl hf), hcr⟩

theorem cr_set {h : ℕ} {hilo hilo' : Hilo} (hh : s.hilos[h]? = some hilo)
    (hs : s'.hilos = s.hilos.set h hilo') (he : hilo'.ficha.cr = hilo.ficha.cr) {j : ℕ} {b : BufPkt}
    (hb : s.cr j = some b) : s'.cr j = some b := by
  obtain ⟨f, hf, hcr⟩ := cr_eq_some.mp hb
  by_cases hj : j = h
  · subst hj
    obtain rfl := Option.some.inj ((ficha_of_hilo hh).symm.trans hf)
    exact cr_eq_some.mpr ⟨_, (ficha_set hh hs).mpr (Or.inl ⟨rfl, rfl⟩), he.trans hcr⟩
  · exact cr_eq_some.mpr ⟨f, (ficha_set hh hs).mpr (Or.inr ⟨hj, hf⟩), hcr⟩

/-- What every step does to a cell: it stays occupied unless it is closed, and if it is ESTABLISHED it
stays so. -/
structure Evoluciona (c c' : Conexion) : Prop where
  ocupada : (c.estadoCx ≠ .closed → c.celdaOcupada ≠ 0) → c'.estadoCx ≠ .closed → c'.celdaOcupada ≠ 0
  established : c.estadoCx = .established → c'.estadoCx = .established

theorem Evoluciona.refl (c : Conexion) : Evoluciona c c := ⟨id, id⟩

theorem Confirmable.avanza (hi : Confirmable s) (hc : Cuadra s')
    (hcelda : ∀ i, EnTabla i → Evoluciona (s.kernel.CXs i) (s'.kernel.CXs i))
    (hpide : ∀ i, EnTabla i → (s'.kernel.CXs i).estadoCx = .connect →
      (s.kernel.CXs i).estadoCx = .connect ∧ (s'.kernel.CXs i).TX = (s.kernel.CXs i).TX ∧
        s'.dueno i = s.dueno i ∨ Pide s' i)
    (hcr : ∀ h b, s.cr h = some b → s'.cr h = some b)
    (hp : ∀ h l, s'.pendiente h = some (.send l) → s.pendiente h = some (.send l) ∨
      (EnTabla l.id → (s.kernel.CXs l.id).estadoCx = .established)) : Confirmable s' where
  cuadra := hc
  ocupada := fun i hi' hest => (hcelda i hi').ocupada (hi.ocupada i hi') hest
  pide := by
    intro i hi' hest
    rcases hpide i hi' hest with ⟨hantes, htx, hd⟩ | hpide
    · obtain ⟨h, b, hd', hb, hlast, htipo⟩ := hi.pide i hi' hantes
      exact ⟨h, b, by rw [hd, hd'], hcr h b hb, by rw [htx, hlast], htipo⟩
    · exact hpide
  envia := by
    intro h l hl hi'
    rcases hp h l hl with hl | hest
    · exact (hcelda l.id hi').established (hi.envia h l hl hi')
    · exact (hcelda l.id hi').established (hest hi')

/-! ## Steps of the sends, and steps that leave the table -/

/-- The only cells of the table that change are ESTABLISHED, and only in `TX` and
`primitiva_dormida`. -/
def SoloEnvia (k k' : KernelShm) : Prop :=
  ∀ i, EnTabla i → k'.CXs i = k.CXs i ∨ (k.CXs i).estadoCx = .established ∧
    ∃ TX dormida, k'.CXs i = { k.CXs i with TX := TX, primitivaDormida := dormida }

theorem soloEnvia_of_CXs (h : k'.CXs = k.CXs) : SoloEnvia k k' := fun _ _ => Or.inl (by rw [h])

theorem soloEnvia_of_efecto {id : Int} (h : EfectoSend id k k')
    (hest : EnTabla id → (k.CXs id).estadoCx = .established) : SoloEnvia k k' := by
  intro i hi
  by_cases e : i = id
  · subst e
    exact Or.inr ⟨hest hi, h.celda⟩
  · exact Or.inl (h.otras i e)

theorem Confirmable.envio (hi : Confirmable s) (hc : Cuadra s') (hk : SoloEnvia s.kernel s'.kernel)
    (hd : s'.dueno = s.dueno) (hcr : ∀ h b, s.cr h = some b → s'.cr h = some b)
    (hp : ∀ h l, s'.pendiente h = some (.send l) → s.pendiente h = some (.send l) ∨
      (EnTabla l.id → (s.kernel.CXs l.id).estadoCx = .established)) : Confirmable s' := by
  refine hi.avanza hc (fun i hi' => ?_) (fun i hi' hest => Or.inl ?_) hcr hp
  · rcases hk i hi' with e | ⟨-, TX, d, e⟩
    · rw [e]
      exact .refl _
    · rw [e]
      exact ⟨id, id⟩
  · rcases hk i hi' with e | ⟨hest', TX, d, e⟩
    · rw [e] at hest ⊢
      exact ⟨hest, rfl, by rw [hd]⟩
    · rw [e] at hest
      exact absurd (hest'.symm.trans hest) (by simp)

/-- A call that does not take a cell changes only the cell of its `t_send`, and waits on that one. -/
theorem soloEnvia_empieza {c : Llamada} {paso : Paso} {w : List Accion}
    (h : Empieza k c paso k' w) (ht : ¬c.toma k) : SoloEnvia k k' := by
  rcases h.sinToma ht with (rfl | rfl) | ⟨id, hest, hefecto⟩
  · exact soloEnvia_of_CXs rfl
  · exact soloEnvia_of_CXs rfl
  · exact soloEnvia_of_efecto hefecto fun _ => hest

theorem Confirmable.termina (hi : Confirmable s) {c : Llamada} {v : Int} {w : List Accion}
    (hc : Cuadra s') (he : Empieza s.kernel c (.retorna v) s'.kernel w)
    (hs : s'.hilos = s.hilos ++ [hiloTerminado c v]) (hd : s'.dueno = s.dueno) : Confirmable s' := by
  refine hi.envio hc (soloEnvia_empieza he (not_toma_of_retorna he)) hd
    (fun _ _ hb => cr_concat hs hb) fun h l hl => ?_
  rcases (pendiente_concat hs).mp hl with hl | ⟨-, hl⟩
  · exact Or.inl hl
  · exact absurd hl (by simp [hiloTerminado, Fase.pendiente])

theorem Confirmable.toma (hi : Confirmable s) {hilo : Hilo} {i : Int} (hc : Cuadra s')
    (hi' : EnTabla i) (hlibre : ¬s.kernel.ocupada i) (hself : s'.kernel.ocupada i)
    (hpide : (s'.kernel.CXs i).estadoCx = .connect → Pide s' i)
    (hne : ∀ j, j ≠ i → s'.kernel.CXs j = s.kernel.CXs j) (hs : s'.hilos = s.hilos ++ [hilo])
    (hd : s'.dueno = Function.update s.dueno i (some s.hilos.length))
    (hl : ∀ l, hilo.fase.pendiente ≠ some (.send l)) : Confirmable s' := by
  have hcerrada : (s.kernel.CXs i).estadoCx = .closed := by
    by_contra hest
    exact hlibre (hi.ocupada i hi' hest)
  refine hi.avanza hc (fun j _ => ?_) (fun j hj hest => ?_) (fun _ _ hb => cr_concat hs hb)
    fun h l hp => ?_
  · by_cases e : j = i
    · subst e
      refine ⟨fun _ _ => hself, fun hest => ?_⟩
      exact absurd (hcerrada.symm.trans hest) (by simp)
    · rw [hne j e]
      exact .refl _
  · by_cases e : j = i
    · subst e
      exact Or.inr (hpide hest)
    · rw [hne j e] at hest ⊢
      exact Or.inl ⟨hest, rfl, by rw [hd, Function.update_of_ne e]⟩
  · rcases (pendiente_concat hs).mp hp with hp | ⟨-, hp⟩
    · exact Or.inl hp
    · exact absurd hp (hl l)

theorem Confirmable.empieza (hi : Confirmable s) {c : Llamada} {i : Int} {l : Local}
    {w : List Accion} (hc : Cuadra s') (he : Empieza s.kernel c (.duerme i l) s'.kernel w)
    (hs : s'.hilos = s.hilos ++ [hiloNuevo c i l s'.kernel])
    (hd : s'.dueno = anotaDueno s.dueno s.hilos.length l) : Confirmable s' := by
  generalize hk : s'.kernel = k' at he
  cases he with
  | connect e destino origen origen' hker hpar hn hrep =>
      have hlast : (s'.kernel.CXs (buscarCeldaLibre s.kernel)).TX.getLast? =
          some (bufferCR (proximoBuffer s.kernel) (buscarCeldaLibre s.kernel) destino origen') := by
        rw [hk]
        exact getLast?_trasConnect e.pid destino origen'
      refine hi.toma hc (buscarCeldaLibre_enTabla s.kernel) (hi.cuadra.celda_libre hn) ?_ (fun _ => ?_)
        (fun j e' => ?_) hs hd (by simp [hiloNuevo, Fase.pendiente])
      · rw [hk]
        exact ocupada_trasConnect e.pid destino origen'
      · refine ⟨s.hilos.length, bufferCR (proximoBuffer s.kernel) (buscarCeldaLibre s.kernel) destino
          origen', by rw [hd]; exact Function.update_self _ _ _, ?_, hlast, rfl⟩
        exact cr_eq_some.mpr ⟨_, (ficha_concat hs).mpr (Or.inr ⟨rfl, rfl⟩), hlast⟩
      · rw [hk, trasConnect_of_ne e.pid destino origen' e']
  | listen e escucha escucha' remota hker hpar hn hrep =>
      refine hi.toma hc (buscarCeldaLibre_enTabla s.kernel) (hi.cuadra.celda_libre hn) ?_
        (fun hest => ?_) (fun j e' => ?_) hs hd (by simp [hiloNuevo, Fase.pendiente])
      · rw [hk]
        exact ocupada_trasListen e.pid escucha' remota
      · rw [hk, estado_trasListen] at hest
        exact absurd hest (by simp)
      · rw [hk, trasListen_of_ne e.pid escucha' remota e']
  | send e id datos longitud hest hfin =>
      obtain ⟨rfl, l', rfl, hid⟩ := hfin.espera rfl
      subst hk
      refine hi.envio hc (soloEnvia_of_efecto hfin.efecto fun _ => hest) hd
        (fun _ _ hb => cr_concat hs hb) fun h l hp => ?_
      rcases (pendiente_concat hs).mp hp with hp | ⟨-, hp⟩
      · exact Or.inl hp
      · obtain rfl := Local.send.inj (Option.some.inj hp)
        exact Or.inr fun _ => by rw [hid, hest]

/-! ## Steps after a wait -/

theorem Confirmable.sigue (hi : Confirmable s) {h : ℕ} {hilo hilo' : Hilo} {l : Local} {paso : Paso}
    {w : List Accion} (hc : Cuadra s') (hh : s.hilos[h]? = some hilo) (hf : hilo.fase = .sale l)
    (he : Sigue s.kernel l paso s'.kernel w) (hs : s'.hilos = s.hilos.set h hilo')
    (hcr : hilo'.ficha.cr = hilo.ficha.cr) (hd : s'.dueno = s.dueno)
    (hp : ∀ l', hilo'.fase.pendiente = some (.send l') → ∃ i, paso = .duerme i (.send l')) :
    Confirmable s' := by
  have hpend : s.pendiente h = some l := by
    rw [pendiente_of_hilo hh, hf]
    rfl
  have hk : SoloEnvia s.kernel s'.kernel ∧ ∀ i l', paso = .duerme i (.send l') →
      EnTabla l'.id → (s.kernel.CXs l'.id).estadoCx = .established := by
    generalize s'.kernel = k' at he
    cases he with
    | connect i => exact ⟨soloEnvia_of_CXs rfl, fun _ _ e => absurd e (by simp)⟩
    | listen i => exact ⟨soloEnvia_of_CXs rfl, fun _ _ e => absurd e (by simp)⟩
    | send l hfin =>
        refine ⟨soloEnvia_of_efecto hfin.efecto (hi.envia h l hpend), fun i l' e => ?_⟩
        obtain ⟨-, l'', e', hid⟩ := hfin.espera e
        obtain rfl := Local.send.inj e'
        rw [hid]
        exact hi.envia h l hpend
  refine hi.envio hc hk.1 hd (fun _ _ hb => cr_set hh hs hcr hb) fun j l' hl' => ?_
  rcases (pendiente_set hh hs).mp hl' with ⟨-, e⟩ | ⟨-, e⟩
  · obtain ⟨i, hpaso⟩ := hp l' e
    exact Or.inr (hk.2 i l' hpaso)
  · exact Or.inl e

theorem Confirmable.quieto (hi : Confirmable s) (hc : Cuadra s') (hk : s'.kernel = s.kernel)
    (hd : s'.dueno = s.dueno) (hf : ∀ h, s'.ficha h = s.ficha h)
    (hp : ∀ h, s'.pendiente h = s.pendiente h) : Confirmable s' :=
  hi.envio hc (soloEnvia_of_CXs (by rw [hk])) hd
    (fun h b hb => by rw [Estado.cr, hf]; exact hb) fun h l hl => Or.inl (by rw [← hp, hl])

theorem Confirmable.despertado (hi : Confirmable s) {h : ℕ} {hilo : Hilo} {i : Int} {l : Local}
    (hh : s.hilos[h]? = some hilo) (hf : hilo.fase = .espera i l) :
    Confirmable (s.despertado h hilo l) :=
  hi.quieto (hi.cuadra.despertado hh hf) rfl rfl (ficha_despertado hh) (pendiente_despertado hh hf)

/-! ## Steps of the daemon -/

theorem recibeCC_estado (c : Conexion) (h : CabTcp) : (c.recibeCC h).estadoCx ≠ .connect := by
  unfold Conexion.recibeCC
  split <;> simp

theorem evoluciona_recibeCC {c : Conexion} (h : CabTcp) (hc : c.estadoCx = .connect) :
    Evoluciona c (c.recibeCC h) := by
  unfold Conexion.recibeCC
  split
  · exact ⟨fun _ hest => absurd rfl hest, fun hest => absurd (hc.symm.trans hest) (by simp)⟩
  · exact ⟨fun hocu _ => hocu (by simp [hc]), fun _ => rfl⟩

theorem evoluciona_aceptaCR {c : Conexion} (ipRemota : InAddr) (h : CabTcp)
    (hc : c.estadoCx = .listen) : Evoluciona c (c.aceptaCR ipRemota h) :=
  ⟨fun hocu _ => hocu (by simp [hc]), fun _ => rfl⟩

theorem evoluciona_recibe {ipRemota : InAddr} {p : Tpdu} {para : Option ℕ} {w : List Accion}
    (he : Recibe k ipRemota p k' w) (hok : Esperado k (.recibe ipRemota p para)) {i : Int}
    (hi : EnTabla i) : k'.CXs i = k.CXs i ∨
      Evoluciona (k.CXs i) (k'.CXs i) ∧ (k'.CXs i).estadoCx ≠ .connect := by
  cases he with
  | cc ht =>
      by_cases e : i = p.cabecera.idDestino
      · subst e
        rw [trasCC_self]
        exact Or.inr ⟨evoluciona_recibeCC _ (hok ht hi), recibeCC_estado _ _⟩
      · exact Or.inl (trasCC_of_ne e)
  | cr ht =>
      rcases asignConexionCR_cases p k with ⟨hen, hencaja⟩ | hno
      · by_cases e : i = asignConexionCR p k
        · rw [e, trasCR_of_enTabla hen]
          refine Or.inr ⟨evoluciona_aceptaCR _ _ (encaja_listen hencaja), ?_⟩
          simp [Conexion.aceptaCR]
        · exact Or.inl (trasCR_of_ne e)
      · exact Or.inl (trasCR_of_noTsap hno hi)
  | otro hcc hcr => exact Or.inl rfl

theorem Confirmable.recibe (hi : Confirmable s) {ipRemota : InAddr} {p : Tpdu} {para : Option ℕ}
    {w : List Accion} (hok : Esperado s.kernel (.recibe ipRemota p para))
    (he : Recibe s.kernel ipRemota p k' w) (hc : Cuadra (s.trasRecibir p para ⟨k', w⟩)) :
    Confirmable (s.trasRecibir p para ⟨k', w⟩) := by
  refine hi.avanza hc (fun i hi' => ?_) (fun i hi' hest => Or.inl ?_) (fun h b hb => ?_)
    fun h l hl => Or.inl (by rw [← hl, pendiente_trasRecibir])
  · rcases evoluciona_recibe he hok hi' with e | ⟨hev, -⟩
    · show Evoluciona (s.kernel.CXs i) (k'.CXs i)
      rw [e]
      exact .refl _
    · exact hev
  · rcases evoluciona_recibe he hok hi' with e | ⟨-, hno⟩
    · have hest : (k'.CXs i).estadoCx = .connect := hest
      exact ⟨by rw [← e, hest], by show (k'.CXs i).TX = _; rw [e], rfl⟩
    · exact absurd hest hno
  · rw [Estado.cr, ficha_trasRecibir]
    exact hb

/-! ## Every step -/

theorem confirmable_transita {e : Suceso} (hi : Confirmable s) (hok : Esperado s.kernel e)
    (h : Transita s e s') : Confirmable s' := by
  have hc := cuadra_transita hi.cuadra h
  cases h with
  | termina hs he => exact hi.termina hc he rfl rfl
  | empieza hs he => exact hi.empieza hc he rfl rfl
  | acaba hs hh hf he =>
      exact hi.sigue hc hh hf he rfl rfl rfl fun l' hl' => by
        simp [Hilo.acabado, Fase.pendiente] at hl'
  | vuelve hs hh hf he =>
      exact hi.sigue hc hh hf he rfl rfl rfl fun l' hl' => by
        obtain rfl := Option.some.inj hl'
        exact ⟨_, rfl⟩
  | recibe hs hd he => exact hi.recibe hok he hc
  | citaDaemon hh hf hd =>
      exact (hi.despertado hh hf).quieto hc rfl rfl (fun _ => rfl) fun _ => rfl
  | cita hne hh hf hh' hf' =>
      exact (hi.despertado hh hf).despertado ((despertado_of_ne hne).trans hh') hf'
  | despierta hh hf => exact hi.despertado hh hf
  | suelta hd => exact hi.quieto hc rfl rfl (fun _ => rfl) fun _ => rfl

/-- A step that receives a CC acts only on a pending connect just if the CC finds its cell so. -/
theorem confirma_iff_esperado {e : Suceso} (hi : Confirmable s) (h : paso s e = some s') :
    Confirma s e s' ↔ Esperado s.kernel e := by
  cases transita_of_paso h with
  | @recibe ipRemota p para k' w hs hd he =>
      refine forall_congr' fun ht => forall_congr' fun hi' => ?_
      cases he with
      | cr ht' => exact absurd (ht.symm.trans ht') (by decide)
      | otro hcc => exact absurd ht hcc
      | cc =>
          constructor
          · intro hsolo
            by_contra hno
            apply (hsolo.ajena hno).2.2 (s.destinatario p para)
            simp only [Estado.trasRecibir, barreraDe_trazaCC, Option.map_some]
          · intro hest
            refine ⟨fun hno => absurd hest hno, fun _ hpos => ?_⟩
            obtain ⟨c, b, hdu, hb, hlast, htipo⟩ := hi.pide _ hi' hest
            refine ⟨c, b, hdu, hb, htipo, ?_, ?_, fun j hj => trasCC_of_ne hj⟩
            · show _ = ((s.kernel.trasCC p.cabecera).CXs p.cabecera.idDestino).TX ++ [b]
              rw [trasCC_self, Conexion.recibeCC, if_neg hpos]
              exact (List.dropLast_append_getLast? b hlast).symm
            · simp only [Estado.trasRecibir, KernelShm.trasCC, if_neg hpos, hlast, Option.toList_some]
  | _ => exact iff_of_true trivial trivial

theorem confirmable_inicial (interfaz : String) (numBufPkts : UInt16) (fuera : Int → Conexion)
    (basura : ℕ → BufPkt) :
    Confirmable (inicial (kernelInicial interfaz numBufPkts fuera basura)) := by
  have hcerrada : ∀ i, EnTabla i →
      ((kernelInicial interfaz numBufPkts fuera basura).CXs i).estadoCx = .closed := by
    intro i hi
    simp [kernelInicial, iniciaKernel, inicializarCXsLibres, hi]
  exact
    { cuadra := cuadra_inicial interfaz numBufPkts fuera basura
      ocupada := fun i hi hest => absurd (hcerrada i hi) hest
      pide := fun i hi hest => absurd ((hcerrada i hi).symm.trans hest) (by simp)
      envia := fun h l hl => by simp [inicial, Estado.pendiente] at hl }

/-- In a run every CC for a cell of the table acts only on a pending connect exactly when every such CC
finds its cell in CONNECT. -/
theorem confirma_iff {interfaz : String} {numBufPkts : UInt16} {fuera : Int → Conexion}
    {basura : ℕ → BufPkt} (es : List Suceso) :
    Along paso Confirma (inicial (kernelInicial interfaz numBufPkts fuera basura)) es ↔
      Along paso (fun s e _ => Esperado s.kernel e)
        (inicial (kernelInicial interfaz numBufPkts fuera basura)) es :=
  have hstep : ∀ s e s', Confirmable s → Esperado s.kernel e → paso s e = some s' →
      Confirmable s' := fun _ _ _ hi hok h => confirmable_transita hi hok (transita_of_paso h)
  along_iff_along Confirmable (fun s e _ => Esperado s.kernel e) hstep
    (fun _ _ _ hi h => confirma_iff_esperado hi h) es
    (confirmable_inicial interfaz numBufPkts fuera basura)

/-- A positive CC that nobody asked for opens a closed cell, and the daemon waits at its barrier. -/
theorem no_confirma :
    ¬Along paso Confirma (inicial kernelPorDefecto) [.recibe 0x0a000002 (ccPara 0 1) none] := by
  have hpaso : (paso (inicial kernelPorDefecto) (.recibe 0x0a000002 (ccPara 0 1) none)).map
      (fun s => s.daemon) = some (some (0, none)) := by decide +kernel
  obtain ⟨s, hs, hmal⟩ := Option.map_eq_some_iff.mp hpaso
  intro h
  have hsolo := ((Along.cons_of_some hs).mp h).1 rfl (by decide)
  exact (hsolo.ajena (by decide +kernel)).2.2 none hmal

end Ltm.Nodo
