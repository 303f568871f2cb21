import Ltm.Kernel.Repetidos
import Ltm.Nodo.Dentro
import Ltm.Nodo.Vistas
import Ltm.Red.Ronda

/-! # What a call returns in the network

A daemon that finds no listener for a CR does not come to its answer. So as long as what the daemons do is
defined and the packets are read as they were built, every answer is an acceptance: `resultado_peticion`
is `EXOK` in every cell of the table, and a `t_connect` or `t_listen` that has returned gave a cell or one
of the errors of its tests (`valores`).
-/

namespace Ltm.Kernel
set_option autoImplicit false
set_option maxHeartbeats 250000

/-- No cell of the table has been refused. -/
def Contestadas (k : KernelShm) : Prop := ∀ i, EnTabla i → (k.CXs i).resultadoPeticion = exOk

/-- The errors with which `t_connect` and `t_listen` end before they wait. -/
def erroresPrueba : List Int := [exCDup, exKernel, exInva, exMaxC]

/-- What a call that opens a connection can return. -/
def Valor (v : Int) : Prop := EnTabla v ∨ v ∈ erroresPrueba

section Valores
variable {k k' : KernelShm} {c : Llamada} {pa : Paso} {w : List Accion} {l : Local} {i v : Int}
  {ip : InAddr} {p : Tpdu}

theorem Contestadas.congr (hk : Contestadas k)
    (h : ∀ i, (k'.CXs i).resultadoPeticion = (k.CXs i).resultadoPeticion) : Contestadas k' := by
  intro i hen
  rw [h i]
  exact hk i hen

theorem EfectoSend.peticion {id : Int} (h : EfectoSend id k k') (i : Int) :
    (k'.CXs i).resultadoPeticion = (k.CXs i).resultadoPeticion := by
  by_cases e : i = id
  · obtain ⟨TX, dormida, hcx⟩ := h.celda
    rw [e, hcx]
  · rw [h.otras i e]

theorem peticion_empieza (he : Empieza k c pa k' w) (i : Int) :
    (k'.CXs i).resultadoPeticion = (k.CXs i).resultadoPeticion := by
  cases he with
  | fuera | busca | lleno | repetido | sinConexion => rfl
  | connect e destino origen origen' =>
      by_cases hi : i = buscarCeldaLibre k
      · rw [hi, trasConnect_self]
        rfl
      · rw [trasConnect_of_ne e.pid destino origen' hi]
  | listen e escucha escucha' remota =>
      by_cases hi : i = buscarCeldaLibre k
      · rw [hi, trasListen_self]
        rfl
      · rw [trasListen_of_ne e.pid escucha' remota hi]
  | send e id datos longitud hest hfin => exact hfin.efecto.peticion i

theorem peticion_sigue (he : Sigue k l pa k' w) (i : Int) :
    (k'.CXs i).resultadoPeticion = (k.CXs i).resultadoPeticion := by
  cases he with
  | connect | listen => rfl
  | send l hfin => exact hfin.efecto.peticion i

theorem contestadas_recibe (hk : Contestadas k) (he : Recibe k ip p k' w)
    (hp : p.cabecera.tipo = tipoCC → ¬p.cabecera.conexionAceptada < 0) : Contestadas k' := by
  intro i hen
  cases he with
  | cc ht =>
      by_cases e : i = p.cabecera.idDestino
      · rw [e, trasCC_self, Conexion.recibeCC, if_neg (hp ht)]
      · rw [trasCC_of_ne e]
        exact hk i hen
  | cr ht =>
      by_cases e : i = asignConexionCR p k
      · subst e
        rw [trasCR_of_enTabla hen]
        rfl
      · rw [trasCR_of_ne e]
        exact hk i hen
  | otro => exact hk i hen

theorem valor_empieza (hc : c.abre) (h : (c.empieza ⟨k, []⟩).1 = .retorna v) : v ∈ erroresPrueba := by
  cases ho : c.origen k with
  | none =>
      obtain ⟨-, hbusca | ⟨r, hr, hcod⟩⟩ := fuera_of_origen ho hc
      · exact absurd (hbusca.symm.trans h) (by simp)
      · obtain rfl := Paso.retorna.inj (hr.symm.trans h)
        rcases hcod with rfl | rfl <;> decide
  | some o =>
      cases critica_of_origen ho with
      | lleno hn hr =>
          obtain rfl := Paso.retorna.inj (hr.symm.trans h)
          decide
      | repetida hn hrep hr =>
          obtain rfl := Paso.retorna.inj (hr.symm.trans h)
          decide
      | toma hn hrep hr =>
          obtain ⟨i, l, hr⟩ := hr
          exact absurd (hr.symm.trans h) (by simp)

end Valores

end Ltm.Kernel

namespace Ltm.Nodo
open Kernel
set_option autoImplicit false
set_option maxHeartbeats 250000

variable {s s' : Estado} {e : Suceso} {k k' : KernelShm} {pa : Paso} {w : List Accion} {f : Fase}
  {l : Local} {i v : Int}

theorem valor_sigue (hk : Contestadas k) (hen : EnTabla i) (hl : celdaDe l = some i)
    (he : Sigue k l (.retorna v) k' w) : Valor v := by
  have hvale : Valor (k.CXs i).resultadoPeticion := by
    rw [hk i hen]
    exact Or.inl (by decide)
  cases he with
  | connect j =>
      obtain rfl := Option.some.inj hl
      split
      · exact hvale
      · exact Or.inl hen
  | listen j =>
      obtain rfl := Option.some.inj hl
      split
      · exact hvale
      · exact Or.inl hen
  | send l => exact absurd hl (by simp [celdaDe])

/-- A call that opens a connection waits for it, and returns one of the values it can. -/
structure Vista.Acaba (x : Vista) : Prop where
  curso : x.llamada.abre → ∀ l, x.pendiente = some l → ∃ i, celdaDe l = some i
  valor : x.llamada.abre → ∀ v, x.resultado = some v → Valor v

theorem acaba_paso (hc : Cuadra s) (hk : Contestadas s.kernel) (hi : ∀ x ∈ s.vistas, x.Acaba)
    (h : paso s e = some s') : ∀ x ∈ s'.vistas, x.Acaba := by
  refine forall_vistas_paso hi h ?_ ?_
  · rintro c hilo - rfl ⟨-, -, hf⟩
    refine ⟨fun ha l hl => ?_, fun ha v hv => ?_⟩
    · obtain ⟨i, hduerme⟩ := duerme_of_fasePaso hf hl
      have he := empieza_paso (k := s.kernel) hilo.ficha.llamada
      rw [hduerme] at he
      refine Red.celdaDe_empieza he fun e id datos longitud hsend => ?_
      exact (congrArg Llamada.abre hsend).mp ha
    · exact Or.inr (valor_empieza ha (fin_of_fasePaso hf hv))
  · rintro h hilo l hilo' - hh hfase hvieja hll ⟨-, -, hf⟩
    have hpend : hilo.vista.pendiente = some l := by
      unfold Hilo.vista
      rw [hfase]
      rfl
    have he := sigue_paso (k := s.kernel) l
    have hcelda : hilo'.vista.llamada.abre → ∃ i, celdaDe l = some i := fun ha =>
      hvieja.curso ((congrArg Llamada.abre hll).mp ha) l hpend
    refine ⟨fun ha l' hl' => ?_, fun ha v hv => ?_⟩
    · obtain ⟨i, hl⟩ := hcelda ha
      obtain ⟨-, v, hret⟩ := sigue_CXs hl he
      obtain ⟨j, hduerme⟩ := duerme_of_fasePaso hf hl'
      exact absurd (hret.symm.trans hduerme) (by simp)
    · obtain ⟨i, hl⟩ := hcelda ha
      have hen := (hc.enCurso h l i ((pendiente_of_hilo hh).trans hpend) hl).1
      rw [fin_of_fasePaso hf hv] at he
      exact valor_sigue hk hen hl he

theorem contestadas_paso (hk : Contestadas s.kernel) (h : paso s e = some s')
    (hp : ∀ ip p para, e = .recibe ip p para → p.cabecera.tipo = tipoCC →
      ¬p.cabecera.conexionAceptada < 0) : Contestadas s'.kernel := by
  cases transita_of_paso h with
  | termina hs he | empieza hs he => exact hk.congr (peticion_empieza he)
  | acaba hs hh hf he | vuelve hs hh hf he => exact hk.congr (peticion_sigue he)
  | recibe hs hd he => exact contestadas_recibe hk he (hp _ _ _ rfl)
  | citaDaemon | cita | despierta | suelta => exact hk

end Ltm.Nodo

namespace Ltm.Red
open Kernel Nodo Runs
set_option autoImplicit false
set_option maxHeartbeats 250000

variable {σ σ' : Sistema} {a : InAddr} {e : Evento} {d : Datagrama} {s' : Estado}

/-- If the datagram is a CC, it accepts. -/
def Acepta (d : Datagrama) : Prop := d.tpdu.cabecera.tipo = tipoCC → ¬d.tpdu.cabecera.conexionAceptada < 0

structure Valores (σ : Sistema) : Prop where
  contestadas : ∀ a, Contestadas (σ.nodos a).kernel
  aceptan : ∀ d ∈ σ.red, Acepta d
  llamadas : ∀ a, ∀ x ∈ (σ.nodos a).vistas, x.Acaba

theorem acepta_datagramaCC {k : KernelShm} (h : asignConexionCR d.tpdu k ≠ exNoTsap) :
    Acepta (datagramaCC k d) := by
  intro _
  rw [aceptada_datagramaCC, if_neg h]
  decide

theorem acepta_cambia {s : Estado} (h : Cambia s s') : ∀ d ∈ Estado.salidas s' a, Acepta d := by
  intro d hd
  obtain ⟨p, hp, rfl⟩ := List.mem_map.mp hd
  cases h with
  | quieto hr hu => exact fun hcc => absurd ((hu p hp).1.symm.trans hcc) (by decide)
  | connect hi hlibre hne hphase hcaller hu ht =>
      rw [hu] at hp
      obtain rfl := List.mem_singleton.mp hp
      exact fun hcc => absurd (ht.symm.trans hcc) (by decide)
  | listen hi hlibre hne hphase hcaller hu =>
      rw [hu] at hp
      exact absurd hp (by simp)

theorem acepta_recibe {s : Estado} {ip : InAddr} {p : Tpdu} {para : Option ℕ} (ho : d.origen = ip)
    (hp : d.tpdu = p) (h : Nodo.paso s (.recibe ip p para) = some s') (hdef : Definida s'.ultima) :
    ∀ d' ∈ Estado.salidas s' d.destino, Acepta d' := by
  subst ho hp
  cases transita_of_paso h with
  | recibe hs hdae he =>
      have hdentro := (accesos_recibe he).mp hdef.accesos
      cases he with
      | cc ht =>
          intro d' hd'
          obtain ⟨p, hp, rfl⟩ := List.mem_map.mp hd'
          have hnada : envios (trazaCC s.kernel d.tpdu.cabecera) = [] := envios_trazaCC _ _
          exact absurd (hnada ▸ hp) List.not_mem_nil
      | cr ht =>
          intro d' hd'
          obtain rfl : d' = datagramaCC s.kernel d := List.mem_singleton.mp hd'
          exact acepta_datagramaCC (hdentro.2 ht)
      | otro hcc hcr => exact fun d' hd' => absurd hd' List.not_mem_nil

theorem valores_tras {red : List Datagrama} (hi : Valores σ) (hk : Contestadas s'.kernel)
    (hv : ∀ x ∈ s'.vistas, x.Acaba) (hred : ∀ d ∈ red, Acepta d)
    (hs : ∀ d ∈ Estado.salidas s' a, Acepta d) : Valores (σ.tras a red s') where
  contestadas := tras_forall (P := fun s => Contestadas s.kernel) hi.contestadas hk
  aceptan := fun d hd => (List.mem_append.mp hd).elim (hred d) (hs d)
  llamadas := tras_forall (P := fun s => ∀ x ∈ s.vistas, x.Acaba) hi.llamadas hv

theorem valores_paso (hco : Coherente σ) (hi : Valores σ) (h : pasoDatos σ e = some σ')
    (hdef : Definida (σ'.traza e)) : Valores σ' := by
  cases avanza_of_pasoDatos h with
  | @nodo a e s' hno hs =>
      obtain ⟨hcambia, -⟩ := cambia_paso (hco.cuadra a) (hco.ocupadas a) (hco.dirigidos a) hno hs
      have hk : Contestadas s'.kernel := contestadas_paso (hi.contestadas a) hs fun ip p para e _ => by
        subst e
        exact absurd rfl hno
      exact valores_tras hi hk (acaba_paso (hco.cuadra a) (hi.contestadas a) (hi.llamadas a) hs)
        hi.aceptan (acepta_cambia hcambia)
  | @entrega d para s' hd hs =>
      rw [traza_tras rfl] at hdef
      have hk : Contestadas s'.kernel := contestadas_paso (hi.contestadas d.destino) hs
        fun ip p para e ht => by
          injection e with _ hp _
          subst hp
          exact hi.aceptan d hd ht
      exact valores_tras hi hk
        (acaba_paso (hco.cuadra d.destino) (hi.contestadas d.destino) (hi.llamadas d.destino) hs)
        (fun d' hd' => hi.aceptan d' (List.mem_of_mem_erase hd')) (acepta_recibe rfl rfl hs hdef)
  | pierde hd => exact { hi with aceptan := fun d' hd' => hi.aceptan d' (List.mem_of_mem_erase hd') }

section Runs
variable {interfaz : InAddr → String} {numBufPkts : InAddr → UInt16}
  {fuera : InAddr → Int → Conexion} {basura : InAddr → ℕ → BufPkt} {xs : List (Evento × Lectura)}

theorem valores_run (h : Alcanza (inicial (kernels interfaz numBufPkts fuera basura)) xs σ) :
    Valores σ := by
  have hini : Valores (inicial (kernels interfaz numBufPkts fuera basura)) := by
    refine ⟨fun a i hen => ?_, fun d hd => absurd hd List.not_mem_nil,
      fun a x hx => absurd hx List.not_mem_nil⟩
    simp [inicial, Nodo.inicial, kernels, kernelInicial, iniciaKernel, inicializarCXsLibres,
      Conexion.nula, hen]
  refine (run_invariant (fun σ => Coherente σ ∧ Valores σ) Intacto ?_
    ⟨coherente_inicial interfaz numBufPkts fuera basura, hini⟩ h.intacta h.run).2
  rintro σ x σ' ⟨hco, hi⟩ hok hs
  have hs' := pasoDatos_of_pasoRed hok hs
  exact ⟨(simula_paso hco hs').1, valores_paso hco hi hs' (pasoRed_eq_some.mp hs).2⟩

theorem Valores.valor (hi : Valores σ) {hilo : Hilo} (hh : hilo ∈ (σ.nodos a).hilos)
    (hc : hilo.ficha.llamada.abre) {v : Int} (hf : hilo.fase = .fin v) : Valor v := by
  refine (hi.llamadas a hilo.vista (List.mem_map_of_mem hh)).valor hc v ?_
  show hilo.fase.resultado = _
  rw [hf]
  rfl

/-- What the calls that open a connection have returned. -/
theorem valores (h : Alcanza (inicial (kernels interfaz numBufPkts fuera basura)) xs σ) {hilo : Hilo}
    (hh : hilo ∈ (σ.nodos a).hilos) (hc : hilo.ficha.llamada.abre) :
    ∀ v, hilo.fase = .fin v → Valor v :=
  fun _ hf => (valores_run h).valor hh hc hf

/-- `saludo`, and the listen goes on and returns. -/
def saludoVuelta : List Evento :=
  saludo ++ [.nodo 0x0a000002 (.citaDaemon 0), .nodo 0x0a000002 (.sigue 0)]

theorem valores_saludo : ∃ σ, Alcanza (inicial fun _ => kernelPorDefecto) (saludoVuelta.map intacto) σ ∧
    ∃ hilo ∈ (σ.nodos 0x0a000002).hilos, hilo.fase = .fin 0 ∧ ∀ v, hilo.fase = .fin v → Valor v := by
  have hfin : (run pasoRed (inicial fun _ => kernelPorDefecto) (saludoVuelta.map intacto)).map (fun σ =>
      decide (∃ hilo ∈ (σ.nodos 0x0a000002).hilos, hilo.fase = .fin 0 ∧
        esListen hilo.ficha.llamada = true)) = some true := by decide +kernel
  obtain ⟨σ, hr, hfin⟩ := Option.map_eq_some_iff.mp hfin
  obtain ⟨hilo, hh, hf, hlis⟩ := of_decide_eq_true hfin
  have h := alcanza_intacto hr
  refine ⟨σ, h, hilo, hh, hf, valores h hh ?_⟩
  cases hc : hilo.ficha.llamada with
  | listen => trivial
  | connect | send => simp [hc, esListen] at hlis

end Runs

end Ltm.Red
