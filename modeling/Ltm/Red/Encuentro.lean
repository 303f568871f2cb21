import Ltm.Red.Ronda
import Ltm.Nodo.Puertos
import Ltm.Kernel.Escuchas

/-! # From the calls to the connection

A port below 32768 belongs to one occupied cell at most, in every run (`unico_run`). So the CR of a
`t_connect` to such a port finds the cell that listens there, and if both daemons are in their loops the
two calls return with the two ends of one connection (`encuentro`).
-/

namespace Ltm.Kernel
set_option autoImplicit false
set_option maxHeartbeats 250000

/-! ## One port -/

/-- No two occupied cells have the local port `p`. -/
def Unico (k : KernelShm) (p : UInt16) : Prop :=
  ∀ i j, EnTabla i → EnTabla j → k.ocupada i → k.ocupada j →
    (k.CXs i).puertoOrigen = p → (k.CXs j).puertoOrigen = p → i = j

section Unico
variable {k k' : KernelShm} {p : UInt16} {c : Llamada} {o : TDireccion} {i : Int}

theorem Unico.conserva (h : Unico k p) (hp : MismosPuertos k k') : Unico k' p := by
  intro i j hi hj hocu hocu' ei ej
  obtain ⟨hi', eqi⟩ := hp i hi hocu
  obtain ⟨hj', eqj⟩ := hp j hj hocu'
  exact h i j hi hj hi' hj' (eqi.symm.trans ei) (eqj.symm.trans ej)

theorem repite_of_puerto (hp : p.toNat < 32768) (ho : o.puerto.toUInt16 = p)
    (hi : (k.CXs i).puertoOrigen = p) : (k.CXs i).repite o c := by
  refine Or.inr (mismoPuerto_iff.mpr ⟨hi.trans ho.symm, ?_⟩)
  have hint : o.puerto.toInt = if 2 * o.puerto.toUInt16.toNat < 65536 then
      (o.puerto.toUInt16.toNat : Int) else (o.puerto.toUInt16.toNat : Int) - 65536 :=
    BitVec.toInt_eq_toNat_cond o.puerto.toBitVec
  rw [hint, ho, if_pos (by omega)]
  omega

/-- The cell that a call takes is the only one with its port, if the search for repetitions can find the
port. -/
theorem Unico.toma (h : Unico k p) (hp : p.toNat < 32768)
    (hrep : ¬∃ j, EnTabla j ∧ (k.CXs j).repite o c) (hself : (k'.CXs i).puertoOrigen = o.puerto.toUInt16)
    (hne : ∀ j, j ≠ i → k'.CXs j = k.CXs j) : Unico k' p := by
  intro a b ha hb hocu hocu' ea eb
  have hvieja : ∀ x, x ≠ i → EnTabla x → (k'.CXs x).puertoOrigen = p → o.puerto.toUInt16 ≠ p := by
    intro x hx hen e ho
    rw [hne x hx] at e
    exact hrep ⟨x, hen, repite_of_puerto hp ho e⟩
  by_cases hai : a = i
  · by_cases hbi : b = i
    · rw [hai, hbi]
    · rw [hai, hself] at ea
      exact absurd ea (hvieja b hbi hb eb)
  · by_cases hbi : b = i
    · rw [hbi, hself] at eb
      exact absurd eb (hvieja a hai ha ea)
    · rw [hne a hai] at ea
      rw [hne b hbi] at eb
      exact h a b ha hb ((ocupada_congr (hne a hai)).mp hocu) ((ocupada_congr (hne b hbi)).mp hocu') ea eb

theorem unico_empieza {pa : Paso} {w : List Accion} (hu : Unico k p) (hp : p.toNat < 32768)
    (he : Empieza k c pa k' w) : Unico k' p := by
  cases he with
  | connect e destino origen origen' hk hpar hn hrep =>
      have hrep' : ¬∃ i, EnTabla i ∧ (k.CXs i).repite origen' (.connect e destino origen) := fun h =>
        hrep (buscarConnectRepetido_iff.mpr h)
      refine hu.toma hp hrep' ?_ fun j hj => trasConnect_of_ne e.pid destino origen' hj
      rw [trasConnect_self]
      rfl
  | listen e escucha escucha' remota hk hpar hn hrep =>
      have hrep' : ¬∃ i, EnTabla i ∧ (k.CXs i).repite escucha' (.listen e escucha remota) := fun h =>
        hrep (buscarListenRepetido_iff.mpr h)
      refine hu.toma hp hrep' ?_ fun j hj => trasListen_of_ne e.pid escucha' remota hj
      rw [trasListen_self]
      rfl
  | fuera => exact hu
  | busca => exact hu
  | lleno => exact hu.conserva (mismosPuertos_of_CXs rfl)
  | repetido => exact hu.conserva (mismosPuertos_of_CXs rfl)
  | sinConexion => exact hu.conserva (mismosPuertos_of_CXs rfl)
  | send e id datos longitud hest hfin =>
      exact hu.conserva hfin.efecto.mismaTabla.mismosPuertos

end Unico

end Ltm.Kernel

namespace Ltm.Nodo
open Kernel
set_option autoImplicit false
set_option maxHeartbeats 250000

variable {s s' : Estado} {p : UInt16}

theorem unico_transita {e : Suceso} (hu : Unico s.kernel p) (hp : p.toNat < 32768)
    (h : Transita s e s') : Unico s'.kernel p := by
  cases h with
  | termina hs he => exact unico_empieza hu hp he
  | empieza hs he => exact unico_empieza hu hp he
  | acaba hs hh hf he => exact hu.conserva (mismosPuertos_sigue he)
  | vuelve hs hh hf he => exact hu.conserva (mismosPuertos_sigue he)
  | recibe hs hd he => exact hu.conserva (mismosPuertos_recibe he)
  | citaDaemon => exact hu
  | cita => exact hu
  | despierta => exact hu
  | suelta => exact hu

/-- A `t_connect` that waits has taken a cell and sent a CR for it. -/
theorem espera_of_connect {e : Entorno} {destino origen : TDireccion} {x : Int × Local}
    (hp : paso s (.llama (.connect e destino origen)) = some s')
    (hh : s'.fase s.hilos.length = some (.espera x.1 x.2)) :
    ∃ origen', x.1 = buscarCeldaLibre s.kernel ∧
      s'.kernel = s.kernel.trasConnect e.pid destino origen' ∧
      s'.ultima = trazaConnect s.kernel destino origen' := by
  cases transita_of_paso hp with
  | termina hs he =>
      simp [Estado.fase, hiloTerminado] at hh
  | empieza hs he =>
      cases he with
      | connect _ _ _ origen' hk hpar hn hrep =>
          simp only [Estado.fase, List.getElem?_concat_length, Option.map_some, hiloNuevo,
            Option.some.injEq, Fase.espera.injEq] at hh
          exact ⟨origen', hh.1.symm, rfl, rfl⟩

end Ltm.Nodo

namespace Ltm.Red
open Kernel Nodo Runs
set_option autoImplicit false
set_option maxHeartbeats 250000

variable {σ σ' : Sistema} {d : Datagrama} {a b : InAddr} {i j : Int} {h : ℕ} {p : UInt16}

/-! ## The listener of a port -/

theorem unico_pasoDatos {e : Evento} (hu : ∀ a, Unico (σ.nodos a).kernel p) (hp : p.toNat < 32768)
    (hs : pasoDatos σ e = some σ') : ∀ a, Unico (σ'.nodos a).kernel p := by
  cases avanza_of_pasoDatos hs with
  | nodo hno h =>
      have hu' := unico_transita (hu _) hp (transita_of_paso h)
      exact tras_forall (P := fun s => Unico s.kernel p) hu hu'
  | entrega hd h =>
      have hu' := unico_transita (hu _) hp (transita_of_paso h)
      exact tras_forall (P := fun s => Unico s.kernel p) hu hu'
  | pierde => exact hu

/-- The cell `cl` of the host `b` listens for a connect from the addresses of `cc`, and `cc` is for a
connect to those of `cl`. -/
structure Casan (b : InAddr) (cl cc : Conexion) : Prop where
  host : cl.ipLocal = b ∧ cc.ipDestino = b
  puerto : cc.puertoDestino = cl.puertoOrigen
  bajo : cl.puertoOrigen.toNat < 32768
  remota : cl.ipDestino = 0 ∧ cl.puertoDestino = 0 ∨
    cl.ipDestino = cc.ipLocal ∧ (cl.puertoDestino = 0 ∨ cl.puertoDestino = cc.puertoOrigen)

instance (b : InAddr) (cl cc : Conexion) : Decidable (Casan b cl cc) :=
  decidable_of_iff ((cl.ipLocal = b ∧ cc.ipDestino = b) ∧ cc.puertoDestino = cl.puertoOrigen ∧
    cl.puertoOrigen.toNat < 32768 ∧ (cl.ipDestino = 0 ∧ cl.puertoDestino = 0 ∨
      cl.ipDestino = cc.ipLocal ∧ (cl.puertoDestino = 0 ∨ cl.puertoDestino = cc.puertoOrigen)))
    ⟨fun h => ⟨h.1, h.2.1, h.2.2.1, h.2.2.2⟩, fun h => ⟨h.host, h.puerto, h.bajo, h.remota⟩⟩

theorem Casan.encaja {cl cc : Conexion} (h : Casan b cl cc) {cab : CabTcp}
    (hip : cab.ipDestino = cc.ipDestino) (hipl : cab.ipLocal = cc.ipLocal)
    (hpd : cab.puertoDest = cc.puertoDestino) (hpo : cab.puertoOrig = cc.puertoOrigen)
    (hest : cl.estadoCx = .listen) : encaja cl cab := by
  refine ⟨by rw [hip, h.host.1, h.host.2], by rw [hpd, h.puerto], ?_⟩
  rcases h.remota with ⟨hcero, hp⟩ | ⟨heq, hp | hp⟩
  · exact Or.inl ⟨hcero, hp, hest⟩
  · exact Or.inr (Or.inl ⟨by rw [hipl, heq], hp, hest⟩)
  · exact Or.inr (Or.inr ⟨by rw [hipl, heq], by rw [hpo, hp], hest⟩)

/-- The only cell that a CR fits by its port is the one that it is given. -/
theorem asignConexionCR_of_unico {k : KernelShm} {p : Tpdu} (hu : Unico k p.cabecera.puertoDest)
    (ho : ∀ i, EnTabla i → (k.CXs i).estadoCx ≠ .closed → k.ocupada i) (hen : EnTabla j)
    (hj : encaja (k.CXs j) p.cabecera) : asignConexionCR p k = j := by
  have hocu : ∀ m, EnTabla m → encaja (k.CXs m) p.cabecera → k.ocupada m := fun m hm he =>
    ho m hm (by simp [encaja_listen he])
  rcases asignConexionCR_first p k with ⟨m, hm, he, -, e⟩ | ⟨hno, -⟩
  · rw [e]
    exact hu m j hm hen (hocu m hm he) (hocu j hen hj) he.2.1.symm hj.2.1.symm
  · exact absurd hj (hno j hen)

section Runs
variable {interfaz : InAddr → String} {numBufPkts : InAddr → UInt16}
  {fuera : InAddr → Int → Conexion} {basura : InAddr → ℕ → BufPkt} {es : List Evento}
  {xs : List (Evento × Lectura)}

theorem unico_run (hr : run pasoDatos (inicial (kernels interfaz numBufPkts fuera basura)) es = some σ)
    (hp : p.toNat < 32768) (a : InAddr) : Unico (σ.nodos a).kernel p := by
  refine run_invariant (fun σ => ∀ a, Unico (σ.nodos a).kernel p) (fun _ _ _ => True)
    (fun _ _ _ hi _ hs => unico_pasoDatos hi hp hs) (fun a i j hi hj hocu hocu' ei ej => ?_)
    (Along.of_true (fun _ _ _ _ => trivial) es _) hr a
  exact unicos_inicial (interfaz a) (numBufPkts a) (fuera a) (basura a) i j hi hj hocu hocu'
    (ei.trans ej.symm)

/-! ## The meeting -/

/-- The datagram is the CR of the connect on the cell `i` of the host `a`. -/
structure EsCR (σ : Sistema) (a : InAddr) (i : Int) (d : Datagrama) : Prop where
  origen : d.origen = a
  destino : d.destino = (σ.celda a i).ipDestino
  tipo : d.tpdu.cabecera.tipo = tipoCR
  idLocal : d.tpdu.cabecera.idLocal = i
  ipDestino : d.tpdu.cabecera.ipDestino = (σ.celda a i).ipDestino
  ipLocal : d.tpdu.cabecera.ipLocal = (σ.celda a i).ipLocal
  puertoDest : d.tpdu.cabecera.puertoDest = (σ.celda a i).puertoDestino
  puertoOrig : d.tpdu.cabecera.puertoOrig = (σ.celda a i).puertoOrigen

theorem esCR_of_connect {e : Entorno} {destino origen : TDireccion}
    (hs : pasoDatos σ (.nodo a (.llama (.connect e destino origen))) = some σ')
    (hi : (σ'.nodos a).fase (σ.nodos a).hilos.length = some (.espera i (.connect i))) :
    (σ'.celda a i).TX ≠ [] ∧ ∃ d ∈ σ'.red, EsCR σ' a i d := by
  cases avanza_of_pasoDatos hs with
  | @nodo _ _ s' hno h =>
      rw [tras_nodos_self] at hi
      obtain ⟨origen', rfl, hk, hu⟩ := espera_of_connect (x := (i, .connect i)) h hi
      have hcelda : (σ.tras a σ.red s').celda a (buscarCeldaLibre (σ.nodos a).kernel) =
          (σ.nodos a).kernel.celdaConnect e.pid destino origen' (buscarCeldaLibre (σ.nodos a).kernel) := by
        rw [tras_celda_self, hk, trasConnect_self]
      have hred : (σ.tras a σ.red s').red =
          σ.red ++ [datagramaCR a (σ.nodos a).kernel destino origen'] := by
        show σ.red ++ _ = _
        rw [hu, envios_trazaConnect]
        rfl
      refine ⟨?_, datagramaCR a (σ.nodos a).kernel destino origen', ?_, ?_⟩
      · rw [hcelda]
        exact List.append_ne_nil_of_right_ne_nil _ (List.cons_ne_nil _ _)
      · rw [hred]
        exact List.mem_append_right _ (List.mem_singleton_self _)
      · constructor <;> first | rfl | rw [hcelda]; rfl

/-- The listener of the cell `j` is the one that the CR is for. -/
theorem asigna_of_casan (hr : run pasoDatos (inicial (kernels interfaz numBufPkts fuera basura)) es = some σ)
    (hd : EsCR σ a i d) (hen : EnTabla j) (hest : (σ.celda b j).estadoCx = .listen)
    (hcasan : Casan b (σ.celda b j) (σ.celda a i)) : asignConexionCR d.tpdu (σ.nodos b).kernel = j := by
  have hbajo : d.tpdu.cabecera.puertoDest.toNat < 32768 := by
    rw [hd.puertoDest, hcasan.puerto]
    exact hcasan.bajo
  exact asignConexionCR_of_unico (unico_run hr hbajo b) ((coherente_run hr).ocupadas b) hen
    (hcasan.encaja hd.ipDestino hd.ipLocal hd.puertoDest hd.puertoOrig hest)

/-- The handshake of a connect whose CR is in flight with the listen that it is for. -/
theorem completa_of_casan
    (hr : run pasoDatos (inicial (kernels interfaz numBufPkts fuera basura)) es = some σ) {c : ℕ}
    (hd : d ∈ σ.red) (hcr : EsCR σ a i d) (hTX : (σ.celda a i).TX ≠ [])
    (hc : (σ.nodos a).fase c = some (.espera i (.connect i)))
    (hj : (σ.nodos b).fase h = some (.espera j (.listen j))) (hest : (σ.celda b j).estadoCx = .listen)
    (ha : Libre (σ.nodos a)) (hb : Libre (σ.nodos b)) (hcasan : Casan b (σ.celda b j) (σ.celda a i)) :
    ∃ τ, Alcanza σ ((pasosSaludo σ d c h).map intacto) τ ∧ Completa τ (a, i) (b, j) c h := by
  have hcoh := coherente_run hr
  have hen : EnTabla j := by
    refine ((hcoh.cuadra b).enCurso h (.listen j) j ?_ rfl).1
    obtain ⟨hilo, hhilo, hf⟩ := Option.map_eq_some_iff.mp hj
    rw [Estado.pendiente, hhilo, Option.bind_some, hf]
    rfl
  have hasign := asigna_of_casan hr hcr hen hest hcasan
  obtain ⟨rfl, hdest, ht, rfl, -⟩ := hcr
  obtain rfl : d.destino = b := hdest.trans hcasan.host.2
  exact completa hcoh hd ht ha hb hTX hc hasign hen hj

/-- A `t_connect` that comes to its wait while a `t_listen` for it waits, with both daemons in their
loops: each host needs one round. -/
theorem encuentro (h₀ : Alcanza (inicial (kernels interfaz numBufPkts fuera basura)) xs σ)
    {e : Entorno} {destino origen : TDireccion} {lee : Lectura}
    (hs : Alcanza σ [(.nodo a (.llama (.connect e destino origen)), lee)] σ')
    (hi : (σ'.nodos a).fase (σ.nodos a).hilos.length = some (.espera i (.connect i)))
    (hj : (σ'.nodos b).fase h = some (.espera j (.listen j)))
    (hest : (σ'.celda b j).estadoCx = .listen) (ha : Libre (σ'.nodos a)) (hb : Libre (σ'.nodos b))
    (hcasan : Casan b (σ'.celda b j) (σ'.celda a i)) :
    ∃ d ∈ σ'.red, ∃ τ, Alcanza σ' ((pasosSaludo σ' d (σ.nodos a).hilos.length h).map intacto) τ ∧
      Completa τ (a, i) (b, j) (σ.nodos a).hilos.length h := by
  obtain ⟨τ, hpaso, hτ⟩ := run_cons_eq_some hs.run_pasoDatos
  obtain rfl : τ = σ' := Option.some.inj hτ
  obtain ⟨hTX, d, hd, hcr⟩ := esCR_of_connect hpaso hi
  exact ⟨d, hd, completa_of_casan (h₀.append hs).run_pasoDatos hd hcr hTX hi hj hest ha hb hcasan⟩

theorem encuentro_saludo : ∃ σ σ',
    Alcanza (inicial fun _ => kernelPorDefecto)
      ([.nodo 0x0a000002 (.llama (.listen entornoVacio ⟨0x0a000002, 80⟩ none))].map intacto) σ ∧
    Alcanza σ ([.nodo 0x0a000001 (.llama (conecta 80 1000))].map intacto) σ' ∧
    ∃ d ∈ σ'.red, ∃ τ,
      Alcanza σ' ((pasosSaludo σ' d (σ.nodos 0x0a000001).hilos.length 0).map intacto) τ ∧
        Completa τ (0x0a000001, 0) (0x0a000002, 0) (σ.nodos 0x0a000001).hilos.length 0 := by
  have hlisto : ((run pasoRed (inicial fun _ => kernelPorDefecto)
      ([.nodo 0x0a000002 (.llama (.listen entornoVacio ⟨0x0a000002, 80⟩ none))].map intacto)).bind fun σ =>
        (run pasoRed σ ([.nodo 0x0a000001 (.llama (conecta 80 1000))].map intacto)).map fun σ' => decide (
          (σ'.nodos 0x0a000001).fase (σ.nodos 0x0a000001).hilos.length = some (.espera 0 (.connect 0)) ∧
          (σ'.nodos 0x0a000002).fase 0 = some (.espera 0 (.listen 0)) ∧
          (σ'.celda 0x0a000002 0).estadoCx = .listen ∧ Libre (σ'.nodos 0x0a000001) ∧
          Libre (σ'.nodos 0x0a000002) ∧
          Casan 0x0a000002 (σ'.celda 0x0a000002 0) (σ'.celda 0x0a000001 0))) = some true := by
    decide +kernel
  obtain ⟨σ, hr, hlisto⟩ := Option.bind_eq_some_iff.mp hlisto
  obtain ⟨σ', hr', hlisto⟩ := Option.map_eq_some_iff.mp hlisto
  obtain ⟨hi, hj, hest, ha, hb, hcasan⟩ := of_decide_eq_true hlisto
  have h := alcanza_intacto hr
  have h' := alcanza_intacto hr'
  exact ⟨σ, σ', h, h', encuentro h h' hi hj hest ha hb hcasan⟩

end Runs

end Ltm.Red
