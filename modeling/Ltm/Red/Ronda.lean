import Ltm.Red.Parejas

/-! # A handshake that nothing disturbs

A round is the arrival of a packet at a daemon that is in its loop, the meeting of the daemon with the
call that the packet is for, and the rest of that call. From any reachable state with a CR in flight,
a round at the host that listens and one at the host that connects complete the connection
(`completa`).
-/

namespace Ltm.Nodo
open Kernel
set_option autoImplicit false
set_option maxHeartbeats 250000

/-- A host between critical sections, with its daemon in its loop. -/
structure Libre (s : Estado) : Prop where
  semaforo : s.kernel.semaforo = false
  daemon : s.daemon = none

instance (s : Estado) : Decidable (Libre s) :=
  decidable_of_iff (s.kernel.semaforo = false ∧ s.daemon.isNone)
    ⟨fun h => ⟨h.1, by simpa using h.2⟩, fun h => ⟨h.1, by simp [h.2]⟩⟩

def Estado.fase (s : Estado) (h : ℕ) : Option Fase := s.hilos[h]?.map Hilo.fase

variable {s : Estado} {h j : ℕ}

theorem fase_trasRecibir (p : Tpdu) (para : Option ℕ) (m : Mundo) :
    (s.trasRecibir p para m).fase j = s.fase j := by
  unfold Estado.fase Estado.trasRecibir
  rw [anotaRespuesta_getElem?, Option.map_map]
  refine congrFun (congrArg Option.map (funext fun hilo => ?_)) _
  show (if _ then _ else hilo : Hilo).fase = hilo.fase
  split <;> rfl

/-- The state `s'` after a round of the call `h`, which has returned `v` and left the kernel `k`. -/
structure TrasRonda (s s' : Estado) (h : ℕ) (v : Int) (k : KernelShm) : Prop where
  kernel : s'.kernel = k
  daemon : s'.daemon = none
  self : s'.fase h = some (.fin v)
  otras : ∀ j, j ≠ h → s'.fase j = s.fase j

/-- The three steps of a round, and what each of them leaves in the trace. -/
theorem ronda (hs : Libre s) {ip : InAddr} {p : Tpdu} {k' k'' : KernelShm} {w w' : List Accion}
    (hrec : paquete ip p ⟨s.kernel, []⟩ = ((), ⟨k', w⟩)) (hk' : k'.semaforo = false) {i v : Int}
    {l : Local} (hb : barreraDe w = some i) (hh : s.fase h = some (.espera i l))
    (hsig : l.sigue ⟨k', []⟩ = (.retorna v, ⟨k'', w'⟩)) (para : Option ℕ) :
    ∃ s₁ s₂ s₃, (paso s (.recibe ip p para) = some s₁ ∧ s₁.ultima = w) ∧
      (paso s₁ (.citaDaemon h) = some s₂ ∧ s₂.ultima = []) ∧
      (paso s₂ (.sigue h) = some s₃ ∧ s₃.ultima = w') ∧ TrasRonda s s₃ h v k'' := by
  have hfase : (s.trasRecibir p para ⟨k', w⟩).fase h = some (.espera i l) := by
    rw [fase_trasRecibir, hh]
  obtain ⟨hilo, hhilo, hespera⟩ := Option.map_eq_some_iff.mp hfase
  obtain ⟨hlt, -⟩ := List.getElem?_eq_some_iff.mp hhilo
  have hdaemon : (s.trasRecibir p para ⟨k', w⟩).daemon = some (i, s.destinatario p para) := by
    show (barreraDe w).map _ = _
    rw [hb]
    rfl
  have hsale : ((s.trasRecibir p para ⟨k', w⟩).despertado h hilo l).hilos[h]? =
      some { hilo with fase := .sale l } := List.getElem?_set_self hlt
  refine ⟨s.trasRecibir p para ⟨k', w⟩,
    { (s.trasRecibir p para ⟨k', w⟩).despertado h hilo l with daemon := none },
    { (s.trasRecibir p para ⟨k', w⟩).despertado h hilo l with
      daemon := none
      kernel := k''
      hilos := ((s.trasRecibir p para ⟨k', w⟩).despertado h hilo l).hilos.set h
        (Hilo.acabado { hilo with fase := .sale l } k' l v)
      ultima := w' }, ⟨?_, rfl⟩, ⟨?_, rfl⟩, ⟨?_, rfl⟩, ?_⟩
  · rw [paso, if_neg (by simp [hs.semaforo, hs.daemon]), hrec]
  · rw [paso, hhilo, Option.bind_some, hespera]
    dsimp only
    rw [if_pos (by rw [hdaemon]; rfl)]
  · have hlibre : ¬k'.semaforo = true := by simp [hk']
    rw [paso]
    show Option.bind (((s.trasRecibir p para ⟨k', w⟩).despertado h hilo l).hilos[h]?) _ = _
    rw [hsale, Option.bind_some]
    show (if k'.semaforo = true then none else _) = _
    rw [if_neg hlibre]
    show Estado.trasSeguir _ h _ l (l.sigue ⟨k', []⟩) = _
    rw [hsig]
    rfl
  · refine ⟨rfl, rfl, ?_, fun j hj => ?_⟩
    · unfold Estado.fase
      rw [List.getElem?_set_self (by simpa [Estado.despertado] using hlt)]
      rfl
    · rw [← fase_trasRecibir (s := s) p para ⟨k', w⟩]
      unfold Estado.fase
      rw [List.getElem?_set_ne (Ne.symm hj), despertado_of_ne (Ne.symm hj)]

end Ltm.Nodo

namespace Ltm.Red
open Kernel Nodo Runs Rendezvous
set_option autoImplicit false
set_option maxHeartbeats 250000

variable {σ τ : Sistema} {d : Datagrama} {a : InAddr} {i v : Int} {h c : ℕ}

/-- The arrival of `d`, and the round of the call `h` that it is for. -/
def pasosRonda (d : Datagrama) (para : Option ℕ) (h : ℕ) : List Evento :=
  [.entrega d para, .nodo d.destino (.citaDaemon h), .nodo d.destino (.sigue h)]

/-- What a round of the call `h` of the host `a` leaves as it was, and its result. -/
structure RondaHecha (σ τ : Sistema) (a : InAddr) (h : ℕ) (v : Int) : Prop where
  fin : (τ.nodos a).fase h = some (.fin v)
  fases : ∀ b g, (b, g) ≠ (a, h) → (τ.nodos b).fase g = (σ.nodos b).fase g
  libres : ∀ b, Libre (σ.nodos b) → Libre (τ.nodos b)
  otros : ∀ b, b ≠ a → τ.nodos b = σ.nodos b

/-- Three steps of the host that a datagram is for, the first of them its arrival. -/
theorem alcanza_ronda (hd : d ∈ σ.red) {para : Option ℕ} {s₁ s₂ s₃ : Estado}
    (h₁ : Nodo.paso (σ.nodos d.destino) (.recibe d.origen d.tpdu para) = some s₁)
    (h₂ : Nodo.paso s₁ (.citaDaemon h) = some s₂) (h₃ : Nodo.paso s₂ (.sigue h) = some s₃)
    (hdef₁ : Definida s₁.ultima) (hdef₂ : Definida s₂.ultima) (hdef₃ : Definida s₃.ultima) :
    ∃ τ, Alcanza σ ((pasosRonda d para h).map intacto) τ ∧ τ.nodos d.destino = s₃ ∧
      (∀ b, b ≠ d.destino → τ.nodos b = σ.nodos b) ∧
      τ.red = σ.red.erase d ++ Estado.salidas s₁ d.destino ++ Estado.salidas s₂ d.destino ++
        Estado.salidas s₃ d.destino := by
  have e₁ : pasoRed σ (intacto (.entrega d para)) = some (σ.tras d.destino (σ.red.erase d) s₁) := by
    refine pasoRed_tras rfl hdef₁ ?_
    rw [pasoDatos, paso, if_pos hd, h₁]
    rfl
  generalize hτ₁ : σ.tras d.destino (σ.red.erase d) s₁ = τ₁ at e₁
  have hs₁ : τ₁.nodos d.destino = s₁ := hτ₁ ▸ tras_nodos_self
  have e₂ : pasoRed τ₁ (intacto (.nodo d.destino (.citaDaemon h))) =
      some (τ₁.tras d.destino τ₁.red s₂) := by
    refine pasoRed_tras rfl hdef₂ ?_
    rw [pasoDatos, if_neg (by simp [deRed]), hs₁, h₂]
    rfl
  generalize hτ₂ : τ₁.tras d.destino τ₁.red s₂ = τ₂ at e₂
  have hs₂ : τ₂.nodos d.destino = s₂ := hτ₂ ▸ tras_nodos_self
  have e₃ : pasoRed τ₂ (intacto (.nodo d.destino (.sigue h))) =
      some (τ₂.tras d.destino τ₂.red s₃) := by
    refine pasoRed_tras rfl hdef₃ ?_
    rw [pasoDatos, if_neg (by simp [deRed]), hs₂, h₃]
    rfl
  refine ⟨τ₂.tras d.destino τ₂.red s₃, alcanza_intacto ?_, tras_nodos_self, fun b hne => ?_, ?_⟩
  · show run pasoRed σ [intacto _, intacto _, intacto _] = _
    rw [run_cons, e₁, Option.bind_some, run_cons, e₂, Option.bind_some, run_cons, e₃]
    rfl
  · rw [tras_nodos_of_ne hne, ← hτ₂, tras_nodos_of_ne hne, ← hτ₁, tras_nodos_of_ne hne]
  · rw [← hτ₂, ← hτ₁]
    rfl

/-- A round in the network, for a section that leaves the kernel `k'` and the trace `w`. -/
theorem ronda_red (hd : d ∈ σ.red) (hs : Libre (σ.nodos d.destino)) {k' k'' : KernelShm}
    {w w' : List Accion}
    (hrec : paquete d.origen d.tpdu ⟨(σ.nodos d.destino).kernel, []⟩ = ((), ⟨k', w⟩))
    (hk' : k'.semaforo = false) {l : Local} (hb : barreraDe w = some i)
    (hh : (σ.nodos d.destino).fase h = some (.espera i l))
    (hsig : l.sigue ⟨k', []⟩ = (.retorna v, ⟨k'', w'⟩)) (hk'' : k''.semaforo = false)
    (hw' : envios w' = []) (hdef : Definida w) (hdef' : Definida w') (para : Option ℕ) :
    ∃ τ, Alcanza σ ((pasosRonda d para h).map intacto) τ ∧ RondaHecha σ τ d.destino h v ∧
      τ.red = σ.red.erase d ++ (envios w).map (fun p => ⟨d.destino, p.1, p.2⟩) ∧
      (τ.nodos d.destino).kernel = k'' := by
  obtain ⟨s₁, s₂, s₃, ⟨h₁, hu₁⟩, ⟨h₂, hu₂⟩, ⟨h₃, hu₃⟩, hfin⟩ := ronda hs hrec hk' hb hh hsig para
  obtain ⟨τ, hr, hself, hotros, hred⟩ := alcanza_ronda hd h₁ h₂ h₃ (hu₁ ▸ hdef) (hu₂ ▸ definida_nil)
    (hu₃ ▸ hdef')
  refine ⟨τ, hr, ⟨?_, fun b g hne => ?_, fun b hb => ?_, hotros⟩, ?_, ?_⟩
  · rw [hself]
    exact hfin.self
  · by_cases hba : b = d.destino
    · subst hba
      rw [hself]
      exact hfin.otras g fun e => hne (by rw [e])
    · rw [hotros b hba]
  · by_cases hba : b = d.destino
    · subst hba
      rw [hself]
      exact ⟨by rw [hfin.kernel, hk''], hfin.daemon⟩
    · rwa [hotros b hba]
  · unfold Estado.salidas at hred
    rw [hred, hu₁, hu₂, hu₃, hw']
    simp [envios, Accion.envio]
  · rw [hself, hfin.kernel]

/-- The section in which a call comes back from the wait at its cell. -/
theorem definida_vuelta (hen : EnTabla i) :
    Definida [.bloquearAcceso, .acceso i, .acceso i, .desbloquearAcceso] :=
  SoloCelda.definida (i := i) (by simp [SoloCelda, Accion.celda]) hen (by simp)

/-- The listen of the cell `j` takes the CR. -/
theorem rondaCR (hd : d ∈ σ.red) (ht : d.tpdu.cabecera.tipo = tipoCR)
    (hs : Libre (σ.nodos d.destino)) {j : Int}
    (hj : asignConexionCR d.tpdu (σ.nodos d.destino).kernel = j) (hen : EnTabla j)
    (hh : (σ.nodos d.destino).fase h = some (.espera j (.listen j))) :
    ∃ τ, Alcanza σ ((pasosRonda d none h).map intacto) τ ∧ RondaHecha σ τ d.destino h j ∧
      τ.red = σ.red.erase d ++ [datagramaCC (σ.nodos d.destino).kernel d] ∧
      τ.celda d.destino j = (σ.celda d.destino j).aceptaCR d.origen d.tpdu.cabecera ∧
      ∀ b g, (b, g) ≠ (d.destino, j) → τ.celda b g = σ.celda b g := by
  generalize hk : (σ.nodos d.destino).kernel = k at hj
  have hrec : paquete d.origen d.tpdu ⟨k, []⟩ =
      ((), ⟨k.trasCR d.origen d.tpdu, trazaCR k d.origen d.tpdu⟩) := by
    rw [paquete_run, if_neg (by rw [ht]; decide), if_pos ht, List.nil_append]
  have hself : (k.trasCR d.origen d.tpdu).CXs j = (k.CXs j).aceptaCR d.origen d.tpdu.cabecera := by
    rw [← hj]
    exact trasCR_of_enTabla (hj ▸ hen)
  have hsig : (Local.listen j).sigue ⟨k.trasCR d.origen d.tpdu, []⟩ =
      (.retorna j, ⟨(k.trasCR d.origen d.tpdu).suelto,
        [.bloquearAcceso, .acceso j, .acceso j, .desbloquearAcceso]⟩) := by
    have habierta : ((k.trasCR d.origen d.tpdu).CXs j).estadoCx ≠ .listen := by
      rw [hself]
      simp [Conexion.aceptaCR]
    rw [Local.sigue, tListenSigue_run, if_neg habierta, List.nil_append]
  have hb : barreraDe (trazaCR k d.origen d.tpdu) = some j := by
    rw [barreraDe_trazaCR, hj]
  have hdef : Definida (trazaCR k d.origen d.tpdu) :=
    (soloCelda_trazaCR d.origen d.tpdu).definida (hj ▸ hen) (by simp [trazaCR])
  obtain ⟨τ, hr, hecha, hred, hkernel⟩ := ronda_red hd hs (hk ▸ hrec) rfl hb hh hsig rfl rfl hdef
    (definida_vuelta hen) none
  refine ⟨τ, hr, hecha, hred, ?_, fun b g hne => ?_⟩
  · rw [Sistema.celda, hkernel, Sistema.celda, hk]
    exact hself
  · by_cases hbd : b = d.destino
    · subst hbd
      rw [Sistema.celda, hkernel, Sistema.celda, hk]
      exact trasCR_of_ne fun e => hne (by rw [e, hj])
    · rw [Sistema.celda, hecha.otros b hbd, Sistema.celda]

/-- What a connect on the cell `c` returns when its barrier lets it go. -/
def Conexion.retorno (c : Conexion) (i : Int) : Int :=
  if c.estadoCx = .closed then c.resultadoPeticion else i

/-- A CC that finds a packet to take out of `TX`. -/
theorem definida_trazaCC {k : KernelShm} {h : CabTcp} (hen : EnTabla h.idDestino)
    (hTX : (k.CXs h.idDestino).TX ≠ []) : Definida (trazaCC k h) := by
  refine (soloCelda_trazaCC h).definida hen ?_
  unfold trazaCC
  dsimp only
  rw [if_neg hTX]
  split <;> simp

/-- The connect of the cell that a CC is for goes on. -/
theorem rondaCC (hd : d ∈ σ.red) (ht : d.tpdu.cabecera.tipo = tipoCC)
    (hs : Libre (σ.nodos d.destino)) (hi : d.tpdu.cabecera.idDestino = i) (hen : EnTabla i)
    (hTX : (σ.celda d.destino i).TX ≠ [])
    (hh : (σ.nodos d.destino).fase h = some (.espera i (.connect i))) (para : Option ℕ) :
    ∃ τ, Alcanza σ ((pasosRonda d para h).map intacto) τ ∧
      RondaHecha σ τ d.destino h (Conexion.retorno ((σ.celda d.destino i).recibeCC d.tpdu.cabecera) i) ∧
      τ.red = σ.red.erase d ∧
      τ.celda d.destino i = (σ.celda d.destino i).recibeCC d.tpdu.cabecera ∧
      ∀ b g, (b, g) ≠ (d.destino, i) → τ.celda b g = σ.celda b g := by
  subst hi
  have hdef := definida_trazaCC (h := d.tpdu.cabecera) hen hTX
  generalize hk : (σ.nodos d.destino).kernel = k at hdef
  generalize hi : d.tpdu.cabecera.idDestino = i at hh hen
  have hrec : paquete d.origen d.tpdu ⟨k, []⟩ =
      ((), ⟨k.trasCC d.tpdu.cabecera, trazaCC k d.tpdu.cabecera⟩) := by
    rw [paquete_run, if_pos ht, List.nil_append]
  have hself : (k.trasCC d.tpdu.cabecera).CXs i = (σ.celda d.destino i).recibeCC d.tpdu.cabecera := by
    rw [← hi, trasCC_self, Sistema.celda, hk]
  have hsig : (Local.connect i).sigue ⟨k.trasCC d.tpdu.cabecera, []⟩ =
      (.retorna (Conexion.retorno ((σ.celda d.destino i).recibeCC d.tpdu.cabecera) i),
        ⟨(k.trasCC d.tpdu.cabecera).trasRetorno i,
          [.bloquearAcceso, .acceso i, .acceso i, .desbloquearAcceso]⟩) := by
    rw [Local.sigue, tConnectSigue_run, List.nil_append, hself]
    rfl
  have hb : barreraDe (trazaCC k d.tpdu.cabecera) = some i := by
    rw [barreraDe_trazaCC, hi]
  obtain ⟨τ, hr, hecha, hred, hkernel⟩ := ronda_red hd hs (hk ▸ hrec) rfl hb hh hsig rfl rfl hdef
    (definida_vuelta hen) para
  refine ⟨τ, hr, hecha, ?_, ?_, fun b g hne => ?_⟩
  · rw [hred, envios_trazaCC, List.map_nil, List.append_nil]
  · rw [Sistema.celda, hkernel]
    exact hself
  · by_cases hbd : b = d.destino
    · subst hbd
      rw [Sistema.celda, hkernel, Sistema.celda, hk]
      exact trasCC_of_ne fun e => hne (by rw [e, hi])
    · rw [Sistema.celda, hecha.otros b hbd, Sistema.celda]

/-! ## Both rounds -/

theorem ipDestino_of_vuelo (hi : Coherente σ) (hd : d ∈ σ.red) (ht : d.tpdu.cabecera.tipo = tipoCR) :
    (σ.celda d.origen d.tpdu.cabecera.idLocal).ipDestino = d.destino := by
  have hm := mensaje_cr ht
  obtain ⟨hen, hest⟩ := calling_of_vuelo hi hd hm rfl
  have hmem : .request (d.origen, d.tpdu.cabecera.idLocal) d.destino d.tpdu.cabecera.puertoOrig
      d.tpdu.cabecera.puertoDest ∈ (imagen σ).net := by
    show _ ∈ mensajes σ.red
    rw [mensajes_of_some hd hm]
    exact Multiset.mem_cons_self _ _
  obtain ⟨-, hhost, -, -⟩ := hi.acuerdo.sound _ hmem
  rw [celda_of_activa (x := (d.origen, d.tpdu.cabecera.idLocal)) hen (by simp [hest])] at hhost
  exact hhost

theorem aceptada_datagramaCC {k : KernelShm} : (datagramaCC k d).tpdu.cabecera.conexionAceptada =
    if asignConexionCR d.tpdu k = exNoTsap then asignConexionCR d.tpdu k else 1 := rfl

/-- The cell in CONNECT that sent a CR is not the one that takes it, also where both are of one host. -/
theorem celda_ne_of_listen {j : Int} (hest : (σ.celda d.origen i).estadoCx = .connect)
    (hlisten : (σ.celda d.destino j).estadoCx = .listen) : (d.origen, i) ≠ (d.destino, j) := by
  intro e
  obtain ⟨eo, rfl⟩ := Prod.mk.inj e
  rw [eo, hlisten] at hest
  exact absurd hest (by simp)

theorem llamada_ne_of_listen {j : Int}
    (hc : (σ.nodos d.origen).fase c = some (.espera i (.connect i)))
    (hh : (σ.nodos d.destino).fase h = some (.espera j (.listen j))) : (d.origen, c) ≠ (d.destino, h) := by
  intro e
  obtain ⟨eo, rfl⟩ := Prod.mk.inj e
  rw [eo, hh] at hc
  exact absurd hc (by simp)

theorem listen_of_asign {p : Tpdu} {k : KernelShm} {j : Int} (hj : asignConexionCR p k = j)
    (hen : EnTabla j) : j ≠ exNoTsap ∧ (k.CXs j).estadoCx = .listen := by
  subst hj
  have hno : asignConexionCR p k ≠ exNoTsap := by
    intro e
    rw [e] at hen
    exact not_enTabla_exNoTsap hen
  obtain ⟨-, hencaja⟩ := (asignConexionCR_cases p k).resolve_right hno
  exact ⟨hno, encaja_listen hencaja⟩

/-- The rounds of a handshake whose CR `d` is in flight. -/
def pasosSaludo (σ : Sistema) (d : Datagrama) (c h : ℕ) : List Evento :=
  pasosRonda d none h ++ pasosRonda (datagramaCC (σ.nodos d.destino).kernel d) (some c) c

/-- The connect `c` of the cell `x` and the listen `h` of the cell `y` have returned their cells, which
are the two ends of one connection. -/
structure Completa (σ : Sistema) (x y : InAddr × Int) (c h : ℕ) : Prop where
  connect : (σ.nodos x.1).fase c = some (.fin x.2)
  listen : (σ.nodos y.1).fase h = some (.fin y.2)
  establecidas : σ.Establecida x ∧ σ.Establecida y
  extremos : σ.otroExtremo x = y ∧ σ.otroExtremo y = x

theorem completa (hi : Coherente σ) (hd : d ∈ σ.red) (ht : d.tpdu.cabecera.tipo = tipoCR)
    (ha : Libre (σ.nodos d.origen)) (hb : Libre (σ.nodos d.destino))
    (hTX : (σ.celda d.origen d.tpdu.cabecera.idLocal).TX ≠ [])
    (hc : (σ.nodos d.origen).fase c =
      some (.espera d.tpdu.cabecera.idLocal (.connect d.tpdu.cabecera.idLocal))) {j : Int}
    (hj : asignConexionCR d.tpdu (σ.nodos d.destino).kernel = j) (hen : EnTabla j)
    (hh : (σ.nodos d.destino).fase h = some (.espera j (.listen j))) :
    ∃ τ, Alcanza σ ((pasosSaludo σ d c h).map intacto) τ ∧
      Completa τ (d.origen, d.tpdu.cabecera.idLocal) (d.destino, j) c h := by
  obtain ⟨heni, hest⟩ := calling_of_vuelo hi hd (mensaje_cr ht) rfl
  have hip := ipDestino_of_vuelo hi hd ht
  generalize hid : d.tpdu.cabecera.idLocal = i at hc heni hest hip hTX
  obtain ⟨hno, hlisten⟩ := listen_of_asign hj hen
  have hceldas := celda_ne_of_listen hest hlisten
  have hcalls := llamada_ne_of_listen hc hh
  obtain ⟨τ, hr₁, hecha₁, hred, hself₁, hotras₁⟩ := rondaCR hd ht hb hj hen hh
  have hccmem : datagramaCC (σ.nodos d.destino).kernel d ∈ τ.red := by
    rw [hred]
    exact List.mem_append_right _ (List.mem_singleton_self _)
  have hcclocal : (datagramaCC (σ.nodos d.destino).kernel d).tpdu.cabecera.idLocal = j := hj
  have hacepta : ¬(datagramaCC (σ.nodos d.destino).kernel d).tpdu.cabecera.conexionAceptada < 0 := by
    rw [aceptada_datagramaCC, hj, if_neg hno]
    decide
  obtain ⟨ρ, hr₂, hecha₂, -, hself₂, hotras₂⟩ := rondaCC hccmem rfl (hecha₁.libres _ ha) hid heni
    ((congrArg Conexion.TX (hotras₁ _ _ hceldas)).symm ▸ hTX) ((hecha₁.fases _ _ hcalls).trans hc) (some c)
  change RondaHecha τ ρ d.origen c (Conexion.retorno ((τ.celda d.origen i).recibeCC _) i) at hecha₂
  change ρ.celda d.origen i = (τ.celda d.origen i).recibeCC _ at hself₂
  rw [hotras₁ _ _ hceldas, Conexion.recibeCC, if_neg hacepta, hcclocal] at hself₂
  rw [hotras₁ _ _ hceldas, Conexion.recibeCC, if_neg hacepta] at hecha₂
  have hfin := hecha₂.fin
  rw [Conexion.retorno, if_neg (by simp)] at hfin
  have hselfj := (hotras₂ _ _ hceldas.symm).trans hself₁
  refine ⟨ρ, ?_, hfin, ?_, ⟨⟨heni, ?_⟩, ⟨hen, ?_⟩⟩, ?_, ?_⟩
  · rw [pasosSaludo, List.map_append]
    exact hr₁.append hr₂
  · rw [hecha₂.fases _ _ hcalls.symm]
    exact hecha₁.fin
  · show (ρ.celda d.origen i).estadoCx = _
    rw [hself₂]
  · show (ρ.celda d.destino j).estadoCx = _
    rw [hselfj]
    rfl
  · show ((ρ.celda d.origen i).ipDestino, (ρ.celda d.origen i).idDestino) = _
    rw [hself₂, hip]
  · show ((ρ.celda d.destino j).ipDestino, (ρ.celda d.destino j).idDestino) = _
    rw [hselfj, ← hid]
    rfl

end Ltm.Red
