import Ltm.Red.Ranuras

/-! # The network refines the rendezvous

Every step of the network with `t_send` is a run of `Rendezvous.Step` between the images of its states:
a section of `t_send` one step for each packet, every other event one step or none. So what every run of
the rendezvous keeps, every run of the network keeps.
-/

namespace Ltm.Red
open Kernel Nodo Runs Rendezvous
set_option autoImplicit false
set_option maxHeartbeats 250000

/-- The datagrams that the hosts send: a CR or a CC for a cell of the table, or DATOS. -/
def Conocido (d : Datagrama) : Prop :=
  d.tpdu.cabecera.tipo = tipoCR ∧ EnTabla d.tpdu.cabecera.idLocal ∨
    d.tpdu.cabecera.tipo = tipoCC ∧ EnTabla d.tpdu.cabecera.idDestino ∨
    d.tpdu.cabecera.tipo = tipoDatos

/-- The states in which a step of the network is a run of the image. -/
structure Coherente (σ : Sistema) : Prop where
  cuadra : ∀ a, Cuadra (σ.nodos a)
  ocupadas : ∀ a, Ocupadas (σ.nodos a)
  dirigidos : ∀ a, Dirigidos (σ.nodos a)
  conocidos : ∀ d ∈ σ.red, Conocido d
  acuerdo : Agreed (imagen σ)

variable {σ σ' : Sistema} {s s' : Estado} {a : InAddr} {i i₀ : Int} {d : Datagrama}
  {red : List Datagrama}

/-- The datagrams that a host sends in its last step. -/
def Estado.salidas (s : Estado) (a : InAddr) : List Datagrama :=
  (envios s.ultima).map fun p => ⟨a, p.1, p.2⟩

/-! ## Messages -/

theorem mensaje_datos {p : InAddr × Tpdu} (hp : DeRanura (σ.nodos a) p) :
    mensaje ⟨a, p.1, p.2⟩ = none ∨ ∃ x, (σ.ranuras x).phase = .open ∧ mensaje ⟨a, p.1, p.2⟩ =
      some (.data x (σ.ranuras x).peer (σ.ranuras x).lport (σ.ranuras x).rport) := by
  obtain ⟨ht, hslot⟩ := hp
  unfold mensaje
  dsimp only
  rw [if_neg (by rw [ht]; decide), if_neg (by rw [ht]; decide)]
  by_cases hi : EnTabla p.2.cabecera.idLocal
  · obtain ⟨hphase, hpeer, hlport, hrport⟩ := hslot hi
    rw [if_pos hi]
    refine Or.inr ⟨(a, p.2.cabecera.idLocal), hphase, ?_⟩
    unfold Sistema.ranuras
    dsimp only
    rw [hpeer, hlport, hrport]
  · rw [if_neg hi]
    exact Or.inl rfl

theorem mensaje_cr (ht : d.tpdu.cabecera.tipo = tipoCR) : mensaje d =
    some (.request (d.origen, d.tpdu.cabecera.idLocal) d.destino d.tpdu.cabecera.puertoOrig
      d.tpdu.cabecera.puertoDest) := by
  unfold mensaje
  dsimp only
  rw [if_pos ht]

theorem mensaje_cc (ht : d.tpdu.cabecera.tipo = tipoCC) : mensaje d =
    some (.answer (d.destino, d.tpdu.cabecera.idDestino) d.origen
      (if d.tpdu.cabecera.conexionAceptada < 0 then none else some d.tpdu.cabecera.idLocal)) := by
  unfold mensaje
  dsimp only
  rw [if_neg (by rw [ht]; decide), if_pos ht]

theorem mensaje_datagramaCC {k : KernelShm} : mensaje (datagramaCC k d) =
    some (.answer (d.origen, d.tpdu.cabecera.idLocal) d.destino
      (if asignConexionCR d.tpdu k = exNoTsap then none else some (asignConexionCR d.tpdu k))) := by
  have hneg : (datagramaCC k d).tpdu.cabecera.conexionAceptada < 0 ↔
      asignConexionCR d.tpdu k = exNoTsap := by
    show (if asignConexionCR d.tpdu k = exNoTsap then asignConexionCR d.tpdu k else 1) < 0 ↔ _
    split
    · next e => simp [e]
    · next e => simp [e]
  rw [mensaje_cc rfl]
  simp only [hneg]
  rfl

/-! ## Steps within a host -/

theorem avanza_cambia (h : Cambia (σ.nodos a) s') :
    Advances (imagen σ) (imagen (σ.tras a σ.red s')) ∧
      ∀ d ∈ Estado.salidas s' a, Conocido d := by
  cases h with
  | quieto hr hu =>
      refine ⟨?_, fun d hd => ?_⟩
      · rw [imagen_tras hr]
        refine ⟨?_, Or.inl rfl⟩
        refine reach_envia σ.ranuras _ fun d hd => ?_
        obtain ⟨p, hp, rfl⟩ := List.mem_map.mp hd
        exact mensaje_datos (hu p hp)
      · obtain ⟨p, hp, rfl⟩ := List.mem_map.mp hd
        exact Or.inr (Or.inr (hu p hp).1)
  | @connect i ip p hi hlibre hne hphase hcaller hu ht hid hip hlport hrport =>
      have hidle : ((imagen σ).cell (a, i)).phase = .idle := congrArg Cell.phase (ranura_of_closed hlibre)
      have hm : mensaje ⟨a, ip, p⟩ = some (.request (a, i) (ranura s' i).peer.1 (ranura s' i).lport
          (ranura s' i).rport) := by
        rw [mensaje_cr ht, hip, hlport, hrport, hid]
      refine ⟨?_, fun d hd => ?_⟩
      · have hstep := Step.call hidle hphase hcaller
        rw [imagen_tras_put hne, hu]
        have hnet : mensajes (σ.red ++ [(ip, p)].map fun p => ⟨a, p.1, p.2⟩) =
            .request (a, i) (ranura s' i).peer.1 (ranura s' i).lport (ranura s' i).rport ::ₘ
              mensajes σ.red := by
          rw [mensajes_append, Multiset.add_comm, ← Multiset.singleton_add]
          refine congrArg (· + mensajes σ.red) ?_
          simp [mensajes, hm]
        rw [hnet]
        exact .of_step hstep
      · unfold Estado.salidas at hd
        rw [hu] at hd
        obtain rfl := List.mem_singleton.mp hd
        exact Or.inl ⟨ht, hid ▸ hi⟩
  | @listen i hi hlibre hne hphase hcaller hu =>
      have hidle : ((imagen σ).cell (a, i)).phase = .idle := congrArg Cell.phase (ranura_of_closed hlibre)
      refine ⟨?_, fun d hd => ?_⟩
      · rw [imagen_tras_put hne, hu, List.map_nil, List.append_nil]
        exact .of_step (.listen hidle hphase hcaller)
      · unfold Estado.salidas at hd
        rw [hu] at hd
        exact absurd hd (by simp)

/-! ## Deliveries -/

section Entrega
variable {para : Option ℕ}

/-- The record of a cell in use survives the arrival of a packet. -/
theorem ranura_trasRecibir (hi : Coherente σ) {k' : KernelShm} {w : List Accion}
    (hcx : MismaCelda (σ.nodos a).kernel k' i) :
    ranura ((σ.nodos a).trasRecibir d.tpdu para ⟨k', w⟩) i = ranura (σ.nodos a) i := by
  refine ranura_congr (hi.cuadra a) (hi.ocupadas a) hcx ?_
    (ficha_mono_of_eq (ficha_trasRecibir d.tpdu para _))
  rfl

theorem abiertaConnect_trasRecibir (hi : Coherente σ) {k' : KernelShm} {w : List Accion}
    (hen : EnTabla i) (hocu : (σ.nodos a).kernel.ocupada i) :
    AbiertaConnect ((σ.nodos a).trasRecibir d.tpdu para ⟨k', w⟩) i ↔ AbiertaConnect (σ.nodos a) i := by
  have hab : abierta ((σ.nodos a).trasRecibir d.tpdu para ⟨k', w⟩) i = abierta (σ.nodos a) i := by
    refine abierta_congr (hi.cuadra a) hen hocu ?_ (ficha_mono_of_eq (ficha_trasRecibir d.tpdu para _))
    rfl
  unfold AbiertaConnect
  rw [hab]

theorem calling_of_vuelo (hi : Coherente σ) (hd : d ∈ σ.red) {m : Mensaje} (hm : mensaje d = some m)
    (hk : m.key = some (a, i)) : EnTabla i ∧ (σ.celda a i).estadoCx = .connect := by
  have hmem : m ∈ (imagen σ).net := by
    show m ∈ mensajes σ.red
    rw [mensajes_of_some hd hm]
    exact Multiset.mem_cons_self m _
  have hphase : (ranura (σ.nodos a) i).phase = .calling := (hi.acuerdo.sound m hmem).phase_of_key hk
  obtain ⟨hen, -⟩ := enTabla_of_phase (by rw [hphase]; simp)
  rw [phase_ranura hen] at hphase
  exact ⟨hen, fase_eq_calling.mp hphase⟩

theorem entregaCC (hi : Coherente σ) (hd : d ∈ σ.red) (ht : d.tpdu.cabecera.tipo = tipoCC)
    (hs' : s' = (σ.nodos d.destino).trasRecibir d.tpdu para
      ⟨(σ.nodos d.destino).kernel.trasCC d.tpdu.cabecera,
        trazaCC (σ.nodos d.destino).kernel d.tpdu.cabecera⟩) :
    Advances (imagen σ) (imagen (σ.tras d.destino (σ.red.erase d) s')) ∧ Ocupadas s' ∧
      envios s'.ultima = [] := by
  have hm := mensaje_cc ht
  obtain ⟨hen, hest⟩ := calling_of_vuelo hi hd hm rfl
  have hocu := hi.ocupadas d.destino _ hen (by rw [Sistema.celda] at hest; simp [hest])
  have hnada : envios s'.ultima = [] := by
    rw [hs']
    exact envios_trazaCC _ _
  have hself : s'.kernel.CXs d.tpdu.cabecera.idDestino =
      (σ.celda d.destino d.tpdu.cabecera.idDestino).recibeCC d.tpdu.cabecera := by
    rw [hs']
    exact trasCC_self _
  have hotras : ∀ i, i ≠ d.tpdu.cabecera.idDestino →
      s'.kernel.CXs i = (σ.nodos d.destino).kernel.CXs i := by
    intro i hne
    rw [hs']
    exact trasCC_of_ne hne
  have hne : ∀ i, i ≠ d.tpdu.cabecera.idDestino → ranura s' i = ranura (σ.nodos d.destino) i := by
    intro i hne
    have hcx := hotras i hne
    subst hs'
    exact ranura_trasRecibir hi (mismaCelda_of_eq hcx)
  have hred : mensajes (σ.red.erase d ++ (envios s'.ultima).map fun p => ⟨d.destino, p.1, p.2⟩) =
      mensajes (σ.red.erase d) := by
    rw [hnada, List.map_nil, List.append_nil]
  rw [imagen_tras_put hne, hred]
  by_cases hneg : d.tpdu.cabecera.conexionAceptada < 0
  · rw [Conexion.recibeCC, if_pos hneg] at hself
    have hclosed : (s'.kernel.CXs d.tpdu.cabecera.idDestino).estadoCx = .closed := by rw [hself]
    rw [if_pos hneg] at hm
    refine ⟨.of_step (.reject (mensajes_of_some hd hm) ?_), ?_, hnada⟩
    · rw [ranura_of_closed hclosed]
      rfl
    · intro i hi' hact
      by_cases e : i = d.tpdu.cabecera.idDestino
      · rw [e] at hact
        exact absurd hclosed hact
      · rw [hotras i e] at hact
        exact (ocupada_congr (hotras i e)).mpr (hi.ocupadas d.destino i hi' hact)
  · rw [Conexion.recibeCC, if_neg hneg] at hself
    have hestab : (s'.kernel.CXs d.tpdu.cabecera.idDestino).estadoCx = .established := by rw [hself]
    have hcon : AbiertaConnect s' d.tpdu.cabecera.idDestino ↔
        AbiertaConnect (σ.nodos d.destino) d.tpdu.cabecera.idDestino := by
      subst hs'
      exact abiertaConnect_trasRecibir hi hen hocu
    have hslot : ranura s' d.tpdu.cabecera.idDestino =
        (ranura (σ.nodos d.destino) d.tpdu.cabecera.idDestino).confirm d.tpdu.cabecera.idLocal := by
      rw [Sistema.celda] at hest hself
      rw [ranura_of_activa hen (by simp [hestab]), ranura_of_activa hen (by simp [hest])]
      simp only [hcon]
      rw [hself]
      rfl
    rw [if_neg hneg] at hm
    rw [hslot]
    refine ⟨.of_step (.confirm (mensajes_of_some hd hm)), ?_, hnada⟩
    refine (hi.ocupadas d.destino).nueva ?_ hotras
    rw [KernelShm.ocupada, hself]
    exact hocu

/-- Nobody listens for the CR. -/
theorem entregaCR_noTsap (hi : Coherente σ) (hd : d ∈ σ.red) (ht : d.tpdu.cabecera.tipo = tipoCR)
    (hs' : s' = (σ.nodos d.destino).trasRecibir d.tpdu para
      ⟨(σ.nodos d.destino).kernel.trasCR d.origen d.tpdu,
        trazaCR (σ.nodos d.destino).kernel d.origen d.tpdu⟩)
    (hnadie : asignConexionCR d.tpdu (σ.nodos d.destino).kernel = exNoTsap) :
    Advances (imagen σ) (imagen (σ.tras d.destino (σ.red.erase d) s')) ∧ Ocupadas s' := by
  have hmisma : ∀ i, EnTabla i → s'.kernel.CXs i = (σ.nodos d.destino).kernel.CXs i := by
    intro i hen
    rw [hs']
    exact trasCR_of_noTsap hnadie hen
  have hr : ∀ i, ranura s' i = ranura (σ.nodos d.destino) i := by
    intro i
    by_cases hen : EnTabla i
    · have hcx := hmisma i hen
      subst hs'
      exact ranura_trasRecibir hi (mismaCelda_of_eq hcx)
    · rw [ranura, ranura, if_neg fun h => hen h.1, if_neg fun h => hen h.1]
  have hu : (envios s'.ultima).map (fun p => (⟨d.destino, p.1, p.2⟩ : Datagrama)) =
      [datagramaCC (σ.nodos d.destino).kernel d] := by
    rw [hs']
    rfl
  refine ⟨?_, ?_⟩
  · have hm := mensaje_datagramaCC (d := d) (k := (σ.nodos d.destino).kernel)
    rw [if_pos hnadie] at hm
    rw [imagen_tras hr, hu, mensajes_append, Multiset.add_comm]
    have huno : mensajes [datagramaCC (σ.nodos d.destino).kernel d] =
        {.answer (d.origen, d.tpdu.cabecera.idLocal) d.destino none} := by
      simp [mensajes, hm]
    rw [huno, Multiset.singleton_add]
    exact .of_step (.refuse (mensajes_of_some hd (mensaje_cr ht)))
  · intro i hen hact
    rw [hmisma i hen] at hact
    exact (ocupada_congr (hmisma i hen)).mpr (hi.ocupadas d.destino i hen hact)

/-- The cell `j` takes the CR. -/
theorem entregaCR_listen (hi : Coherente σ) (hd : d ∈ σ.red) (ht : d.tpdu.cabecera.tipo = tipoCR)
    (hs' : s' = (σ.nodos d.destino).trasRecibir d.tpdu para
      ⟨(σ.nodos d.destino).kernel.trasCR d.origen d.tpdu,
        trazaCR (σ.nodos d.destino).kernel d.origen d.tpdu⟩) {j : Int}
    (hj : asignConexionCR d.tpdu (σ.nodos d.destino).kernel = j) (hen : EnTabla j)
    (hencaja : encaja (σ.celda d.destino j) d.tpdu.cabecera) :
    Advances (imagen σ) (imagen (σ.tras d.destino (σ.red.erase d) s')) ∧ Ocupadas s' := by
  have hlisten : ((σ.nodos d.destino).kernel.CXs j).estadoCx = .listen := encaja_listen hencaja
  have hocu := hi.ocupadas d.destino j hen (by simp [hlisten])
  have hself : s'.kernel.CXs j =
      ((σ.nodos d.destino).kernel.CXs j).aceptaCR d.origen d.tpdu.cabecera := by
    rw [hs', ← hj]
    exact trasCR_of_enTabla (hj ▸ hen)
  have hotras : ∀ i, i ≠ j → s'.kernel.CXs i = (σ.nodos d.destino).kernel.CXs i := by
    intro i hne
    rw [hs']
    exact trasCR_of_ne (by rw [hj]; exact hne)
  have hne : ∀ i, i ≠ j → ranura s' i = ranura (σ.nodos d.destino) i := by
    intro i hne
    have hcx := hotras i hne
    subst hs'
    exact ranura_trasRecibir hi (mismaCelda_of_eq hcx)
  have hcon : AbiertaConnect s' j ↔ AbiertaConnect (σ.nodos d.destino) j := by
    subst hs'
    exact abiertaConnect_trasRecibir hi hen hocu
  have hslot : ranura s' j = (ranura (σ.nodos d.destino) j).accept
      (d.origen, d.tpdu.cabecera.idLocal) d.tpdu.cabecera.puertoOrig := by
    rw [ranura_of_activa hen (by rw [hself]; simp [Conexion.aceptaCR]),
      ranura_of_activa hen (by simp [hlisten])]
    simp only [hcon]
    rw [hself]
    rfl
  have hu : (envios s'.ultima).map (fun p => (⟨d.destino, p.1, p.2⟩ : Datagrama)) =
      [datagramaCC (σ.nodos d.destino).kernel d] := by
    rw [hs']
    rfl
  have hno : j ≠ exNoTsap := by
    rintro rfl
    exact not_enTabla_exNoTsap hen
  have hm := mensaje_datagramaCC (d := d) (k := (σ.nodos d.destino).kernel)
  rw [hj, if_neg hno] at hm
  have huno : mensajes [datagramaCC (σ.nodos d.destino).kernel d] =
      {.answer (d.origen, d.tpdu.cabecera.idLocal) d.destino (some j)} := by
    simp [mensajes, hm]
  have hphase : ((imagen σ).cell (d.destino, j)).phase = .listening := by
    show (ranura (σ.nodos d.destino) j).phase = _
    rw [phase_ranura hen, hlisten]
    rfl
  have hport : ((imagen σ).cell (d.destino, j)).lport = d.tpdu.cabecera.puertoDest := by
    show (ranura (σ.nodos d.destino) j).lport = _
    rw [ranura_of_activa hen (by simp [hlisten])]
    exact hencaja.2.1.symm
  refine ⟨?_, ?_⟩
  · rw [imagen_tras_put hne, hslot, hu, mensajes_append, Multiset.add_comm, huno,
      Multiset.singleton_add]
    exact .of_step (.accept (mensajes_of_some hd (mensaje_cr ht)) hphase hport)
  · refine (hi.ocupadas d.destino).nueva ?_ hotras
    rw [KernelShm.ocupada, hself]
    exact hocu

end Entrega

/-! ## Every step -/

theorem Coherente.tras (hi : Coherente σ) (hreach : Reach (imagen σ) (imagen (σ.tras a red s')))
    (hcuadra : Cuadra s') (hocupadas : Ocupadas s')
    (hconocidos : ∀ d ∈ (σ.tras a red s').red, Conocido d)
    (hdirige : ∀ h l, s'.pendiente h = some (.send l) → EnTabla l.id →
      Dirige l (ranura (σ.nodos a) l.id)) : Coherente (σ.tras a red s') where
  cuadra := tras_forall hi.cuadra hcuadra
  ocupadas := tras_forall hi.ocupadas hocupadas
  dirigidos := by
    refine tras_forall hi.dirigidos fun h l hl hen => ?_
    have hdir := hdirige h l hl hen
    -- the slot of a waiting `t_send` is open, so no step changes it
    have hkeep : ranura s' l.id = ranura (σ.nodos a) l.id := by
      have h := hi.acuerdo.keeps_reach hreach (x := (a, l.id)) hdir.phase
      have hs' : (imagen (σ.tras a red s')).cell (a, l.id) = ranura s' l.id := by
        show ranura ((σ.tras a red s').nodos a) l.id = _
        rw [tras_nodos_self]
      rwa [hs'] at h
    rw [hkeep]
    exact hdir
  conocidos := hconocidos
  acuerdo := hi.acuerdo.reach hreach

theorem conocidos_tras (hred : ∀ d ∈ red, Conocido d) (hs : ∀ d ∈ Estado.salidas s' a, Conocido d) :
    ∀ d ∈ (σ.tras a red s').red, Conocido d := by
  intro d hd
  rcases List.mem_append.mp hd with hd | hd
  · exact hred d hd
  · exact hs d hd

theorem simula_nodo (hi : Coherente σ) {e : Suceso} (hno : ¬deRed e = true)
    (h : Nodo.paso (σ.nodos a) e = some s') :
    Coherente (σ.tras a σ.red s') ∧ Advances (imagen σ) (imagen (σ.tras a σ.red s')) := by
  obtain ⟨hcambia, hocupadas⟩ := cambia_paso (hi.cuadra a) (hi.ocupadas a) (hi.dirigidos a) hno h
  obtain ⟨havanza, hsalidas⟩ := avanza_cambia hcambia
  have hcuadra := cuadra_transita (hi.cuadra a) (transita_of_paso h)
  exact ⟨hi.tras havanza.1 hcuadra hocupadas (conocidos_tras hi.conocidos hsalidas)
    fun _ _ => dirige_paso (hi.dirigidos a) h, havanza⟩

theorem simula_entrega (hi : Coherente σ) (hd : d ∈ σ.red) {para : Option ℕ}
    (h : Nodo.paso (σ.nodos d.destino) (.recibe d.origen d.tpdu para) = some s') :
    Coherente (σ.tras d.destino (σ.red.erase d) s') ∧
      Advances (imagen σ) (imagen (σ.tras d.destino (σ.red.erase d) s')) := by
  have hcuadra := cuadra_transita (hi.cuadra d.destino) (transita_of_paso h)
  have hresto : ∀ d' ∈ σ.red.erase d, Conocido d' :=
    fun d' hd' => hi.conocidos d' (List.mem_of_mem_erase hd')
  have hdirige := fun h' l => dirige_paso (hi.dirigidos d.destino) h (h := h') (l := l)
  suffices hfin : Advances (imagen σ) (imagen (σ.tras d.destino (σ.red.erase d) s')) ∧ Ocupadas s' ∧
      ∀ d' ∈ Estado.salidas s' d.destino, Conocido d' by
    obtain ⟨havanza, hocupadas, hsalidas⟩ := hfin
    exact ⟨hi.tras havanza.1 hcuadra hocupadas (conocidos_tras hresto hsalidas) hdirige, havanza⟩
  cases transita_of_paso h with
  | recibe hs hdae he =>
      cases he with
      | cc ht =>
          obtain ⟨havanza, hocupadas, hnada⟩ := entregaCC hi hd ht rfl
          refine ⟨havanza, hocupadas, fun d' hd' => ?_⟩
          unfold Estado.salidas at hd'
          rw [hnada] at hd'
          exact absurd hd' (by simp)
      | cr ht =>
          have hcc : ∀ d' ∈ [datagramaCC (σ.nodos d.destino).kernel d], Conocido d' := by
            intro d' hd'
            obtain rfl := List.mem_singleton.mp hd'
            rcases hi.conocidos d hd with ⟨-, hen⟩ | ⟨hcc, -⟩ | hdatos
            · exact Or.inr (Or.inl ⟨rfl, hen⟩)
            · exact absurd (ht.symm.trans hcc) (by decide)
            · exact absurd (ht.symm.trans hdatos) (by decide)
          rcases asignConexionCR_cases d.tpdu (σ.nodos d.destino).kernel with ⟨hen, hencaja⟩ | hnadie
          · obtain ⟨havanza, hocupadas⟩ := entregaCR_listen hi hd ht rfl rfl hen hencaja
            exact ⟨havanza, hocupadas, hcc⟩
          · obtain ⟨havanza, hocupadas⟩ := entregaCR_noTsap hi hd ht rfl hnadie
            exact ⟨havanza, hocupadas, hcc⟩
      | otro hcc hcr =>
          have hcx : ∀ i, ranura ((σ.nodos d.destino).trasRecibir d.tpdu para
              ⟨{ (σ.nodos d.destino).kernel with semaforo := true }, [.bloquearAcceso]⟩) i =
                ranura (σ.nodos d.destino) i := fun i => ranura_trasRecibir hi (mismaCelda_of_eq rfl)
          refine ⟨?_, ?_, fun d' hd' => absurd hd' (by simp [Estado.salidas, Estado.trasRecibir, envios, Accion.envio])⟩
          · rw [imagen_tras hcx]
            show Advances (imagen σ) ⟨σ.ranuras, mensajes (σ.red.erase d ++ [])⟩
            rw [List.append_nil]
            exact ⟨reach_erase hd σ.ranuras, Or.inl rfl⟩
          · exact (hi.ocupadas d.destino).misma fun i => mismaCelda_of_eq rfl

theorem simula_pierde (hi : Coherente σ) (hd : d ∈ σ.red) :
    Coherente { σ with red := σ.red.erase d } ∧
      Advances (imagen σ) (imagen { σ with red := σ.red.erase d }) := by
  have havanza : Reach (imagen σ) (imagen { σ with red := σ.red.erase d }) := reach_erase hd σ.ranuras
  exact ⟨{ hi with
    conocidos := fun d' hd' => hi.conocidos d' (List.mem_of_mem_erase hd')
    acuerdo := hi.acuerdo.reach havanza }, havanza, Or.inl rfl⟩

theorem simula_paso {e : Evento} (hi : Coherente σ) (h : pasoDatos σ e = some σ') :
    Coherente σ' ∧ Advances (imagen σ) (imagen σ') := by
  cases avanza_of_pasoDatos h with
  | nodo hno hs' => exact simula_nodo hi hno hs'
  | entrega hd hs' => exact simula_entrega hi hd hs'
  | pierde hd => exact simula_pierde hi hd

theorem simula_run {es : List Evento} (hi : Coherente σ) (hr : run pasoDatos σ es = some σ') :
    Coherente σ' ∧ Reach (imagen σ) (imagen σ') :=
  run_simulates Coherente imagen (fun _ _ _ hi h => ⟨(simula_paso hi h).1, (simula_paso hi h).2.1⟩) hi
    hr

theorem coherente_inicial (interfaz : InAddr → String) (numBufPkts : InAddr → UInt16)
    (fuera : InAddr → Int → Conexion) (basura : InAddr → ℕ → BufPkt) :
    Coherente (inicial (kernels interfaz numBufPkts fuera basura)) := by
  have h : Acorde (inicial (kernels interfaz numBufPkts fuera basura)) := acorde_inicial
  have hcerrada : ∀ a i, EnTabla i →
      ((inicial (kernels interfaz numBufPkts fuera basura)).celda a i).estadoCx = .closed := by
    intro a i hi
    simp [Sistema.celda, inicial, Nodo.inicial, kernels, kernelInicial, iniciaKernel,
      inicializarCXsLibres, hi]
  exact
    { cuadra := h.cuadra
      ocupadas := fun a => h.ocupada a
      dirigidos := fun a h l hl => by simp [inicial, Nodo.inicial, Estado.pendiente] at hl
      conocidos := fun d hd => absurd hd (by simp [inicial])
      acuerdo := by
        refine agreed_of_idle (fun x => ?_) rfl
        by_cases hen : EnTabla x.2
        · exact (phase_ranura hen).trans (congrArg fase (hcerrada x.1 x.2 hen))
        · exact congrArg Cell.phase (if_neg fun h => hen h.1) }

end Ltm.Red
