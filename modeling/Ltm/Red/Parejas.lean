import Ltm.Red.Lectura
import Ltm.Red.Simulacion

/-! # Both ends of a connection

What the refinement gives in the words of the source, in every state of every run of the network with
`t_send` in which the packets are read as they were built: the ESTABLISHED cells pair up (`parejas`), data is addressed to the other end (`dirigidos`), a
cell goes through its states one way only (`ciclo`) and an ESTABLISHED one stays as it is (`permanece`).
Nothing frees such a cell, so a full table is full for good (`agotada`); and nothing is sent again, so
the loss of a CR or a CC leaves its cell in CONNECT for good (`perdida`).
-/

namespace Ltm.Red
open Kernel Nodo Runs Rendezvous
set_option autoImplicit false
set_option maxHeartbeats 250000

/-- The other end of a cell, as the cell has it. -/
def Sistema.otroExtremo (σ : Sistema) (x : InAddr × Int) : InAddr × Int :=
  ((σ.celda x.1 x.2).ipDestino, (σ.celda x.1 x.2).idDestino)

def Sistema.Establecida (σ : Sistema) (x : InAddr × Int) : Prop :=
  EnTabla x.2 ∧ (σ.celda x.1 x.2).estadoCx = .established

instance (σ : Sistema) (x : InAddr × Int) : Decidable (σ.Establecida x) :=
  inferInstanceAs (Decidable (_ ∧ _))

def Sistema.PorConnect (σ : Sistema) (x : InAddr × Int) : Prop := AbiertaConnect (σ.nodos x.1) x.2

instance (σ : Sistema) (x : InAddr × Int) : Decidable (σ.PorConnect x) :=
  inferInstanceAs (Decidable (AbiertaConnect _ _))

/-- The cell `y`, ESTABLISHED by a CR of the cell `x`, has it at the other end. -/
structure Enfrentada (σ : Sistema) (x y : InAddr × Int) : Prop where
  extremo : σ.otroExtremo y = x
  ip : (σ.celda x.1 x.2).ipDestino = y.1
  puertoDestino : (σ.celda x.1 x.2).puertoDestino = (σ.celda y.1 y.2).puertoOrigen
  puertoOrigen : (σ.celda x.1 x.2).puertoOrigen = (σ.celda y.1 y.2).puertoDestino

structure Parejas (σ : Sistema) : Prop where
  /-- a connect that has been accepted, and the cell that took its CR -/
  connect : ∀ x, σ.Establecida x → σ.PorConnect x → σ.Establecida (σ.otroExtremo x) ∧
    ¬σ.PorConnect (σ.otroExtremo x) ∧ Enfrentada σ x (σ.otroExtremo x)
  /-- a cell that has taken a CR, and the connect that sent it: accepted, or still to learn of it -/
  listen : ∀ y, σ.Establecida y → ¬σ.PorConnect y → σ.PorConnect (σ.otroExtremo y) ∧
    Enfrentada σ (σ.otroExtremo y) y ∧
      (σ.Establecida (σ.otroExtremo y) ∧ σ.otroExtremo (σ.otroExtremo y) = y ∨
        EnTabla (σ.otroExtremo y).2 ∧
          (σ.celda (σ.otroExtremo y).1 (σ.otroExtremo y).2).estadoCx = .connect)
  /-- no two cells have the same other end -/
  una : ∀ x y, σ.Establecida x → σ.Establecida y → σ.otroExtremo x = σ.otroExtremo y → x = y

variable {σ σ' : Sistema} {x y : InAddr × Int} {d : Datagrama}

/-! ## Cells and slots -/

theorem celda_of_activa (hen : EnTabla x.2) (hest : (σ.celda x.1 x.2).estadoCx ≠ .closed) :
    (imagen σ).cell x = ranuraDe (σ.celda x.1 x.2) (decide (σ.PorConnect x)) :=
  ranura_of_activa hen hest

theorem Sistema.Establecida.celda (h : σ.Establecida x) :
    (imagen σ).cell x = ranuraDe (σ.celda x.1 x.2) (decide (σ.PorConnect x)) := by
  apply celda_of_activa h.1
  simp [h.2]

theorem establecida_iff : σ.Establecida x ↔ ((imagen σ).cell x).phase = .open := by
  constructor
  · intro h
    rw [h.celda]
    exact fase_eq_open.mpr h.2
  · intro h
    obtain ⟨hen, -⟩ := enTabla_of_phase (s := σ.nodos x.1) (i := x.2) (by
      show ((imagen σ).cell x).phase ≠ _
      simp [h])
    have hphase := phase_ranura (s := σ.nodos x.1) hen
    exact ⟨hen, fase_eq_open.mp (hphase.symm.trans h)⟩

theorem calling_iff : ((imagen σ).cell x).phase = .calling ↔
    EnTabla x.2 ∧ (σ.celda x.1 x.2).estadoCx = .connect := by
  constructor
  · intro h
    obtain ⟨hen, -⟩ := enTabla_of_phase (s := σ.nodos x.1) (i := x.2) (by
      show ((imagen σ).cell x).phase ≠ _
      simp [h])
    have hphase := phase_ranura (s := σ.nodos x.1) hen
    exact ⟨hen, fase_eq_calling.mp (hphase.symm.trans h)⟩
  · rintro ⟨hen, hest⟩
    exact (phase_ranura hen).trans (fase_eq_calling.mpr hest)

theorem caller_iff (hen : EnTabla x.2) (hest : (σ.celda x.1 x.2).estadoCx ≠ .closed) :
    ((imagen σ).cell x).caller = true ↔ σ.PorConnect x := by
  rw [celda_of_activa hen hest]
  exact decide_eq_true_iff

theorem peer_eq (h : σ.Establecida x) : ((imagen σ).cell x).peer = σ.otroExtremo x := by
  rw [h.celda]
  rfl

/-- What `Served` says of the cells. -/
theorem enfrentada_of_served (hx : EnTabla x.2) (hest : (σ.celda x.1 x.2).estadoCx ≠ .closed)
    (h : Served (imagen σ).cell x y) :
    σ.Establecida y ∧ ¬σ.PorConnect y ∧ Enfrentada σ x y := by
  have hy : σ.Establecida y := establecida_iff.mpr h.phase
  have hact : (σ.celda y.1 y.2).estadoCx ≠ .closed := by simp [hy.2]
  have hcaller : ¬σ.PorConnect y := by
    rw [← caller_iff hy.1 hact, h.caller]
    exact Bool.false_ne_true
  have hpeer := h.peer
  have hhost := h.host
  have hlport := h.lport
  have hrport := h.rport
  rw [celda_of_activa hx hest] at hhost hlport hrport
  rw [hy.celda] at hpeer hlport hrport
  exact ⟨hy, hcaller, hpeer, hhost, hlport.symm, hrport.symm⟩

/-! ## Pairs -/

theorem Coherente.enParejas (hi : Coherente σ) : Parejas σ where
  connect := by
    intro x hx hcon
    have hact : (σ.celda x.1 x.2).estadoCx ≠ .closed := by simp [hx.2]
    have hserved := hi.acuerdo.served x (establecida_iff.mp hx) ((caller_iff hx.1 hact).mpr hcon)
    rw [peer_eq hx] at hserved
    exact enfrentada_of_served hx.1 hact hserved
  listen := by
    intro y hy hno
    have hact : (σ.celda y.1 y.2).estadoCx ≠ .closed := by simp [hy.2]
    have hcaller : ((imagen σ).cell y).caller = false := by
      have hnot := (caller_iff hy.1 hact).not.mpr hno
      simpa using hnot
    obtain ⟨hserved, htrue, hends⟩ := hi.acuerdo.awaited y (establecida_iff.mp hy) hcaller
    rw [peer_eq hy] at hserved htrue hends
    rcases hends with ⟨hopen, hpeer⟩ | ⟨hcalling, -⟩
    · have hx : σ.Establecida (σ.otroExtremo y) := establecida_iff.mpr hopen
      have hactx : (σ.celda (σ.otroExtremo y).1 (σ.otroExtremo y).2).estadoCx ≠ .closed := by
        simp [hx.2]
      obtain ⟨-, -, henf⟩ := enfrentada_of_served hx.1 hactx hserved
      rw [peer_eq hx] at hpeer
      exact ⟨(caller_iff hx.1 hactx).mp htrue, henf, Or.inl ⟨hx, hpeer⟩⟩
    · obtain ⟨hen, hest⟩ := calling_iff.mp hcalling
      have hactx : (σ.celda (σ.otroExtremo y).1 (σ.otroExtremo y).2).estadoCx ≠ .closed := by
        simp [hest]
      obtain ⟨-, -, henf⟩ := enfrentada_of_served hen hactx hserved
      exact ⟨(caller_iff hen hactx).mp htrue, henf, Or.inr ⟨hen, hest⟩⟩
  una := by
    intro x y hx hy e
    have hox := establecida_iff.mp hx
    have hoy := establecida_iff.mp hy
    have hpeer : ((imagen σ).cell x).peer = ((imagen σ).cell y).peer := by
      rw [peer_eq hx, peer_eq hy, e]
    exact hi.acuerdo.peer_injective hox hoy hpeer

section Runs
variable {interfaz : InAddr → String} {numBufPkts : InAddr → UInt16}
  {fuera : InAddr → Int → Conexion} {basura : InAddr → ℕ → BufPkt} {es : List Evento}
  {xs xs' : List (Evento × Lectura)}

theorem coherente_run
    (hr : run pasoDatos (inicial (kernels interfaz numBufPkts fuera basura)) es = some σ) :
    Coherente σ :=
  (simula_run (coherente_inicial interfaz numBufPkts fuera basura) hr).1

theorem Alcanza.coherente (h : Alcanza (inicial (kernels interfaz numBufPkts fuera basura)) xs σ) :
    Coherente σ := coherente_run h.run_pasoDatos

theorem parejas (h : Alcanza (inicial (kernels interfaz numBufPkts fuera basura)) xs σ) : Parejas σ :=
  h.coherente.enParejas

/-- A `t_send` of one byte at the host that connected. -/
def unEnvio : List Evento := [.nodo 0x0a000001 (.llama (.send entornoVacio 0 (some [7]) 1))]

def saludoDatos : List Evento := saludo ++ unEnvio

theorem parejas_saludo : ∃ σ,
    Alcanza (inicial fun _ => kernelPorDefecto) (saludoDatos.map intacto) σ ∧ Parejas σ := by
  have hsome : (run pasoRed (inicial fun _ => kernelPorDefecto) (saludoDatos.map intacto)).isSome =
      true := by decide +kernel
  obtain ⟨σ, hr⟩ := Option.isSome_iff_exists.mp hsome
  have h := alcanza_intacto hr
  exact ⟨σ, h, parejas h⟩

/-! ## Data -/

/-- A DATOS packet of the cell `x` goes to the other end, and fits the cell there. -/
structure Dirigido (σ : Sistema) (d : Datagrama) (x y : InAddr × Int) : Prop where
  establecida : σ.Establecida x
  extremo : σ.otroExtremo x = y
  puertoOrig : d.tpdu.cabecera.puertoOrig = (σ.celda x.1 x.2).puertoOrigen
  puertoDest : d.tpdu.cabecera.puertoDest = (σ.celda y.1 y.2).puertoOrigen
  enTabla : EnTabla y.2
  estado : (σ.celda y.1 y.2).estadoCx = .established ∨ (σ.celda y.1 y.2).estadoCx = .connect
  ip : (σ.celda y.1 y.2).ipDestino = x.1
  puertoDestino : (σ.celda y.1 y.2).puertoDestino = d.tpdu.cabecera.puertoOrig

theorem mensaje_of_datos (ht : d.tpdu.cabecera.tipo = tipoDatos) (hen : EnTabla d.tpdu.cabecera.idLocal) :
    mensaje d = some (.data (d.origen, d.tpdu.cabecera.idLocal) (d.destino, d.tpdu.cabecera.idDestino)
      d.tpdu.cabecera.puertoOrig d.tpdu.cabecera.puertoDest) := by
  unfold mensaje
  dsimp only
  rw [if_neg (by rw [ht]; decide), if_neg (by rw [ht]; decide), if_pos hen]

theorem Coherente.dirigido (hi : Coherente σ) (hd : d ∈ σ.red) (ht : d.tpdu.cabecera.tipo = tipoDatos)
    (hen : EnTabla d.tpdu.cabecera.idLocal) :
    Dirigido σ d (d.origen, d.tpdu.cabecera.idLocal) (d.destino, d.tpdu.cabecera.idDestino) := by
  have hm := mensaje_of_datos ht hen
  have hmem : .data (d.origen, d.tpdu.cabecera.idLocal) (d.destino, d.tpdu.cabecera.idDestino)
      d.tpdu.cabecera.puertoOrig d.tpdu.cabecera.puertoDest ∈ (imagen σ).net := by
    show _ ∈ mensajes σ.red
    rw [mensajes_of_some hd hm]
    exact Multiset.mem_cons_self _ _
  obtain ⟨hopen, hpeer, hlport, hrport⟩ := hi.acuerdo.sound _ hmem
  generalize (d.origen, d.tpdu.cabecera.idLocal) = x at hopen hpeer hlport hrport ⊢
  generalize (d.destino, d.tpdu.cabecera.idDestino) = y at hpeer ⊢
  have hx : σ.Establecida x := establecida_iff.mpr hopen
  rw [peer_eq hx] at hpeer
  rw [hx.celda] at hlport hrport
  subst hpeer
  have hlp : d.tpdu.cabecera.puertoOrig = (σ.celda x.1 x.2).puertoOrigen := hlport.symm
  have hrp : d.tpdu.cabecera.puertoDest = (σ.celda x.1 x.2).puertoDestino := hrport.symm
  by_cases hcon : σ.PorConnect x
  · obtain ⟨hy, -, henf⟩ := hi.enParejas.connect x hx hcon
    exact ⟨hx, rfl, hlp, by rw [hrp, henf.puertoDestino], hy.1, Or.inl hy.2,
      congrArg Prod.fst henf.extremo, by rw [hlp, henf.puertoOrigen]⟩
  · obtain ⟨-, henf, hends⟩ := hi.enParejas.listen x hx hcon
    have hport : d.tpdu.cabecera.puertoDest =
        (σ.celda (σ.otroExtremo x).1 (σ.otroExtremo x).2).puertoOrigen := by
      rw [hrp, henf.puertoOrigen]
    refine ⟨hx, rfl, hlp, hport, ?_, ?_, henf.ip, by rw [hlp, henf.puertoDestino]⟩
    · exact hends.elim (fun h => h.1.1) fun h => h.1
    · exact hends.imp (fun h => h.1.2) fun h => h.2

/-- The DATOS packets in flight, but for those of a `t_send` with an `id` outside the table. -/
theorem dirigidos (h : Alcanza (inicial (kernels interfaz numBufPkts fuera basura)) xs σ) :
    ∀ d ∈ σ.red, d.tpdu.cabecera.tipo = tipoDatos → EnTabla d.tpdu.cabecera.idLocal →
      Dirigido σ d (d.origen, d.tpdu.cabecera.idLocal) (d.destino, d.tpdu.cabecera.idDestino) :=
  fun _ hd ht hen => h.coherente.dirigido hd ht hen

theorem dirigidos_saludo : ∃ σ d,
    Alcanza (inicial fun _ => kernelPorDefecto) (saludoDatos.map intacto) σ ∧
      d ∈ σ.red ∧ Dirigido σ d (0x0a000001, 0) (0x0a000002, 0) := by
  have hdatos : (run pasoRed (inicial fun _ => kernelPorDefecto) (saludoDatos.map intacto)).map (fun σ =>
      decide (∃ d ∈ σ.red, d.tpdu.cabecera.tipo = tipoDatos ∧ (d.origen = 0x0a000001 ∧
        d.tpdu.cabecera.idLocal = 0) ∧ d.destino = 0x0a000002 ∧ d.tpdu.cabecera.idDestino = 0)) =
      some true := by decide +kernel
  obtain ⟨σ, hr, hdatos⟩ := Option.map_eq_some_iff.mp hdatos
  obtain ⟨d, hd, ht, ⟨ho, hl⟩, hdest, hid⟩ := of_decide_eq_true hdatos
  have hσ := alcanza_intacto hr
  have h := dirigidos hσ d hd ht (by rw [hl]; decide)
  rw [ho, hl, hdest, hid] at h
  exact ⟨σ, d, hσ, hd, h⟩

/-! ## What a cell goes through -/

inductive Siguiente : EstadoCx → EstadoCx → Prop
  | igual (e : EstadoCx) : Siguiente e e
  | escucha : Siguiente .closed .listen
  | conecta : Siguiente .closed .connect
  | acepta : Siguiente .listen .established
  | confirma : Siguiente .connect .established
  | rechaza : Siguiente .connect .closed

theorem siguiente_of_next {e e' : EstadoCx} (h : Next (fase e) (fase e')) : Siguiente e e' := by
  cases e with
  | closed =>
      cases e' with
      | closed => exact .igual _
      | listen => exact .escucha
      | connect => exact .conecta
      | established => cases h
  | listen =>
      cases e' with
      | established => exact .acepta
      | listen => exact .igual _
      | closed | connect => cases h
  | connect =>
      cases e' with
      | closed => exact .rechaza
      | connect => exact .igual _
      | established => exact .confirma
      | listen => cases h
  | established => cases h

theorem fase_injective {e e' : EstadoCx} (h : fase e = fase e') : e = e' := by
  cases e <;> cases e' <;> first | rfl | cases h

theorem Coherente.siguiente (hi : Coherente σ) {e : Evento} (h : pasoDatos σ e = some σ') {a : InAddr}
    {i : Int} (hen : EnTabla i) : Siguiente (σ.celda a i).estadoCx (σ'.celda a i).estadoCx := by
  have hcell : ∀ {τ : Sistema}, ((imagen τ).cell (a, i)).phase = fase (τ.celda a i).estadoCx :=
    phase_ranura hen
  rcases hi.acuerdo.next_advances (simula_paso hi h).2 (a, i) with hsame | hnext
  · have hfase := congrArg Cell.phase hsame
    rw [hcell, hcell] at hfase
    rw [fase_injective hfase]
    exact .igual _
  · rw [hcell, hcell] at hnext
    exact siguiente_of_next hnext

/-- Every step of every run takes every cell at most one step along CLOSED, LISTEN, ESTABLISHED or along
CLOSED, CONNECT, ESTABLISHED, or from CONNECT back to CLOSED. -/
theorem ciclo (ha : Along pasoRed Intacto (inicial (kernels interfaz numBufPkts fuera basura)) xs) :
    Along pasoRed (fun σ _ σ' => ∀ a i, EnTabla i →
      Siguiente (σ.celda a i).estadoCx (σ'.celda a i).estadoCx)
        (inicial (kernels interfaz numBufPkts fuera basura)) xs := by
  refine along_of_invariant Coherente Intacto (fun σ x σ' hi hok h => ?_)
    (fun σ x σ' hi hok h a i hen => ?_) (coherente_inicial interfaz numBufPkts fuera basura) ha
  · exact (simula_paso hi (pasoDatos_of_pasoRed hok h)).1
  · exact hi.siguiente (pasoDatos_of_pasoRed hok h) hen

theorem ciclo_saludo : Along pasoRed (fun σ _ σ' => ∀ a i, EnTabla i →
    Siguiente (σ.celda a i).estadoCx (σ'.celda a i).estadoCx) (inicial fun _ => kernelPorDefecto)
      (saludoDatos.map intacto) :=
  ciclo (along_intacto saludoDatos _)

/-- What an ESTABLISHED cell keeps. -/
structure Permanece (σ σ' : Sistema) (x : InAddr × Int) : Prop where
  establecida : σ'.Establecida x
  extremo : σ'.otroExtremo x = σ.otroExtremo x
  puertoOrigen : (σ'.celda x.1 x.2).puertoOrigen = (σ.celda x.1 x.2).puertoOrigen
  puertoDestino : (σ'.celda x.1 x.2).puertoDestino = (σ.celda x.1 x.2).puertoDestino
  porConnect : σ'.PorConnect x ↔ σ.PorConnect x

theorem Coherente.conserva (hi : Coherente σ) (hr : run pasoDatos σ es = some σ')
    (hx : σ.Establecida x) : Permanece σ σ' x := by
  have hcell := hi.acuerdo.keeps_reach (simula_run hi hr).2 (establecida_iff.mp hx)
  have hx' : σ'.Establecida x := by
    rw [establecida_iff, hcell]
    exact establecida_iff.mp hx
  rw [hx.celda, hx'.celda] at hcell
  injection hcell with _ hcaller hpeer hlport hrport
  exact ⟨hx', hpeer, hlport, hrport, decide_eq_decide.mp hcaller⟩

theorem permanece (h : Alcanza (inicial (kernels interfaz numBufPkts fuera basura)) xs σ)
    (h' : Alcanza σ xs' σ') : ∀ x, σ.Establecida x → Permanece σ σ' x :=
  fun _ => h.coherente.conserva h'.run_pasoDatos

theorem permanece_saludo : ∃ σ σ',
    Alcanza (inicial fun _ => kernelPorDefecto) (saludo.map intacto) σ ∧
      Alcanza σ (unEnvio.map intacto) σ' ∧ Permanece σ σ' (0x0a000001, 0) := by
  have hest : (run pasoRed (inicial fun _ => kernelPorDefecto) (saludo.map intacto)).bind (fun σ =>
      (run pasoRed σ (unEnvio.map intacto)).map fun _ => decide (σ.Establecida (0x0a000001, 0))) =
      some true := by decide +kernel
  obtain ⟨σ, hr, hest⟩ := Option.bind_eq_some_iff.mp hest
  obtain ⟨σ', hr', hest⟩ := Option.map_eq_some_iff.mp hest
  have h := alcanza_intacto hr
  have h' := alcanza_intacto hr'
  exact ⟨σ, σ', h, h', permanece h h' _ (of_decide_eq_true hest)⟩

/-! ## A full table -/

def Sistema.Llena (σ : Sistema) (a : InAddr) : Prop := ∀ i, EnTabla i → σ.Establecida (a, i)

/-- A call that opens a connection on the host `a` returns `EXMAXC`, if it gets as far as the table. -/
def Rechaza (a : InAddr) (σ : Sistema) (e : Evento) (σ' : Sistema) : Prop :=
  ∀ c, e = .nodo a (.llama c) → c.entra (σ.nodos a).kernel →
    Retorna (σ.nodos a) (σ'.nodos a) exMaxC

theorem Coherente.llena (hi : Coherente σ) {e : Evento} (h : pasoDatos σ e = some σ') {a : InAddr}
    (hll : σ.Llena a) : σ'.Llena a := by
  intro i hen
  have hcell := hi.acuerdo.keeps_reach (simula_paso hi h).2.1 (establecida_iff.mp (hll i hen))
  rw [establecida_iff, hcell]
  exact establecida_iff.mp (hll i hen)

theorem Coherente.rechaza (hi : Coherente σ) {e : Evento} (h : pasoDatos σ e = some σ') {a : InAddr}
    (hll : σ.Llena a) : Rechaza a σ e σ' := by
  rintro c rfl hentra
  rw [pasoDatos, if_neg (by simp [deRed])] at h
  obtain ⟨s', hs', rfl⟩ := Option.map_eq_some_iff.mp h
  obtain ⟨-, -, hret⟩ := paso_llama hs'
  have hocu : (σ.nodos a).kernel.ocupadas.card = numMaxCXs := by
    rw [card_ocupadas_eq]
    intro i hen
    have hest : ((σ.nodos a).kernel.CXs i).estadoCx = .established := (hll i hen).2
    exact hi.ocupadas a i hen (by simp [hest])
  have hle := (hi.cuadra a).card_le
  have hnum := (hi.cuadra a).num
  have htope := (hi.cuadra a).tope
  rw [tras_nodos_self, hret, retorna_exMaxC_iff hentra]
  omega

/-- Once all the cells of a host are ESTABLISHED, they stay so, and no call of any later step gets
one. -/
theorem agotada {a : InAddr} (h : Alcanza (inicial (kernels interfaz numBufPkts fuera basura)) xs σ)
    (hll : σ.Llena a) (ha : Along pasoRed Intacto σ xs') :
    Along pasoRed (fun σ x σ' => σ'.Llena a ∧ Rechaza a σ x.1 σ') σ xs' := by
  refine along_of_invariant (fun σ => Coherente σ ∧ σ.Llena a) Intacto ?_ ?_ ⟨h.coherente, hll⟩ ha
  · rintro σ x σ' ⟨hi, hll⟩ hok hs
    have hs' := pasoDatos_of_pasoRed hok hs
    exact ⟨(simula_paso hi hs').1, hi.llena hs' hll⟩
  · rintro σ x σ' ⟨hi, hll⟩ hok hs
    have hs' := pasoDatos_of_pasoRed hok hs
    exact ⟨hi.llena hs' hll, hi.rechaza hs' hll⟩

/-- The host `10.0.0.1` listens at four ports, and connects to itself at each of them. -/
def consigo : List Evento :=
  (List.range 4).flatMap fun k =>
    let ip : InAddr := 0x0a000001
    let servidor : TDireccion := ⟨ip, 80 + Int16.ofNat k⟩
    let cliente : TDireccion := ⟨ip, 1000 + Int16.ofNat k⟩
    let cr : Tpdu := crearPkt (Tpdu.nulo.conResultado (if k = 0 then 0 else 1)) tipoCR servidor cliente
      [] 0 (2 * k + 1) 0
    let cc : Tpdu := crearPkt (Tpdu.nulo.conResultado 1) tipoCC cliente servidor [] 0 (2 * k) (2 * k + 1)
    [.nodo ip (.llama (.listen entornoVacio servidor none)),
      .nodo ip (.llama (.connect entornoVacio servidor cliente)), .entrega ⟨ip, ip, cr⟩ none,
      .nodo ip .suelta, .entrega ⟨ip, ip, cc⟩ (some (2 * k + 1)), .nodo ip .suelta]

theorem agotada_consigo : ∃ σ,
    Alcanza (inicial fun _ => kernelPorDefecto) (consigo.map intacto) σ ∧
      Along pasoRed (fun σ x σ' => σ'.Llena 0x0a000001 ∧ Rechaza 0x0a000001 σ x.1 σ') σ
        ([.nodo 0x0a000001 (.llama (escucha 90))].map intacto) := by
  have hllena : (run pasoRed (inicial fun _ => kernelPorDefecto) (consigo.map intacto)).map (fun σ =>
      (List.range 8).all fun i => decide (σ.Establecida (0x0a000001, (i : Int)))) = some true := by
    decide +kernel
  obtain ⟨σ, hr, hllena⟩ := Option.map_eq_some_iff.mp hllena
  have h := alcanza_intacto hr
  refine ⟨σ, h, agotada h (fun i hen => ?_) (along_intacto _ σ)⟩
  obtain ⟨n, hn, rfl⟩ := enTabla_iff.mp hen
  exact of_decide_eq_true (List.all_eq_true.mp hllena n (List.mem_range.mpr hn))

/-! ## A CR or a CC that is lost -/

theorem key_of_mensaje (ht : d.tpdu.cabecera.tipo = tipoCR ∨ d.tpdu.cabecera.tipo = tipoCC) :
    ∃ m, mensaje d = some m ∧ m.key = some (clave d) := by
  rcases ht with ht | ht
  · refine ⟨_, mensaje_cr ht, ?_⟩
    unfold clave
    rw [if_neg (tipoCR_ne_tipoCC ht)]
    rfl
  · refine ⟨_, mensaje_cc ht, ?_⟩
    unfold clave
    rw [if_pos ht]
    rfl

/-- After the loss of a CR or a CC the cell of its connect stays in CONNECT, and neither a CR nor a CC
for it is in flight again. -/
theorem perdida (h : Alcanza (inicial (kernels interfaz numBufPkts fuera basura)) xs σ) (hd : d ∈ σ.red)
    (ht : d.tpdu.cabecera.tipo = tipoCR ∨ d.tpdu.cabecera.tipo = tipoCC)
    (h' : Alcanza { σ with red := σ.red.erase d } xs' σ') :
    EnTabla (clave d).2 ∧ (σ'.celda (clave d).1 (clave d).2).estadoCx = .connect ∧
      ∀ d' ∈ σ'.red, d'.tpdu.cabecera.tipo = tipoCR ∨ d'.tpdu.cabecera.tipo = tipoCC →
        clave d' ≠ clave d := by
  have hi := h.coherente
  obtain ⟨m, hm, hk⟩ := key_of_mensaje ht
  have hstr : Stranded (imagen { σ with red := σ.red.erase d }) (clave d) :=
    hi.acuerdo.stranded (mensajes_of_some hd hm) hk
  obtain ⟨hfin, -⟩ := hstr.reach (simula_run (simula_pierde hi hd).1 h'.run_pasoDatos).2
  obtain ⟨hen, hest⟩ := calling_iff.mp hfin.1
  refine ⟨hen, hest, fun d' hd' ht' e => ?_⟩
  obtain ⟨m', hm', hk'⟩ := key_of_mensaje ht'
  refine hfin.2 m' ?_ (e ▸ hk')
  show m' ∈ mensajes σ'.red
  rw [mensajes_of_some hd' hm']
  exact Multiset.mem_cons_self m' _

/-- The steps of the connect whose CR is lost. -/
def sinRespuesta : List Evento := [.nodo 0x0a000001 (.despierta 0), .nodo 0x0a000001 (.sigue 0)]

theorem perdida_conecta : ∃ σ σ',
    Alcanza (inicial fun _ => kernelPorDefecto)
      ([.nodo 0x0a000001 (.llama (conecta 80 1000))].map intacto) σ ∧
    Alcanza { σ with red := σ.red.erase (datagramaCR 0x0a000001 kernelPorDefecto ⟨0x0a000002, 80⟩
      ⟨0x0a000001, 1000⟩) } (sinRespuesta.map intacto) σ' ∧
    (σ'.celda 0x0a000001 0).estadoCx = .connect := by
  have hred : (run pasoRed (inicial fun _ => kernelPorDefecto)
      ([.nodo 0x0a000001 (.llama (conecta 80 1000))].map intacto)).bind (fun σ =>
        (run pasoRed { σ with red := σ.red.erase (datagramaCR 0x0a000001 kernelPorDefecto
          ⟨0x0a000002, 80⟩ ⟨0x0a000001, 1000⟩) } (sinRespuesta.map intacto)).map fun _ =>
          decide (datagramaCR 0x0a000001 kernelPorDefecto ⟨0x0a000002, 80⟩ ⟨0x0a000001, 1000⟩ ∈ σ.red)) =
      some true := by decide +kernel
  obtain ⟨σ, hr, hred⟩ := Option.bind_eq_some_iff.mp hred
  obtain ⟨σ', hr', hred⟩ := Option.map_eq_some_iff.mp hred
  have h := alcanza_intacto hr
  have h' := alcanza_intacto hr'
  exact ⟨σ, σ', h, h', (perdida h (of_decide_eq_true hred) (Or.inl rfl) h').2.1⟩

end Runs

end Ltm.Red
