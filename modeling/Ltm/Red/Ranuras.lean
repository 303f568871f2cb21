import Ltm.Red.Datos
import Ltm.Foundations.Rendezvous

/-! # The tables as slots

The table of a host, cell by cell, as the slots of a rendezvous (`ranura`), and the datagrams in flight
as its messages (`mensaje`). A step of a host that takes nothing from the network changes at most one
slot, or sends data from slots that are open (`Cambia`).
-/

namespace Ltm.Red
open Kernel Nodo Runs Rendezvous
set_option autoImplicit false
set_option maxHeartbeats 250000

/-! ## The image -/

abbrev Ranura := Cell InAddr Int UInt16
abbrev Mensaje := Msg InAddr Int UInt16

def fase : EstadoCx → Phase
  | .closed => .idle
  | .listen => .listening
  | .connect => .calling
  | .established => .open

def vacia : Ranura := ⟨.idle, false, (0, 0), 0, 0⟩

/-- A cell in use, taken by a `t_connect` or not. -/
def ranuraDe (c : Conexion) (porConnect : Bool) : Ranura :=
  ⟨fase c.estadoCx, porConnect, (c.ipDestino, c.idDestino), c.puertoOrigen, c.puertoDestino⟩

def ranura (s : Estado) (i : Int) : Ranura :=
  if EnTabla i ∧ (s.kernel.CXs i).estadoCx ≠ .closed then
    ranuraDe (s.kernel.CXs i) (decide (AbiertaConnect s i))
  else vacia

def mensaje (d : Datagrama) : Option Mensaje :=
  let h := d.tpdu.cabecera
  if h.tipo = tipoCR then some (.request (d.origen, h.idLocal) d.destino h.puertoOrig h.puertoDest)
  else if h.tipo = tipoCC then
    some (.answer (d.destino, h.idDestino) d.origen
      (if h.conexionAceptada < 0 then none else some h.idLocal))
  else if EnTabla h.idLocal then
    some (.data (d.origen, h.idLocal) (d.destino, h.idDestino) h.puertoOrig h.puertoDest)
  else none

def mensajes (red : List Datagrama) : Multiset Mensaje := ↑(red.filterMap mensaje)

def Sistema.ranuras (σ : Sistema) (x : InAddr × Int) : Ranura := ranura (σ.nodos x.1) x.2

def imagen (σ : Sistema) : State InAddr Int UInt16 := ⟨σ.ranuras, mensajes σ.red⟩

variable {σ σ' : Sistema} {s s' : Estado} {a : InAddr} {i i₀ : Int} {d : Datagrama}
  {red red' : List Datagrama}

theorem ranura_of_activa (hi : EnTabla i) (hest : (s.kernel.CXs i).estadoCx ≠ .closed) :
    ranura s i = ranuraDe (s.kernel.CXs i) (decide (AbiertaConnect s i)) := if_pos ⟨hi, hest⟩

theorem ranura_of_closed (hest : (s.kernel.CXs i).estadoCx = .closed) : ranura s i = vacia :=
  if_neg fun h => h.2 hest

theorem phase_ranura (hi : EnTabla i) : (ranura s i).phase = fase (s.kernel.CXs i).estadoCx := by
  by_cases hest : (s.kernel.CXs i).estadoCx = .closed
  · rw [ranura_of_closed hest, hest]
    rfl
  · rw [ranura_of_activa hi hest]
    rfl

/-- A slot that is not idle is a cell of the table. -/
theorem enTabla_of_phase (h : (ranura s i).phase ≠ .idle) :
    EnTabla i ∧ (s.kernel.CXs i).estadoCx ≠ .closed := by
  by_contra hno
  rw [ranura, if_neg hno] at h
  exact h rfl

theorem fase_eq_open {e : EstadoCx} : fase e = .open ↔ e = .established := by
  cases e <;> simp [fase]

theorem fase_eq_calling {e : EstadoCx} : fase e = .calling ↔ e = .connect := by
  cases e <;> simp [fase]

/-! ## Messages in flight -/

theorem mensajes_append : mensajes (red ++ red') = mensajes red + mensajes red' := by
  unfold mensajes
  rw [List.filterMap_append]
  rfl

theorem mensajes_erase (hd : d ∈ red) :
    mensajes red = (mensaje d).elim (mensajes (red.erase d)) (· ::ₘ mensajes (red.erase d)) := by
  have hperm := (List.perm_cons_erase hd).filterMap mensaje
  have hcoe : mensajes red = ↑((d :: red.erase d).filterMap mensaje) := Multiset.coe_eq_coe.mpr hperm
  rw [hcoe, List.filterMap_cons]
  cases mensaje d with
  | none => rfl
  | some m => rfl

theorem mensajes_of_some {m : Mensaje} (hd : d ∈ red) (hm : mensaje d = some m) :
    mensajes red = m ::ₘ mensajes (red.erase d) := by
  rw [mensajes_erase hd, hm]
  rfl

/-- A datagram that is gone, delivered or lost, without an effect on the slots. -/
theorem reach_erase (hd : d ∈ red) (cell : InAddr × Int → Ranura) :
    Reach ⟨cell, mensajes red⟩ ⟨cell, mensajes (red.erase d)⟩ := by
  cases hm : mensaje d with
  | none =>
      rw [mensajes_erase hd, hm]
      exact .refl
  | some m => exact .single (.drop (mensajes_of_some hd hm))

theorem reach_envia (cell : InAddr × Int → Ranura) (ds : List Datagrama)
    (hds : ∀ d ∈ ds, mensaje d = none ∨ ∃ x, (cell x).phase = .open ∧
      mensaje d = some (.data x (cell x).peer (cell x).lport (cell x).rport)) :
    Reach ⟨cell, mensajes red⟩ ⟨cell, mensajes (red ++ ds)⟩ := by
  induction ds generalizing red with
  | nil => rw [List.append_nil]
  | cons d ds ih =>
      have hstep : Reach ⟨cell, mensajes red⟩ ⟨cell, mensajes (red ++ [d])⟩ := by
        rw [mensajes_append]
        rcases hds d List.mem_cons_self with hm | ⟨x, hx, hm⟩
        · have hnada : mensajes [d] = 0 := by simp [mensajes, hm]
          rw [hnada, Multiset.add_zero]
        · have huno : mensajes [d] = {.data x (cell x).peer (cell x).lport (cell x).rport} := by
            simp [mensajes, hm]
          rw [huno, Multiset.add_comm, Multiset.singleton_add]
          exact .single (.send hx)
      have hresto : Reach ⟨cell, mensajes (red ++ [d])⟩ ⟨cell, mensajes (red ++ [d] ++ ds)⟩ :=
        ih fun d' hd' => hds d' (List.mem_cons_of_mem d hd')
      rw [List.append_assoc, List.singleton_append] at hresto
      exact hstep.trans hresto

/-! ## The image after a step of one host -/

theorem imagen_tras_put (hne : ∀ i, i ≠ i₀ → ranura s' i = ranura (σ.nodos a) i) :
    imagen (σ.tras a red s') = (imagen σ).put (a, i₀) (ranura s' i₀)
      (mensajes (red ++ (envios s'.ultima).map fun p => ⟨a, p.1, p.2⟩)) := by
  refine congrArg₂ State.mk (funext fun x => ?_) rfl
  obtain ⟨b, i⟩ := x
  by_cases hb : b = a
  · subst hb
    have hs' : (σ.tras b red s').nodos b = s' := tras_nodos_self
    by_cases hi : i = i₀
    · subst hi
      rw [Function.update_self, Sistema.ranuras, hs']
    · rw [Function.update_of_ne (by simp [hi]), Sistema.ranuras, hs', hne i hi]
      rfl
  · rw [Function.update_of_ne (by simp [hb]), Sistema.ranuras, tras_nodos_of_ne hb]
    rfl

theorem imagen_tras (hs : ∀ i, ranura s' i = ranura (σ.nodos a) i) :
    imagen (σ.tras a red s') =
      ⟨σ.ranuras, mensajes (red ++ (envios s'.ultima).map fun p => ⟨a, p.1, p.2⟩)⟩ := by
  rw [imagen_tras_put fun i _ => hs i]
  refine congrArg₂ State.mk ?_ rfl
  have hself : ranura s' exNoTsap = σ.ranuras (a, exNoTsap) := hs exNoTsap
  rw [hself]
  exact Function.update_eq_self _ _

/-! ## Calls of `t_send` -/

/-- The addresses in the variables of the call are those of the slot. -/
structure Dirige (l : SendLocal) (r : Ranura) : Prop where
  phase : r.phase = .open
  lport : l.tsapOrigen.puerto.toUInt16 = r.lport
  host : l.tsapDestino.ip = r.peer.1
  rport : l.tsapDestino.puerto.toUInt16 = r.rport

theorem Dirige.misma {l l' : SendLocal} {r : Ranura} (h : Dirige l r) (hl : MismaLlamada l l') :
    Dirige l' r :=
  ⟨h.phase, by rw [hl.tsapOrigen, h.lport], by rw [hl.tsapDestino, h.host],
    by rw [hl.tsapDestino, h.rport]⟩

theorem dirige_nuevo {id : Int} (ds : List UInt8) (longitud : UInt64) (hi : EnTabla id)
    (hest : (s.kernel.CXs id).estadoCx = .established) :
    Dirige (.nuevo id ds longitud (s.kernel.CXs id)) (ranura s id) := by
  rw [ranura_of_activa hi (by simp [hest])]
  exact ⟨fase_eq_open.mpr hest, UInt16.toUInt16_toInt16 _, rfl, UInt16.toUInt16_toInt16 _⟩

theorem llama_send {e : Entorno} {id : Int} {datos : Option (List UInt8)} {longitud : UInt64}
    (h : Nodo.paso s (.llama (.send e id datos longitud)) = some s') :
    s'.ultima = (tSend e id datos longitud ⟨s.kernel, []⟩).2.traza ∧ s'.dueno = s.dueno ∧
      ∃ hilo, s'.hilos = s.hilos ++ [hilo] ∧ ∀ l, hilo.fase.pendiente = some l →
        ∃ i, (tSend e id datos longitud ⟨s.kernel, []⟩).1 = .duerme i l := by
  have hemite := (emiteDatos_tSend e id datos longitud s.kernel).1
  obtain ⟨-, h⟩ := trasLlamar_of_paso h
  rw [Llamada.empieza] at h
  generalize tSend e id datos longitud ⟨s.kernel, []⟩ = r at h hemite ⊢
  obtain ⟨paso, m⟩ := r
  cases paso with
  | busca => exact absurd h (by simp [Estado.trasLlamar])
  | retorna v =>
      obtain rfl := Option.some.inj h
      exact ⟨rfl, rfl, _, rfl, fun l hl => absurd hl (by simp [hiloTerminado, Fase.pendiente])⟩
  | duerme i l =>
      obtain rfl := Option.some.inj h
      obtain ⟨l', rfl, -⟩ := hemite.espera i l rfl
      refine ⟨rfl, rfl, _, rfl, fun l hl => ⟨i, ?_⟩⟩
      obtain rfl := Option.some.inj hl
      rfl

theorem sigue_send {h : ℕ} {l : SendLocal} (hl : s.pendiente h = some (.send l))
    (hp : Nodo.paso s (.sigue h) = some s') :
    s'.ultima = (tSendSigue l ⟨s.kernel, []⟩).2.traza ∧
      s'.kernel = (tSendSigue l ⟨s.kernel, []⟩).2.kernel ∧ s'.dueno = s.dueno ∧
      ∃ hilo hilo', s.hilos[h]? = some hilo ∧ s'.hilos = s.hilos.set h hilo' ∧
        hilo'.ficha.llamada = hilo.ficha.llamada ∧ ∀ l', hilo'.fase.pendiente = some l' →
          ∃ i, (tSendSigue l ⟨s.kernel, []⟩).1 = .duerme i l' := by
  obtain ⟨hilo, l₀, hh, hf, -, hp⟩ := trasSeguir_of_paso hp
  rw [pendiente_of_hilo hh, hf] at hl
  obtain rfl := Option.some.inj hl
  rw [Local.sigue] at hp
  generalize tSendSigue l ⟨s.kernel, []⟩ = r at hp ⊢
  obtain ⟨paso, m⟩ := r
  cases paso with
  | busca => exact absurd hp (by simp [Estado.trasSeguir])
  | retorna v =>
      obtain rfl := Option.some.inj hp
      refine ⟨rfl, rfl, rfl, hilo, _, hh, rfl, rfl, fun l' hl' => ?_⟩
      exact absurd hl' (by simp [Hilo.acabado, Fase.pendiente])
  | duerme i l' =>
      obtain rfl := Option.some.inj hp
      refine ⟨rfl, rfl, rfl, hilo, _, hh, rfl, rfl, fun l'' hl'' => ⟨i, ?_⟩⟩
      obtain rfl := Option.some.inj hl''
      rfl

def Dirigidos (s : Estado) : Prop :=
  ∀ h l, s.pendiente h = some (.send l) → EnTabla l.id → Dirige l (ranura s l.id)

/-- A `t_send` that waits after a step waited before it, or has begun in it on an ESTABLISHED cell. -/
theorem dirige_paso {e : Suceso} (hi : Dirigidos s) (hp : Nodo.paso s e = some s') {h : ℕ}
    {l : SendLocal} (hl : s'.pendiente h = some (.send l)) (hen : EnTabla l.id) :
    Dirige l (ranura s l.id) := by
  have hviejo : ∀ l', s.pendiente h = some (.send l') → MismaLlamada l' l → Dirige l (ranura s l.id) := by
    intro l' hl' hmisma
    have hd := hi h l' hl' (hmisma.id ▸ hen)
    rw [← hmisma.id] at hd
    exact hd.misma hmisma
  have hquieto : s.pendiente h = some (.send l) → Dirige l (ranura s l.id) :=
    fun hl' => hviejo l hl' ⟨rfl, rfl, rfl⟩
  cases e with
  | llama c =>
      cases c with
      | send en id datos longitud =>
          obtain ⟨-, -, hilo, hs', hfin⟩ := llama_send hp
          rcases (pendiente_concat hs').mp hl with hl | ⟨-, hl⟩
          · exact hquieto hl
          · obtain ⟨i, hduerme⟩ := hfin _ hl
            obtain ⟨hemite, hest⟩ := emiteDatos_tSend en id datos longitud s.kernel
            obtain ⟨l', e', hmisma⟩ := hemite.espera i _ hduerme
            obtain rfl := Local.send.inj e'
            have hid : l.id = id := hmisma.id
            rcases hest with hest | ⟨-, v, hv⟩
            · rw [hid] at hen ⊢
              exact (dirige_nuevo _ _ hen hest).misma hmisma
            · exact absurd (hduerme.symm.trans hv) (by simp)
      | connect | listen =>
          cases transita_of_paso hp with
          | termina hs he =>
              rcases (pendiente_concat rfl).mp hl with hl | ⟨-, hl⟩
              · exact hquieto hl
              · exact absurd hl (by simp [hiloTerminado, Fase.pendiente])
          | empieza hs he =>
              rcases (pendiente_concat rfl).mp hl with hl | ⟨-, hnuevo⟩
              · exact hquieto hl
              · cases he
                exact absurd hnuevo (by simp [hiloNuevo, Fase.pendiente])
  | sigue j =>
      cases hpend : s.pendiente j with
      | none =>
          cases transita_of_paso hp with
          | acaba hs hh hf he => simp [pendiente_of_hilo hh, hf, Fase.pendiente] at hpend
          | vuelve hs hh hf he => simp [pendiente_of_hilo hh, hf, Fase.pendiente] at hpend
      | some l₀ =>
          by_cases hsend : ∃ l', l₀ = .send l'
          · obtain ⟨l', rfl⟩ := hsend
            obtain ⟨-, -, -, hilo, hilo', hh, hs', -, hfin⟩ := sigue_send hpend hp
            rcases (pendiente_set hh hs').mp hl with ⟨rfl, hl⟩ | ⟨-, hl⟩
            · obtain ⟨i, hduerme⟩ := hfin _ hl
              obtain ⟨l'', e', hmisma⟩ := (emiteDatos_tSendSigue l' s.kernel).espera i _ hduerme
              obtain rfl := Local.send.inj e'
              exact hviejo l' hpend hmisma
            · exact hquieto hl
          · cases transita_of_paso hp with
            | acaba hs hh hf he =>
                rcases (pendiente_set hh rfl).mp hl with ⟨-, hl⟩ | ⟨-, hl⟩
                · exact absurd hl (by simp [Hilo.acabado, Fase.pendiente])
                · exact hquieto hl
            | vuelve hs hh hf he =>
                cases he
                rw [pendiente_of_hilo hh, hf] at hpend
                exact absurd ⟨_, (Option.some.inj hpend).symm⟩ hsend
  | recibe ipRemota p para =>
      cases transita_of_paso hp with
      | recibe hs hd he =>
          rw [pendiente_trasRecibir] at hl
          exact hquieto hl
  | citaDaemon j =>
      cases transita_of_paso hp with
      | citaDaemon hh hf hd => exact hquieto ((pendiente_despertado hh hf h).symm.trans hl)
  | cita j j' =>
      cases transita_of_paso hp with
      | cita hne hh hf hh' hf' => exact hquieto ((pendiente_cita hne hh hf hh' hf' h).symm.trans hl)
  | despierta j =>
      cases transita_of_paso hp with
      | despierta hh hf => exact hquieto ((pendiente_despertado hh hf h).symm.trans hl)
  | suelta =>
      cases transita_of_paso hp with
      | suelta hd => exact hquieto hl

/-! ## What a step of a host does to its slots -/

def Ocupadas (s : Estado) : Prop :=
  ∀ i, EnTabla i → (s.kernel.CXs i).estadoCx ≠ .closed → s.kernel.ocupada i

/-- A cell is as it was but for `TX` and `primitiva_dormida`. -/
def MismaCelda (k k' : KernelShm) (i : Int) : Prop :=
  ∃ TX dormida, k'.CXs i = { k.CXs i with TX := TX, primitivaDormida := dormida }

theorem mismaCelda_of_eq {k k' : KernelShm} (h : k'.CXs i = k.CXs i) : MismaCelda k k' i :=
  ⟨_, _, h⟩

theorem abierta_congr (hc : Cuadra s) (hi : EnTabla i) (hocu : s.kernel.ocupada i)
    (hd : s'.dueno i = s.dueno i)
    (hf : ∀ h f, s.ficha h = some f → ∃ f', s'.ficha h = some f' ∧ f'.llamada = f.llamada) :
    abierta s' i = abierta s i := by
  obtain ⟨h, f, hdueno, hfi, -, -⟩ := hc.dueno i hi hocu
  obtain ⟨f', hf', hl⟩ := hf h f hfi
  rw [abierta, abierta, hd, hdueno, Option.bind_some, Option.bind_some, hf', hfi, Option.map_some,
    Option.map_some, hl]

theorem ranura_congr (hc : Cuadra s) (ho : Ocupadas s) (hcx : MismaCelda s.kernel s'.kernel i)
    (hd : s'.dueno i = s.dueno i)
    (hf : ∀ h f, s.ficha h = some f → ∃ f', s'.ficha h = some f' ∧ f'.llamada = f.llamada) :
    ranura s' i = ranura s i := by
  obtain ⟨TX, dormida, e⟩ := hcx
  have hest : (s'.kernel.CXs i).estadoCx = (s.kernel.CXs i).estadoCx := by rw [e]
  by_cases hact : EnTabla i ∧ (s.kernel.CXs i).estadoCx ≠ .closed
  · obtain ⟨hi, hact⟩ := hact
    have hab := abierta_congr hc hi (ho i hi hact) hd hf
    have hcon : AbiertaConnect s' i ↔ AbiertaConnect s i := by
      unfold AbiertaConnect
      rw [hab]
    rw [ranura_of_activa hi hact, ranura_of_activa hi (by rw [hest]; exact hact), e]
    simp only [hcon]
    rfl
  · rw [ranura, ranura, hest, if_neg hact, if_neg hact]

/-- A DATOS packet whose addresses are those of the slot it comes from, if that is one. -/
def DeRanura (s : Estado) (p : InAddr × Tpdu) : Prop :=
  let h := p.2.cabecera
  h.tipo = tipoDatos ∧ (EnTabla h.idLocal → (ranura s h.idLocal).phase = .open ∧
    (ranura s h.idLocal).peer = (p.1, h.idDestino) ∧ (ranura s h.idLocal).lport = h.puertoOrig ∧
    (ranura s h.idLocal).rport = h.puertoDest)

theorem deRanura_of_esDatos {l : SendLocal} {p : InAddr × Tpdu}
    (hp : EsDatos l (s.kernel.CXs l.id).idDestino p)
    (hd : EnTabla l.id → Dirige l (ranura s l.id)) : DeRanura s p := by
  refine ⟨hp.tipo, fun hi => ?_⟩
  rw [hp.idLocal] at hi ⊢
  have hdir := hd hi
  have hslot : (ranura s l.id).peer.2 = (s.kernel.CXs l.id).idDestino := by
    obtain ⟨-, hact⟩ := enTabla_of_phase (by rw [hdir.phase]; simp)
    rw [ranura_of_activa hi hact]
    rfl
  refine ⟨hdir.phase, Prod.ext ?_ ?_, ?_, ?_⟩
  · rw [← hdir.host, hp.ip]
  · rw [hslot, hp.idDestino]
  · rw [← hdir.lport, hp.puertoOrig]
  · rw [← hdir.rport, hp.puertoDest]

/-- A step of a host that takes nothing from the network leaves the slots, and at most sends DATOS from
those that are open; or a call takes a free slot. -/
inductive Cambia (s s' : Estado) : Prop
  | quieto (hr : ∀ i, ranura s' i = ranura s i) (hu : ∀ p ∈ envios s'.ultima, DeRanura s p)
  | connect {i : Int} {ip : InAddr} {p : Tpdu} (hi : EnTabla i)
      (hlibre : (s.kernel.CXs i).estadoCx = .closed) (hne : ∀ j, j ≠ i → ranura s' j = ranura s j)
      (hphase : (ranura s' i).phase = .calling) (hcaller : (ranura s' i).caller = true)
      (hu : envios s'.ultima = [(ip, p)]) (ht : p.cabecera.tipo = tipoCR)
      (hid : p.cabecera.idLocal = i) (hip : (ranura s' i).peer.1 = ip)
      (hlport : (ranura s' i).lport = p.cabecera.puertoOrig)
      (hrport : (ranura s' i).rport = p.cabecera.puertoDest)
  | listen {i : Int} (hi : EnTabla i) (hlibre : (s.kernel.CXs i).estadoCx = .closed)
      (hne : ∀ j, j ≠ i → ranura s' j = ranura s j) (hphase : (ranura s' i).phase = .listening)
      (hcaller : (ranura s' i).caller = false) (hu : envios s'.ultima = [])

theorem Ocupadas.misma (ho : Ocupadas s) (hk : ∀ i, MismaCelda s.kernel s'.kernel i) :
    Ocupadas s' := by
  intro i hi hest
  obtain ⟨TX, dormida, e⟩ := hk i
  rw [KernelShm.ocupada, e]
  rw [e] at hest
  exact ho i hi hest

/-- A cell that a call takes, the others left. -/
theorem Ocupadas.nueva (ho : Ocupadas s) (hself : s'.kernel.ocupada i₀)
    (hne : ∀ i, i ≠ i₀ → s'.kernel.CXs i = s.kernel.CXs i) : Ocupadas s' := by
  intro i hi hest
  by_cases e : i = i₀
  · rw [e]
    exact hself
  · rw [hne i e] at hest
    exact (ocupada_congr (hne i e)).mpr (ho i hi hest)

section Cambia
variable (hc : Cuadra s) (ho : Ocupadas s)
include hc ho

theorem cambia_quieto (hk : ∀ i, MismaCelda s.kernel s'.kernel i) (hd : s'.dueno = s.dueno)
    (hf : ∀ h f, s.ficha h = some f → ∃ f', s'.ficha h = some f' ∧ f'.llamada = f.llamada)
    (hu : ∀ p ∈ envios s'.ultima, DeRanura s p) : Cambia s s' ∧ Ocupadas s' :=
  ⟨.quieto (fun i => ranura_congr hc ho (hk i) (by rw [hd]) hf) hu, ho.misma hk⟩

/-- Steps that take no slot and send nothing. -/
theorem cambia_callado (hk : s'.kernel.CXs = s.kernel.CXs) (hd : s'.dueno = s.dueno)
    (hf : ∀ h f, s.ficha h = some f → ∃ f', s'.ficha h = some f' ∧ f'.llamada = f.llamada)
    (hu : envios s'.ultima = []) : Cambia s s' ∧ Ocupadas s' :=
  cambia_quieto hc ho (fun i => mismaCelda_of_eq (by rw [hk])) hd hf fun p hp =>
    absurd hp (by simp [hu])

theorem cerrada_libre (hn : s.kernel.numCXs ≠ numMaxCXs) :
    (s.kernel.CXs (buscarCeldaLibre s.kernel)).estadoCx = .closed := by
  by_contra hest
  exact hc.celda_libre hn (ho _ (buscarCeldaLibre_enTabla _) hest)

theorem cambia_llama {c : Llamada} (hp : Nodo.paso s (.llama c) = some s') :
    Cambia s s' ∧ Ocupadas s' := by
  cases c with
  | send en id datos longitud =>
      obtain ⟨hu, hdueno, hilo, hs', -⟩ := llama_send hp
      have hk : s'.kernel = (tSend en id datos longitud ⟨s.kernel, []⟩).2.kernel := (paso_llama hp).1
      have htabla := (empieza_send (k := s.kernel) en id datos longitud).mismaTabla fun ht => ht
      obtain ⟨hemite, hest⟩ := emiteDatos_tSend en id datos longitud s.kernel
      refine cambia_quieto hc ho (fun i => ?_) hdueno (ficha_mono_concat hs') fun p hp => ?_
      · rw [hk]
        exact htabla.celda i
      · rw [hu] at hp
        refine deRanura_of_esDatos (hemite.envios p hp) fun hi => ?_
        rcases hest with hest | ⟨hnada, -⟩
        · exact dirige_nuevo _ _ hi hest
        · exact absurd hp (by simp [hnada])
  | connect en destino origen =>
      cases transita_of_paso hp with
      | termina hs he =>
          exact cambia_callado hc ho (empieza_retorna_CXs he (by simp)) rfl (ficha_mono_concat rfl)
            (envios_empieza_retorna he (by simp))
      | empieza hs he =>
          cases he with
          | connect _ _ _ origen' hk hpar hn hrep =>
              have hne : ∀ i, i ≠ buscarCeldaLibre s.kernel →
                  (s.kernel.trasConnect en.pid destino origen').CXs i = s.kernel.CXs i :=
                fun i hi => trasConnect_of_ne en.pid destino origen' hi
              have hactiva := estado_trasConnect (k := s.kernel) en.pid destino origen'
              have hself := trasConnect_self (k := s.kernel) en.pid destino origen'
              refine ⟨.connect (buscarCeldaLibre_enTabla s.kernel) (cerrada_libre hc ho hn)
                (fun j hj => ?_) ?_ ?_ (envios_trazaConnect _ _ _) rfl rfl ?_ ?_ ?_,
                ho.nueva (ocupada_trasConnect en.pid destino origen') hne⟩
              · exact ranura_congr hc ho (mismaCelda_of_eq (hne j hj)) (Function.update_of_ne hj _ _)
                  (ficha_mono_concat rfl)
              · rw [phase_ranura (buscarCeldaLibre_enTabla s.kernel), hactiva]
                rfl
              all_goals rw [ranura_of_activa (buscarCeldaLibre_enTabla s.kernel) (by simp [hactiva])]
              · exact decide_eq_true ⟨_, abierta_nueva rfl rfl, rfl⟩
              · rw [hself]
                rfl
              · rw [hself]
                rfl
              · rw [hself]
                rfl
  | listen en escucha remota =>
      cases transita_of_paso hp with
      | termina hs he =>
          exact cambia_callado hc ho (empieza_retorna_CXs he (by simp)) rfl (ficha_mono_concat rfl)
            (envios_empieza_retorna he (by simp))
      | empieza hs he =>
          cases he with
          | listen _ _ escucha' _ hk hpar hn hrep =>
              have hne : ∀ i, i ≠ buscarCeldaLibre s.kernel →
                  (s.kernel.trasListen en.pid escucha' remota).CXs i = s.kernel.CXs i :=
                fun i hi => trasListen_of_ne en.pid escucha' remota hi
              have hactiva := estado_trasListen (k := s.kernel) en.pid escucha' remota
              refine ⟨.listen (buscarCeldaLibre_enTabla s.kernel) (cerrada_libre hc ho hn)
                (fun j hj => ?_) ?_ ?_ rfl,
                ho.nueva (ocupada_trasListen en.pid escucha' remota) hne⟩
              · exact ranura_congr hc ho (mismaCelda_of_eq (hne j hj)) (Function.update_of_ne hj _ _)
                  (ficha_mono_concat rfl)
              · rw [phase_ranura (buscarCeldaLibre_enTabla s.kernel), hactiva]
                rfl
              · rw [ranura_of_activa (buscarCeldaLibre_enTabla s.kernel) (by simp [hactiva])]
                refine decide_eq_false fun hcon => not_abiertaListen hcon ?_
                exact ⟨_, abierta_nueva rfl rfl, rfl⟩

theorem cambia_sigue {h : ℕ} (hd : Dirigidos s) (hp : Nodo.paso s (.sigue h) = some s') :
    Cambia s s' ∧ Ocupadas s' := by
  cases hpend : s.pendiente h with
  | none =>
      cases transita_of_paso hp with
      | acaba hs hh hf he => simp [pendiente_of_hilo hh, hf, Fase.pendiente] at hpend
      | vuelve hs hh hf he => simp [pendiente_of_hilo hh, hf, Fase.pendiente] at hpend
  | some l =>
      cases hl : celdaDe l with
      | none =>
          cases l with
          | connect i => exact absurd hl (by simp [celdaDe])
          | listen i => exact absurd hl (by simp [celdaDe])
          | send l =>
              obtain ⟨hu, hk, hdueno, hilo, hilo', hh, hs', hficha, -⟩ := sigue_send hpend hp
              have hefecto := (tSendSigue_fin (k := s.kernel) l).efecto
              refine cambia_quieto hc ho (fun i => ?_) hdueno (ficha_mono_set hh hs' hficha) fun p hp => ?_
              · rw [hk]
                exact hefecto.mismaTabla.celda i
              · rw [hu] at hp
                exact deRanura_of_esDatos ((emiteDatos_tSendSigue l s.kernel).envios p hp) (hd h l hpend)
      | some i =>
          cases transita_of_paso hp with
          | acaba hs hh hf he =>
              rw [pendiente_of_hilo hh, hf] at hpend
              obtain rfl := Option.some.inj hpend
              exact cambia_callado hc ho (sigue_CXs hl he).1 rfl (ficha_mono_set hh rfl rfl)
                (envios_sigue hl he)
          | vuelve hs hh hf he =>
              rw [pendiente_of_hilo hh, hf] at hpend
              obtain rfl := Option.some.inj hpend
              obtain ⟨v, e⟩ := (sigue_CXs hl he).2
              exact absurd e (by simp)

theorem cambia_paso {e : Suceso} (hd : Dirigidos s) (hno : ¬deRed e = true)
    (hp : Nodo.paso s e = some s') : Cambia s s' ∧ Ocupadas s' := by
  cases e with
  | llama c => exact cambia_llama hc ho hp
  | sigue h => exact cambia_sigue hc ho hd hp
  | recibe ipRemota p para => exact absurd rfl hno
  | citaDaemon h =>
      cases transita_of_paso hp with
      | citaDaemon hh hf hdae =>
          exact cambia_callado hc ho rfl rfl (ficha_mono_of_eq (ficha_despertado hh)) rfl
  | cita h h' =>
      cases transita_of_paso hp with
      | cita hne hh hf hh' hf' =>
          exact cambia_callado hc ho rfl rfl (ficha_mono_of_eq (ficha_cita hne hh hh')) rfl
  | despierta h =>
      cases transita_of_paso hp with
      | despierta hh hf =>
          exact cambia_callado hc ho rfl rfl (ficha_mono_of_eq (ficha_despertado hh)) rfl
  | suelta =>
      cases transita_of_paso hp with
      | suelta hdae => exact cambia_callado hc ho rfl rfl (ficha_mono_of_eq fun _ => rfl) rfl

end Cambia

end Ltm.Red
