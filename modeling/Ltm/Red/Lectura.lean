import Ltm.Red.Datos

/-! # What goes on the network

`buf_pkt.pkt` points to where the packet was built, which is out of use when `enviar_tpdu` reads it. In
`leyendo` a host therefore puts on the network what is read by then, a parameter of the step, and
`Intacto` says that it is still the packet built. In such runs an ESTABLISHED connect has its listen at
the other end (`acuerdo_of_intacto`), but not in any run: a refusal can be read as an acceptance
(`no_acuerdo`). `pasoRed` is a step of the network with `t_send` that accesses no cell outside the tables
and takes from no empty list; what one that does comes to is not defined.
-/

namespace Ltm.Red
open Kernel Nodo Runs
set_option autoImplicit false
set_option maxHeartbeats 250000

/-- The host that takes the step. -/
def anfitrion : Evento → Option InAddr
  | .nodo a _ => some a
  | .entrega d _ => some d.destino
  | .pierde _ => none

/-- The datagrams in flight once the event has taken its own. -/
def Sistema.quedan (σ : Sistema) : Evento → List Datagrama
  | .nodo _ _ => σ.red
  | .entrega d _ => σ.red.erase d
  | .pierde d => σ.red.erase d

/-- What the section of the step that led to `σ'` left in the trace. -/
def Sistema.traza (σ' : Sistema) (e : Evento) : List Accion :=
  (anfitrion e).elim [] fun a => (σ'.nodos a).ultima

/-- The datagrams of the packets that the step puts on the network. -/
def datagramas (e : Evento) (ps : List (InAddr × Tpdu)) : List Datagrama :=
  (anfitrion e).elim [] fun a => ps.map fun p => ⟨a, p.1, p.2⟩

/-- A step takes its datagram from the network, and puts there what its section gives to `enviar_tpdu`. -/
def Emisor (paso : Sistema → Evento → Option Sistema) : Prop :=
  ∀ σ e σ', paso σ e = some σ' → σ'.red = σ.quedan e ++ datagramas e (envios (σ'.traza e))

/-- The step `paso`, in which `enviar_tpdu` reads its packets as `x.2` has them. -/
def leyendo (paso : Sistema → Evento → Option Sistema) (σ : Sistema) (x : Evento × Lectura) :
    Option Sistema :=
  (paso σ x.1).map fun σ' =>
    { σ' with red := σ.quedan x.1 ++ datagramas x.1 (leidos x.2 (σ'.traza x.1)) }

/-- `enviar_tpdu` reads every packet of the step as it was built. -/
def Intacto (_ : Sistema) (x : Evento × Lectura) (σ' : Sistema) : Prop := Intacta x.2 (σ'.traza x.1)

/-- A step of the network with `t_send`, if what its section does is defined. -/
def pasoRed (σ : Sistema) (x : Evento × Lectura) : Option Sistema :=
  (leyendo pasoDatos σ x).filter fun σ' => Definida (σ'.traza x.1)

/-- A run of the network over `xs`, in which every packet is read as it was built. -/
structure Alcanza (σ : Sistema) (xs : List (Evento × Lectura)) (σ' : Sistema) : Prop where
  run : run pasoRed σ xs = some σ'
  intacta : Along pasoRed Intacto σ xs

/-- The event, with every packet read as it was built. -/
def intacto (e : Evento) : Evento × Lectura := (e, fun _ p => p)

/-! ## Steps -/

section Pasos
variable {σ σ' : Sistema} {x : Evento × Lectura} {e : Evento} {a : InAddr} {red : List Datagrama}
  {s' : Estado}

theorem emisor_pasoDatos : Emisor pasoDatos := by
  intro σ e σ' h
  cases avanza_of_pasoDatos h with
  | nodo hno hs =>
      unfold Sistema.traza datagramas
      simp only [anfitrion, Option.elim_some, tras_nodos_self]
      rfl
  | entrega hd hs =>
      unfold Sistema.traza datagramas
      simp only [anfitrion, Option.elim_some, tras_nodos_self]
      rfl
  | pierde hd => exact (List.append_nil _).symm

theorem emisor_paso : Emisor paso := fun σ e σ' h => emisor_pasoDatos σ e σ' (pasoDatos_of_paso h)

/-- A step that reads its packets as they were built is one of the network without the reading. -/
theorem paso_of_leyendo {paso : Sistema → Evento → Option Sistema} (hp : Emisor paso)
    (hi : Intacto σ x σ') (h : leyendo paso σ x = some σ') : paso σ x.1 = some σ' := by
  obtain ⟨τ, hτ, rfl⟩ := Option.map_eq_some_iff.mp h
  have hleidos : leidos x.2 (τ.traza x.1) = envios (τ.traza x.1) := leidos_of_intacta hi
  rw [hleidos, ← hp σ x.1 τ hτ]
  exact hτ

theorem leyendo_intacto {paso : Sistema → Evento → Option Sistema} (hp : Emisor paso)
    (h : paso σ e = some σ') : leyendo paso σ (intacto e) = some σ' := by
  rw [leyendo, intacto, h, Option.map_some, leidos_of_intacta (intacta_id _), ← hp σ e σ' h]

theorem pasoRed_eq_some : pasoRed σ x = some σ' ↔
    leyendo pasoDatos σ x = some σ' ∧ Definida (σ'.traza x.1) := by
  rw [pasoRed, Option.filter_eq_some_iff, decide_eq_true_iff]

theorem pasoDatos_of_pasoRed (hi : Intacto σ x σ') (h : pasoRed σ x = some σ') :
    pasoDatos σ x.1 = some σ' := paso_of_leyendo emisor_pasoDatos hi (pasoRed_eq_some.mp h).1

theorem pasoRed_intacto (hdef : Definida (σ'.traza e)) (h : pasoDatos σ e = some σ') :
    pasoRed σ (intacto e) = some σ' := pasoRed_eq_some.mpr ⟨leyendo_intacto emisor_pasoDatos h, hdef⟩

theorem Alcanza.run_pasoDatos {xs : List (Evento × Lectura)} (h : Alcanza σ xs σ') :
    Runs.run pasoDatos σ (xs.map Prod.fst) = some σ' :=
  run_map (f := Prod.fst) (fun _ _ _ => pasoDatos_of_pasoRed) h.intacta h.run

theorem along_intacto {paso' : Sistema → Evento × Lectura → Option Sistema} (es : List Evento) (σ : Sistema) :
    Along paso' Intacto σ (es.map intacto) := by
  refine Along.of_mem (fun x hx τ τ' _ => ?_) σ
  obtain ⟨e, -, rfl⟩ := List.mem_map.mp hx
  exact intacta_id _

theorem alcanza_intacto {es : List Evento} (hr : run pasoRed σ (es.map intacto) = some σ') :
    Alcanza σ (es.map intacto) σ' := ⟨hr, along_intacto es σ⟩

theorem Alcanza.append {τ : Sistema} {xs ys : List (Evento × Lectura)} (h : Alcanza σ xs τ)
    (h' : Alcanza τ ys σ') : Alcanza σ (xs ++ ys) σ' where
  run := by rw [run_append, h.run]; exact h'.run
  intacta := (Along.append h.run).mpr ⟨h.intacta, h'.intacta⟩

theorem traza_tras (ha : anfitrion e = some a) : (σ.tras a red s').traza e = s'.ultima := by
  rw [Sistema.traza, ha, Option.elim_some, tras_nodos_self]

/-- A defined step of the host `a`. -/
theorem pasoRed_tras (ha : anfitrion e = some a) (hdef : Definida s'.ultima)
    (h : pasoDatos σ e = some (σ.tras a red s')) : pasoRed σ (intacto e) = some (σ.tras a red s') :=
  pasoRed_intacto ((traza_tras (σ := σ) ha).symm ▸ hdef) h

end Pasos

/-! ## Agreement -/

section Acuerdo
variable {interfaz : InAddr → String} {numBufPkts : InAddr → UInt16}
  {fuera : InAddr → Int → Conexion} {basura : InAddr → ℕ → BufPkt} {σ : Sistema}

/-- In every state of every run in which all packets are read as they were built. -/
theorem acuerdo_of_intacto {xs : List (Evento × Lectura)}
    (hr : run (leyendo paso) (inicial (kernels interfaz numBufPkts fuera basura)) xs = some σ)
    (ha : Along (leyendo paso) Intacto (inicial (kernels interfaz numBufPkts fuera basura)) xs) :
    Acordadas σ := by
  have hr' : run paso (inicial (kernels interfaz numBufPkts fuera basura)) (xs.map Prod.fst) = some σ :=
    run_map (f := Prod.fst) (fun _ _ _ hi h => paso_of_leyendo emisor_paso hi h) ha hr
  exact acuerdo hr'

theorem acuerdo_of_intacto_saludo : ∃ σ,
    run (leyendo paso) (inicial fun _ => kernelPorDefecto) (saludo.map intacto) = some σ ∧
      (σ.celda 0x0a000001 0).ipDestino = 0x0a000002 ∧ Emparejada σ 0x0a000001 0 := by
  have hcelda : (run (leyendo paso) (inicial fun _ => kernelPorDefecto) (saludo.map intacto)).map
      (fun σ => decide ((σ.celda 0x0a000001 0).ipDestino = 0x0a000002 ∧ EnTabla 0 ∧
        (σ.celda 0x0a000001 0).estadoCx = .established ∧
        AbiertaConnect (σ.nodos 0x0a000001) 0)) = some true := by decide +kernel
  obtain ⟨σ, hr, hcelda⟩ := Option.map_eq_some_iff.mp hcelda
  obtain ⟨hip, hen, hest, hcon⟩ := of_decide_eq_true hcelda
  exact ⟨σ, hr, hip, (acuerdo_of_intacto hr (along_intacto saludo _)).pareja _ _ hen hest hcon⟩

/-- Nobody listens at `10.0.0.2`, and its refusal is read with a zero for `conexion_aceptada`. -/
def rechazo : List (Evento × Lectura) :=
  let cr := datagramaCR 0x0a000001 kernelPorDefecto ⟨0x0a000002, 80⟩ ⟨0x0a000001, 1000⟩
  let cc := datagramaCC kernelPorDefecto cr
  [intacto (.nodo 0x0a000001 (.llama (conecta 80 1000))),
    (.entrega cr none, fun _ p => p.conResultado 0),
    intacto (.entrega { cc with tpdu := cc.tpdu.conResultado 0 } (some 0))]

/-- The connect is ESTABLISHED with a cell that is in no table. -/
theorem no_acuerdo : ∃ σ, run (leyendo paso) (inicial fun _ => kernelPorDefecto) rechazo = some σ ∧
    ¬Acordadas σ := by
  have hcelda : (run (leyendo paso) (inicial fun _ => kernelPorDefecto) rechazo).map (fun σ =>
      decide (EnTabla 0 ∧ (σ.celda 0x0a000001 0).estadoCx = .established ∧
        AbiertaConnect (σ.nodos 0x0a000001) 0 ∧ ¬EnTabla (σ.celda 0x0a000001 0).idDestino)) =
      some true := by decide +kernel
  obtain ⟨σ, hr, hcelda⟩ := Option.map_eq_some_iff.mp hcelda
  obtain ⟨hen, hest, hcon, hno⟩ := of_decide_eq_true hcelda
  exact ⟨σ, hr, fun h => hno (h.pareja _ _ hen hest hcon).enTabla⟩

end Acuerdo

end Ltm.Red
